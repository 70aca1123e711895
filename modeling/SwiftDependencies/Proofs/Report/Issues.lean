import Mathlib.Tactic.Common
import Mathlib.Tactic.TFAE
import SwiftDependencies.CommandLine.Answer
import SwiftDependencies.Proofs.Audit.Targets

/-!
# All outputs agree on whether there is an issue

Whether an audit has found something to mend shows in five places: the report says so itself, each
of the two lists of findings has a line, a terminal that leaves out what is in order still shows
something, the JSON value has a failure or a target with an error or a warning, and the command ends
with status one.

For each place the question is brought back to the targets: something is shown of a target exactly
if it has issues (`Analysis.findings_eq_nil_iff`), and of a failed target always.
`Report.hasIssues_tfae` puts the places side by side.
-/

namespace SwiftDependencies

/-- Lines make up the empty text if there is none, or a single empty one. -/
lemma intercalate_eq_empty_iff {separator : String} (hseparator : separator ≠ "")
    {lines : List String} :
    separator.intercalate lines = "" ↔ lines = [] ∨ lines = [""] := by
  cases lines with
  | nil => simp
  | cons line lines =>
    cases lines with
    | nil => simp
    | cons next lines =>
      rw [String.intercalate_cons_cons]
      simp [String.append_eq_empty_iff, hseparator]

/-! ### Findings -/

namespace Analysis

variable {a : Analysis} {manifest : Path} {shown : Path → String}

/-- There is no error if no module is missing. -/
lemma hasError_eq_false_iff : a.hasError = false ↔ a.missing.toList = [] := by
  simp [hasError, NameSet.isEmpty]

/-- There is no warning if nothing is unused or redundant. -/
lemma hasWarning_eq_false_iff :
    a.hasWarning = false ↔ a.unused.toList = [] ∧ a.redundant = [] := by
  simp [hasWarning, NameSet.isEmpty]

/-- Nothing to mend is neither an error nor a warning. -/
lemma hasIssues_eq_false_iff_lists :
    a.hasIssues = false ↔
      a.missing.toList = [] ∧ a.unused.toList = [] ∧ a.redundant = [] := by
  rw [hasIssues, Bool.or_eq_false_iff, hasError_eq_false_iff, hasWarning_eq_false_iff]

/-- Something is to blame for every missing module, if only the manifest. -/
lemma blamed_ne_nil (name : String) : a.blamed manifest name ≠ [] := by
  unfold blamed
  split
  · exact List.cons_ne_nil _ _
  · rename_i hsites
    rw [Ne, List.map_eq_nil_iff]
    exact hsites

/-- There are findings on a target exactly if it has issues. -/
lemma findings_eq_nil_iff : a.findings manifest shown = [] ↔ a.hasIssues = false := by
  rw [hasIssues_eq_false_iff_lists, findings, List.append_eq_nil_iff,
    List.append_eq_nil_iff, and_assoc]
  have hmissing : a.missingFindings manifest shown = [] ↔ a.missing.toList = [] := by
    unfold missingFindings
    rw [List.flatMap_eq_nil_iff]
    constructor
    · intro h
      rw [List.eq_nil_iff_forall_not_mem]
      intro name hname
      exact blamed_ne_nil name (List.map_eq_nil_iff.1 (h name hname))
    · intro h
      simp [h]
  have hunused : a.unusedFindings (shown manifest) = [] ↔
      a.unused.toList = [] := List.map_eq_nil_iff
  have hredundant : a.redundantFindings (shown manifest) = [] ↔ a.redundant = [] := by
    rw [redundantFindings, List.map_eq_nil_iff, redundantByName, sortedBy_eq_nil_iff]
  rw [hmissing, hunused, hredundant]

end Analysis

namespace Finding

/-- A finding is not an empty line in the format for editors. -/
lemma toXcode_ne_empty (f : Finding) : f.toXcode ≠ "" := by
  unfold toXcode
  split <;> simp [String.append_eq_empty_iff, toString]

/-- A finding is not an empty line in the format for workflows. -/
lemma toWorkflowCommand_ne_empty (f : Finding) : f.toWorkflowCommand ≠ "" := by
  unfold toWorkflowCommand
  split <;> simp [String.append_eq_empty_iff, toString]

end Finding

namespace Report

variable {r : Report} {workingDirectory : Place}

/-- In the order of names there are no failures if there are none. -/
lemma failuresByName_eq_nil_iff : r.failuresByName = [] ↔ r.failures = [] :=
  sortedBy_eq_nil_iff

/-- A report has no issues if no target failed and none has issues. -/
lemma hasIssues_eq_false_iff :
    r.hasIssues = false ↔ r.failures = [] ∧ ∀ a ∈ r.results, a.hasIssues = false := by
  simp [hasIssues]

/-- There are findings exactly if there are issues. -/
lemma findings_eq_nil_iff : r.findings workingDirectory = [] ↔ r.hasIssues = false := by
  unfold findings
  dsimp only
  rw [hasIssues_eq_false_iff, List.append_eq_nil_iff, List.flatMap_eq_nil_iff, List.map_eq_nil_iff,
    failuresByName_eq_nil_iff, and_comm]
  simp only [Analysis.findings_eq_nil_iff, resultsByName, mem_sortedBy]

/-- Findings that are written on lines, none of which is empty, give a text unless there are
none. -/
lemma intercalate_findings_eq_empty_iff {form : Finding → String} (hform : ∀ f, form f ≠ "") :
    "\n".intercalate ((r.findings workingDirectory).map form) = "" ↔ r.hasIssues = false := by
  rw [intercalate_eq_empty_iff (by decide), ← @findings_eq_nil_iff r workingDirectory,
    List.map_eq_nil_iff]
  refine or_iff_left ?_
  intro hline
  obtain ⟨f, -, hf⟩ := List.map_eq_singleton_iff.1 hline
  exact hform f hf

/-- The list for editors is empty exactly if there are no issues. -/
lemma toXcode_eq_empty_iff : r.toXcode workingDirectory = "" ↔ r.hasIssues = false :=
  intercalate_findings_eq_empty_iff Finding.toXcode_ne_empty

/-- The list for workflows is empty exactly if there are no issues. -/
lemma toWorkflowCommands_eq_empty_iff :
    r.toWorkflowCommands workingDirectory = "" ↔ r.hasIssues = false :=
  intercalate_findings_eq_empty_iff Finding.toWorkflowCommand_ne_empty

/-! ### Terminal -/

/-- A terminal that leaves out what is in order shows the targets with issues and the failed
ones. -/
lemma terminalLines_quiet (color : Bool) :
    r.terminalLines workingDirectory ⟨color, true, false⟩ =
      (r.resultsByName.filter (·.hasIssues)).flatMap
          (·.terminalLines workingDirectory r.package.root ⟨color, true, false⟩) ++
        r.failuresByName.flatMap (·.terminalLines ⟨color, true, false⟩) := by
  simp [terminalLines, shownResults]

/-- Whatever is shown of targets begins with an empty line and a heading. -/
lemma flatMap_paragraphs {α : Type} (lines : α → List String)
    (hlines : ∀ x, ∃ heading rest, lines x = "" :: heading :: rest) (l : List α) :
    l = [] ∧ l.flatMap lines = [] ∨
      l ≠ [] ∧ ∃ heading rest, l.flatMap lines = "" :: heading :: rest := by
  cases l with
  | nil => exact .inl ⟨rfl, rfl⟩
  | cons x l =>
    obtain ⟨heading, rest, hx⟩ := hlines x
    refine .inr ⟨List.cons_ne_nil _ _, heading, rest ++ l.flatMap lines, ?_⟩
    rw [List.flatMap_cons, hx]
    rfl

/-- A quiet terminal shows nothing exactly if there are no issues. -/
lemma toTerminal_quiet_eq_empty_iff (color : Bool) :
    r.toTerminal workingDirectory ⟨color, true, false⟩ = "" ↔ r.hasIssues = false := by
  have hissues : r.resultsByName.filter (·.hasIssues) = [] ↔
      ∀ a ∈ r.results, a.hasIssues = false := by
    simp [List.filter_eq_nil_iff, resultsByName]
  rw [toTerminal, intercalate_eq_empty_iff (by decide), terminalLines_quiet, hasIssues_eq_false_iff,
    ← hissues, ← failuresByName_eq_nil_iff]
  rcases flatMap_paragraphs
    (·.terminalLines workingDirectory r.package.root ⟨color, true, false⟩)
      (fun a => ⟨_, _, rfl⟩) (r.resultsByName.filter (·.hasIssues)) with
    ⟨hresults, hnone⟩ | ⟨hresults, heading, rest, hsome⟩
  · rcases flatMap_paragraphs (·.terminalLines ⟨color, true, false⟩) (fun f => ⟨_, _, rfl⟩)
        r.failuresByName with
      ⟨hfailed, hempty⟩ | ⟨hfailed, heading, rest, hsome⟩
    · simp [hresults, hfailed]
    · simp [hresults, hfailed, hsome]
  · simp [hresults, hsome]

end Report

/-! ### JSON -/

namespace Json

/-- The value of a field of an object. -/
def field? (j : Json) (name : String) : Option Json :=
  match j with
  | .object fields => fields.lookup name
  | _ => none

/-- The items of an array in a field of an object. -/
def rows (j : Json) (name : String) : List Json :=
  match j.field? name with
  | some (.array items) => items
  | _ => []

/-- The value of a report tells of an issue: it has a failure, or a target with an error or a
warning. -/
def ShowsIssue (j : Json) : Prop :=
  j.rows "failures" ≠ [] ∨
    ∃ t ∈ j.rows "targets", t.field? "hasError" = some (.bool true) ∨
      t.field? "hasWarning" = some (.bool true)

end Json

/-- The JSON value tells of an issue exactly if there is one. -/
lemma Report.showsIssue_toJson_iff {r : Report} : r.toJson.ShowsIssue ↔ r.hasIssues = true := by
  have hfailures : r.toJson.rows "failures" = r.failuresByName.map TargetFailure.toJson := rfl
  have htargets : r.toJson.rows "targets" = r.resultsByName.map Analysis.toJson := rfl
  have herror : ∀ a : Analysis, a.toJson.field? "hasError" = some (.bool a.hasError) :=
    fun _ => rfl
  have hwarning : ∀ a : Analysis, a.toJson.field? "hasWarning" = some (.bool a.hasWarning) :=
    fun _ => rfl
  have hnone : r.failuresByName.map TargetFailure.toJson = [] ↔ r.failures = [] := by
    rw [List.map_eq_nil_iff, failuresByName_eq_nil_iff]
  rw [Json.ShowsIssue, hfailures, htargets, Ne, hnone, ← Bool.not_eq_false,
    hasIssues_eq_false_iff, not_and_or]
  refine or_congr_right ?_
  constructor
  · rintro ⟨t, ht, hfield⟩ hclean
    obtain ⟨a, ha, rfl⟩ := List.mem_map.1 ht
    have ha := hclean a (mem_sortedBy.1 ha)
    rw [Analysis.hasIssues, Bool.or_eq_false_iff] at ha
    simp [herror, hwarning, ha.1, ha.2] at hfield
  · intro hissue
    push Not at hissue
    obtain ⟨a, ha, hissues⟩ := hissue
    refine ⟨a.toJson, List.mem_map_of_mem (mem_sortedBy.2 ha), ?_⟩
    rw [Ne, Bool.not_eq_false, Analysis.hasIssues, Bool.or_eq_true] at hissues
    rw [herror, hwarning]
    simpa only [Option.some.injEq, Json.bool.injEq] using hissues

/-! ### The command -/

namespace CommandLine

/-- A command line leads to a report: it is a request for an audit, the environment is in order, and
the audit gives the report, where manifests may be parsed by any parser. -/
def LeadsTo (fs : FileSystem) (environment : Environment) (processors : Option Int)
    (arguments : List String) (parser : Program.Parser) (r : Report) : Prop :=
  ∃ request logging settings,
    Request.ofCommandLine arguments = .ok (.audit request) ∧
    Logging.setUp (if request.options.verbose then some "DEBUG" else none) none environment =
      .ok logging ∧
    Settings.load environment processors = .ok settings ∧
    (request.auditor settings parser).run fs (Path.ofString request.path) request.target
      request.excludeTests = .ok r

/-- The command ends with status one if the report has issues, and with status zero otherwise. -/
lemma status_ofReport (r : Report) (workingDirectory : Place) (format : ReportFormat)
    (o : ReportOptions) :
    (Answer.ofReport r workingDirectory format o).status = if r.hasIssues then 1 else 0 :=
  rfl

/-- A command line that leads to a report is answered by it, in the format and with the options of
the request. -/
lemma exists_answer_ofReport {fs : FileSystem} {environment : Environment} {processors : Option Int}
    {arguments : List String} {parser : Program.Parser} {r : Report}
    (h : LeadsTo fs environment processors arguments parser r) :
    ∃ format o, answer fs environment processors arguments parser =
      .ok (.ofReport r fs.workingDirectory format o) := by
  obtain ⟨request, logging, settings, hrequest, hlogging, hsettings, hrun⟩ := h
  refine ⟨request.format, request.options, ?_⟩
  simp only [answer, hrequest, AuditRequest.answer, hlogging, Except.mapError, hsettings, hrun,
    bind, Except.bind, pure, Except.pure]

end CommandLine

/-! ### All outputs -/

/-- A report has issues exactly if there is something to see in each of its forms, and exactly if
the command that gives it ends with status one and not with status zero. -/
theorem Report.hasIssues_tfae (r : Report) (workingDirectory : Place) (o : ReportOptions)
    (color : Bool) (format : ReportFormat) :
    [r.hasIssues = true,
      r.render workingDirectory .xcode o ≠ "",
      r.render workingDirectory .workflow o ≠ "",
      r.render workingDirectory .terminal ⟨color, true, false⟩ ≠ "",
      r.toJson.ShowsIssue,
      (CommandLine.Answer.ofReport r workingDirectory format o).status = 1,
      (CommandLine.Answer.ofReport r workingDirectory format o).status ≠ 0].TFAE ∧
    ∀ {fs environment processors arguments parser},
      CommandLine.LeadsTo fs environment processors arguments parser r →
        ∃ a, CommandLine.answer fs environment processors arguments parser = .ok a ∧
          a.status = if r.hasIssues then 1 else 0 := by
  constructor
  · tfae_have 1 ↔ 2 := by
      rw [render, Ne, toXcode_eq_empty_iff, Bool.not_eq_false]
    tfae_have 1 ↔ 3 := by
      rw [render, Ne, toWorkflowCommands_eq_empty_iff, Bool.not_eq_false]
    tfae_have 1 ↔ 4 := by
      rw [render, Ne, toTerminal_quiet_eq_empty_iff, Bool.not_eq_false]
    tfae_have 1 ↔ 5 := showsIssue_toJson_iff.symm
    tfae_have 1 ↔ 6 := by
      rw [CommandLine.status_ofReport]
      cases r.hasIssues <;> simp
    tfae_have 1 ↔ 7 := by
      rw [CommandLine.status_ofReport]
      cases r.hasIssues <;> simp
    tfae_finish
  · intro fs environment processors arguments parser h
    obtain ⟨format, o, hanswer⟩ := CommandLine.exists_answer_ofReport h
    exact ⟨_, hanswer, CommandLine.status_ofReport r _ _ _⟩

/-- The one source of the target is scanned, and found to import a module that is not declared. -/
lemma hasIssues_directoryWith_sibling :
    (Report.ofOutcomes (packageWith ⟨"K", "../K", true⟩)
      ((⟨directoryWith "../K", packageWith ⟨"K", "../K", true⟩, [], nameList "" ∪ nameList ""⟩ :
        AuditContext).outcomes [⟨"A", .library, [], none⟩])).hasIssues = true := by
  have hroot : (directoryWith "../K").sourceRoot ⟨.relative, []⟩ ⟨"A", .library, [], none⟩ =
      .ok ⟨.relative, ["Sources", "A"]⟩ := rfl
  have hfiles : (directoryWith "../K").sourceFiles ⟨.relative, ["Sources", "A"]⟩ =
      [⟨.relative, ["Sources", "A", "a.swift"]⟩] := by
    decide +kernel
  have htext : (directoryWith "../K").read ⟨.relative, ["Sources", "A", "a.swift"]⟩ =
      .ok "import B".toList :=
    Text.readText_asciiBytes (by decide)
  have himports : Import.ofText (nameList "" ∪ nameList "") "import B".toList =
      [⟨"B", 1, false⟩] := by
    have hlines : Text.lines "import B".toList = ["import B".toList] := by decide +kernel
    have hline : Import.ofLine? "import B".toList = some "B" := by decide +kernel
    have hignored : isIgnored (nameList "" ∪ nameList "") "B" = false := by
      rw [isIgnored_eq]
      decide +kernel
    rw [Import.ofText, hlines, Import.ofLines, hline]
    simp only [hignored]
    decide +kernel
  have hscan : (directoryWith "../K").scanEach (nameList "" ∪ nameList "")
      ⟨.relative, ["Sources", "A"]⟩ =
      .ok [⟨⟨.relative, ["Sources", "A", "a.swift"]⟩, [⟨"B", 1, false⟩]⟩] := by
    simp only [FileSystem.scanEach, hfiles, List.map_cons, List.map_nil, FileSystem.scanFile, htext,
      himports, List.findSome?_cons, List.findSome?_nil, List.filterMap_cons, List.filterMap_nil]
  have hsources : (⟨"A", .library, [], none⟩ : Target).hasSources = true := rfl
  simp only [AuditContext.outcomes, List.map_cons, List.map_nil, AuditContext.outcome, hsources,
    Bool.not_true, Bool.false_eq_true, if_false, packageWith, hroot, hscan, AuditContext.classify,
    AnalysisInput.analyze, AnalysisInput.missing, AnalysisInput.unused,
    AnalysisInput.satisfiedNames,
    AnalysisInput.usedProducts, AnalysisInput.satisfied, AnalysisInput.observed, isIgnored_eq]
  decide +kernel

/-- A target that imports a module without declaring it shows in every form of the report, and the
command ends with status one. -/
theorem Report.hasIssues_tfae_missing :
    ∃ r, CommandLine.LeadsTo (directoryWith "../K") [] none ["--backend", "pattern", "-q"]
        Program.nodes? r ∧
      r.render ⟨[]⟩ .xcode default ≠ "" ∧ r.render ⟨[]⟩ .workflow default ≠ "" ∧
      r.render ⟨[]⟩ .terminal ⟨true, true, false⟩ ≠ "" ∧ r.toJson.ShowsIssue ∧
      ∃ a, CommandLine.answer (directoryWith "../K") [] none ["--backend", "pattern",
        "-q"] = .ok a ∧ a.status = 1 := by
  let request : CommandLine.AuditRequest :=
    ⟨".", none, false, none, .terminal, some .sections, none, ⟨true, true, false⟩⟩
  let settings : Settings := ⟨.automatic, 1, 5, nameList ""⟩
  have hrequest : CommandLine.Request.ofCommandLine ["--backend", "pattern", "-q"] =
      .ok (.audit request) := by
    decide +kernel
  have hpath : Path.ofString "." = ⟨.relative, []⟩ := by decide +kernel
  have hlogging : Logging.setUp none none [] = .ok ⟨.warning, .lines⟩ := by decide +kernel
  have hexternals : (request.auditor settings Program.nodes?).externals (directoryWith "../K")
      (packageWith ⟨"K", "../K", true⟩) = .ok [] := by
    decide +kernel
  have hrun := run_eq (x := request.auditor settings Program.nodes?)
    (by decide) readAt_directoryWith_sibling
    (select_all _) hexternals
  have hleads : CommandLine.LeadsTo (directoryWith "../K") [] none ["--backend", "pattern", "-q"]
      Program.nodes? _ :=
    ⟨request, _, settings, hrequest, hlogging, rfl, hpath ▸ hrun⟩
  have hissues := hasIssues_directoryWith_sibling
  obtain ⟨htfae, hanswer⟩ := Report.hasIssues_tfae _ ⟨[]⟩ default true .xcode
  obtain ⟨a, ha, hstatus⟩ := hanswer hleads
  refine ⟨_, hleads, (htfae.out 0 1).1 hissues, (htfae.out 0 2).1 hissues,
    (htfae.out 0 3).1 hissues, (htfae.out 0 4).1 hissues, a, ha, ?_⟩
  rw [hstatus]
  exact if_pos hissues

end SwiftDependencies
