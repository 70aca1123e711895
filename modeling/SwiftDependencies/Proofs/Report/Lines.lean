import Mathlib.Tactic.Common
import SwiftDependencies.Proofs.Report.Facts
import SwiftDependencies.Proofs.Report.Issues

/-!
# Findings line by line

Tools read findings line by line, so a finding is told as it is meant only if it takes up one line.
The names, paths and messages in a finding are written as they are, line feeds included, and a
manifest can put a line feed into a name.  Then the rest of the name opens a line of its own, which
may even look like a finding (`Report.feedLines_render_forged`).

What holds of every report is that each finding begins a line, and that the lines of a finding are
those of what is written for it.  There is one line for each finding exactly if no line feed is in
what the findings show: `Report.OneLined` says of which names, paths and messages this has to be
asked, and `Report.feedLines_render` that it is enough.

The lines of a text are counted by its line feeds, so everything comes down to which parts of a
finding can contain one; the line number and the severity cannot.
-/

namespace SwiftDependencies

/-! ### Lines between line feeds -/

/-- The lines into which the line feeds of a text divide it. -/
def feedLines (s : String) : List String :=
  (s.toList.splitOn '\n').map String.ofList

/-- A text without a line feed. -/
def OneLine (s : String) : Prop :=
  '\n' ∉ s.toList

instance : DecidablePred OneLine := fun s => inferInstanceAs (Decidable ('\n' ∉ s.toList))

/-- Two texts in a row are on one line if each is. -/
@[simp] lemma oneLine_append {s t : String} : OneLine (s ++ t) ↔ OneLine s ∧ OneLine t := by
  simp [OneLine, not_or]

/-- A number is written without line feeds. -/
@[simp] lemma oneLine_repr (n : Nat) : OneLine n.repr := by
  intro h
  rw [Nat.toList_repr] at h
  have hdigit := Nat.isDigit_of_mem_toDigits (by decide) (by decide) h
  exact absurd hdigit (by decide)

/-- A text has one more line after each line feed. -/
lemma feedLines_append_newline (s t : String) :
    feedLines (s ++ "\n" ++ t) = feedLines s ++ feedLines t := by
  have htoList : (s ++ "\n" ++ t).toList = s.toList ++ '\n' :: t.toList := by simp
  rw [feedLines, htoList, List.splitOn_eq_splitOnP, List.splitOnP_append_cons _ _ (by simp),
    List.map_append, ← List.splitOn_eq_splitOnP, ← List.splitOn_eq_splitOnP]
  rfl

/-- A text without a line feed is its only line. -/
lemma feedLines_of_oneLine {s : String} (h : OneLine s) : feedLines s = [s] := by
  have hnone : ∀ c ∈ s.toList, (c == '\n') = false := by
    intro c hc
    rw [beq_eq_false_iff_ne]
    rintro rfl
    exact h hc
  rw [feedLines, List.splitOn_eq_splitOnP, List.splitOnP_eq_singleton hnone]
  simp

/-- A text has a line. -/
lemma feedLines_length_pos (s : String) : 0 < (feedLines s).length := by
  rw [feedLines, List.length_map, List.splitOn_eq_splitOnP]
  exact List.length_pos_of_ne_nil (List.splitOnP_ne_nil _ _)

/-- A text has a single line exactly if it has no line feed. -/
lemma feedLines_length_eq_one_iff {s : String} : (feedLines s).length = 1 ↔ OneLine s := by
  constructor
  · intro hlength hmem
    obtain ⟨before, after, hs⟩ := List.append_of_mem hmem
    have heq : s = String.ofList before ++ "\n" ++ String.ofList after := by
      rw [← String.toList_inj]
      simpa using hs
    have hbefore := feedLines_length_pos (String.ofList before)
    have hafter := feedLines_length_pos (String.ofList after)
    rw [heq, feedLines_append_newline, List.length_append] at hlength
    omega
  · intro h
    rw [feedLines_of_oneLine h]
    rfl

/-- Dividing a list at an element, what is in front without the element belongs to the first
part. -/
lemma splitOn_append {α : Type} [BEq α] [LawfulBEq α] {separator : α} {before : List α}
    (h : separator ∉ before) (after : List α) :
    (before ++ after).splitOn separator = (after.splitOn separator).modifyHead (before ++ ·) := by
  induction before with
  | nil =>
    rw [List.nil_append]
    cases after.splitOn separator <;> rfl
  | cons x before ih =>
    obtain ⟨hx, hbefore⟩ := not_or.1 (List.mem_cons.not.1 h)
    have hne : (x == separator) = false := beq_eq_false_iff_ne.2 (Ne.symm hx)
    rw [List.cons_append, List.splitOn_eq_splitOnP, List.splitOnP_cons_eq_if_modifyHead, hne,
      ← List.splitOn_eq_splitOnP, ih hbefore]
    cases after.splitOn separator <;> rfl

/-- What has no line feed stands in front of the first line of what follows. -/
lemma feedLines_append {s : String} (h : OneLine s) (t : String) :
    ∃ line rest, feedLines (s ++ t) = (s ++ line) :: rest := by
  cases hafter : t.toList.splitOn '\n' with
  | nil =>
    rw [List.splitOn_eq_splitOnP] at hafter
    exact absurd hafter (List.splitOnP_ne_nil _ _)
  | cons line rest =>
    refine ⟨String.ofList line, rest.map String.ofList, ?_⟩
    rw [feedLines, String.toList_append, splitOn_append h, hafter, List.modifyHead_cons,
      List.map_cons, String.ofList_append, String.ofList_toList]

/-- The lines of texts that are written below each other are the lines of each. -/
lemma feedLines_intercalate {texts : List String} (h : texts ≠ []) :
    feedLines ("\n".intercalate texts) = texts.flatMap feedLines := by
  induction texts with
  | nil => exact absurd rfl h
  | cons s texts ih =>
    cases texts with
    | nil => simp
    | cons t texts =>
      rw [String.intercalate_cons_cons, feedLines_append_newline, ih (List.cons_ne_nil _ _)]
      rfl

/-- There are at least as many lines as texts. -/
lemma length_le_length_flatMap_feedLines (texts : List String) :
    texts.length ≤ (texts.flatMap feedLines).length := by
  induction texts with
  | nil => exact Nat.le_refl _
  | cons s texts ih =>
    have hpos := feedLines_length_pos s
    rw [List.flatMap_cons, List.length_append, List.length_cons]
    omega

/-- There are as many lines as texts exactly if each text is one line. -/
lemma length_flatMap_feedLines_iff {texts : List String} :
    (texts.flatMap feedLines).length = texts.length ↔ ∀ s ∈ texts, OneLine s := by
  induction texts with
  | nil => simp
  | cons s texts ih =>
    have hle := length_le_length_flatMap_feedLines texts
    have hpos := feedLines_length_pos s
    rw [List.flatMap_cons, List.length_append, List.length_cons, List.forall_mem_cons, ← ih,
      ← feedLines_length_eq_one_iff]
    omega

/-! ### Lines of findings -/

/-- The name of a severity is on one line. -/
@[simp] lemma oneLine_severityName (severity : Severity) : OneLine severity.name := by
  cases severity <;> decide

namespace Finding

/-- Neither the file nor the message of a finding has a line feed. -/
def OneLined (f : Finding) : Prop :=
  OneLine f.file ∧ OneLine f.message

instance : DecidablePred OneLined := fun f =>
  inferInstanceAs (Decidable (OneLine f.file ∧ OneLine f.message))

/-- In the format for editors a finding is on one line if all that it says is. -/
lemma oneLine_toXcode_iff {f : Finding} : OneLine f.toXcode ↔ f.OneLined := by
  have hcolon : OneLine ":" ∧ OneLine ": " := by decide
  unfold toXcode
  split <;> simp [OneLined, hcolon, toString]

/-- In the format for workflows a finding is on one line if all that it says is. -/
lemma oneLine_toWorkflowCommand_iff {f : Finding} : OneLine f.toWorkflowCommand ↔ f.OneLined := by
  have hmarks : OneLine "::" ∧ OneLine " file=" ∧ OneLine ",line=" := by decide
  unfold toWorkflowCommand
  split <;> simp [OneLined, hmarks, toString]

end Finding

/-- A line begins with a command of the service that runs a workflow, and with the file it is
about. -/
def BeginsCommand (line : String) : Prop :=
  ∃ rest, line = "::error file=" ++ rest ∨ line = "::warning file=" ++ rest

/-- The first line of a finding begins with a command. -/
lemma Finding.exists_beginsCommand (f : Finding) :
    ∃ line rest, feedLines f.toWorkflowCommand = line :: rest ∧ BeginsCommand line := by
  obtain ⟨rest, hrest⟩ :
      ∃ rest, f.toWorkflowCommand = "::" ++ f.severity.name ++ " file=" ++ rest := by
    unfold toWorkflowCommand
    split
    · rename_i line _
      exact ⟨f.file ++ ",line=" ++ line.repr ++ "::" ++ f.message,
        by simp [toString, String.append_assoc]⟩
    · exact ⟨f.file ++ "::" ++ f.message, by simp [toString, String.append_assoc]⟩
  have hcommand : OneLine ("::" ++ f.severity.name ++ " file=") := by
    cases f.severity <;> decide
  obtain ⟨line, lines, hlines⟩ := feedLines_append hcommand rest
  refine ⟨_, lines, hrest ▸ hlines, line, ?_⟩
  cases f.severity with
  | error => exact .inl rfl
  | warning => exact .inr rfl

/-- A finding without line feeds begins with a command. -/
lemma Finding.OneLined.beginsCommand {f : Finding} (h : f.OneLined) :
    BeginsCommand f.toWorkflowCommand := by
  obtain ⟨line, rest, hline, hbegins⟩ := f.exists_beginsCommand
  rw [feedLines_of_oneLine (oneLine_toWorkflowCommand_iff.2 h)] at hline
  obtain rfl := List.head_eq_of_cons_eq hline
  exact hbegins

/-! ### What findings show -/

section Wording

variable {name target : String}

/-- The message on a missing module is on one line if its name is. -/
lemma oneLine_missingMessage_iff : OneLine (missingMessage name) ↔ OneLine name := by
  have hwording : OneLine "Missing dependency '" ∧
      OneLine "' is imported but not declared in Package.swift" := by
    decide +kernel
  unfold missingMessage
  simp only [oneLine_append]
  simp only [toString, hwording, true_and, and_true]

/-- The message on an unused declaration is on one line if both names in it are. -/
lemma oneLine_unusedMessage_iff :
    OneLine (unusedMessage name target) ↔ OneLine name ∧ OneLine target := by
  have hwording : OneLine "Unused dependency '" ∧
      OneLine "' is declared but never imported into " ∧
      OneLine " target" := by
    decide +kernel
  unfold unusedMessage
  simp only [oneLine_append]
  simp only [toString, hwording, true_and, and_true]

/-- The message on a redundant declaration is on one line if all names in it are. -/
lemma oneLine_redundantMessage_iff {r : Redundant} :
    OneLine (redundantMessage r) ↔
      OneLine r.name ∧ OneLine r.product ∧ OneLine r.package := by
  have hwording : OneLine "Redundant dependency '" ∧
      OneLine "' is already provided by product '" ∧ OneLine "' (" ∧ OneLine ")" := by
    decide +kernel
  unfold redundantMessage
  simp only [oneLine_append]
  simp only [toString, hwording, true_and, and_true, and_assoc]

end Wording

/-- No name and no path that the findings on a target show has a line feed. -/
structure Analysis.OneLined (a : Analysis) (shown : Path → String) : Prop where
  missing : ∀ n ∈ a.missing, OneLine n ∧ ∀ site ∈ a.sites n, OneLine (shown site.1)
  unused : ∀ n ∈ a.unused, OneLine n ∧ OneLine a.target.name
  redundant : ∀ r ∈ a.redundant, OneLine r.name ∧ OneLine r.product ∧ OneLine r.package

/-- No name, path or message that the findings of a report show has a line feed. -/
structure Report.OneLined (r : Report) (workingDirectory : Place) : Prop where
  results : ∀ a ∈ r.results, a.OneLined (shownPath workingDirectory r.package.root)
  failures : ∀ f ∈ r.failures, OneLine f.failure.message ∧
    OneLine (shownPath workingDirectory r.package.root
      (f.failure.path?.getD (Path.ofString manifestName)))

namespace Analysis

variable {a : Analysis} {manifest : Path} {shown : Path → String}

section

variable (hmanifest : OneLine (shown manifest))

include hmanifest

/-- Where the manifest is shown on one line, only the sites of a missing module count. -/
lemma forall_blamed_iff (name : String) :
    (∀ place ∈ a.blamed manifest name, OneLine (shown place.1)) ↔
      ∀ site ∈ a.sites name, OneLine (shown site.1) := by
  unfold blamed
  split
  · rename_i hsites
    simp [hsites, hmanifest]
  · rw [List.forall_mem_map]

/-- The findings on missing modules are on one line each if the names and the paths of their sites
are. -/
lemma oneLined_missingFindings_iff :
    (∀ f ∈ a.missingFindings manifest shown, f.OneLined) ↔
      ∀ n ∈ a.missing, OneLine n ∧ ∀ site ∈ a.sites n, OneLine (shown site.1) := by
  unfold missingFindings
  rw [List.forall_mem_flatMap]
  refine forall₂_congr ?_
  intro n _
  obtain ⟨place, hplace⟩ : ∃ place, place ∈ a.blamed manifest n :=
    List.exists_mem_of_ne_nil _ (blamed_ne_nil n)
  rw [List.forall_mem_map, ← forall_blamed_iff hmanifest n]
  simp only [Finding.OneLined, oneLine_missingMessage_iff]
  constructor
  · intro h
    exact ⟨(h place hplace).2, fun p hp => (h p hp).1⟩
  · rintro ⟨hname, hfiles⟩ p hp
    exact ⟨hfiles p hp, hname⟩

/-- The findings on unused declarations are on one line each if their names and that of the target
are. -/
lemma oneLined_unusedFindings_iff :
    (∀ f ∈ a.unusedFindings (shown manifest), f.OneLined) ↔
      ∀ n ∈ a.unused, OneLine n ∧ OneLine a.target.name := by
  unfold unusedFindings
  rw [List.forall_mem_map]
  simp only [Finding.OneLined, oneLine_unusedMessage_iff, hmanifest, true_and]
  rfl

/-- The findings on redundant declarations are on one line each if the names in them are. -/
lemma oneLined_redundantFindings_iff :
    (∀ f ∈ a.redundantFindings (shown manifest), f.OneLined) ↔
      ∀ r ∈ a.redundant, OneLine r.name ∧ OneLine r.product ∧ OneLine r.package := by
  unfold redundantFindings
  rw [List.forall_mem_map]
  simp only [Finding.OneLined, oneLine_redundantMessage_iff, hmanifest, true_and, redundantByName,
    mem_sortedBy]

/-- The findings on a target are without line feeds exactly if what they show of it is. -/
lemma oneLined_findings_iff :
    (∀ f ∈ a.findings manifest shown, f.OneLined) ↔ a.OneLined shown := by
  rw [findings, List.forall_mem_append, List.forall_mem_append,
    oneLined_missingFindings_iff hmanifest, oneLined_unusedFindings_iff hmanifest,
    oneLined_redundantFindings_iff hmanifest]
  constructor
  · rintro ⟨⟨hmissing, hunused⟩, hredundant⟩
    exact ⟨hmissing, hunused, hredundant⟩
  · rintro ⟨hmissing, hunused, hredundant⟩
    exact ⟨⟨hmissing, hunused⟩, hredundant⟩

end

end Analysis

/-! ### Lines of a report -/

namespace Report

variable {r : Report} {workingDirectory : Place}

/-- The findings of a report are without line feeds exactly if what they show is. -/
lemma oneLined_findings_iff :
    (∀ f ∈ r.findings workingDirectory, f.OneLined) ↔ r.OneLined workingDirectory := by
  have hshown := shownPath_manifestPath workingDirectory r.package
  have hmanifest : OneLine (shownPath workingDirectory r.package.root r.package.manifestPath) := by
    rw [hshown]
    decide
  unfold findings
  dsimp only
  rw [List.forall_mem_append, List.forall_mem_flatMap, List.forall_mem_map]
  have hresults : (∀ a ∈ r.resultsByName, ∀ f ∈ a.findings r.package.manifestPath
      (shownPath workingDirectory r.package.root), f.OneLined) ↔
      ∀ a ∈ r.results, a.OneLined (shownPath workingDirectory r.package.root) := by
    simp only [Analysis.oneLined_findings_iff hmanifest, resultsByName, mem_sortedBy]
  rw [hresults]
  simp only [failuresByName, mem_sortedBy, Finding.OneLined, TargetFailure.finding, hshown]
  constructor
  · rintro ⟨hresults, hfailures⟩
    exact ⟨hresults, fun f hf => (hfailures f hf).symm⟩
  · rintro ⟨hresults, hfailures⟩
    exact ⟨hresults, fun f hf => (hfailures f hf).symm⟩

/-- There is a rendering for a workflow if there are findings. -/
lemma render_workflow_ne_empty (h : r.findings workingDirectory ≠ []) {o : ReportOptions} :
    r.render workingDirectory .workflow o ≠ "" := by
  rwa [render, Ne, toWorkflowCommands_eq_empty_iff, ← findings_eq_nil_iff]

/-- There is a rendering for an editor if there are findings. -/
lemma render_xcode_ne_empty (h : r.findings workingDirectory ≠ []) {o : ReportOptions} :
    r.render workingDirectory .xcode o ≠ "" := by
  rwa [render, Ne, toXcode_eq_empty_iff, ← findings_eq_nil_iff]

section

variable {form : Finding → String} (hform : ∀ f, OneLine (form f) ↔ f.OneLined)

include hform

/-- Findings that are written below each other take up as many lines as there are findings exactly
if no line feed is in what they show, and then each is one line. -/
lemma feedLines_findings
    (hsome : "\n".intercalate ((r.findings workingDirectory).map form) ≠ "") :
    let lines := feedLines ("\n".intercalate ((r.findings workingDirectory).map form))
    lines = (r.findings workingDirectory).flatMap (fun f => feedLines (form f)) ∧
      (lines.length = (r.findings workingDirectory).length ↔ r.OneLined workingDirectory) ∧
      (r.OneLined workingDirectory → lines = (r.findings workingDirectory).map form) := by
  intro lines
  have hne : (r.findings workingDirectory).map form ≠ [] := by
    intro hnil
    rw [hnil] at hsome
    exact hsome String.intercalate_nil
  have hlines : lines = ((r.findings workingDirectory).map form).flatMap feedLines :=
    feedLines_intercalate hne
  have hcount : lines.length = (r.findings workingDirectory).length ↔
      r.OneLined workingDirectory := by
    rw [hlines, ← List.length_map form, length_flatMap_feedLines_iff, List.forall_mem_map,
      ← oneLined_findings_iff]
    simp only [hform]
  refine ⟨?_, hcount, ?_⟩
  · rw [hlines, List.flatMap_map]
  · intro h
    rw [hlines, List.flatMap_map]
    have hsingle : ∀ f ∈ r.findings workingDirectory, feedLines (form f) = [form f] := by
      intro f hf
      exact feedLines_of_oneLine ((hform f).2 (oneLined_findings_iff.2 h f hf))
    rw [List.flatMap_congr hsingle, ← List.map_eq_flatMap]

end

/-- In a rendering for a workflow or for an editor each finding begins a line, and a line for a
workflow with which a finding begins is a command. There is one line for each finding, and so only
such lines, exactly if no name, path or message that the findings show has a line feed; the lines
are then the findings. -/
theorem feedLines_render (r : Report) (workingDirectory : Place) (o : ReportOptions) :
    (r.render workingDirectory .workflow o ≠ "" →
      let lines := feedLines (r.render workingDirectory .workflow o)
      lines = (r.findings workingDirectory).flatMap (fun f => feedLines f.toWorkflowCommand) ∧
        (∀ f ∈ r.findings workingDirectory, ∃ line rest,
          feedLines f.toWorkflowCommand = line :: rest ∧ BeginsCommand line) ∧
        ((lines.length = (r.findings workingDirectory).length ∧
          ∀ line ∈ lines, BeginsCommand line) ↔
          r.OneLined workingDirectory) ∧
        (r.OneLined workingDirectory →
          lines = (r.findings workingDirectory).map Finding.toWorkflowCommand)) ∧
    (r.render workingDirectory .xcode o ≠ "" →
      let lines := feedLines (r.render workingDirectory .xcode o)
      lines = (r.findings workingDirectory).flatMap (fun f => feedLines f.toXcode) ∧
        (lines.length = (r.findings workingDirectory).length ↔ r.OneLined workingDirectory) ∧
        (r.OneLined workingDirectory →
          lines = (r.findings workingDirectory).map Finding.toXcode)) := by
  constructor
  · intro hsome lines
    obtain ⟨hlines, hcount, hmap⟩ :=
      feedLines_findings (fun _ => Finding.oneLine_toWorkflowCommand_iff) hsome
    refine ⟨hlines, fun f _ => f.exists_beginsCommand, ?_, hmap⟩
    constructor
    · rintro ⟨hlength, -⟩
      exact hcount.1 hlength
    · intro hlined
      refine ⟨hcount.2 hlined, ?_⟩
      intro line hline
      obtain ⟨f, hf, rfl⟩ : ∃ f ∈ r.findings workingDirectory,
          f.toWorkflowCommand = line := by
        rw [← List.mem_map]
        exact hmap hlined ▸ hline
      exact (oneLined_findings_iff.2 hlined f hf).beginsCommand
  · intro hsome
    exact feedLines_findings (fun _ => Finding.oneLine_toXcode_iff) hsome

end Report

/-- The analysis of a target that declares, on line three and for nothing, a name with a line
feed. -/
def forgedInput : AnalysisInput where
  target := ⟨"App", .library,
    [⟨"A\n::error file=Sources/App/main.swift,line=1::B", .target, none, some 3⟩], none⟩
  package := ⟨"P", ⟨.root, ["work"]⟩, [], [], []⟩
  externals := []
  productMap := ⟨[]⟩
  files := []
  allowed := ∅

/-- The four findings on a target are four lines, since nothing in them has a line feed. -/
theorem Report.feedLines_render_shop :
    let r : Report := ⟨shopInput.package, [shopInput.analyze], [], []⟩
    r.OneLined ⟨[]⟩ ∧
      feedLines (r.render ⟨[]⟩ .workflow default) =
        ["::error file=Sources/App/main.swift,line=3::" ++ missingMessage "Net",
          "::error file=Sources/App/other.swift,line=1::" ++ missingMessage "Net",
          "::warning file=Package.swift,line=12::" ++ unusedMessage "Stale" "App",
          "::warning file=Package.swift,line=13::" ++
            redundantMessage ⟨"NIOCore", "NIO", "swift-nio"⟩] ∧
      (feedLines (r.render ⟨[]⟩ .xcode default)).length = 4 := by
  intro r
  have hfindings : r.findings ⟨[]⟩ =
      [⟨.error, "Sources/App/main.swift", some 3, missingMessage "Net"⟩,
        ⟨.error, "Sources/App/other.swift", some 1, missingMessage "Net"⟩,
        ⟨.warning, "Package.swift", some 12, unusedMessage "Stale" "App"⟩,
        ⟨.warning, "Package.swift", some 13,
          redundantMessage ⟨"NIOCore", "NIO", "swift-nio"⟩⟩] := by
    decide +kernel
  have hlined : r.OneLined ⟨[]⟩ := by
    rw [← Report.oneLined_findings_iff, hfindings]
    simp only [List.forall_mem_cons, Finding.OneLined, oneLine_missingMessage_iff,
      oneLine_unusedMessage_iff, oneLine_redundantMessage_iff]
    decide
  have hne : r.findings ⟨[]⟩ ≠ [] := by
    rw [hfindings]
    exact List.cons_ne_nil _ _
  obtain ⟨hworkflow, hxcode⟩ := Report.feedLines_render r ⟨[]⟩ default
  obtain ⟨-, -, -, hworkflow⟩ := hworkflow (Report.render_workflow_ne_empty hne)
  obtain ⟨-, -, hxcode⟩ := hxcode (Report.render_xcode_ne_empty hne)
  refine ⟨hlined, ?_, ?_⟩
  · rw [hworkflow hlined, hfindings]
    rfl
  · rw [hxcode hlined, hfindings]
    rfl

/-- The one finding on an unused name with a line feed is two lines, and the second tells of an
error that is not there: lines are neither one for each finding nor beyond forgery. -/
theorem Report.feedLines_render_forged :
    let r : Report := ⟨forgedInput.package, [forgedInput.analyze], [], []⟩
    r.findings ⟨[]⟩ = [⟨.warning, "Package.swift", some 3,
        unusedMessage "A\n::error file=Sources/App/main.swift,line=1::B" "App"⟩] ∧
      feedLines (r.render ⟨[]⟩ .workflow default) =
        ["::warning file=Package.swift,line=3::Unused dependency 'A",
          "::error file=Sources/App/main.swift,line=1::B' is declared but never imported into App target"] ∧
      feedLines (r.render ⟨[]⟩ .xcode default) =
        ["Package.swift:3: warning: Unused dependency 'A",
          "::error file=Sources/App/main.swift,line=1::B' is declared but never imported into App target"] ∧
      ¬ ∀ (r : Report) (workingDirectory : Place) (o : ReportOptions),
        (r.render workingDirectory .workflow o ≠ "" →
          (feedLines (r.render workingDirectory .workflow o)).length =
              (r.findings workingDirectory).length ∧
            ∀ line ∈ feedLines (r.render workingDirectory .workflow o), BeginsCommand line) ∧
        (r.render workingDirectory .xcode o ≠ "" →
          (feedLines (r.render workingDirectory .xcode o)).length =
            (r.findings workingDirectory).length) := by
  intro r
  have hfindings : r.findings ⟨[]⟩ = [⟨.warning, "Package.swift", some 3,
      unusedMessage "A\n::error file=Sources/App/main.swift,line=1::B" "App"⟩] := by
    decide +kernel
  have hworkflow : r.render ⟨[]⟩ .workflow default =
      "::warning file=Package.swift,line=3::Unused dependency 'A" ++ "\n" ++
        "::error file=Sources/App/main.swift,line=1::B' is declared but never imported into App target" := by
    rw [render, toWorkflowCommands, hfindings]
    decide +kernel
  have hxcode : r.render ⟨[]⟩ .xcode default =
      "Package.swift:3: warning: Unused dependency 'A" ++ "\n" ++
        "::error file=Sources/App/main.swift,line=1::B' is declared but never imported into App target" := by
    rw [render, toXcode, hfindings]
    decide +kernel
  have hlines : feedLines (r.render ⟨[]⟩ .workflow default) =
      ["::warning file=Package.swift,line=3::Unused dependency 'A",
        "::error file=Sources/App/main.swift,line=1::B' is declared but never imported into App target"] := by
    rw [hworkflow, feedLines_append_newline, feedLines_of_oneLine (by decide +kernel),
      feedLines_of_oneLine (by decide +kernel)]
    rfl
  refine ⟨hfindings, hlines, ?_, ?_⟩
  · rw [hxcode, feedLines_append_newline, feedLines_of_oneLine (by decide +kernel),
      feedLines_of_oneLine (by decide +kernel)]
    rfl
  · intro h
    have hne : r.findings ⟨[]⟩ ≠ [] := by
      rw [hfindings]
      exact List.cons_ne_nil _ _
    have hlength := ((h r ⟨[]⟩ default).1 (render_workflow_ne_empty hne)).1
    rw [hlines, hfindings] at hlength
    exact absurd hlength (by decide)

end SwiftDependencies
