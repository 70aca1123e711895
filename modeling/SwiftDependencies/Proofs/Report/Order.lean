import Mathlib.Data.List.Forall2
import Mathlib.Tactic.Common
import SwiftDependencies.Proofs.Sorted
import SwiftDependencies.Report.Format

/-!
# The order in which targets are finished

The targets of a package are analyzed at the same time, so a report may list its outcomes in any
order, and an analysis its findings.  A rendering must not show this.

Every rendering shows the outcomes and the findings by name.  So it is that of the report in order
(`Report.inOrder`), which the lemmas on `inOrder` say of one rendering after the other; and two
reports that differ in nothing but the order of their lists are the same report in order, as long as
the names by which the lists are sorted tell their elements apart (`Report.Reordered.inOrder_eq`).
-/

namespace SwiftDependencies

/-! ### Analyses -/

namespace Analysis

variable {a b : Analysis}

/-- An analysis with its findings in the order of their names. -/
def inOrder (a : Analysis) : Analysis :=
  { a with satisfied := a.satisfiedByName, redundant := a.redundantByName }

/-- An analysis in order has the same imports provided, by name. -/
@[simp] lemma satisfiedByName_inOrder (a : Analysis) :
    a.inOrder.satisfiedByName = a.satisfiedByName :=
  sortedBy_eq_self (pairwise_sortedBy _ _)

/-- An analysis in order has the same redundant declarations, by name. -/
@[simp] lemma redundantByName_inOrder (a : Analysis) :
    a.inOrder.redundantByName = a.redundantByName :=
  sortedBy_eq_self (pairwise_sortedBy _ _)

/-- An analysis in order has an error if it had one. -/
@[simp] lemma hasError_inOrder (a : Analysis) : a.inOrder.hasError = a.hasError :=
  rfl

/-- An analysis in order has a warning if it had one. -/
@[simp] lemma hasWarning_inOrder (a : Analysis) : a.inOrder.hasWarning = a.hasWarning := by
  rw [hasWarning, hasWarning, inOrder, redundantByName, isEmpty_sortedBy]

/-- An analysis in order has issues if it had some. -/
@[simp] lemma hasIssues_inOrder (a : Analysis) : a.inOrder.hasIssues = a.hasIssues := by
  rw [hasIssues, hasIssues, hasError_inOrder, hasWarning_inOrder]

/-- The findings on a target are those of its analysis in order. -/
lemma findings_inOrder (a : Analysis) (manifest : Path) (shown : Path → String) :
    a.inOrder.findings manifest shown = a.findings manifest shown := by
  have hredundant : a.inOrder.redundantFindings (shown manifest) =
      a.redundantFindings (shown manifest) := by
    rw [redundantFindings, redundantByName_inOrder]
    rfl
  rw [findings, findings, hredundant]
  rfl

/-- The value of a target is that of its analysis in order. -/
lemma toJson_inOrder (a : Analysis) : a.inOrder.toJson = a.toJson := by
  rw [toJson, satisfiedByName_inOrder, redundantByName_inOrder, hasWarning_inOrder]
  rfl

/-- The paragraph of a target is that of its analysis in order. -/
lemma terminalLines_inOrder (a : Analysis) (workingDirectory : Place) (root : Path)
    (o : ReportOptions) :
    a.inOrder.terminalLines workingDirectory root o = a.terminalLines workingDirectory root o := by
  have hissue : a.inOrder.issueLines workingDirectory root o =
      a.issueLines workingDirectory root o := by
    rw [issueLines, redundantByName_inOrder]
    rfl
  have hcorrect : a.inOrder.correctLines o = a.correctLines o := by
    rw [correctLines, satisfiedByName_inOrder]
    rfl
  rw [terminalLines, hissue, hcorrect, hasIssues_inOrder]
  rfl

/-- Two analyses that differ in nothing but the order of their findings. -/
structure Reordered (a b : Analysis) : Prop where
  target : a.target = b.target
  missing : a.missing = b.missing
  unused : a.unused = b.unused
  correct : a.correct = b.correct
  satisfied : a.satisfied.Perm b.satisfied
  redundant : a.redundant.Perm b.redundant
  files : a.files = b.files

/-- No two findings of a kind are about the same name. -/
structure DistinctNames (a : Analysis) : Prop where
  satisfied : (a.satisfied.map (·.module)).Nodup
  redundant : (a.redundant.map (·.name)).Nodup

/-- Analyses that differ in the order of their findings only are the same in order. -/
lemma Reordered.inOrder_eq (h : a.Reordered b) (hnames : a.DistinctNames) :
    a.inOrder = b.inOrder := by
  have hsatisfied : a.satisfiedByName = b.satisfiedByName :=
    sortedBy_eq_of_perm h.satisfied fun _ hx _ hy => List.inj_on_of_nodup_map hnames.satisfied hx hy
  have hredundant : a.redundantByName = b.redundantByName :=
    sortedBy_eq_of_perm h.redundant fun _ hx _ hy => List.inj_on_of_nodup_map hnames.redundant hx hy
  rw [inOrder, inOrder, hsatisfied, hredundant, h.target, h.missing, h.unused, h.correct, h.files]

/-- The same holds for rows of analyses. -/
lemma map_inOrder_eq {l m : List Analysis} (h : List.Forall₂ Reordered l m)
    (hnames : ∀ a ∈ l, a.DistinctNames) :
    l.map inOrder = m.map inOrder := by
  induction h with
  | nil => rfl
  | cons hfirst _ ih =>
    rw [List.map_cons, List.map_cons, hfirst.inOrder_eq (hnames _ List.mem_cons_self),
      ih fun a ha => hnames a (List.mem_cons_of_mem _ ha)]

end Analysis

/-! ### Reports -/

namespace Report

variable {r s : Report}

/-- A report with all its lists in the order of the names. -/
def inOrder (r : Report) : Report :=
  ⟨r.package, r.resultsByName.map Analysis.inOrder, r.skippedByName, r.failuresByName⟩

/-- The results in order are the ordered results, sorted. -/
lemma map_inOrder_resultsByName (r : Report) :
    r.resultsByName.map Analysis.inOrder =
      sortedBy (·.target.name) (r.results.map Analysis.inOrder) := by
  rw [sortedBy_map]
  rfl

/-- The results of a report in order are in order. -/
@[simp] lemma resultsByName_inOrder (r : Report) :
    r.inOrder.resultsByName = r.resultsByName.map Analysis.inOrder := by
  rw [resultsByName, inOrder, map_inOrder_resultsByName]
  exact sortedBy_eq_self (pairwise_sortedBy _ _)

/-- A report in order has the same skipped targets, by name. -/
@[simp] lemma skippedByName_inOrder (r : Report) : r.inOrder.skippedByName = r.skippedByName :=
  sortedBy_eq_self (pairwise_sortedBy _ _)

/-- A report in order has the same failures, by name. -/
@[simp] lemma failuresByName_inOrder (r : Report) : r.inOrder.failuresByName = r.failuresByName :=
  sortedBy_eq_self (pairwise_sortedBy _ _)

/-- Results are counted in any order. -/
lemma countP_inOrder {test : Analysis → Bool} (htest : ∀ a, test a.inOrder = test a)
    (r : Report) :
    r.inOrder.results.countP test = r.results.countP test := by
  have htests : test ∘ Analysis.inOrder = test := funext htest
  rw [inOrder, List.countP_map, htests]
  exact (perm_sortedBy _ _).countP_eq test

/-- A report in order counts as many errors. -/
lemma errorCount_inOrder (r : Report) : r.inOrder.errorCount = r.errorCount := by
  rw [errorCount, errorCount, countP_inOrder Analysis.hasError_inOrder, inOrder, failuresByName,
    (perm_sortedBy _ _).length_eq]

/-- A report in order counts as many warnings. -/
lemma warningCount_inOrder (r : Report) : r.inOrder.warningCount = r.warningCount :=
  countP_inOrder Analysis.hasWarning_inOrder r

/-- The summary only counts. -/
lemma summary_inOrder (r : Report) : r.inOrder.summary = r.summary := by
  have hlength : r.inOrder.results.length = r.results.length := by
    rw [inOrder, List.length_map, resultsByName, (perm_sortedBy _ _).length_eq]
  rw [summary, summary, hlength, errorCount_inOrder, warningCount_inOrder]

/-- The results of a report in order that a terminal shows are in order. -/
lemma shownResults_inOrder (r : Report) (o : ReportOptions) :
    r.inOrder.shownResults o = (r.shownResults o).map Analysis.inOrder := by
  have hissues : (fun a : Analysis => a.hasIssues) ∘ Analysis.inOrder = fun a => a.hasIssues :=
    funext Analysis.hasIssues_inOrder
  rw [shownResults, shownResults, resultsByName_inOrder, List.filter_map, hissues]
  split <;> rfl

/-- A terminal shows a report in order as it shows the report. -/
lemma terminalLines_inOrder (r : Report) (workingDirectory : Place) (o : ReportOptions) :
    r.inOrder.terminalLines workingDirectory o = r.terminalLines workingDirectory o := by
  have hskipped : r.inOrder.skipped.isEmpty = r.skipped.isEmpty := isEmpty_sortedBy
  have hstyle : r.inOrder.summaryStyle = r.summaryStyle := by
    rw [summaryStyle, summaryStyle, errorCount_inOrder, warningCount_inOrder]
  rw [terminalLines, terminalLines, shownResults_inOrder, List.flatMap_map, failuresByName_inOrder,
    skippedByName_inOrder, hskipped, hstyle, summary_inOrder]
  simp only [Analysis.terminalLines_inOrder]
  rfl

/-- The JSON value of a report in order is that of the report. -/
lemma toJson_inOrder (r : Report) : r.inOrder.toJson = r.toJson := by
  have hresults : (r.resultsByName.map Analysis.inOrder).map Analysis.toJson =
      r.resultsByName.map Analysis.toJson := by
    rw [List.map_map]
    exact List.map_congr_left fun a _ => a.toJson_inOrder
  rw [toJson, resultsByName_inOrder, skippedByName_inOrder, failuresByName_inOrder, hresults]
  rfl

/-- The findings of a report in order are those of the report. -/
lemma findings_inOrder (r : Report) (workingDirectory : Place) :
    r.inOrder.findings workingDirectory = r.findings workingDirectory := by
  rw [findings, findings, resultsByName_inOrder, failuresByName_inOrder, List.flatMap_map]
  simp only [Analysis.findings_inOrder]
  rfl

/-- A rendering of a report is that of the report in order. -/
lemma render_inOrder (r : Report) (workingDirectory : Place) (format : ReportFormat)
    (o : ReportOptions) :
    r.inOrder.render workingDirectory format o = r.render workingDirectory format o := by
  cases format with
  | terminal => rw [render, toTerminal, terminalLines_inOrder]; rfl
  | json => rw [render, toJson_inOrder]; rfl
  | xcode => rw [render, toXcode, findings_inOrder]; rfl
  | workflow => rw [render, toWorkflowCommands, findings_inOrder]; rfl

/-- Two reports on the same package that differ in nothing but the order of their lists, and of the
findings in corresponding results. -/
structure Reordered (r s : Report) : Prop where
  package : r.package = s.package
  results : ∃ results, r.results.Perm results ∧
    List.Forall₂ Analysis.Reordered results s.results
  skipped : r.skipped.Perm s.skipped
  failures : r.failures.Perm s.failures

/-- No two outcomes of a kind are about the same target, and no two findings of a kind on a target
about the same name. -/
structure DistinctNames (r : Report) : Prop where
  results : (r.results.map (·.target.name)).Nodup
  failures : (r.failures.map (·.target)).Nodup
  findings : ∀ a ∈ r.results, a.DistinctNames

/-- Reordered reports are the same report in order. -/
lemma Reordered.inOrder_eq (h : r.Reordered s) (hnames : r.DistinctNames) :
    r.inOrder = s.inOrder := by
  obtain ⟨results, hperm, hresults⟩ := h.results
  have hmap : results.map Analysis.inOrder = s.results.map Analysis.inOrder :=
    Analysis.map_inOrder_eq hresults fun a ha => hnames.findings a (hperm.mem_iff.2 ha)
  have hperm : (r.results.map Analysis.inOrder).Perm (s.results.map Analysis.inOrder) :=
    hmap ▸ hperm.map Analysis.inOrder
  have hdistinct : ((r.results.map Analysis.inOrder).map (·.target.name)).Nodup := by
    rw [List.map_map]
    exact hnames.results
  have hresults : r.resultsByName.map Analysis.inOrder = s.resultsByName.map Analysis.inOrder := by
    rw [map_inOrder_resultsByName, map_inOrder_resultsByName]
    exact sortedBy_eq_of_perm hperm fun _ hx _ hy => List.inj_on_of_nodup_map hdistinct hx hy
  have hskipped : r.skippedByName = s.skippedByName :=
    sortedBy_eq_of_perm h.skipped fun _ _ _ _ heq => heq
  have hfailures : r.failuresByName = s.failuresByName :=
    sortedBy_eq_of_perm h.failures fun _ hx _ hy => List.inj_on_of_nodup_map hnames.failures hx hy
  rw [inOrder, inOrder, h.package, hresults, hskipped, hfailures]

/-- Reports on one package that differ in nothing but the order of their lists look the same in
every format, whatever the options, if no two outcomes and no two findings of a kind share their
name. -/
theorem render_reordered (h : r.Reordered s) (hnames : r.DistinctNames) (workingDirectory : Place)
    (format : ReportFormat) (o : ReportOptions) :
    r.render workingDirectory format o = s.render workingDirectory format o := by
  rw [← render_inOrder, h.inOrder_eq hnames, render_inOrder]

/-- The analysis of a library with the given findings. -/
def libraryWith (name : String) (satisfied : List Satisfied) (redundant : List Redundant) :
    Analysis :=
  ⟨⟨name, .library, [], none⟩, ∅, ∅, ∅, satisfied, redundant, []⟩

/-- Two targets, two skipped ones and two failures, all in another order, and so are the findings on
one target. -/
theorem render_reordered_shop :
    let shop : Package := ⟨"Shop", ⟨.root, ["work"]⟩, [], [], []⟩
    let core : Satisfied := ⟨"NIOCore", "NIO", "swift-nio"⟩
    let posix : Satisfied := ⟨"NIOPosix", "NIO", "swift-nio"⟩
    let log : Redundant := ⟨"Log", "Logging", "swift-log"⟩
    let tls : Redundant := ⟨"TLS", "NIOSSL", "swift-nio-ssl"⟩
    let net : TargetFailure := ⟨"Net", .audit (.sourcesNotFound "/work/Sources/Net")⟩
    let old : TargetFailure := ⟨"Old", .audit (.sourcesNotFound "/work/Sources/Old")⟩
    let r : Report := ⟨shop,
      [libraryWith "App" [core, posix] [log, tls], libraryWith "Kit" [] []],
      ["Docs", "Bench"], [net, old]⟩
    let s : Report := ⟨shop,
      [libraryWith "Kit" [] [], libraryWith "App" [posix, core] [tls, log]],
      ["Bench", "Docs"], [old, net]⟩
    r.Reordered s ∧ r.DistinctNames ∧ r.render ⟨[]⟩ .terminal ⟨false, false, true⟩ =
      s.render ⟨[]⟩ .terminal ⟨false, false, true⟩ := by
  intro shop core posix log tls net old r s
  have hreordered : r.Reordered s := by
    refine ⟨rfl, ⟨_, .swap _ _ _, .cons ?kit (.cons ?app .nil)⟩, .swap _ _ _, .swap _ _ _⟩
    case kit => exact ⟨rfl, rfl, rfl, rfl, .refl _, .refl _, rfl⟩
    case app => exact ⟨rfl, rfl, rfl, rfl, .swap _ _ _, .swap _ _ _, rfl⟩
  have hnames : r.DistinctNames := by
    refine ⟨by decide, by decide, ?_⟩
    intro a ha
    rcases List.mem_pair.1 ha with rfl | rfl
    · exact ⟨by decide, by decide⟩
    · exact ⟨by decide, by decide⟩
  exact ⟨hreordered, hnames, render_reordered hreordered hnames _ _ _⟩

end Report

end SwiftDependencies
