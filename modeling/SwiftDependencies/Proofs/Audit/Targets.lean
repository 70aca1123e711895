import SwiftDependencies.Audit.Run
import SwiftDependencies.Proofs.Checkouts.Search
import SwiftDependencies.Proofs.Text.Ascii

/-!
# Every target is accounted for once

The analysis of one target finds its sources, scans them in order and stops at the first file that
cannot be read.  An audit scans all files of all targets, each by itself, and looks at the results
afterwards. Both come to the same for every target (`AuditContext.analyzeTarget_cases`), so a report
has one entry for each target, in one of its three lists (`Entries`).

That there is a report at all rests on the external packages.  Looking for them can only fail at a
path that no disk has (`exists_resolve`), which a manifest may name: see `Searchable` and
`Auditor.run_not_total`.
-/

namespace SwiftDependencies

/-! ### Scanning -/

section Scanning

variable {fs : FileSystem} {allowed : NameSet} {p : Path}

/-- A row of steps goes on after its first step if that succeeds. -/
lemma mapM_cons_eq {α β ε : Type} (f : α → Except ε β) (a : α) (l : List α) :
    (a :: l).mapM f =
      match f a, l.mapM f with
      | .error e, _ => .error e
      | .ok _, .error e => .error e
      | .ok b, .ok bs => .ok (b :: bs) := by
  rw [List.mapM_cons]
  cases f a with
  | error e => rfl
  | ok b => cases l.mapM f <;> rfl

/-- Files that are scanned each by itself give what they give in a row. -/
lemma scanEach_eq_scan : fs.scanEach allowed p = fs.scan allowed p := by
  unfold FileSystem.scanEach FileSystem.scan
  induction fs.sourceFiles p with
  | nil => rfl
  | cons q paths ih =>
    rw [mapM_cons_eq, ← ih]
    cases hq : fs.scanFile allowed q with
    | error fault => simp [hq]
    | ok file =>
      simp only [List.map_cons, hq, List.findSome?_cons, List.filterMap_cons]
      cases (paths.map (fs.scanFile allowed)).findSome? _ <;> rfl

/-- A file that cannot be scanned cannot be read. -/
lemma eq_unreadable_of_scanFile {fault : AuditFault} (h : fs.scanFile allowed p = .error fault) :
    ∃ reason, fault = .unreadable p.toString reason := by
  unfold FileSystem.scanFile at h
  split at h
  · cases h
  · cases h
    exact ⟨_, rfl⟩

/-- A scan fails because of a file that cannot be read. -/
lemma exists_unreadable_of_scan {fault : AuditFault} (h : fs.scan allowed p = .error fault) :
    ∃ q ∈ fs.sourceFiles p, fs.scanFile allowed q = .error fault := by
  unfold FileSystem.scan at h
  generalize fs.sourceFiles p = paths at h ⊢
  induction paths with
  | nil => cases h
  | cons q paths ih =>
    rw [mapM_cons_eq] at h
    split at h
    · rename_i hq
      cases h
      exact ⟨q, List.mem_cons_self, hq⟩
    · rename_i hrest
      cases h
      obtain ⟨r, hr, hscan⟩ := ih hrest
      exact ⟨r, List.mem_cons_of_mem _ hr, hscan⟩
    · cases h

end Scanning

/-! ### The analysis of one target -/

namespace AuditContext

variable {x : AuditContext} {t : Target}

/-- Of a directory of sources it is only reported that there is none. -/
lemma eq_sourcesNotFound {fs : FileSystem} {root : Path} {fault : AuditFault}
    (h : fs.sourceRoot root t = .error fault) : ∃ p, fault = .sourcesNotFound p := by
  unfold FileSystem.sourceRoot at h
  split at h
  · cases h
  · cases h
    exact ⟨_, rfl⟩

/-- A target without sources has nothing to analyze. -/
lemma analyzeTarget_of_not_hasSources (h : t.hasSources = false) :
    x.analyzeTarget t = .ok (Analysis.trivial t) := by
  simp [analyzeTarget, h]

/-- A target whose sources are not found is not analyzed. -/
lemma analyzeTarget_of_error (h : t.hasSources = true) {fault : AuditFault}
    (hroot : x.files.sourceRoot x.package.root t = .error fault) :
    x.analyzeTarget t = .error fault := by
  simp [analyzeTarget, h, hroot, bind, Except.bind]

/-- A target whose sources are found is classified, if they can be read. -/
lemma analyzeTarget_of_root (h : t.hasSources = true) {root : Path}
    (hroot : x.files.sourceRoot x.package.root t = .ok root) :
    x.analyzeTarget t = (x.files.scan x.allowed root).map (x.classify t) := by
  simp only [analyzeTarget, h, hroot, bind, Except.bind, if_true]
  cases x.files.scan x.allowed root <;> rfl

/-- A file that keeps a target from being analyzed: it is among its sources and cannot be read. -/
def Unreadable (x : AuditContext) (t : Target) (fault : AuditFault) : Prop :=
  ∃ root, x.files.sourceRoot x.package.root t = .ok root ∧
    ∃ q ∈ x.files.sourceFiles root, x.files.scanFile x.allowed q = .error fault

/-- The analysis of a target gives a result, or there is no directory of sources, or one of the
sources cannot be read; and in an audit it has the same outcome. -/
lemma analyzeTarget_cases (x : AuditContext) (t : Target) :
    (∃ a, x.analyzeTarget t = .ok a ∧ x.outcome t = .analyzed a) ∨
      (∃ p, x.analyzeTarget t = .error (.sourcesNotFound p) ∧ x.outcome t = .skipped) ∨
      ∃ path reason, x.analyzeTarget t = .error (.unreadable path reason) ∧
        x.Unreadable t (.unreadable path reason) ∧
        x.outcome t = .failed (.audit (.unreadable path reason)) := by
  cases hs : t.hasSources with
  | false => exact .inl ⟨_, analyzeTarget_of_not_hasSources hs, by simp [outcome, hs]⟩
  | true =>
    cases hroot : x.files.sourceRoot x.package.root t with
    | error fault =>
      obtain ⟨p, rfl⟩ := eq_sourcesNotFound hroot
      exact .inr (.inl ⟨p, analyzeTarget_of_error hs hroot, by simp [outcome, hs, hroot]⟩)
    | ok root =>
      have htarget := analyzeTarget_of_root hs hroot
      cases hscan : x.files.scan x.allowed root with
      | error fault =>
        obtain ⟨q, hq, hfault⟩ := exists_unreadable_of_scan hscan
        obtain ⟨reason, rfl⟩ := eq_unreadable_of_scanFile hfault
        rw [hscan] at htarget
        exact .inr (.inr ⟨_, reason, htarget, ⟨root, hroot, q, hq, hfault⟩,
          by simp [outcome, hs, hroot, scanEach_eq_scan, hscan]⟩)
      | ok files =>
        rw [hscan] at htarget
        exact .inl ⟨_, htarget, by simp [outcome, hs, hroot, scanEach_eq_scan, hscan]⟩

end AuditContext

/-! ### Reports -/

/-- What some targets have come to, in their order: the results of their analyses, the names of
those without a directory of sources, and those of which a source file cannot be read. Each target
has one entry in one of the three lists. -/
inductive Entries (x : AuditContext) :
    List Target → List Analysis → List String → List TargetFailure → Prop
  | nil : Entries x [] [] [] []
  | result {t : Target} {a : Analysis} {targets : List Target} {results : List Analysis}
      {skipped : List String} {failures : List TargetFailure}
      (analysis : x.analyzeTarget t = .ok a) (rest : Entries x targets results skipped failures) :
      Entries x (t :: targets) (a :: results) skipped failures
  | skipped {t : Target} {p : String} {targets : List Target} {results : List Analysis}
      {skipped : List String} {failures : List TargetFailure}
      (analysis : x.analyzeTarget t = .error (.sourcesNotFound p))
      (rest : Entries x targets results skipped failures) :
      Entries x (t :: targets) results (t.name :: skipped) failures
  | failure {t : Target} {path reason : String} {targets : List Target} {results : List Analysis}
      {skipped : List String} {failures : List TargetFailure}
      (analysis : x.analyzeTarget t = .error (.unreadable path reason))
      (file : x.Unreadable t (.unreadable path reason))
      (rest : Entries x targets results skipped failures) :
      Entries x (t :: targets) results skipped
        (⟨t.name, .audit (.unreadable path reason)⟩ :: failures)

namespace AuditContext

/-- The outcomes for some targets. -/
def outcomes (x : AuditContext) (targets : List Target) : List (Target × Outcome) :=
  targets.map fun t => (t, x.outcome t)

/-- A report has one entry for each target, in their order, and it is the outcome for that
target. -/
lemma entries_ofOutcomes (x : AuditContext) (targets : List Target) :
    let r := Report.ofOutcomes x.package (x.outcomes targets)
    Entries x targets r.results r.skipped r.failures := by
  induction targets with
  | nil => exact .nil
  | cons t targets ih =>
    rcases x.analyzeTarget_cases t with ⟨a, ht, ho⟩ | ⟨p, ht, ho⟩ |
      ⟨path, reason, ht, hfile, ho⟩
    · simpa [Report.ofOutcomes, outcomes, ho, Outcome.analysis?, Outcome.isSkipped,
        Outcome.unreadable?] using Entries.result ht ih
    · simpa [Report.ofOutcomes, outcomes, ho, Outcome.analysis?, Outcome.isSkipped,
        Outcome.unreadable?] using Entries.skipped ht ih
    · simpa [Report.ofOutcomes, outcomes, ho, Outcome.analysis?, Outcome.isSkipped,
        Outcome.unreadable?] using Entries.failure ht hfile ih

/-- No outcome ends the whole audit. -/
lemma collectOutcomes_eq (x : AuditContext) (targets : List Target) :
    (collectOutcomes x.package (x.outcomes targets)).1 =
      .ok (Report.ofOutcomes x.package (x.outcomes targets)) := by
  have hnone : (x.outcomes targets).findSome? (·.2.unexpected?) = none := by
    rw [List.findSome?_eq_none_iff]
    rintro o ho
    obtain ⟨t, -, rfl⟩ := List.mem_map.1 ho
    rcases x.analyzeTarget_cases t with ⟨a, -, ho⟩ | ⟨p, -, ho⟩ |
      ⟨path, reason, -, -, ho⟩ <;>
      simp [ho, Outcome.unexpected?]
  simp only [collectOutcomes, hnone]

end AuditContext

/-! ### Selecting targets -/

/-- The selected targets are some of those of the package, in their order. -/
lemma sublist_of_select {p : Package} {name : Option String} {excludeTests : Bool}
    {targets : List Target} (h : p.select name excludeTests = .ok targets) :
    targets.Sublist p.targets := by
  unfold Package.select at h
  split at h
  · split at h
    · rename_i t ht
      cases h
      exact List.singleton_sublist.2 (List.mem_of_find?_eq_some ht)
    · cases h
  · cases h
    exact List.filter_sublist

/-- If nothing in particular is asked for, all targets are selected. -/
lemma select_all (p : Package) : p.select none false = .ok p.targets := by
  simp [Package.select]

/-- A report is that on more targets, restricted to some of them. -/
structure Report.Restricts (r full : Report) : Prop where
  package : r.package = full.package
  results : r.results.Sublist full.results
  skipped : r.skipped.Sublist full.skipped
  failures : r.failures.Sublist full.failures

/-- The report on fewer targets says the same of these. -/
lemma AuditContext.restricts_of_sublist (x : AuditContext) {some all : List Target}
    (h : some.Sublist all) :
    (Report.ofOutcomes x.package (x.outcomes some)).Restricts
      (Report.ofOutcomes x.package (x.outcomes all)) where
  package := rfl
  results := (h.map _).filterMap _
  skipped := ((h.map _).filter _).map _
  failures := (h.map _).filterMap _

/-! ### The audit -/

/-- A number that is asked for, unless it is zero, and a default are not negative. -/
lemma getD_filter_nonneg {asked : Option Int} {default : Int} (hasked : ∀ n ∈ asked, 0 ≤ n)
    (hdefault : 0 ≤ default) : 0 ≤ (asked.filter (· ≠ 0)).getD default := by
  cases h : asked.filter (· ≠ 0) with
  | none => exact hdefault
  | some n => exact hasked n (Option.mem_filter_iff.1 h).1

/-- The number of workers is not negative if what is asked for is not. -/
lemma workersOr_nonneg {asked processors : Option Int} (hasked : ∀ n ∈ asked, 0 ≤ n)
    (hprocessors : ∀ n ∈ processors, 0 ≤ n) : 0 ≤ Auditor.workersOr asked processors := by
  refine getD_filter_nonneg hasked (Int.le_min.2 ⟨?_, by decide⟩)
  exact getD_filter_nonneg hprocessors (by decide)

/-- Once the targets are selected and the external packages are known, the report is that on the
outcomes of the targets. -/
lemma run_eq {x : Auditor} (hworkers : 0 ≤ x.workers) {fs : FileSystem} {path : Path}
    {target : Option String} {excludeTests : Bool} {p : Package} {targets : List Target}
    {externals : List ExternalPackage} (hread : (x.reader.readAt fs path).1 = .ok p)
    (hselect : p.select target excludeTests = .ok targets)
    (hexternals : x.externals fs p = .ok externals) :
    x.run fs path target excludeTests =
      .ok (Report.ofOutcomes p
        ((⟨fs, p, externals, x.allowed⟩ : AuditContext).outcomes targets)) := by
  have hcollect := AuditContext.collectOutcomes_eq ⟨fs, p, externals, x.allowed⟩ targets
  have hnot : ¬x.workers < 0 := by omega
  simp only [Auditor.run, hread, hselect, hexternals, Except.mapError, bind, Except.bind, hnot,
    if_false]
  exact hcollect

/-- Where the disk does not answer there is no report. -/
lemma run_eq_error {x : Auditor} {fs : FileSystem} {path : Path} {target : Option String}
    {excludeTests : Bool} {p : Package} {targets : List Target} {fault : DiskFault}
    (hread : (x.reader.readAt fs path).1 = .ok p)
    (hselect : p.select target excludeTests = .ok targets)
    (hexternals : x.externals fs p = .error fault) :
    x.run fs path target excludeTests = .error (.disk fault) := by
  simp only [Auditor.run, hread, hselect, hexternals, Except.mapError, bind, Except.bind]

/-- If a manifest is read, the named target exists, no negative number of workers is asked for, and
the paths that are looked for are paths of the disk, then an audit gives a report. It has one entry
for each selected target, in their order, which is what the analysis of the target by itself comes
to with the same external packages; and it is the report on all targets restricted to the selected
ones. -/
theorem Auditor.run_entries (x : Auditor) {asked processors : Option Int}
    (hworkers : x.workers = workersOr asked processors) (hasked : ∀ n ∈ asked, 0 ≤ n)
    (hprocessors : ∀ n ∈ processors, 0 ≤ n) {fs : FileSystem} {path : Path}
    {target : Option String} {excludeTests : Bool} {p : Package} {targets : List Target}
    (hread : (x.reader.readAt fs path).1 = .ok p)
    (hselect : p.select target excludeTests = .ok targets) (hdisk : Searchable fs p) :
    ∃ externals report full,
      x.externals fs p = .ok externals ∧
      x.run fs path target excludeTests = .ok report ∧
      Entries ⟨fs, p, externals, x.allowed⟩ targets report.results report.skipped
        report.failures ∧
      x.run fs path none false = .ok full ∧
      Entries ⟨fs, p, externals, x.allowed⟩ p.targets full.results full.skipped
        full.failures ∧
      targets.Sublist p.targets ∧ report.Restricts full := by
  have hnonneg : 0 ≤ x.workers := hworkers ▸ workersOr_nonneg hasked hprocessors
  have hsublist := sublist_of_select hselect
  obtain ⟨externals, hexternals⟩ : ∃ externals, x.externals fs p = .ok externals :=
    exists_resolve ⟨x.reader, x.depth⟩ hdisk []
  let context : AuditContext := ⟨fs, p, externals, x.allowed⟩
  exact ⟨externals, _, _, hexternals, run_eq hnonneg hread hselect hexternals,
    context.entries_ofOutcomes targets, run_eq hnonneg hread (select_all p) hexternals,
    context.entries_ofOutcomes p.targets, hsublist, context.restricts_of_sublist hsublist⟩

/-! ### A package with a reference to a path -/

/-- A manifest that refers to a package at a path, as it is written between quotes. -/
def manifestWith (path : String) : List Char :=
  ["Package(name: \"P\", ", "dependencies: [", ".package(path: \"", path, "\")], ",
    "targets: [.target(", "name: \"A\")])"].flatMap String.toList

/-- The package of such a manifest. -/
def packageWith (reference : PackageReference) : Package where
  name := "P"
  root := ⟨.relative, []⟩
  targets := [⟨"A", .library, [], none⟩]
  products := []
  references := [reference]

/-- A directory with such a manifest and a source file of its target. -/
def directoryWith (path : String) : FileSystem where
  workingDirectory := ⟨[]⟩
  root := .directory [("Package.swift", .file (Text.asciiBytes (manifestWith path))),
    ("Sources",
      .directory [("A", .directory [("a.swift", .file (Text.asciiBytes "import B".toList))])])]

/-- What the manifest says is found in the directory. -/
lemma readAt_directoryWith {path : String} {p : Package}
    (hascii : (manifestWith path).all (fun c => c.toNat < 0x80 && c != '\r') = true)
    (h : Reader.bySections (manifestWith path) ⟨.relative, []⟩ = .ok p) :
    (Reader.sections.readAt (directoryWith path) ⟨.relative, []⟩).1 = .ok p := by
  have hpath : Reader.manifestPath ⟨.relative, []⟩ = ⟨.relative, ["Package.swift"]⟩ := by
    decide +kernel
  have hfile : (directoryWith path).get? ⟨.relative, ["Package.swift"]⟩ =
      some (.file (Text.asciiBytes (manifestWith path))) := rfl
  rw [Reader.readAt_asciiBytes _ (by rw [hpath]; exact hfile) hascii (by rw [hpath]; exact h)]

/-- The manifest of the example with a sibling is read as its package. -/
lemma readAt_directoryWith_sibling :
    (Reader.sections.readAt (directoryWith "../K") ⟨.relative, []⟩).1 =
      .ok (packageWith ⟨"K", "../K", true⟩) :=
  readAt_directoryWith (by decide +kernel) (by decide +kernel)

/-- The target of the package has one entry, whether it is asked for or not. -/
theorem Auditor.run_entries_sibling :
    let x : Auditor := ⟨.sections, ∅, workersOr (some 4) none, 5⟩
    let fs := directoryWith "../K"
    let p := packageWith ⟨"K", "../K", true⟩
    (Reader.sections.readAt fs ⟨.relative, []⟩).1 = .ok p ∧ Searchable fs p ∧
      ∃ externals report full,
        x.externals fs p = .ok externals ∧
        x.run fs ⟨.relative, []⟩ (some "A") true = .ok report ∧
        Entries ⟨fs, p, externals, ∅⟩ [⟨"A", .library, [], none⟩]
          report.results report.skipped report.failures ∧
        x.run fs ⟨.relative, []⟩ none false = .ok full ∧
        Entries ⟨fs, p, externals, ∅⟩ p.targets full.results full.skipped full.failures ∧
        [⟨"A", .library, [], none⟩].Sublist p.targets ∧ report.Restricts full := by
  intro x fs p
  have hdisk : Searchable fs p := by
    refine ⟨by decide +kernel, by decide +kernel, ?references⟩
    case references =>
      intro ref href _
      rw [List.mem_singleton.1 href]
      decide +kernel
  have hworkers : x.workers = workersOr (some 4) none := rfl
  exact ⟨readAt_directoryWith_sibling, hdisk, Auditor.run_entries x hworkers (by simp) (by simp)
    readAt_directoryWith_sibling rfl hdisk⟩

/-- The manifest of the example with the character that ends paths is read as its package. -/
lemma readAt_directoryWith_endMark :
    (Reader.sections.readAt (directoryWith "\\0") ⟨.relative, []⟩).1 =
      .ok (packageWith ⟨"\x00", "\x00", true⟩) :=
  readAt_directoryWith (by decide +kernel) (by decide +kernel)

/-- Without a condition on the paths that are looked for there need not be a report, though the
manifest is read, all targets are selected, no negative number of workers is asked for, and no
target has more than one file. -/
theorem Auditor.run_not_total :
    ¬∀ (x : Auditor) (fs : FileSystem) (path : Path) (p : Package),
      0 ≤ x.workers → (x.reader.readAt fs path).1 = .ok p →
        (∀ t ∈ p.targets, ∀ root, fs.sourceRoot p.root t = .ok root →
          (fs.sourceFiles root).length ≤ 1) →
            ∃ report, x.run fs path none false = .ok report := by
  intro h
  let x : Auditor := ⟨.sections, ∅, 4, 5⟩
  let fs := directoryWith "\\0"
  let p := packageWith ⟨"\x00", "\x00", true⟩
  have hread : (x.reader.readAt fs ⟨.relative, []⟩).1 = .ok p := readAt_directoryWith_endMark
  have hexternals : x.externals fs p = .error .endMark := rfl
  have hfiles : ∀ t ∈ p.targets, ∀ root, fs.sourceRoot p.root t = .ok root →
      (fs.sourceFiles root).length ≤ 1 := by
    intro t ht root hroot
    obtain rfl := List.mem_singleton.1 ht
    have hsources : fs.sourceRoot p.root ⟨"A", .library, [], none⟩ =
        .ok ⟨.relative, ["Sources", "A"]⟩ := rfl
    obtain rfl := Except.ok.inj (hsources.symm.trans hroot)
    decide +kernel
  obtain ⟨report, hrun⟩ := h x fs ⟨.relative, []⟩ p (by decide) hread hfiles
  rw [run_eq_error hread (select_all p) hexternals] at hrun
  cases hrun

end SwiftDependencies
