import Mathlib.Tactic.Common
import SwiftDependencies.Proofs.Analysis.Sources
import SwiftDependencies.Proofs.Audit.Targets
import SwiftDependencies.Proofs.Import.Reading

/-!
# Leaving out ignored modules twice

Imports of ignored modules are left out when a file is scanned, and the analysis leaves them out
again of the modules that it observes.  The second time would be enough: what is scanned with a list
of allowed modules is what is scanned with a shorter list, without the imports that the longer one
ignores (`Import.ofText_eq_filter`).

So an analysis with some allowed modules finds the same in files that were scanned with them and in
files that were scanned with none (`AnalysisInput.analyze_scanned`).  The files themselves differ,
and with them the places of the ignored imports; but no ignored module is missing, and only of what
is missing are the places told.
-/

namespace SwiftDependencies

variable {allowed shorter : NameSet}

namespace Import

/-- To leave out more modules when a line is read is to leave them out afterwards. -/
lemma onLine?_eq_filter (h : ∀ n ∈ shorter, n ∈ allowed) (number : Nat) (line : List Char) :
    onLine? allowed number line = (onLine? shorter number line).filter fun i =>
      !isIgnored allowed i.module := by
  unfold onLine?
  cases ofLine? line with
  | none => rfl
  | some name =>
    have hmono : isIgnored shorter name = true → isIgnored allowed name = true := isIgnored_mono h
    simp only [Option.filter_some]
    generalize isIgnored shorter name = a at hmono
    cases a with
    | false => simp [Option.filter_some]
    | true => simp [hmono rfl]

/-- To leave out more modules when lines are read is to leave them out afterwards. -/
lemma ofLines_eq_filter (h : ∀ n ∈ shorter, n ∈ allowed) (number : Nat)
    (lines : List (List Char)) :
    ofLines allowed number lines = (ofLines shorter number lines).filter fun i =>
      !isIgnored allowed i.module := by
  induction lines generalizing number with
  | nil => rfl
  | cons line lines ih =>
    rw [ofLines_cons, ofLines_cons, List.filter_append, ← ih, onLine?_eq_filter h]
    cases onLine? shorter number line with
    | none => rfl
    | some i => cases hi : isIgnored allowed i.module <;> simp [Option.filter, hi]

/-- With more modules allowed, the imports of a text are those of before that are still not
ignored. -/
lemma ofText_eq_filter (h : ∀ n ∈ shorter, n ∈ allowed) (text : List Char) :
    ofText allowed text = (ofText shorter text).filter fun i => !isIgnored allowed i.module :=
  ofLines_eq_filter h 1 (Text.lines text)

/-- The imports of a module that is not ignored are the same. -/
lemma filter_module_ofText (h : ∀ n ∈ shorter, n ∈ allowed) {name : String}
    (hname : isIgnored allowed name = false) (text : List Char) :
    ((ofText allowed text).filter fun i => i.module == name) =
      (ofText shorter text).filter fun i => i.module == name := by
  rw [ofText_eq_filter h, List.filter_filter]
  refine List.filter_congr fun i _ => ?_
  rw [Bool.and_eq_left_iff_imp]
  intro hi
  rw [beq_iff_eq.1 hi, hname, Bool.not_false]

end Import

/-! ### Scanned files -/

/-- The files at some paths with some contents, scanned with a list of allowed modules. -/
def scanned (allowed : NameSet) (contents : List (Path × List Char)) : List SourceFile :=
  contents.map fun c => ⟨c.1, Import.ofText allowed c.2⟩

/-- Whether files can be scanned, and what they contain, does not depend on what is allowed. -/
lemma FileSystem.scan_cases (fs : FileSystem) (p : Path) :
    (∃ fault, ∀ allowed, fs.scan allowed p = .error fault) ∨
      ∃ contents, ∀ allowed, fs.scan allowed p = .ok (scanned allowed contents) := by
  unfold FileSystem.scan
  induction fs.sourceFiles p with
  | nil => exact .inr ⟨[], fun _ => rfl⟩
  | cons q paths ih =>
    cases hq : fs.read q with
    | error fault =>
      have hscan : ∀ allowed, fs.scanFile allowed q =
          .error (.unreadable q.toString fault.message) := by
        intro allowed
        rw [scanFile, hq]
      refine .inl ⟨.unreadable q.toString fault.message, fun allowed => ?_⟩
      rw [mapM_cons_eq, hscan]
    | ok text =>
      have hscan : ∀ allowed, fs.scanFile allowed q =
          .ok ⟨q, Import.ofText allowed text⟩ := by
        intro allowed
        rw [scanFile, hq]
      rcases ih with ⟨fault, hrest⟩ | ⟨contents, hrest⟩
      · refine .inl ⟨fault, fun allowed => ?_⟩
        rw [mapM_cons_eq, hscan, hrest]
      · refine .inr ⟨(q, text) :: contents, fun allowed => ?_⟩
        rw [mapM_cons_eq, hscan, hrest]
        rfl

namespace AnalysisInput

variable {x : AnalysisInput}

/-- Scanned files import what is read in their texts. -/
lemma imports_scanned {allowed : NameSet} {contents : List (Path × List Char)} {n : String} :
    (x.withFiles (scanned allowed contents)).Imports n ↔
      ∃ c ∈ contents, ∃ i ∈ Import.ofText allowed c.2, i.module = n := by
  simp [Imports, withFiles, scanned]

/-- The observed modules are the same, since those that a scan leaves out would not be observed. -/
lemma observed_scanned (h : ∀ n ∈ shorter, n ∈ x.allowed)
    (contents : List (Path × List Char)) :
    (x.withFiles (scanned x.allowed contents)).observed =
      (x.withFiles (scanned shorter contents)).observed := by
  refine NameSet.ext fun n => ?_
  simp only [mem_observed, imports_scanned, allowed_withFiles]
  refine and_congr_left fun hn => exists_congr fun c => and_congr_right fun _ =>
    exists_congr fun i => ?_
  rw [Import.ofText_eq_filter h, List.mem_filter, and_assoc]
  refine and_congr_right fun _ => and_iff_right_of_imp ?_
  rintro rfl
  rw [hn, Bool.not_false]

/-- A missing module is not ignored. -/
lemma isIgnored_of_mem_missing {n : String} (h : n ∈ x.analyze.missing) :
    isIgnored x.allowed n = false := by
  cases hs : x.target.hasSources with
  | false =>
    rw [analyze_of_not_hasSources hs] at h
    exact absurd h (NameSet.not_mem_empty n)
  | true =>
    rw [analyze_of_hasSources hs] at h
    exact (mem_observed.1 (mem_missing.1 h).1).2

/-- The places of a module are those in the files, if the target has sources at all. -/
lemma sites_analyze (n : String) :
    x.analyze.sites n = if x.target.hasSources then
      x.files.flatMap fun f => (f.imports.filter fun i => i.module == n).map fun i =>
        (f.path, i.line) else [] := by
  cases hs : x.target.hasSources with
  | false => simp [analyze_of_not_hasSources hs, Analysis.sites, Analysis.trivial]
  | true => rw [analyze_of_hasSources hs, if_pos rfl, Analysis.sites]

/-- The sites of a module that is not ignored do not depend on which ignored modules were left out
in scanning. -/
lemma sites_scanned (h : ∀ n ∈ shorter, n ∈ x.allowed) {contents : List (Path × List Char)}
    {n : String} (hn : isIgnored x.allowed n = false) :
    (x.withFiles (scanned x.allowed contents)).analyze.sites n =
      (x.withFiles (scanned shorter contents)).analyze.sites n := by
  simp only [sites_analyze, withFiles, scanned, List.flatMap_map, Import.filter_module_ofText h hn]

/-- Scanning fails with a list of allowed modules as it does with none, or gives the same files.
Analysed with that list, the files that were scanned with it have the same categories as those that
were scanned with none, and every missing module is imported at the same places. -/
theorem analyze_scanned (x : AnalysisInput) :
    (∀ (fs : FileSystem) (p : Path),
      (∃ fault, fs.scan x.allowed p = .error fault ∧ fs.scan ∅ p = .error fault) ∨
        ∃ contents, fs.scan x.allowed p = .ok (scanned x.allowed contents) ∧
          fs.scan ∅ p = .ok (scanned ∅ contents)) ∧
      ∀ contents : List (Path × List Char),
        (x.withFiles (scanned x.allowed contents)).analyze.SameCategories
            (x.withFiles (scanned ∅ contents)).analyze ∧
          ∀ n ∈ (x.withFiles (scanned x.allowed contents)).analyze.missing,
            (x.withFiles (scanned x.allowed contents)).analyze.sites n =
              (x.withFiles (scanned ∅ contents)).analyze.sites n := by
  have hempty : ∀ n ∈ (∅ : NameSet), n ∈ x.allowed :=
    fun n hn => absurd hn (NameSet.not_mem_empty n)
  refine ⟨fun fs p => ?_, fun contents => ⟨?_, fun n hn => ?_⟩⟩
  · rcases fs.scan_cases p with ⟨fault, h⟩ | ⟨contents, h⟩
    · exact .inl ⟨fault, h _, h _⟩
    · exact .inr ⟨contents, h _, h _⟩
  · exact sameCategories_of_observed (observed_scanned hempty contents)
  · have hignored : isIgnored x.allowed n = false :=
      isIgnored_of_mem_missing (x := x.withFiles (scanned x.allowed contents)) hn
    exact sites_scanned hempty hignored

end AnalysisInput

end SwiftDependencies
