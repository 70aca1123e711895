import Mathlib.Data.List.Perm.Basic
import Mathlib.Tactic.Common
import SwiftDependencies.Proofs.Analysis.Membership
import SwiftDependencies.Report.Finding

/-!
# The findings of a report and what is behind them

Behind a finding stands a fact: an import of a missing module, in a file and on a line, or a name
that a target declares without need.  A report lists the findings by targets, categories and names,
so it is not at once clear that none is lost or told twice.  `Report.findings_perm` says that the
findings are the facts, each once.

Two things come together.  The report goes through the missing modules and, for each, through the
imports of that module; since no module is missing twice, this visits every import of a missing
module once (`flatMap_filter_perm`).  And an analysis only calls missing what is imported somewhere,
and only calls unused or redundant what is declared, so no finding is without a place
(`sites_ne_nil_of_analyze`, `exists_declaration_of_analyze`).
-/

namespace SwiftDependencies

/-- To collect the elements of a list by their keys, for some keys without repetitions, is to pick
those whose key is among them. -/
lemma flatMap_filter_perm {α : Type} {key : α → String} {keys : List String}
    (hkeys : keys.Nodup) (l : List α) :
    (keys.flatMap fun k => l.filter fun x => key x == k).Perm (l.filter fun x =>
      key x ∈ keys) := by
  induction keys with
  | nil => simp
  | cons k keys ih =>
    obtain ⟨hk, hkeys⟩ := List.nodup_cons.1 hkeys
    let chosen := l.filter fun x => key x ∈ k :: keys
    have hthis : chosen.filter (fun x => key x == k) = l.filter fun x => key x == k := by
      rw [List.filter_filter]
      refine List.filter_congr ?_
      intro x _
      by_cases hx : key x = k <;> simp [hx]
    have hothers : chosen.filter (fun x => !(key x == k)) = l.filter fun x => key x ∈ keys := by
      rw [List.filter_filter]
      refine List.filter_congr ?_
      intro x _
      by_cases hx : key x = k
      · simp [hx, hk]
      · simp [hx]
    have hchosen := List.filter_append_perm (fun x => key x == k) chosen
    rw [hthis, hothers] at hchosen
    rw [List.flatMap_cons]
    exact ((ih hkeys).append_left _).trans hchosen

/-- Among findings of one severity, those of a severity are all or none. -/
lemma filter_severity {l : List Finding} {severity : Severity}
    (h : ∀ f ∈ l, f.severity = severity) (wanted : Severity) :
    l.filter (·.severity = wanted) = if severity = wanted then l else [] := by
  split
  · rename_i heq
    subst heq
    simpa [List.filter_eq_self] using h
  · rename_i hne
    simp only [List.filter_eq_nil_iff, decide_eq_true_eq]
    intro f hf
    rw [h f hf]
    exact hne

/-- The shown path of the manifest is its name. -/
lemma shownPath_manifestPath (workingDirectory : Place) (p : Package) :
    shownPath workingDirectory p.root p.manifestPath = manifestName := by
  rw [shownPath, Package.manifestPath, Place.ofPath_join_manifestName, Place.route]
  simp only [Place.commonLength_append, Nat.sub_self, List.replicate_zero, List.nil_append,
    List.drop_left]
  rfl

namespace Analysis

variable {a : Analysis} {name : String}

/-! ### Imports of missing modules -/

/-- The import statements of the source files, each with its file. -/
def statements (a : Analysis) : List (SourceFile × Import) :=
  a.files.flatMap fun f => f.imports.map (f, ·)

/-- The import statements of missing modules. -/
def missingStatements (a : Analysis) : List (SourceFile × Import) :=
  a.statements.filter fun s => s.2.module ∈ a.missing

/-- The sites of a module are the places of the statements that import it. -/
lemma sites_eq (a : Analysis) (name : String) :
    a.sites name =
      (a.statements.filter fun s => s.2.module == name).map fun s => (s.1.path, s.2.line) := by
  simp [sites, statements, List.filter_flatMap, List.map_flatMap, List.filter_map,
    Function.comp_def]

/-- The finding on an import of a missing module. -/
def statementFinding (shown : Path → String) (s : SourceFile × Import) : Finding :=
  ⟨.error, shown s.1.path, some s.2.line, missingMessage s.2.module⟩

/-- If every missing module is imported somewhere, the findings on missing modules are those on the
imports of missing modules. -/
lemma missingFindings_perm {manifest : Path} {shown : Path → String}
    (h : ∀ n ∈ a.missing, a.sites n ≠ []) :
    (a.missingFindings manifest shown).Perm (a.missingStatements.map (statementFinding shown)) := by
  have hfindings : a.missingFindings manifest shown =
      (a.missing.toList.flatMap fun n => a.statements.filter fun s => s.2.module == n).map
        (statementFinding shown) := by
    unfold missingFindings
    rw [List.map_flatMap]
    refine List.flatMap_congr ?_
    intro n hn
    have hblamed : a.blamed manifest n = (a.sites n).map fun s => (s.1, some s.2) := by
      unfold blamed
      split
      · rename_i hnil
        exact absurd hnil (h n hn)
      · rfl
    rw [hblamed, sites_eq, List.map_map, List.map_map]
    refine List.map_congr_left ?_
    intro s hs
    have hmodule : s.2.module = n := by simpa using (List.mem_filter.1 hs).2
    simp [statementFinding, hmodule]
  have hnodup : a.missing.toList.Nodup := a.missing.sorted.imp fun hlt heq => by
    subst heq
    exact String.lt_irrefl _ hlt
  rw [hfindings]
  exact (flatMap_filter_perm hnodup a.statements).map _

/-! ### Declarations -/

/-- A target declares a name, and this is the first declaration of it. -/
def FirstDeclares (t : Target) (name : String) (d : Dependency) : Prop :=
  ∃ before after, t.dependencies = before ++ d :: after ∧ d.name = name ∧
    ∀ e ∈ before, e.name ≠ name

/-- The declared line of a name that a target declares is the line of its first declaration. -/
lemma exists_firstDeclares (h : name ∈ a.target.dependencyNames) :
    ∃ d, FirstDeclares a.target name d ∧ a.declaredLine? name = d.line := by
  obtain ⟨d, hd, hname⟩ := AnalysisInput.mem_dependencyNames.1 h
  have hsome : (a.declaration? name).isSome = true := by
    rw [declaration?, List.find?_isSome]
    exact ⟨d, hd, by simp [hname]⟩
  obtain ⟨first, hfirst⟩ := Option.isSome_iff_exists.1 hsome
  obtain ⟨hfirstName, before, after, heq, hbefore⟩ := List.find?_eq_some_iff_append.1 hfirst
  refine ⟨first, ⟨before, after, heq, by simpa using hfirstName, ?_⟩, ?_⟩
  · intro e he
    simpa using hbefore e he
  · rw [declaredLine?, hfirst]
    rfl

/-! ### What the analysis guarantees -/

/-- A missing module is imported somewhere. -/
lemma sites_ne_nil_of_analyze {x : AnalysisInput} (hn : name ∈ x.analyze.missing) :
    x.analyze.sites name ≠ [] := by
  cases hsources : x.target.hasSources with
  | false =>
    rw [AnalysisInput.analyze_of_not_hasSources hsources] at hn
    exact absurd hn (NameSet.not_mem_empty name)
  | true =>
    rw [AnalysisInput.analyze_of_hasSources hsources] at hn ⊢
    have hobserved := (AnalysisInput.mem_missing.1 hn).1
    obtain ⟨f, hf, i, hi, hmodule⟩ := (AnalysisInput.mem_observed.1 hobserved).1
    exact List.ne_nil_of_mem (mem_sites.2 ⟨f, hf, i, hi, hmodule, rfl⟩)

/-- An unused or redundant name is declared. -/
lemma exists_declaration_of_analyze {x : AnalysisInput}
    (hn : name ∈ x.analyze.unused ∨ name ∈ x.analyze.redundantNames) :
    name ∈ x.analyze.target.dependencyNames := by
  cases hsources : x.target.hasSources with
  | false =>
    rw [AnalysisInput.analyze_of_not_hasSources hsources] at hn
    rcases hn with hn | hn
    · exact absurd hn (NameSet.not_mem_empty name)
    · simp [redundantNames, trivial] at hn
  | true =>
    rw [AnalysisInput.analyze_of_hasSources hsources] at hn ⊢
    rcases hn with hunused | hredundant
    · rw [AnalysisInput.mem_dependencyNames_iff]
      obtain ⟨-, -, ⟨hdirect, -⟩ | ⟨hproduct, -⟩⟩ := AnalysisInput.mem_unused.1 hunused
      · exact .inl hdirect
      · exact .inr hproduct
    · obtain ⟨d, hd, -, hname⟩ :=
        AnalysisInput.mem_dependencyNames_of_mem_redundantNames hredundant
      exact AnalysisInput.mem_dependencyNames.2 ⟨d, hd, hname⟩

/-! ### The findings on a target -/

/-- The findings on names that are declared without need, in a manifest under the given name. -/
def declarationFindings (a : Analysis) (manifest : String) : List Finding :=
  (a.unused.toList.map fun n =>
      ⟨.warning, manifest, a.declaredLine? n, unusedMessage n a.target.name⟩) ++
    a.redundant.map fun r => ⟨.warning, manifest, a.declaredLine? r.name, redundantMessage r⟩

section Severity

variable {manifest : Path} {shown : Path → String}

/-- A missing module is an error. -/
lemma severity_of_mem_missingFindings {f : Finding} (hf : f ∈ a.missingFindings manifest shown) :
    f.severity = .error := by
  obtain ⟨n, -, hn⟩ := List.mem_flatMap.1 hf
  obtain ⟨s, -, rfl⟩ := List.mem_map.1 hn
  rfl

/-- What is unused or redundant is a warning. -/
lemma severity_of_mem_warnings {f : Finding}
    (hf : f ∈ a.unusedFindings (shown manifest) ++ a.redundantFindings (shown manifest)) :
    f.severity = .warning := by
  rcases List.mem_append.1 hf with hunused | hredundant
  · obtain ⟨n, -, rfl⟩ := List.mem_map.1 hunused
    rfl
  · obtain ⟨r, -, rfl⟩ := List.mem_map.1 hredundant
    rfl

/-- The errors among the findings on an analyzed target are those on its imports of missing
modules. -/
lemma errors_perm {x : AnalysisInput} (hx : x.analyze = a) :
    ((a.findings manifest shown).filter (·.severity = .error)).Perm
      (a.missingStatements.map (statementFinding shown)) := by
  have hsites : ∀ n ∈ a.missing, a.sites n ≠ [] := by
    subst hx
    exact fun n hn => sites_ne_nil_of_analyze hn
  rw [findings, List.append_assoc, List.filter_append,
    filter_severity fun f => severity_of_mem_missingFindings,
    filter_severity fun f => severity_of_mem_warnings]
  simpa using missingFindings_perm hsites

/-- The warnings among the findings on a target are those on what it declares without need. -/
lemma warnings_perm :
    ((a.findings manifest shown).filter (·.severity = .warning)).Perm
      (a.declarationFindings (shown manifest)) := by
  rw [findings, List.append_assoc, List.filter_append,
    filter_severity fun f => severity_of_mem_missingFindings,
    filter_severity fun f => severity_of_mem_warnings]
  simp only [reduceCtorEq, if_false, if_true, List.nil_append]
  have hredundant : (a.redundantFindings (shown manifest)).Perm
      (a.redundant.map fun r =>
        ⟨.warning, shown manifest, a.declaredLine? r.name, redundantMessage r⟩) :=
    (perm_sortedBy _ _).map _
  exact hredundant.append_left _

end Severity

end Analysis

/-! ### The findings of a report -/

/-- The findings of one severity in a report, by the targets and failures they are about. -/
lemma Report.filter_severity_findings (r : Report) (workingDirectory : Place)
    (severity : Severity) :
    ((r.findings workingDirectory).filter (·.severity = severity)).Perm
      ((r.results.flatMap fun a => (a.findings r.package.manifestPath
          (shownPath workingDirectory r.package.root)).filter (·.severity = severity)) ++
        (if .error = severity then r.failures.map (·.finding r.package.manifestPath
          (shownPath workingDirectory r.package.root)) else [])) := by
  unfold findings
  dsimp only
  have hfailures : ∀ f ∈ r.failuresByName.map (·.finding r.package.manifestPath
      (shownPath workingDirectory r.package.root)), f.severity = .error := by
    intro f hf
    obtain ⟨failure, -, rfl⟩ := List.mem_map.1 hf
    rfl
  rw [List.filter_append, filter_severity hfailures, List.filter_flatMap]
  refine List.Perm.append ((perm_sortedBy _ _).flatMap_right _) ?_
  split
  · exact (perm_sortedBy _ _).map _
  · exact .refl _

/-- If all results come from analyses, the findings of a report are the facts behind them, each
once. The errors are the imports of missing modules, each at its file and line, and the failures;
the warnings are the unused names and the redundant findings, each on the manifest and at the line
of the first declaration of the name, which there always is. -/
theorem Report.findings_perm (r : Report) (workingDirectory : Place)
    (h : ∀ a ∈ r.results, ∃ x : AnalysisInput, x.analyze = a) :
    let shown := shownPath workingDirectory r.package.root
    ((r.findings workingDirectory).filter (·.severity = .error)).Perm
        ((r.results.flatMap fun a => a.missingStatements.map (Analysis.statementFinding shown)) ++
          r.failures.map (·.finding r.package.manifestPath shown)) ∧
      ((r.findings workingDirectory).filter (·.severity = .warning)).Perm
        (r.results.flatMap (·.declarationFindings manifestName)) ∧
      ∀ a ∈ r.results, ∀ name, name ∈ a.unused ∨ name ∈ a.redundantNames →
        ∃ d, Analysis.FirstDeclares a.target name d ∧ a.declaredLine? name = d.line := by
  intro shown
  refine ⟨?errors, ?warnings, ?declared⟩
  case errors =>
    refine (r.filter_severity_findings workingDirectory .error).trans ?_
    rw [if_pos rfl]
    refine List.Perm.append_right _ (List.Perm.flatMap_left r.results ?_)
    intro a ha
    obtain ⟨x, hx⟩ := h a ha
    exact Analysis.errors_perm hx
  case warnings =>
    refine (r.filter_severity_findings workingDirectory .warning).trans ?_
    rw [if_neg (by decide), List.append_nil, ← shownPath_manifestPath workingDirectory r.package]
    refine List.Perm.flatMap_left r.results ?_
    intro a _
    exact Analysis.warnings_perm
  case declared =>
    intro a ha name hname
    obtain ⟨x, rfl⟩ := h a ha
    exact Analysis.exists_firstDeclares (Analysis.exists_declaration_of_analyze hname)

/-- The analysis of a target that imports `Net` in two files without declaring it, and declares
`Stale` without importing it and `NIOCore` next to a product that contains it. -/
def shopInput : AnalysisInput where
  target := ⟨"App", .executable, [⟨"NIO", .product, some "swift-nio", some 11⟩,
    ⟨"Stale", .target, none, some 12⟩, ⟨"NIOCore", .target, none, some 13⟩], none⟩
  package := ⟨"Shop", ⟨.root, ["work"]⟩, [], [], []⟩
  externals := []
  productMap := ⟨[("NIO", ["NIOCore", "NIOPosix"])]⟩
  files := [⟨⟨.root, ["work", "Sources", "App", "main.swift"]⟩,
    [⟨"NIOPosix", 1, false⟩, ⟨"Net", 3, false⟩]⟩,
    ⟨⟨.root, ["work", "Sources", "App", "other.swift"]⟩, [⟨"Net", 1, false⟩]⟩]
  allowed := ∅

/-- Each of the two imports and each of the two declarations is told once. -/
theorem Report.findings_perm_shop :
    let r : Report := ⟨shopInput.package, [shopInput.analyze], [], []⟩
    (∀ a ∈ r.results, ∃ x : AnalysisInput, x.analyze = a) ∧
      ((r.findings ⟨[]⟩).filter (·.severity = .error)).Perm
        [⟨.error, "Sources/App/main.swift", some 3, missingMessage "Net"⟩,
          ⟨.error, "Sources/App/other.swift", some 1, missingMessage "Net"⟩] ∧
      ((r.findings ⟨[]⟩).filter (·.severity = .warning)).Perm
        [⟨.warning, "Package.swift", some 12, unusedMessage "Stale" "App"⟩,
          ⟨.warning, "Package.swift", some 13,
            redundantMessage ⟨"NIOCore", "NIO", "swift-nio"⟩⟩] ∧
      ∃ d, Analysis.FirstDeclares shopInput.target "Stale" d ∧ d.line = some 12 := by
  intro r
  have hresults : ∀ a ∈ r.results, ∃ x : AnalysisInput, x.analyze = a := by
    intro a ha
    exact ⟨shopInput, (List.mem_singleton.1 ha).symm⟩
  obtain ⟨herrors, hwarnings, hdeclared⟩ := Report.findings_perm r ⟨[]⟩ hresults
  have hstale : "Stale" ∈ shopInput.analyze.unused := by decide +kernel
  have hline : shopInput.analyze.declaredLine? "Stale" = some 12 := by decide +kernel
  obtain ⟨d, hd, hdline⟩ := hdeclared _ (List.mem_singleton.2 rfl) "Stale" (.inl hstale)
  refine ⟨hresults, ?_, ?_, d, hd, hdline.symm.trans hline⟩
  · convert herrors using 1
    decide +kernel
  · convert hwarnings using 1
    decide +kernel

end SwiftDependencies
