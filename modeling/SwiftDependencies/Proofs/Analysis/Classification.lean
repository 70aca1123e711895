import Mathlib.Tactic.Common
import SwiftDependencies.Proofs.Analysis.Membership

/-!
# The analysis classifies imports and declarations

An analysis has to be consistent and complete.  It is consistent if no name is in two of the
categories missing, unused and correct, and if nothing is reported that is ignored, internal,
provided by a product, or declared.  It is complete if every import and every declared name that is
not ignored is accounted for.

`Classifies` states this of any answer, without reference to how it is computed, and
`analyze_classifies` says that the analysis of every target with sources has it.  The names that are
declared more than once, both directly and as products, are the reason why the coverage of
declarations is not immediate: a bare name that stands for a product leaves the direct names.
-/

namespace SwiftDependencies

namespace AnalysisInput

variable {x : AnalysisInput} {n : String}

/-- An answer that classifies the imports and the declarations of a target. -/
structure Classifies (x : AnalysisInput) (a : Analysis) : Prop where
  missing_not_unused : ∀ n ∈ a.missing, n ∉ a.unused
  missing_not_correct : ∀ n ∈ a.missing, n ∉ a.correct
  unused_not_correct : ∀ n ∈ a.unused, n ∉ a.correct
  missing_not_ignored : ∀ n ∈ a.missing, isIgnored x.allowed n = false
  missing_not_internal : ∀ n ∈ a.missing, n ∉ x.internal
  missing_not_satisfied : ∀ n ∈ a.missing, ∀ s ∈ a.satisfied, s.module ≠ n
  missing_not_redundant : ∀ n ∈ a.missing, n ∉ a.redundantNames
  missing_not_declared : ∀ n ∈ a.missing, n ∉ x.target.dependencyNames
  unused_not_ignored : ∀ n ∈ a.unused, isIgnored x.allowed n = false
  unused_not_imported : ∀ n ∈ a.unused, ¬x.Imports n
  /-- Every import that is not ignored is accounted for. -/
  imports_covered : ∀ n, x.Imports n → isIgnored x.allowed n = false →
    n ∈ a.missing ∨ n ∈ a.correct ∨ (∃ s ∈ a.satisfied, s.module = n) ∨
    n ∈ a.redundantNames ∨ n ∈ x.internal
  /-- Every declared name that is not ignored is accounted for. -/
  declarations_covered : ∀ n ∈ x.target.dependencyNames, isIgnored x.allowed n = false →
    n ∈ a.correct ∨ n ∈ a.unused ∨ n ∈ a.redundantNames ∨
    ∃ s ∈ a.satisfied, s.product = n

/-! ### Consistency -/

/-- What is missing is not declared, so it is not redundant either. -/
lemma not_mem_redundantNames_of_mem_missing (h : n ∈ x.missing) : n ∉ x.redundantNames := by
  intro hr
  obtain ⟨d, hd, -, hn⟩ := mem_dependencyNames_of_mem_redundantNames hr
  exact (mem_missing.1 h).2.2.1 (mem_dependencyNames.2 ⟨d, hd, hn⟩)

/-- What is correct is declared. -/
lemma mem_dependencyNames_of_mem_correct (h : n ∈ x.correct) :
    n ∈ x.target.dependencyNames := by
  rw [mem_dependencyNames_iff]
  rcases (mem_correct.1 h).2 with ⟨hd, -⟩ | hp
  · exact .inl hd
  · exact .inr hp

/-- An import is not missing if a declared product provides it. -/
lemma ne_of_mem_missing (h : n ∈ x.missing) {s : Satisfied} (hs : s ∈ x.satisfied) :
    s.module ≠ n := by
  rintro rfl
  obtain ⟨-, -, p, hp, -⟩ := mem_satisfied.1 hs
  exact (mem_missing.1 h).2.2.2 (provides_iff.2 ⟨p, hp⟩)

/-! ### Coverage -/

/-- An import that is not missing is declared, provided or internal; and what is declared directly
is correct unless it is redundant. -/
lemma imports_covered_of_mem_observed (ho : n ∈ x.observed) :
    n ∈ x.missing ∨ n ∈ x.correct ∨ n ∈ x.satisfiedNames ∨ n ∈ x.redundantNames ∨
      n ∈ x.internal := by
  by_cases hi : n ∈ x.internal
  · exact .inr (.inr (.inr (.inr hi)))
  by_cases hs : x.Provides n
  · exact .inr (.inr (.inl (mem_satisfiedNames.2 ⟨ho, hi, hs⟩)))
  by_cases hd : n ∈ x.target.dependencyNames
  · rcases mem_dependencyNames_iff.1 hd with hd | hp
    · by_cases hr : n ∈ x.redundantNames
      · exact .inr (.inr (.inr (.inl hr)))
      · exact .inr (.inl (mem_correct.2 ⟨ho, .inl ⟨hd, hr⟩⟩))
    · exact .inr (.inl (mem_correct.2 ⟨ho, .inr hp⟩))
  · exact .inl (mem_missing.2 ⟨ho, hi, hd, hs⟩)

/-- A declared name is correct if it is imported. If it is not, it is no satisfied import either, so
it is unused unless it is redundant or a product in use. -/
lemma declarations_covered_of_mem (hd : n ∈ x.target.dependencyNames)
    (hn : isIgnored x.allowed n = false) :
    n ∈ x.correct ∨ n ∈ x.unused ∨ n ∈ x.redundantNames ∨ n ∈ x.usedProducts := by
  by_cases hr : n ∈ x.redundantNames
  · exact .inr (.inr (.inl hr))
  by_cases hu : n ∈ x.usedProducts
  · exact .inr (.inr (.inr hu))
  have hkind := mem_dependencyNames_iff.1 hd
  by_cases ho : n ∈ x.observed
  · exact .inl (mem_correct.2 ⟨ho, hkind.imp (fun h => ⟨h, hr⟩) id⟩)
  · have hs : n ∉ x.satisfiedNames := fun h => ho (mem_satisfiedNames.1 h).1
    exact .inr
      (.inl (mem_unused.2 ⟨hn, ho, hkind.imp (fun h => ⟨h, hr⟩) fun h => ⟨h, hs, hu⟩⟩))

/-! ### The classification -/

/-- The analysis of a target with sources is a consistent and complete classification. -/
theorem analyze_classifies (x : AnalysisInput) (h : x.target.hasSources = true) :
    x.Classifies x.analyze := by
  rw [analyze_of_hasSources h]
  constructor
  case missing_not_unused =>
    intro n hm hu
    exact (mem_unused.1 hu).2.1 (mem_missing.1 hm).1
  case missing_not_correct =>
    intro n hm hc
    exact (mem_missing.1 hm).2.2.1 (mem_dependencyNames_of_mem_correct hc)
  case unused_not_correct =>
    intro n hu hc
    exact (mem_unused.1 hu).2.1 (mem_correct.1 hc).1
  case missing_not_ignored => exact fun n hm => (mem_observed.1 (mem_missing.1 hm).1).2
  case missing_not_internal => exact fun n hm => (mem_missing.1 hm).2.1
  case missing_not_satisfied => exact fun n hm s hs => ne_of_mem_missing hm hs
  case missing_not_redundant => exact fun n hm => not_mem_redundantNames_of_mem_missing hm
  case missing_not_declared => exact fun n hm => (mem_missing.1 hm).2.2.1
  case unused_not_ignored => exact fun n hu => (mem_unused.1 hu).1
  case unused_not_imported =>
    intro n hu hi
    obtain ⟨hn, ho, -⟩ := mem_unused.1 hu
    exact ho (mem_observed.2 ⟨hi, hn⟩)
  case imports_covered =>
    intro n hi hn
    rcases imports_covered_of_mem_observed (mem_observed.2 ⟨hi, hn⟩) with
      hm | hc | hs | hr | hin
    · exact .inl hm
    · exact .inr (.inl hc)
    · exact .inr (.inr (.inl (by simpa [satisfiedNames] using hs)))
    · exact .inr (.inr (.inr (.inl hr)))
    · exact .inr (.inr (.inr (.inr hin)))
  case declarations_covered =>
    intro n hd hn
    rcases declarations_covered_of_mem hd hn with hc | hu | hr | hp
    · exact .inl hc
    · exact .inr (.inl hu)
    · exact .inr (.inr (.inl hr))
    · exact .inr (.inr (.inr (mem_usedProducts.1 hp)))

/-- A target that declares one product explicitly and another by its bare name, and one of its
members as well, next to a sibling and an ignored module. -/
theorem analyze_classifies_mixed :
    let app : Target := ⟨"App", .executable,
      [.bare "Core", .bare "Kit", .bare "Wire", .ofProduct "Net" none, .bare "Wire"], none⟩
    let net : ExternalPackage :=
      ⟨"net", [⟨"Net", .library, ["Wire", "Sockets"], "net"⟩,
        ⟨"Kit", .library, ["KitCore"], "net"⟩], default⟩
    let package : Package := ⟨"App", default, [app, ⟨"Core", .library, [], none⟩], [], []⟩
    let file : SourceFile :=
      ⟨default, [⟨"Sockets", 1, false⟩, ⟨"Core", 2, false⟩, ⟨"Lost", 3, false⟩]⟩
    let x : AnalysisInput :=
      ⟨app, package, [net], .ofPackages [net], [file], NameSet.ofList ["Core"]⟩
    app.hasSources = true ∧ x.Classifies x.analyze :=
  ⟨rfl, analyze_classifies _ rfl⟩

end AnalysisInput

end SwiftDependencies
