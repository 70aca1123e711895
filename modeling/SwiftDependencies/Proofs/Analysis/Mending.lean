import Mathlib.Data.List.Basic
import Mathlib.Tactic.Common
import SwiftDependencies.Proofs.Analysis.Redundancy

/-!
# Acting on what an analysis reports

Whoever deletes what is unused, or declares what is missing, changes the declarations of a target,
and with them which bare names stand for products, which product is the first to provide an import,
and what is redundant.  Both edits are safe.

What a single declaration stands for does not depend on the others, so the declared products of
fewer declarations are fewer products in the same order (`productUses_without`), and those of more
declarations begin with the same ones.  The first provider of an import is therefore still the first
as long as it stays, and it stays if no product in use is deleted: `analyze_without_unused`.  It
also stays if declarations are added at the end, and an added name that stands for a product can
only provide what no product provided before: `analyze_declaring_missing`.
-/

namespace SwiftDependencies

namespace AnalysisInput

variable {x : AnalysisInput} {n : String}

/-! ### More and fewer declarations -/

/-- Which products are declared is decided one declaration at a time. -/
lemma productUses_withDependencies (deps : List Dependency) :
    (x.withDependencies deps).productUses = deps.filterMap x.productUse? := rfl

section Sublist

variable {deps more : List Dependency}

/-- More declarations declare more products. -/
lemma mem_productUses_of_sublist (h : deps.Sublist more) {p : ProductUse}
    (hp : p ∈ (x.withDependencies deps).productUses) :
    p ∈ (x.withDependencies more).productUses :=
  (h.filterMap _).mem hp

/-- Fewer declarations declare no name more often. -/
lemma directCount_le_of_sublist (h : deps.Sublist more) (n : String) :
    (x.withDependencies deps).directCount n ≤ (x.withDependencies more).directCount n :=
  h.countP_le

/-- With more declarations whatever was redundant still is. -/
lemma mem_redundantNames_of_sublist (h : deps.Sublist more)
    (hn : n ∈ (x.withDependencies deps).redundantNames) :
    n ∈ (x.withDependencies more).redundantNames := by
  obtain ⟨p, hp, hmember, hseparate⟩ := mem_redundantNames.1 hn
  refine mem_redundantNames.2 ⟨p, mem_productUses_of_sublist h hp, hmember, ?_⟩
  have hcount := directCount_le_of_sublist (x := x) h n
  unfold separateCount at hseparate ⊢
  omega

end Sublist

/-! ### Deleting declarations -/

/-- The same analysis of a target without any declaration of some names. -/
def without (x : AnalysisInput) (names : NameSet) : AnalysisInput :=
  x.withDependencies (x.target.dependencies.filter fun d => d.name ∉ names)

variable {names : NameSet}

/-- The declarations that are left have other names. -/
lemma mem_dependencies_without {d : Dependency} :
    d ∈ (x.without names).target.dependencies ↔
      d ∈ x.target.dependencies ∧ d.name ∉ names := by
  simp [without, withDependencies]

/-- The declared names that are left are the other ones. -/
lemma mem_dependencyNames_without :
    n ∈ (x.without names).target.dependencyNames ↔
      n ∈ x.target.dependencyNames ∧ n ∉ names := by
  simp only [mem_dependencyNames, mem_dependencies_without]
  constructor
  · rintro ⟨d, ⟨hd, hkept⟩, rfl⟩
    exact ⟨⟨d, hd, rfl⟩, hkept⟩
  · rintro ⟨⟨d, hd, rfl⟩, hkept⟩
    exact ⟨d, ⟨hd, hkept⟩, rfl⟩

/-- The declared products are those of before, in the same order, without the deleted ones. -/
lemma productUses_without :
    (x.without names).productUses = x.productUses.filter fun p => p.name ∉ names := by
  rw [without, productUses_withDependencies, List.filterMap_filter, productUses,
    List.filter_filterMap]
  refine List.filterMap_congr ?_
  intro d _
  cases hd : x.productUse? d with
  | none => simp
  | some p =>
    have hname := name_of_productUse? hd
    by_cases hkept : d.name ∈ names <;> simp [Option.filter_some, hname, hkept]

/-- The declared products that are left are those of other names. -/
lemma mem_productNames_without :
    n ∈ (x.without names).productNames ↔ n ∈ x.productNames ∧ n ∉ names := by
  simp only [productNames, NameSet.mem_ofList, productUses_without, List.mem_map, List.mem_filter,
    decide_eq_true_eq]
  constructor
  · rintro ⟨p, ⟨hp, hkept⟩, rfl⟩
    exact ⟨⟨p, hp, rfl⟩, hkept⟩
  · rintro ⟨⟨p, hp, rfl⟩, hkept⟩
    exact ⟨p, ⟨hp, hkept⟩, rfl⟩

/-- A name that is kept is still declared directly. -/
lemma mem_directNames_without (hn : n ∈ x.directNames) (hkept : n ∉ names) :
    n ∈ (x.without names).directNames := by
  obtain ⟨⟨d, hd, hbare, rfl⟩, hnot⟩ := mem_directNames.1 hn
  exact mem_directNames.2 ⟨⟨d, mem_dependencies_without.2 ⟨hd, hkept⟩, hbare, rfl⟩,
    hnot⟩

/-- An import that had no provider, or one that is not deleted, has the provider that it had. -/
lemma provider?_without (h : ∀ p, x.provider? n = some p → p.name ∉ names) :
    (x.without names).provider? n = x.provider? n := by
  have hprovider : (x.without names).provider? n =
      (x.productUses.filter fun p => p.name ∉ names).find?
      fun p => (x.productMap.members p.name).contains n := by
    rw [provider?, productUses_without]
    rfl
  rw [hprovider, List.find?_filter]
  cases hfirst : x.provider? n with
  | none =>
    rw [provider?, List.find?_eq_none] at hfirst
    rw [List.find?_eq_none]
    intro p hp
    have hnot := hfirst p hp
    simp_all
  | some p =>
    have hkept := h p hfirst
    obtain ⟨hmember, before, after, heq, hbefore⟩ := List.find?_eq_some_iff_append.1 hfirst
    refine List.find?_eq_some_iff_append.2 ⟨by simpa [hkept] using hmember, before,
      after, heq, ?_⟩
    intro q hq
    have hnot := hbefore q hq
    simp_all

/-- What is redundant without some declarations is so with them. -/
lemma mem_redundantNames_of_without (hn : n ∈ (x.without names).redundantNames) :
    n ∈ x.redundantNames :=
  mem_redundantNames_of_sublist (List.filter_sublist) hn

section Unused

variable (hunused : ∀ n ∈ names, n ∈ x.unused)
    (hused : ∀ s ∈ x.satisfied, s.product ∉ names)

include hunused in
/-- An unused name is not imported. -/
lemma not_mem_names_of_mem_observed (ho : n ∈ x.observed) : n ∉ names := fun hn =>
  (mem_unused.1 (hunused n hn)).2.1 ho

include hused in
/-- Every import that counts has the provider that it had. -/
lemma provider?_without_unused (ho : n ∈ x.observed) (hi : n ∉ x.internal) :
    (x.without names).provider? n = x.provider? n :=
  provider?_without fun p hp =>
    hused ⟨n, p.name, p.package⟩ (mem_satisfied.2 ⟨ho, hi, p, hp, rfl, rfl⟩)

include hused in

/-- Without unused declarations the same products provide the same modules. -/
lemma satisfied_without_unused : (x.without names).satisfied = x.satisfied := by
  refine List.filterMap_congr ?_
  intro n hn
  obtain ⟨ho, hi⟩ := NameSet.mem_diff.1 (NameSet.mem_def.2 hn)
  rw [provider?_without_unused hused ho hi]

include hunused hused in

/-- Without unused declarations the same modules are missing. -/
lemma missing_without_unused : (x.without names).missing = x.missing := by
  refine NameSet.ext fun n => ?_
  rw [mem_missing, mem_missing]
  refine and_congr_right fun (ho : n ∈ x.observed) =>
    and_congr_right fun (hi : n ∉ x.internal) => ?_
  have hkept := not_mem_names_of_mem_observed hunused ho
  rw [mem_dependencyNames_without, provides_iff, provides_iff, provider?_without_unused hused ho hi]
  simp [hkept]

include hunused in

/-- Without unused declarations the correct ones stay correct. -/
lemma mem_correct_without_unused (hn : n ∈ x.correct) : n ∈ (x.without names).correct := by
  obtain ⟨ho, hkind⟩ := mem_correct.1 hn
  have hkept := not_mem_names_of_mem_observed hunused ho
  refine mem_correct.2 ⟨ho, ?_⟩
  rcases hkind with ⟨hdirect, hnot⟩ | hproduct
  · exact .inl ⟨mem_directNames_without hdirect hkept,
      fun hr => hnot (mem_redundantNames_of_without hr)⟩
  · exact .inr (mem_productNames_without.2 ⟨hproduct, hkept⟩)

end Unused

/-- Deleting all declarations of some unused names, none of them a product in use, leaves what is
missing and what is provided as it is, and whatever is correct stays correct. -/
theorem analyze_without_unused (x : AnalysisInput) {names : NameSet}
    (hunused : ∀ n ∈ names, n ∈ x.analyze.unused)
    (hused : ∀ s ∈ x.analyze.satisfied, s.product ∉ names) :
    (x.without names).analyze.missing = x.analyze.missing ∧
      (x.without names).analyze.satisfied = x.analyze.satisfied ∧
      ∀ n ∈ x.analyze.correct, n ∈ (x.without names).analyze.correct := by
  cases h : x.target.hasSources with
  | false =>
    have h' : (x.without names).target.hasSources = false := h
    rw [analyze_of_not_hasSources h, analyze_of_not_hasSources h']
    exact ⟨rfl, rfl, fun n hn => hn⟩
  | true =>
    have h' : (x.without names).target.hasSources = true := h
    rw [analyze_of_hasSources h] at hunused hused
    rw [analyze_of_hasSources h, analyze_of_hasSources h']
    exact ⟨missing_without_unused hunused hused, satisfied_without_unused hused,
      fun n hn => mem_correct_without_unused hunused hn⟩

/-- A target that declares a product in use, one that is not, whose name is written bare, an
imported module and a stale one. It misses two modules, of which one has the name of a product. -/
def brokenInput : AnalysisInput :=
  let net : ExternalPackage := ⟨"net", [⟨"Net", .library, ["Wire", "Sockets"], "net"⟩,
    ⟨"Kit", .library, ["KitCore"], "net"⟩, ⟨"Extra", .library, ["ExtraCore"], "net"⟩], default⟩
  ⟨⟨"App", .library,
      [.bare "Kit", .bare "Log", .ofProduct "Net" (some "net"), .bare "Stale"], none⟩,
    ⟨"Pkg", default, [], [], []⟩, [net], .ofPackages [net],
    [⟨default,
      [⟨"Wire", 1, false⟩, ⟨"Log", 2, false⟩, ⟨"Lost", 3, false⟩, ⟨"Extra", 4, false⟩]⟩], ∅⟩

/-- What the analysis of the target finds. -/
lemma analyze_brokenInput :
    brokenInput.analyze.missing.toList = ["Extra", "Lost"] ∧
      brokenInput.analyze.satisfied = [⟨"Wire", "Net", "net"⟩] ∧
      brokenInput.analyze.unused.toList = ["Kit", "Stale"] ∧
      brokenInput.analyze.correct.toList = ["Log"] := by
  rw [analyze_of_hasSources rfl]
  simp only [missing, unused, correct, satisfiedNames, usedProducts, satisfied,
    observed, isIgnored_eq]
  decide +kernel

/-- Both unused names are deleted, and the product in use is not. -/
theorem analyze_without_unused_broken :
    let names := NameSet.ofList ["Kit", "Stale"]
    (∀ n ∈ names, n ∈ brokenInput.analyze.unused) ∧
      (∀ s ∈ brokenInput.analyze.satisfied, s.product ∉ names) ∧
      (brokenInput.without names).analyze.missing.toList = ["Extra", "Lost"] ∧
      (brokenInput.without names).analyze.satisfied = [⟨"Wire", "Net", "net"⟩] ∧
      "Log" ∈ (brokenInput.without names).analyze.correct := by
  intro names
  obtain ⟨hmissing, hsatisfied, hlist, hcorrect⟩ := analyze_brokenInput
  have hunused : ∀ n ∈ names, n ∈ brokenInput.analyze.unused := by
    intro n hn
    rw [NameSet.mem_def, hlist]
    exact hn
  have hused : ∀ s ∈ brokenInput.analyze.satisfied, s.product ∉ names := by
    rw [hsatisfied]
    decide +kernel
  have hlog : "Log" ∈ brokenInput.analyze.correct := by
    rw [NameSet.mem_def, hcorrect]
    exact List.mem_singleton.2 rfl
  obtain ⟨hm, hs, hc⟩ := analyze_without_unused brokenInput hunused hused
  exact ⟨hunused, hused, (congrArg NameSet.toList hm).trans hmissing, hs.trans hsatisfied,
    hc "Log" hlog⟩

/-! ### Declaring what is missing -/

section Missing

variable {added : List Dependency}

/-- The same analysis of a target with further declarations at the end. -/
def declaring (x : AnalysisInput) (added : List Dependency) : AnalysisInput :=
  x.withDependencies (x.target.dependencies ++ added)

/-- With further declarations the declarations are the old and the new ones. -/
lemma mem_dependencies_declaring {d : Dependency} :
    d ∈ (x.declaring added).target.dependencies ↔ d ∈ x.target.dependencies ∨ d ∈ added :=
  List.mem_append

/-- With further declarations the declared names are the old and the new ones. -/
lemma mem_dependencyNames_declaring :
    n ∈ (x.declaring added).target.dependencyNames ↔
      n ∈ x.target.dependencyNames ∨ n ∈ added.map (·.name) := by
  simp [declaring, withDependencies, Target.dependencyNames]

/-- What had a provider keeps it, since the products of before come first. -/
lemma provider?_declaring {p : ProductUse} (h : x.provider? n = some p) :
    (x.declaring added).provider? n = some p := by
  have hprovider : (x.declaring added).provider? n =
      (x.productUses ++ added.filterMap x.productUse?).find?
        fun p => (x.productMap.members p.name).contains n := by
    rw [provider?, declaring, productUses_withDependencies, List.filterMap_append]
    rfl
  rw [provider?] at h
  rw [hprovider, List.find?_append, h, Option.some_or]

/-- Every finding of before is still made. -/
lemma mem_satisfied_declaring {s : Satisfied} (h : s ∈ x.satisfied) :
    s ∈ (x.declaring added).satisfied := by
  obtain ⟨ho, hi, p, hp, hproduct, hpackage⟩ := mem_satisfied.1 h
  exact mem_satisfied.2 ⟨ho, hi, p, provider?_declaring hp, hproduct, hpackage⟩

/-- What is redundant stays so with further declarations. -/
lemma mem_redundantNames_declaring (h : n ∈ x.redundantNames) :
    n ∈ (x.declaring added).redundantNames :=
  mem_redundantNames_of_sublist (List.sublist_append_left x.target.dependencies added) h

/-- A declaration of a name that is not added was there before. -/
lemma mem_dependencies_of_declaring {d : Dependency}
    (hd : d ∈ (x.declaring added).target.dependencies) (hname : d.name ∉ added.map (·.name)) :
    d ∈ x.target.dependencies := by
  rcases mem_dependencies_declaring.1 hd with hd | hd
  · exact hd
  · exact absurd (List.mem_map_of_mem hd) hname

/-- If only imported names are added, what is unused then was unused before. -/
lemma mem_unused_of_declaring (hadded : ∀ n ∈ added.map (·.name), x.Imports n)
    (h : n ∈ (x.declaring added).unused) : n ∈ x.unused := by
  obtain ⟨hignored, himport, hkind⟩ := mem_unused_iff.1 h
  have hold : n ∉ added.map (·.name) := fun hn => himport (hadded n hn)
  refine mem_unused_iff.2 ⟨hignored, himport, ?_⟩
  rcases hkind with ⟨hdirect, hnot⟩ | ⟨hproduct, hnot⟩
  · obtain ⟨⟨d, hd, hbare, rfl⟩, hname⟩ := mem_directNames.1 hdirect
    exact .inl
      ⟨mem_directNames.2 ⟨⟨d, mem_dependencies_of_declaring hd hold, hbare, rfl⟩, hname⟩,
        fun hr => hnot (mem_redundantNames_declaring hr)⟩
  · obtain ⟨d, hd, rfl, hproduct⟩ := mem_productNames.1 hproduct
    refine .inr ⟨mem_productNames.2 ⟨d, mem_dependencies_of_declaring hd hold, rfl, hproduct⟩,
      ?_⟩
    intro hused
    obtain ⟨s, hs, hname⟩ := mem_usedProducts.1 hused
    exact hnot (mem_usedProducts.2 ⟨s, mem_satisfied_declaring hs, hname⟩)

/-- Nothing that is missing before is missing once it is declared, and nothing else becomes so. -/
lemma not_mem_missing_declaring (hadded : ∀ n ∈ x.missing, n ∈ added.map (·.name)) :
    n ∉ (x.declaring added).missing := by
  intro h
  obtain ⟨ho, hi, hdeclared, hprovided⟩ := mem_missing.1 h
  rw [mem_dependencyNames_declaring, not_or] at hdeclared
  have hbefore : ¬x.Provides n := by
    intro hp
    obtain ⟨p, hp⟩ := provides_iff.1 hp
    exact hprovided (provides_iff.2 ⟨p, provider?_declaring hp⟩)
  exact hdeclared.2 (hadded n (mem_missing.2 ⟨ho, hi, hdeclared.1, hbefore⟩))

end Missing

/-- If declarations of the missing names of a target with sources are added, one for each or more,
by bare names or as products, then nothing is missing any more, nothing is unused that was not, and
every import that a product provided is provided by it still. -/
theorem analyze_declaring_missing (x : AnalysisInput) (h : x.target.hasSources = true)
    {added : List Dependency}
    (hadded : ∀ n, n ∈ added.map (·.name) ↔ n ∈ x.analyze.missing) :
    (x.declaring added).analyze.missing = ∅ ∧
      (∀ n ∈ (x.declaring added).analyze.unused, n ∈ x.analyze.unused) ∧
      ∀ s ∈ x.analyze.satisfied, s ∈ (x.declaring added).analyze.satisfied := by
  have h' : (x.declaring added).target.hasSources = true := h
  rw [analyze_of_hasSources h] at hadded
  rw [analyze_of_hasSources h, analyze_of_hasSources h']
  refine ⟨NameSet.ext fun n => ?missing, ?unused, ?satisfied⟩
  case missing =>
    have hnot : n ∉ (x.declaring added).missing :=
      not_mem_missing_declaring fun n hn => (hadded n).2 hn
    exact iff_of_false hnot (NameSet.not_mem_empty n)
  case unused =>
    intro n hn
    refine mem_unused_of_declaring (fun n hn => ?_) hn
    exact (mem_observed.1 (mem_missing.1 ((hadded n).1 hn)).1).1
  case satisfied => exact fun s hs => mem_satisfied_declaring hs

/-- Both missing names are declared, and one of them stands for a product then. -/
theorem analyze_declaring_missing_broken :
    let added := [Dependency.bare "Lost", .bare "Extra"]
    brokenInput.target.hasSources = true ∧
      (∀ n, n ∈ added.map (·.name) ↔ n ∈ brokenInput.analyze.missing) ∧
      (brokenInput.declaring added).analyze.missing = ∅ ∧
      (∀ n ∈ (brokenInput.declaring added).analyze.unused, n ∈ brokenInput.analyze.unused) ∧
      ⟨"Wire", "Net", "net"⟩ ∈ (brokenInput.declaring added).analyze.satisfied := by
  intro added
  have hadded : ∀ n, n ∈ added.map (·.name) ↔ n ∈ brokenInput.analyze.missing := by
    intro n
    rw [NameSet.mem_def, analyze_brokenInput.1]
    simp [added, Dependency.bare, or_comm]
  obtain ⟨hmissing, hunused, hsatisfied⟩ := analyze_declaring_missing brokenInput rfl hadded
  have hwire : ⟨"Wire", "Net", "net"⟩ ∈ brokenInput.analyze.satisfied := by
    rw [analyze_brokenInput.2.1]
    exact List.mem_singleton.2 rfl
  exact ⟨rfl, hadded, hmissing, hunused, hsatisfied _ hwire⟩

end AnalysisInput

end SwiftDependencies
