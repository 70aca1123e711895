import Mathlib.Tactic.Common
import SwiftDependencies.Proofs.Analysis.Membership

/-!
# Deleting redundant declarations

A redundant name is contained in a declared product, so one direct declaration of it should be
dispensable.  Deleting one declaration of each redundant name leaves every explicit product and
every name that is not redundant in place (`DeletesEach.mem_of_mem`).  What it may take away is a
product that is declared by its bare name alone: if another product contains that name, the bare
name counts as redundant, and with it go the modules that only this product provides.

`missing_of_deletion_iff` says that this is the only way in which an import can become missing.
-/

namespace SwiftDependencies

/-- Deleting, for each of some names in turn, one bare declaration of that name. -/
inductive DeletesEach : List String → List Dependency → List Dependency → Prop
  | nil (deps : List Dependency) : DeletesEach [] deps deps
  | cons {names : List String} {before after rest : List Dependency} {d : Dependency}
      (bare : d.isProduct = false) (tail : DeletesEach names (before ++ after) rest) :
      DeletesEach (d.name :: names) (before ++ d :: after) rest

/-- Explicit products and declarations of other names stay. -/
lemma DeletesEach.mem_of_mem {names : List String} {deps rest : List Dependency}
    (h : DeletesEach names deps rest) {d : Dependency} (hd : d ∈ deps)
    (hk : d.isProduct = true ∨ d.name ∉ names) : d ∈ rest := by
  induction h with
  | nil => exact hd
  | cons bare tail ih =>
    rename_i names before after rest e
    have hne : d ≠ e := by
      rintro rfl
      rcases hk with hk | hk
      · simp [bare] at hk
      · exact hk List.mem_cons_self
    refine ih ?_ (hk.imp id fun hn hm => hn (List.mem_cons_of_mem _ hm))
    simp only [List.mem_append, List.mem_cons] at hd ⊢
    rcases hd with hd | rfl | hd
    · exact .inl hd
    · exact absurd rfl hne
    · exact .inr hd

namespace AnalysisInput

variable {x : AnalysisInput} {n : String}

/-- The same analysis of a target with other dependencies. -/
def withDependencies (x : AnalysisInput) (deps : List Dependency) : AnalysisInput :=
  { x with target := { x.target with dependencies := deps } }

/-! What is observed and what is internal do not depend on the declarations. -/

@[simp] lemma observed_withDependencies (deps : List Dependency) :
    (x.withDependencies deps).observed = x.observed := rfl

@[simp] lemma internal_withDependencies (deps : List Dependency) :
    (x.withDependencies deps).internal = x.internal := rfl

/-- Whether a module is provided depends only on the names of the declared products. -/
lemma provides_iff_productNames :
    x.Provides n ↔ ∃ p ∈ x.productNames, n ∈ x.productMap.members p := by
  constructor
  · rintro ⟨p, hp, hn⟩
    exact ⟨p.name, mem_productNames.2 (exists_productUse_iff.1 ⟨p, hp, rfl⟩), hn⟩
  · rintro ⟨name, hname, hn⟩
    obtain ⟨p, hp, rfl⟩ := exists_productUse_iff.2 (mem_productNames.1 hname)
    exact ⟨p, hp, hn⟩

/-- What a product of a target is good for: importing the module of its name and its members. -/
def Covers (x : AnalysisInput) (p n : String) : Prop :=
  n = p ∨ n ∈ x.productMap.members p

/-- What is declared stays declared, unless it is redundant and thus contained in a product that was
declared. -/
lemma declared_or_provides {deps : List Dependency}
    (hd : DeletesEach x.redundantNames.toList x.target.dependencies deps)
    (hn : n ∈ x.target.dependencyNames) :
    n ∈ (x.withDependencies deps).target.dependencyNames ∨ x.Provides n := by
  obtain ⟨d, hmem, rfl⟩ := mem_dependencyNames.1 hn
  by_cases hr : d.name ∈ x.redundantNames
  · obtain ⟨p, hp, hm, -⟩ := mem_redundantNames.1 hr
    exact .inr ⟨p, hp, hm⟩
  · exact .inl (mem_dependencyNames.2 ⟨d, hd.mem_of_mem hmem (.inr hr), rfl⟩)

/-- Deleting one bare declaration of each redundant name makes no import missing, exactly if of
every product that is no longer declared, what it covers is internal or still declared or provided
as far as it is imported. -/
theorem missing_of_deletion_iff (x : AnalysisInput) (h : x.target.hasSources = true)
    {deps : List Dependency}
    (hd : DeletesEach x.redundantNames.toList x.target.dependencies deps) :
    (∀ n ∈ (x.withDependencies deps).analyze.missing, n ∈ x.analyze.missing) ↔
      ∀ p ∈ x.productNames, p ∉ (x.withDependencies deps).productNames →
        ∀ n ∈ x.observed, x.Covers p n →
          n ∈ x.internal ∨ n ∈ (x.withDependencies deps).target.dependencyNames ∨
            (x.withDependencies deps).Provides n := by
  have h' : (x.withDependencies deps).target.hasSources = true := h
  rw [analyze_of_hasSources h, analyze_of_hasSources h']
  simp only [mem_missing, observed_withDependencies, internal_withDependencies]
  constructor
  · intro hsafe p hp _ n ho hc
    by_contra hnot
    obtain ⟨hi, hnd, hnp⟩ := not_or.1 hnot |>.imp id not_or.1
    obtain ⟨-, -, hxd, hxp⟩ := hsafe n ⟨ho, hi, hnd, hnp⟩
    rcases hc with rfl | hm
    · exact hxd (mem_dependencyNames_iff.2 (.inr hp))
    · exact hxp (provides_iff_productNames.2 ⟨p, hp, hm⟩)
  · rintro hcov n ⟨ho, hi, hnd, hnp⟩
    have hxp : ¬x.Provides n := by
      intro hprov
      obtain ⟨p, hp, hm⟩ := provides_iff_productNames.1 hprov
      by_cases hlost : p ∈ (x.withDependencies deps).productNames
      · exact hnp (provides_iff_productNames.2 ⟨p, hlost, hm⟩)
      · rcases hcov p hp hlost n ho (.inr hm) with h | h | h
        exacts [hi h, hnd h, hnp h]
    exact ⟨ho, hi, fun hx => (declared_or_provides hd hx).elim hnd hxp, hxp⟩

/-! ### A product that is taken away

One product contains the target `B`, and `B` is itself a product with a target of its own.  Declared
by its bare name, `B` is redundant to the first product, although nothing else provides its target.
-/

/-- A package with two products, of which the first contains a target with the name of the
second. -/
def nestedProducts : ExternalPackage :=
  ⟨"net", [⟨"A", .library, ["B"], "net"⟩, ⟨"B", .library, ["C"], "net"⟩], default⟩

/-- A target that declares the first product and the bare name of the second, and imports what both
contain. -/
def nestedInput : AnalysisInput :=
  ⟨⟨"App", .library, [.ofProduct "A" (some "net"), .bare "B"], none⟩,
    ⟨"Pkg", default, [], [], []⟩, [nestedProducts], .ofPackages [nestedProducts],
    [⟨default, [⟨"B", 1, false⟩, ⟨"C", 2, false⟩]⟩], ∅⟩

/-- In the example one name is redundant. -/
lemma redundantNames_nestedInput : nestedInput.redundantNames.toList = ["B"] := by
  decide +kernel

/-- The bare name is to be deleted. -/
lemma deletesEach_nestedInput :
    DeletesEach nestedInput.redundantNames.toList nestedInput.target.dependencies
      [.ofProduct "A" (some "net")] := by
  rw [redundantNames_nestedInput]
  exact @DeletesEach.cons [] [.ofProduct "A" (some "net")] [] _ (.bare "B") rfl (.nil _)

/-- The condition for safe deletions at two products of which one contains the name of the other. -/
theorem missing_of_deletion_iff_nested :
    nestedInput.target.hasSources = true ∧
      DeletesEach nestedInput.redundantNames.toList nestedInput.target.dependencies
        [.ofProduct "A" (some "net")] ∧
      ((∀ n ∈ (nestedInput.withDependencies [.ofProduct "A" (some "net")]).analyze.missing,
          n ∈ nestedInput.analyze.missing) ↔
        ∀ p ∈ nestedInput.productNames,
          p ∉ (nestedInput.withDependencies [.ofProduct "A" (some "net")]).productNames →
            ∀ n ∈ nestedInput.observed, nestedInput.Covers p n →
              n ∈ nestedInput.internal ∨
                n ∈ (nestedInput.withDependencies
                  [.ofProduct "A" (some "net")]).target.dependencyNames ∨
                  (nestedInput.withDependencies [.ofProduct "A" (some "net")]).Provides n) :=
  ⟨rfl, deletesEach_nestedInput,
    missing_of_deletion_iff nestedInput rfl deletesEach_nestedInput⟩

/-- Deleting one declaration of each redundant name is not safe for all targets. -/
theorem deletion_not_safe :
    ¬∀ (x : AnalysisInput) (deps : List Dependency), x.productMap = .ofPackages x.externals →
      DeletesEach x.redundantNames.toList x.target.dependencies deps →
        ∀ n ∈ (x.withDependencies deps).analyze.missing, n ∈ x.analyze.missing := by
  intro hsafe
  have hmissing : "C" ∈ (nestedInput.withDependencies
      [.ofProduct "A" (some "net")]).analyze.missing := by
    decide +kernel
  have hnot : "C" ∉ nestedInput.analyze.missing := by decide +kernel
  exact hnot (hsafe nestedInput _ rfl deletesEach_nestedInput "C" hmissing)

end AnalysisInput

end SwiftDependencies
