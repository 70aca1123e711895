import Mathlib.Tactic.Common
import SwiftDependencies.Proofs.Analysis.Membership

/-!
# Allowing more modules

A module on the list of allowed ones is never reported, but it is not seen as an import either.  So
a longer list takes the allowed modules away from what is missing and from what is unused, and
leaves the redundant declarations as they are; and a product of which only allowed modules are
imported is no longer in use.  Unless it is imported by its name or allowed itself, such a product
is unused with the longer list although it was not with the shorter one.

`analyze_withAllowed` says what changes, and `findings_not_mono` that products which are no longer
in use are a real exception.
-/

namespace SwiftDependencies

/-- According to some findings a product provides imports, and only such as are among some names. -/
def ProvidesOnly (findings : List Satisfied) (product : String) (names : NameSet) : Prop :=
  (∃ s ∈ findings, s.product = product) ∧ ∀ s ∈ findings, s.product = product →
    s.module ∈ names

/-- There is nothing to report if nothing is missing, unused or redundant. -/
lemma Analysis.hasIssues_eq_false_iff {a : Analysis} :
    a.hasIssues = false ↔
      (∀ n, n ∉ a.missing) ∧ (∀ n, n ∉ a.unused) ∧ a.redundant = [] := by
  simp [hasIssues, hasError, hasWarning]

namespace AnalysisInput

variable {x : AnalysisInput} {A B : NameSet} {n : String}

/-- The same analysis with another list of allowed modules. -/
def withAllowed (x : AnalysisInput) (allowed : NameSet) : AnalysisInput :=
  { x with allowed := allowed }

/-! What is imported and what is declared do not depend on the list. -/

@[simp] lemma allowed_withAllowed : (x.withAllowed A).allowed = A := rfl

@[simp] lemma imports_withAllowed : (x.withAllowed A).Imports n ↔ x.Imports n := Iff.rfl

@[simp] lemma internal_withAllowed : (x.withAllowed A).internal = x.internal := rfl

@[simp] lemma provides_withAllowed : (x.withAllowed A).Provides n ↔ x.Provides n := Iff.rfl

@[simp] lemma provider?_withAllowed : (x.withAllowed A).provider? n = x.provider? n := rfl

@[simp] lemma directNames_withAllowed : (x.withAllowed A).directNames = x.directNames := rfl

@[simp] lemma productNames_withAllowed : (x.withAllowed A).productNames = x.productNames := rfl

@[simp] lemma redundantNames_withAllowed :
    (x.withAllowed A).redundantNames = x.redundantNames := rfl

/-! ### What is observed -/

/-- A longer list ignores just the names on it besides those that were ignored before. -/
lemma isIgnored_eq_false_iff (h : ∀ n ∈ A, n ∈ B) :
    isIgnored B n = false ↔ isIgnored A n = false ∧ n ∉ B := by
  simp only [isIgnored, Bool.or_eq_false_iff, decide_eq_false_iff_not]
  constructor
  · rintro ⟨hs, hB⟩
    exact ⟨⟨hs, fun hA => hB (h n hA)⟩, hB⟩
  · rintro ⟨⟨hs, -⟩, hB⟩
    exact ⟨hs, hB⟩

/-- With more modules allowed, the observed modules are those from before that are not among the
allowed ones. -/
lemma mem_observed_withAllowed (h : ∀ n ∈ A, n ∈ B) :
    n ∈ (x.withAllowed B).observed ↔ n ∈ (x.withAllowed A).observed ∧ n ∉ B := by
  simp only [mem_observed, imports_withAllowed, allowed_withAllowed, isIgnored_eq_false_iff h,
    and_assoc]

/-! ### Findings -/

/-- With more modules allowed, the imports that products provide are those from before, without the
allowed ones. -/
lemma mem_satisfied_withAllowed (h : ∀ n ∈ A, n ∈ B) {s : Satisfied} :
    s ∈ (x.withAllowed B).satisfied ↔ s ∈ (x.withAllowed A).satisfied ∧ s.module ∉ B := by
  simp only [mem_satisfied, mem_observed_withAllowed h, internal_withAllowed, provider?_withAllowed]
  constructor
  · rintro ⟨⟨ho, hB⟩, hi, hp⟩
    exact ⟨⟨ho, hi, hp⟩, hB⟩
  · rintro ⟨⟨ho, hi, hp⟩, hB⟩
    exact ⟨⟨ho, hB⟩, hi, hp⟩

/-- A product that provides something is declared. -/
lemma mem_productNames_of_mem_satisfied {s : Satisfied} (h : s ∈ x.satisfied) :
    s.product ∈ x.productNames := by
  obtain ⟨-, -, p, hp, hname, -⟩ := mem_satisfied.1 h
  rw [mem_productNames, ← exists_productUse_iff]
  exact ⟨p, List.mem_of_find?_eq_some hp, hname.symm⟩

/-- A product is still in use with a longer list if it provides an import that is not on the
list. -/
lemma mem_usedProducts_withAllowed (h : ∀ n ∈ A, n ∈ B) :
    n ∈ (x.withAllowed B).usedProducts ↔
      ∃ s ∈ (x.withAllowed A).satisfied, s.product = n ∧ s.module ∉ B := by
  rw [mem_usedProducts]
  constructor
  · rintro ⟨s, hs, hn⟩
    obtain ⟨hA, hB⟩ := (mem_satisfied_withAllowed h).1 hs
    exact ⟨s, hA, hn, hB⟩
  · rintro ⟨s, hA, hn, hB⟩
    exact ⟨s, (mem_satisfied_withAllowed h).2 ⟨hA, hB⟩, hn⟩

/-! ### Categories -/

/-- With more modules allowed, the missing modules are those from before, without the
allowed ones. -/
lemma mem_missing_withAllowed (h : ∀ n ∈ A, n ∈ B) :
    n ∈ (x.withAllowed B).missing ↔ n ∈ (x.withAllowed A).missing ∧ n ∉ B := by
  simp only [mem_missing, mem_observed_withAllowed h, internal_withAllowed, provides_withAllowed]
  constructor
  · rintro ⟨⟨ho, hB⟩, hrest⟩
    exact ⟨⟨ho, hrest⟩, hB⟩
  · rintro ⟨⟨ho, hrest⟩, hB⟩
    exact ⟨⟨ho, hB⟩, hrest⟩

/-- With more modules allowed, a declaration is unused if it is not allowed itself and it was unused
before, or was in use only through modules that are now allowed and is not imported. -/
lemma mem_unused_withAllowed (h : ∀ n ∈ A, n ∈ B) :
    n ∈ (x.withAllowed B).unused ↔
      isIgnored B n = false ∧
        (n ∈ (x.withAllowed A).unused ∨
          ProvidesOnly (x.withAllowed A).satisfied n B ∧ ¬x.Imports n) := by
  simp only [mem_unused_iff, imports_withAllowed, allowed_withAllowed, directNames_withAllowed,
    redundantNames_withAllowed, productNames_withAllowed]
  have hlonger : isIgnored B n = false → isIgnored A n = false := fun hB =>
    ((isIgnored_eq_false_iff h).1 hB).1
  constructor
  · rintro ⟨hB, hi, hd | ⟨hp, hu⟩⟩
    · exact ⟨hB, .inl ⟨hlonger hB, hi, .inl hd⟩⟩
    · refine ⟨hB, ?_⟩
      by_cases hused : n ∈ (x.withAllowed A).usedProducts
      · refine .inr ⟨⟨mem_usedProducts.1 hused, fun s hs hn => ?_⟩, hi⟩
        by_contra hm
        exact hu ((mem_usedProducts_withAllowed h).2 ⟨s, hs, hn, hm⟩)
      · exact .inl ⟨hlonger hB, hi, .inr ⟨hp, hused⟩⟩
  · rintro ⟨hB, ⟨-, hi, hkind⟩ | ⟨⟨⟨s, hs, hn⟩, hall⟩, hi⟩⟩
    · refine ⟨hB, hi, hkind.imp id fun ⟨hp, hu⟩ => ⟨hp, fun hused => hu ?_⟩⟩
      obtain ⟨s, hs, hn, -⟩ := (mem_usedProducts_withAllowed h).1 hused
      exact mem_usedProducts.2 ⟨s, hs, hn⟩
    · have hp : n ∈ (x.withAllowed A).productNames := hn ▸ mem_productNames_of_mem_satisfied hs
      refine ⟨hB, hi, .inr ⟨hp, fun hused => ?_⟩⟩
      obtain ⟨t, ht, hn, hm⟩ := (mem_usedProducts_withAllowed h).1 hused
      exact hm (hall t ht hn)

/-- With a longer list of allowed modules the missing ones are those of before that are not on it,
the redundant declarations are the same, and a declaration that is not ignored is unused if it was
before, or if it is a product that is not imported by its name and provides only imports on the
list. If there is no such product and there was nothing to report, there is nothing now. -/
theorem analyze_withAllowed (x : AnalysisInput) {A B : NameSet} (h : ∀ n ∈ A, n ∈ B) :
    (∀ n, n ∈ (x.withAllowed B).analyze.missing ↔
        n ∈ (x.withAllowed A).analyze.missing ∧ n ∉ B) ∧
      (x.withAllowed B).analyze.redundant = (x.withAllowed A).analyze.redundant ∧
      (∀ n, n ∈ (x.withAllowed B).analyze.unused ↔
        isIgnored B n = false ∧
          (n ∈ (x.withAllowed A).analyze.unused ∨
            ProvidesOnly (x.withAllowed A).analyze.satisfied n B ∧ ¬x.Imports n)) ∧
      ((x.withAllowed A).analyze.hasIssues = false →
        (∀ p, ProvidesOnly (x.withAllowed A).analyze.satisfied p B →
          x.Imports p ∨ isIgnored B p = true) →
        (x.withAllowed B).analyze.hasIssues = false) := by
  obtain ⟨hmissing, hredundant, hunused⟩ :
      (∀ n, n ∈ (x.withAllowed B).analyze.missing ↔
        n ∈ (x.withAllowed A).analyze.missing ∧ n ∉ B) ∧
      (x.withAllowed B).analyze.redundant = (x.withAllowed A).analyze.redundant ∧
      (∀ n, n ∈ (x.withAllowed B).analyze.unused ↔
        isIgnored B n = false ∧
          (n ∈ (x.withAllowed A).analyze.unused ∨
            ProvidesOnly (x.withAllowed A).analyze.satisfied n B ∧ ¬x.Imports n)) := by
    cases hs : x.target.hasSources with
    | false =>
      have htrivial := fun C => analyze_of_not_hasSources (x := x.withAllowed C) hs
      simp [htrivial, Analysis.trivial, ProvidesOnly]
    | true =>
      have hanalyze := fun C => analyze_of_hasSources (x := x.withAllowed C) hs
      rw [hanalyze, hanalyze]
      exact ⟨fun n => mem_missing_withAllowed h, rfl, fun n => mem_unused_withAllowed h⟩
  refine ⟨hmissing, hredundant, hunused, fun hA hkept => ?_⟩
  rw [Analysis.hasIssues_eq_false_iff] at hA ⊢
  obtain ⟨hnone, hused, hnot⟩ := hA
  refine ⟨fun n hn => hnone n ((hmissing n).1 hn).1, fun n hn => ?_, hredundant.trans hnot⟩
  obtain ⟨hB, hu | ⟨honly, hi⟩⟩ := (hunused n).1 hn
  · exact hused n hu
  · rcases hkept n honly with himp | hign
    · exact hi himp
    · exact absurd hign (by simp [hB])

/-! ### A product with two members

A target declares a product and imports members of it.  If all of these are allowed, they are not
seen as imports of the product any more; if one is not, the product is still in use. -/

/-- A target that declares a product with two members and imports some modules. -/
def kitInput (imports : List String) : AnalysisInput :=
  let kit : ExternalPackage :=
    ⟨"kit", [⟨"Kit", .library, ["KitCore", "KitUI"], "kit"⟩], default⟩
  ⟨⟨"App", .library, [.ofProduct "Kit" (some "kit")], none⟩,
    ⟨"Pkg", default, [], [], []⟩, [kit],
    .ofPackages [kit], [⟨default, imports.map fun n => ⟨n, 1, false⟩⟩], ∅⟩

/-- The modules of the example do not belong to the standard ones. -/
lemma not_standard_kit {n : String} (h : n ∈ ["Kit", "KitCore", "KitUI"]) :
    n ∉ standardModules := by
  revert n
  simp [standardModules, languageModules, packageModules, systemModules, frameworkModules]

/-- The example imports the given modules. -/
lemma imports_kitInput {imports : List String} :
    (kitInput imports).Imports n ↔ n ∈ imports := by
  simp [Imports, kitInput]

/-- If nothing is allowed, all members are observed that are imported. -/
lemma observed_kitInput {imports : List String}
    (h : ∀ n ∈ imports, n ∈ ["KitCore", "KitUI"]) :
    ((kitInput imports).withAllowed ∅).observed = .ofList imports := by
  refine NameSet.ext fun n => ?_
  rw [mem_observed, imports_withAllowed, imports_kitInput, NameSet.mem_ofList]
  refine and_iff_left_of_imp fun hn => ?_
  simp [isIgnored, not_standard_kit (List.mem_cons_of_mem _ (h n hn))]

/-- In the example with nothing allowed, the product provides both imports. -/
lemma satisfied_kitInput :
    ((kitInput ["KitCore", "KitUI"]).withAllowed ∅).satisfied =
      [⟨"KitCore", "Kit", "kit"⟩, ⟨"KitUI", "Kit", "kit"⟩] := by
  rw [satisfied, observed_kitInput fun n hn => hn]
  decide +kernel

/-- In the example with nothing allowed, there is nothing to mend. -/
lemma hasIssues_kitInput :
    ((kitInput ["KitCore", "KitUI"]).withAllowed ∅).analyze.hasIssues = false := by
  have hobserved := observed_kitInput fun n (hn : n ∈ ["KitCore", "KitUI"]) => hn
  rw [analyze_of_hasSources rfl]
  simp only [Analysis.hasIssues, Analysis.hasError, Analysis.hasWarning, missing, unused,
    satisfiedNames, usedProducts, satisfied_kitInput, hobserved]
  decide +kernel

/-- Of two members in use one is allowed. -/
theorem analyze_withAllowed_kit :
    let x := kitInput ["KitCore", "KitUI"]
    let B := NameSet.ofList ["KitCore"]
    (∀ n ∈ (∅ : NameSet), n ∈ B) ∧ (x.withAllowed ∅).analyze.hasIssues = false ∧
      (∀ p, ProvidesOnly (x.withAllowed ∅).analyze.satisfied p B →
        x.Imports p ∨ isIgnored B p = true) ∧
      (∀ n, n ∈ (x.withAllowed B).analyze.missing ↔
        n ∈ (x.withAllowed ∅).analyze.missing ∧ n ∉ B) ∧
      (x.withAllowed B).analyze.redundant = (x.withAllowed ∅).analyze.redundant ∧
      (∀ n, n ∈ (x.withAllowed B).analyze.unused ↔
        isIgnored B n = false ∧
          (n ∈ (x.withAllowed ∅).analyze.unused ∨
            ProvidesOnly (x.withAllowed ∅).analyze.satisfied n B ∧ ¬x.Imports n)) ∧
      (x.withAllowed B).analyze.hasIssues = false := by
  intro x B
  have hlonger : ∀ n ∈ (∅ : NameSet), n ∈ B :=
    fun n hn => absurd hn (NameSet.not_mem_empty n)
  have hkept : ∀ p, ProvidesOnly (x.withAllowed ∅).analyze.satisfied p B →
      x.Imports p ∨ isIgnored B p = true := by
    rintro p ⟨⟨s, hs, rfl⟩, hall⟩
    -- The other member keeps the product in use, so it provides more than what is allowed.
    rw [analyze_of_hasSources rfl] at hs hall
    simp only [x, satisfied_kitInput] at hs hall
    have hproduct : "Kit" = s.product := by
      simp only [List.mem_cons, List.not_mem_nil, or_false] at hs
      rcases hs with rfl | rfl <;> rfl
    have hui : "KitUI" ∈ B := hall ⟨"KitUI", "Kit", "kit"⟩ (by simp) hproduct
    simp [B] at hui
  obtain ⟨hmissing, hredundant, hunused, hissues⟩ := analyze_withAllowed x hlonger
  exact ⟨hlonger, hasIssues_kitInput, hkept, hmissing, hredundant, hunused,
    hissues hasIssues_kitInput hkept⟩

/-- A longer list may leave a product unused that was not unused before. -/
theorem findings_not_mono :
    ¬∀ (x : AnalysisInput) (A B : NameSet), (∀ n ∈ A, n ∈ B) →
      (∀ n ∈ (x.withAllowed B).analyze.missing, n ∈ (x.withAllowed A).analyze.missing) ∧
        (∀ n ∈ (x.withAllowed B).analyze.unused, n ∈ (x.withAllowed A).analyze.unused) ∧
        ∀ n ∈ (x.withAllowed B).analyze.redundantNames,
          n ∈ (x.withAllowed A).analyze.redundantNames := by
  intro hmono
  -- Both members are allowed at once, so that the product provides nothing any more.
  let x := kitInput ["KitCore", "KitUI"]
  let B := NameSet.ofList ["KitCore", "KitUI"]
  have hlonger : ∀ n ∈ (∅ : NameSet), n ∈ B :=
    fun n hn => absurd hn (NameSet.not_mem_empty n)
  have hunused : "Kit" ∈ (x.withAllowed B).unused := by
    have hignored : isIgnored B "Kit" = false := by simp [isIgnored, B, not_standard_kit]
    have honly : ProvidesOnly (x.withAllowed ∅).satisfied "Kit" B := by
      simp [ProvidesOnly, x, satisfied_kitInput, B]
    have himport : ¬x.Imports "Kit" := by simp [x, imports_kitInput]
    exact (mem_unused_withAllowed hlonger).2 ⟨hignored, .inr ⟨honly, himport⟩⟩
  have hnone := (Analysis.hasIssues_eq_false_iff.1 hasIssues_kitInput).2.1 "Kit"
  exact hnone ((hmono x ∅ B hlonger).2.1 "Kit" hunused)

end AnalysisInput

end SwiftDependencies
