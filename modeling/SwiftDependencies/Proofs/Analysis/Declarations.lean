import Mathlib.Data.List.Basic
import Mathlib.Data.List.Find
import Mathlib.Tactic.Common
import SwiftDependencies.Proofs.Analysis.Allowing
import SwiftDependencies.Proofs.Analysis.Findings
import SwiftDependencies.Proofs.Analysis.Mending

/-!
# The order and the spelling of declarations

A manifest can put the dependencies of a target in any order, and it can write a product of an
external package by its bare name or with its package.  Neither should change what is wrong with the
target.  Both searches of an analysis depend on the order, though, and a bare name is treated
differently from an explicit product in four places; so this file separates what an analysis says
from the products to which it attributes it.

What two lists of declarations have to have in common for this is `DeclaresSame`: the declared
products, the direct names, and which of the direct names are redundant.  Then the same imports are
missing and the same declarations are correct, and those are the same that are unused, up to the
products that are counted as used.  `analyze_reordered` and `analyze_spelledOut` follow; in the one
the used products are what may change, in the other the redundancy of the name that is spelled out.
-/

namespace SwiftDependencies

namespace AnalysisInput

variable {x : AnalysisInput} {deps : List Dependency} {n : String}

/-! ### What declarations have in common -/

/-- Other declarations of a target declare the same products and the same direct names, of which the
same are redundant. -/
structure DeclaresSame (x : AnalysisInput) (deps : List Dependency) : Prop where
  productNames : (x.withDependencies deps).productNames = x.productNames
  directNames : (x.withDependencies deps).directNames = x.directNames
  redundantNames : ∀ n ∈ x.directNames,
    (n ∈ (x.withDependencies deps).redundantNames ↔ n ∈ x.redundantNames)

/-- Declarations that declare the same provide the same modules. -/
lemma DeclaresSame.provides_iff (h : x.DeclaresSame deps) :
    (x.withDependencies deps).Provides n ↔ x.Provides n := by
  rw [provides_iff_productNames, provides_iff_productNames, h.productNames]
  rfl

/-- The same imports are missing. -/
lemma DeclaresSame.missing_eq (h : x.DeclaresSame deps) :
    (x.withDependencies deps).missing = x.missing := by
  refine NameSet.ext fun n => ?_
  rw [mem_missing, mem_missing, mem_dependencyNames_iff, mem_dependencyNames_iff, h.productNames,
    h.directNames, h.provides_iff]
  rfl

/-- The same declarations are direct and not redundant. -/
lemma DeclaresSame.direct_iff (h : x.DeclaresSame deps) :
    n ∈ (x.withDependencies deps).directNames ∧
    n ∉ (x.withDependencies deps).redundantNames ↔
      n ∈ x.directNames ∧ n ∉ x.redundantNames := by
  rw [h.directNames]
  exact and_congr_right fun hn => not_congr (h.redundantNames n hn)

/-- The same declarations are correct. -/
lemma DeclaresSame.correct_eq (h : x.DeclaresSame deps) :
    (x.withDependencies deps).correct = x.correct := by
  refine NameSet.ext fun n => ?_
  rw [mem_correct, mem_correct, h.direct_iff, h.productNames]
  rfl

/-- The same declarations are unused, except for products that are used with one list only. -/
lemma DeclaresSame.mem_unused_iff (h : x.DeclaresSame deps)
    (hused : n ∈ x.productNames →
      (n ∈ (x.withDependencies deps).usedProducts ↔ n ∈ x.usedProducts)) :
    n ∈ (x.withDependencies deps).unused ↔ n ∈ x.unused := by
  rw [AnalysisInput.mem_unused_iff, AnalysisInput.mem_unused_iff, h.direct_iff, h.productNames]
  refine and_congr_right fun _ => and_congr_right fun _ => or_congr_right ?_
  exact and_congr_right fun hn => not_congr (hused hn)

/-! ### The order of declarations -/

/-- The imports that declared products provide, in the order of the findings. -/
lemma map_module_satisfied : x.satisfied.map (·.module) = x.satisfiedNames.toList := by
  have hrising : (x.satisfied.map (·.module)).Pairwise (· < ·) :=
    List.pairwise_map.2 (satisfied_rising x)
  have hset : (⟨_, hrising⟩ : NameSet) = x.satisfiedNames := by
    refine NameSet.ext fun n => ?_
    rw [satisfiedNames, NameSet.mem_ofList]
    rfl
  exact congrArg NameSet.toList hset

section Order

variable (h : deps.Perm x.target.dependencies)

include h

/-- The declared products are the same in another order. -/
lemma mem_productUses_reordered {p : ProductUse} :
    p ∈ (x.withDependencies deps).productUses ↔ p ∈ x.productUses :=
  (h.filterMap _).mem_iff

/-- A name is declared directly as often in another order. -/
lemma directCount_reordered : (x.withDependencies deps).directCount n = x.directCount n :=
  h.countP_eq _

/-- Whether a name is redundant does not depend on which product makes it so. -/
lemma redundantNames_reordered :
    n ∈ (x.withDependencies deps).redundantNames ↔ n ∈ x.redundantNames := by
  rw [mem_redundantNames, mem_redundantNames]
  refine exists_congr fun p => and_congr (mem_productUses_reordered h) (and_congr_right fun _ => ?_)
  rw [separateCount, separateCount, directCount_reordered h]

/-- Declarations in another order declare the same. -/
lemma declaresSame_reordered : x.DeclaresSame deps where
  productNames := by
    refine NameSet.ext fun n => ?_
    rw [mem_productNames, mem_productNames]
    exact exists_congr fun d => and_congr_left fun _ => h.mem_iff
  directNames := by
    refine NameSet.ext fun n => ?_
    rw [mem_directNames, mem_directNames]
    exact and_congr_left fun _ => exists_congr fun d => and_congr_left fun _ => h.mem_iff
  redundantNames := fun n _ => redundantNames_reordered h

/-- The modules that products provide are the same in another order, even where another product
provides them. -/
lemma satisfiedNames_reordered : (x.withDependencies deps).satisfiedNames = x.satisfiedNames := by
  refine NameSet.ext fun n => ?_
  rw [mem_satisfiedNames, mem_satisfiedNames, (declaresSame_reordered h).provides_iff]
  rfl

end Order

/-- If the declarations of a target are put in another order, the same imports are missing and
provided, the same declarations are correct and redundant, and only names of products that the
target refers to can be unused in one order and not in the other. -/
theorem analyze_reordered (x : AnalysisInput) {deps : List Dependency}
    (h : deps.Perm x.target.dependencies) :
    (x.withDependencies deps).analyze.missing = x.analyze.missing ∧
      (x.withDependencies deps).analyze.correct = x.analyze.correct ∧
      (x.withDependencies deps).analyze.satisfied.map (·.module) =
        x.analyze.satisfied.map (·.module) ∧
      (x.withDependencies deps).analyze.redundantNames = x.analyze.redundantNames ∧
      ∀ n, ¬(n ∈ (x.withDependencies deps).analyze.unused ↔ n ∈ x.analyze.unused) →
        ∃ d ∈ x.target.dependencies, x.RefersToProduct d ∧ d.name = n := by
  cases hs : x.target.hasSources with
  | false =>
    have hs' : (x.withDependencies deps).target.hasSources = false := hs
    rw [analyze_of_not_hasSources hs, analyze_of_not_hasSources hs']
    exact ⟨rfl, rfl, rfl, rfl, fun n hn => absurd Iff.rfl hn⟩
  | true =>
    have hs' : (x.withDependencies deps).target.hasSources = true := hs
    have hsame := declaresSame_reordered h
    rw [analyze_of_hasSources hs, analyze_of_hasSources hs']
    refine ⟨hsame.missing_eq, hsame.correct_eq, ?satisfied, ?redundant, ?unused⟩
    case satisfied =>
      show (x.withDependencies deps).satisfied.map (·.module) = x.satisfied.map (·.module)
      rw [map_module_satisfied, map_module_satisfied, satisfiedNames_reordered h]
    case redundant => exact NameSet.ext fun n => redundantNames_reordered h
    case unused =>
      intro n hdiffers
      have hn : n ∈ x.productNames := by
        by_contra hnot
        exact hdiffers (hsame.mem_unused_iff fun hn => absurd hn hnot)
      obtain ⟨d, hd, hname, hproduct⟩ := mem_productNames.1 hn
      refine ⟨d, hd, hproduct.imp id fun hproduct => ?_, hname⟩
      rw [hname, ← isProductName_iff]
      exact hproduct

/-! Of two products with the same member, the one that is declared first provides it.  If the other
has no more to offer, it is unused in one order only. -/

/-- The declarations of the target with overlapping products, the larger product first. -/
def overlappingReordered : List Dependency :=
  [.ofProduct "All" none, .bare "KitCore", .bare "Kit"]

/-- The example is reordered only. -/
lemma perm_overlappingReordered :
    overlappingReordered.Perm overlappingInput.target.dependencies := by
  decide +kernel

/-- The example imports two modules. -/
lemma imports_overlappingInput : overlappingInput.Imports n ↔ n = "KitCore" ∨ n = "KitUI" := by
  simp [Imports, overlappingInput, eq_comm]

/-- In the example neither import is ignored. -/
lemma observed_overlappingInput : overlappingInput.observed = .ofList ["KitCore", "KitUI"] := by
  refine NameSet.ext fun n => ?_
  rw [mem_observed, imports_overlappingInput, NameSet.mem_ofList, List.mem_pair]
  refine and_iff_left_of_imp fun hn => ?_
  have hkit : n ∈ ["Kit", "KitCore", "KitUI"] := List.mem_cons_of_mem _ (List.mem_pair.2 hn)
  have hallowed : n ∉ overlappingInput.allowed := NameSet.not_mem_empty n
  simp [isIgnored, not_standard_kit hkit, hallowed]

/-- In the first order the smaller product provides an import. -/
lemma usedProducts_overlappingInput : "Kit" ∈ overlappingInput.usedProducts := by
  rw [usedProducts, satisfied, observed_overlappingInput]
  decide +kernel

/-- In the other order the larger product, which comes first now, provides both imports. -/
lemma usedProducts_overlappingReordered :
    "Kit" ∉ (overlappingInput.withDependencies overlappingReordered).usedProducts := by
  rw [usedProducts, satisfied, observed_withDependencies, observed_overlappingInput]
  decide +kernel

/-- In the first order the smaller product is not unused. -/
lemma unused_overlappingInput : "Kit" ∉ overlappingInput.unused := by
  rw [mem_unused_iff]
  rintro ⟨-, -, ⟨hdirect, -⟩ | ⟨-, hunused⟩⟩
  · exact absurd hdirect (by decide +kernel)
  · exact hunused usedProducts_overlappingInput

/-- In the other order the smaller product is unused. -/
lemma unused_overlappingReordered :
    "Kit" ∈ (overlappingInput.withDependencies overlappingReordered).unused := by
  have hignored : isIgnored overlappingInput.allowed "Kit" = false := by
    have hallowed : "Kit" ∉ overlappingInput.allowed := NameSet.not_mem_empty "Kit"
    simp [isIgnored, not_standard_kit List.mem_cons_self, hallowed]
  have himport : ¬overlappingInput.Imports "Kit" := by
    rw [imports_overlappingInput]
    decide
  have hproduct : "Kit" ∈
      (overlappingInput.withDependencies overlappingReordered).productNames := by
    decide +kernel
  exact mem_unused_iff.2 ⟨hignored, himport,
    .inr ⟨hproduct, usedProducts_overlappingReordered⟩⟩

/-- If the larger product comes first, the other one is unused. -/
theorem analyze_reordered_overlapping :
    let y := overlappingInput.withDependencies overlappingReordered
    overlappingReordered.Perm overlappingInput.target.dependencies ∧
      y.analyze.missing = overlappingInput.analyze.missing ∧
      y.analyze.correct = overlappingInput.analyze.correct ∧
      y.analyze.satisfied.map (·.module) = overlappingInput.analyze.satisfied.map (·.module) ∧
      y.analyze.redundantNames = overlappingInput.analyze.redundantNames ∧
      ¬("Kit" ∈ y.analyze.unused ↔ "Kit" ∈ overlappingInput.analyze.unused) ∧
      ∃ d ∈ overlappingInput.target.dependencies,
        overlappingInput.RefersToProduct d ∧ d.name = "Kit" := by
  intro y
  have hdiffers : ¬("Kit" ∈ y.analyze.unused ↔
      "Kit" ∈ overlappingInput.analyze.unused) := fun h =>
    unused_overlappingInput (h.1 unused_overlappingReordered)
  obtain ⟨hmissing, hcorrect, hmodules, hredundant, hunused⟩ :=
    analyze_reordered overlappingInput perm_overlappingReordered
  exact ⟨perm_overlappingReordered, hmissing, hcorrect, hmodules, hredundant, hdiffers,
    hunused "Kit" hdiffers⟩

end AnalysisInput

/-! ### The spelling of declarations -/

/-- A declaration, written as an explicit product of a package if it has a certain bare name. -/
def Dependency.spellOut (name package : String) (d : Dependency) : Dependency :=
  if d.isProduct = false ∧ d.name = name then
    { d with kind := .product, package := some package } else d

/-- A declared product, taken as an explicit one if it has a certain name. -/
def ProductUse.explicitly (name : String) (p : ProductUse) : ProductUse :=
  if p.name = name then { p with byName := false } else p

/-- To spell out a declaration keeps its name. -/
@[simp] lemma Dependency.name_spellOut {name package : String} {d : Dependency} :
    (d.spellOut name package).name = d.name := by
  rw [spellOut]
  split <;> rfl

/-- A product keeps its name when it is declared explicitly. -/
@[simp] lemma ProductUse.name_explicitly {name : String} {p : ProductUse} :
    (p.explicitly name).name = p.name := by
  rw [explicitly]
  split <;> rfl

/-- A product keeps its package when it is declared explicitly. -/
@[simp] lemma ProductUse.package_explicitly {name : String} {p : ProductUse} :
    (p.explicitly name).package = p.package := by
  rw [explicitly]
  split <;> rfl

/-- A declaration that is spelled out is a bare one if it was and has another name. -/
lemma Dependency.isProduct_spellOut {name package : String} {d : Dependency} :
    (d.spellOut name package).isProduct = false ↔ d.isProduct = false ∧ d.name ≠ name := by
  by_cases h : d.isProduct = false ∧ d.name = name
  · rw [spellOut, if_pos h]
    simp [Dependency.isProduct, h.2]
  · rw [spellOut, if_neg h]
    exact ⟨fun hbare => ⟨hbare, fun hname => h ⟨hbare, hname⟩⟩, And.left⟩

namespace AnalysisInput

variable {x : AnalysisInput} {n X : String}

/-- The declarations of a target with a bare name written as an explicit product of its owner. -/
def spelledOut (x : AnalysisInput) (X : String) : List Dependency :=
  x.target.dependencies.map (·.spellOut X (x.ownerOf X))

/-- Spelling a name out leaves no direct declaration of it, and all those of other names. -/
lemma directCount_spelledOut :
    (x.withDependencies (x.spelledOut X)).directCount n = if n = X then 0 else x.directCount n := by
  have hcount : (x.withDependencies (x.spelledOut X)).directCount n =
      x.target.dependencies.countP fun d => !d.isProduct && d.name == n && n != X := by
    rw [directCount, withDependencies, spelledOut, List.countP_map]
    refine List.countP_congr fun d _ => ?_
    simp only [Function.comp_apply, Dependency.name_spellOut, Bool.and_eq_true, Bool.not_eq_true',
      Dependency.isProduct_spellOut, beq_iff_eq, bne_iff_ne]
    constructor
    · rintro ⟨⟨hbare, hne⟩, rfl⟩
      exact ⟨⟨hbare, rfl⟩, hne⟩
    · rintro ⟨⟨hbare, rfl⟩, hne⟩
      exact ⟨⟨hbare, hne⟩, rfl⟩
  rw [hcount]
  by_cases hn : n = X
  · simp [hn]
  · have hne : (n != X) = true := bne_iff_ne.2 hn
    simp only [hne, Bool.and_true, hn, if_false]
    rfl

/-- Besides the name that is spelled out, every name is declared apart from a product as often as
before. -/
lemma separateCount_spelledOut (p : ProductUse) :
    (x.withDependencies (x.spelledOut X)).separateCount (p.explicitly X) n =
      if n = X then 0 else x.separateCount p n := by
  rw [separateCount, directCount_spelledOut]
  by_cases hn : n = X
  · rw [if_pos hn, if_pos hn, Nat.zero_sub]
  · rw [if_neg hn, if_neg hn, separateCount, ProductUse.name_explicitly]
    by_cases hp : p.name = X
    · -- Both counts leave the product out of consideration, since it has another name.
      have hne : (n == p.name) = false := beq_false_of_ne fun h => hn (h.trans hp)
      rw [hne, Bool.and_false, Bool.and_false]
    · rw [ProductUse.explicitly, if_neg hp]

/-- To leave a key out before or after keeping the first element of each key is the same. -/
lemma firstOfEach_filter {α : Type} {key : α → String} {k : String} {l : List α}
    {seen other : List String} (h : ∀ m, m ≠ k → (m ∈ seen ↔ m ∈ other)) :
    firstOfEach key seen (l.filter fun a => key a != k) =
      (firstOfEach key other l).filter fun a => key a != k := by
  induction l generalizing seen other with
  | nil => rfl
  | cons a l ih =>
    have hmore : ∀ m, m ≠ k → (m ∈ key a :: seen ↔ m ∈ key a :: other) := by
      intro m hm
      rw [List.mem_cons, List.mem_cons, h m hm]
    by_cases hk : key a = k
    · have hout : (key a != k) = false := bne_eq_false_iff_eq.2 hk
      have hleft : ∀ m, m ≠ k → (m ∈ seen ↔ m ∈ key a :: other) := by
        intro m hm
        rw [List.mem_cons, h m hm, or_iff_right (hk ▸ hm)]
      rw [List.filter_cons_of_neg (by simp [hout]), firstOfEach]
      split
      · exact ih h
      · rw [List.filter_cons_of_neg (by simp [hout])]
        exact ih hleft
    · have hin : (key a != k) = true := bne_iff_ne.2 hk
      rw [List.filter_cons_of_pos (p := fun a => key a != k) hin, firstOfEach, firstOfEach]
      by_cases hseen : key a ∈ seen
      · rw [if_pos (by simpa using hseen), if_pos (by simpa using (h _ hk).1 hseen)]
        exact ih h
      · rw [if_neg (by simpa using hseen), if_neg (by simpa using fun ho => hseen ((h _ hk).2 ho)),
          List.filter_cons_of_pos (p := fun a => key a != k) hin, ih hmore]

section Spelling

variable (hX : x.isProductName X = true)

include hX

/-- What a declaration stands for is the same when it is spelled out, except that it says so. -/
lemma productUse?_spellOut (d : Dependency) :
    x.productUse? (d.spellOut X (x.ownerOf X)) = (x.productUse? d).map (·.explicitly X) := by
  by_cases h : d.isProduct = false ∧ d.name = X
  · obtain ⟨hbare, rfl⟩ := h
    -- An owner without a name is left to be inferred again, with the same result.
    have howner : (Option.filter (· != "") (some (x.ownerOf d.name))).getD (x.ownerOf d.name) =
        x.ownerOf d.name := by
      by_cases hempty : x.ownerOf d.name = "" <;> simp [Option.filter, hempty]
    have hdeclared : x.productUse? d = some ⟨d.name, x.ownerOf d.name, true⟩ := by
      rw [productUse?, if_neg (by simp [hbare]), if_pos hX]
    rw [Dependency.spellOut, if_pos ⟨hbare, rfl⟩, hdeclared]
    simp [productUse?, howner, ProductUse.explicitly, Dependency.isProduct]
  · rw [Dependency.spellOut, if_neg h]
    cases hd : x.productUse? d with
    | none => rfl
    | some p =>
      have hname := name_of_productUse? hd
      have hby := byName_of_productUse? hd
      rw [Option.map_some, ProductUse.explicitly]
      split
      · rename_i hp
        have hexplicit : d.isProduct = true := by
          by_contra hnot
          exact h ⟨by simpa using hnot, hname ▸ hp⟩
        obtain ⟨name, package, byName⟩ := p
        simp_all
      · rfl

/-- With a name spelled out the same products are declared, those of that name explicitly. -/
lemma productUses_spelledOut :
    (x.withDependencies (x.spelledOut X)).productUses = x.productUses.map (·.explicitly X) := by
  rw [productUses_withDependencies, spelledOut, List.filterMap_map, productUses, List.map_filterMap]
  exact List.filterMap_congr fun d _ => productUse?_spellOut hX d

/-- With a name spelled out the declared products have the same names. -/
lemma productNames_spelledOut :
    (x.withDependencies (x.spelledOut X)).productNames = x.productNames := by
  rw [productNames, productUses_spelledOut hX, List.map_map, productNames]
  congr 2
  funext p
  exact ProductUse.name_explicitly

/-- The name that is spelled out was no direct name, so the direct names are the same. -/
lemma directNames_spelledOut :
    (x.withDependencies (x.spelledOut X)).directNames = x.directNames := by
  refine NameSet.ext fun n => ?_
  rw [mem_directNames, mem_directNames]
  refine and_congr_left fun (hn : x.isProductName n = false) => ?_
  have hne : n ≠ X := by
    rintro rfl
    rw [hX] at hn
    cases hn
  constructor
  · rintro ⟨d', hd', hbare, rfl⟩
    obtain ⟨d, hd, rfl⟩ := List.mem_map.1 hd'
    exact ⟨d, hd, (Dependency.isProduct_spellOut.1 hbare).1, Dependency.name_spellOut.symm⟩
  · rintro ⟨d, hd, hbare, rfl⟩
    exact ⟨d.spellOut X (x.ownerOf X), List.mem_map_of_mem hd,
      Dependency.isProduct_spellOut.2 ⟨hbare, hne⟩, Dependency.name_spellOut⟩

/-- A module has the provider that it had, taken as an explicit one if it is spelled out. -/
lemma provider?_spelledOut :
    (x.withDependencies (x.spelledOut X)).provider? n = (x.provider? n).map (·.explicitly X) := by
  rw [provider?, productUses_spelledOut hX, List.find?_map, provider?]
  congr 2
  funext p
  rw [Function.comp_apply, ProductUse.name_explicitly]
  rfl

/-- With a name spelled out the same products provide the same modules. -/
lemma satisfied_spelledOut :
    (x.withDependencies (x.spelledOut X)).satisfied = x.satisfied := by
  refine List.filterMap_congr fun n _ => ?_
  rw [provider?_spelledOut hX, Option.map_map]
  congr 1
  funext p
  simp

/-- The redundancies are those of before, without those of the name that is spelled out. -/
lemma redundancies_spelledOut :
    (x.withDependencies (x.spelledOut X)).redundancies =
      x.redundancies.filter fun r => r.name != X := by
  rw [redundancies, productUses_spelledOut hX, List.flatMap_map, redundancies, List.filter_flatMap]
  refine List.flatMap_congr fun p _ => ?_
  rw [List.filter_map, List.filter_filter, ProductUse.name_explicitly,
    ProductUse.package_explicitly]
  congr 1
  refine List.filter_congr fun m _ => ?_
  rw [separateCount_spelledOut]
  by_cases hm : m = X <;> simp [hm]

/-- With a name spelled out the same declarations are redundant, apart from those of that name. -/
lemma redundant_spelledOut :
    (x.withDependencies (x.spelledOut X)).redundant = x.redundant.filter fun r => r.name != X := by
  rw [redundant, redundancies_spelledOut hX, redundant]
  exact firstOfEach_filter fun m _ => Iff.rfl

/-- Declarations with a name spelled out declare the same. -/
lemma declaresSame_spelledOut : x.DeclaresSame (x.spelledOut X) where
  productNames := productNames_spelledOut hX
  directNames := directNames_spelledOut hX
  redundantNames := by
    intro n hn
    have hne : n ≠ X := by
      rintro rfl
      rw [(mem_directNames.1 hn).2] at hX
      cases hX
    rw [redundantNames, redundant_spelledOut hX, redundantNames, NameSet.mem_ofList,
      NameSet.mem_ofList, List.mem_map, List.mem_map]
    refine exists_congr fun r => and_congr_left fun hr => ?_
    rw [List.mem_filter]
    exact and_iff_left (bne_iff_ne.2 (hr ▸ hne))

end Spelling

/-- If a bare name that stands for an external product is written as that product of its owner, the
same imports are missing and provided, by the same products of the same packages, the same
declarations are correct and unused, and the redundant ones are the same up to the name itself. -/
theorem analyze_spelledOut (x : AnalysisInput) {X : String} (hX : x.IsExternalProduct X) :
    (x.withDependencies (x.spelledOut X)).analyze.missing = x.analyze.missing ∧
      (x.withDependencies (x.spelledOut X)).analyze.unused = x.analyze.unused ∧
      (x.withDependencies (x.spelledOut X)).analyze.correct = x.analyze.correct ∧
      (x.withDependencies (x.spelledOut X)).analyze.satisfied = x.analyze.satisfied ∧
      (x.withDependencies (x.spelledOut X)).analyze.redundant =
        x.analyze.redundant.filter fun r => r.name != X := by
  rw [← isProductName_iff] at hX
  cases hs : x.target.hasSources with
  | false =>
    have hs' : (x.withDependencies (x.spelledOut X)).target.hasSources = false := hs
    rw [analyze_of_not_hasSources hs, analyze_of_not_hasSources hs']
    exact ⟨rfl, rfl, rfl, rfl, rfl⟩
  | true =>
    have hs' : (x.withDependencies (x.spelledOut X)).target.hasSources = true := hs
    have hsame := declaresSame_spelledOut hX
    rw [analyze_of_hasSources hs, analyze_of_hasSources hs']
    refine ⟨hsame.missing_eq, ?unused, hsame.correct_eq, satisfied_spelledOut hX,
      redundant_spelledOut hX⟩
    case unused =>
      refine NameSet.ext fun n => hsame.mem_unused_iff fun _ => ?_
      rw [usedProducts, satisfied_spelledOut hX, usedProducts]

/-- Spelled out, the name is no longer redundant because of the product that contains it. -/
theorem analyze_spelledOut_overlapping :
    let y := overlappingInput.withDependencies (overlappingInput.spelledOut "Kit")
    overlappingInput.IsExternalProduct "Kit" ∧
      y.analyze.missing = overlappingInput.analyze.missing ∧
      y.analyze.unused = overlappingInput.analyze.unused ∧
      y.analyze.correct = overlappingInput.analyze.correct ∧
      y.analyze.satisfied = overlappingInput.analyze.satisfied ∧
      y.analyze.redundant = [⟨"KitCore", "Kit", "net"⟩] := by
  intro y
  have hkit : overlappingInput.IsExternalProduct "Kit" := by
    rw [← isProductName_iff]
    decide +kernel
  obtain ⟨hmissing, hunused, hcorrect, hsatisfied, hredundant⟩ :=
    analyze_spelledOut overlappingInput hkit
  have hbefore : overlappingInput.analyze.redundant =
      [⟨"KitCore", "Kit", "net"⟩, ⟨"Kit", "All", "net"⟩] := redundant_overlappingInput
  rw [hbefore] at hredundant
  exact ⟨hkit, hmissing, hunused, hcorrect, hsatisfied, hredundant⟩

end AnalysisInput

end SwiftDependencies
