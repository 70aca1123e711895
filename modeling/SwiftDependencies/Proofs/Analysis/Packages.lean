import Mathlib.Data.List.Find
import Mathlib.Tactic.Common
import SwiftDependencies.Proofs.Analysis.Collisions
import SwiftDependencies.Proofs.Analysis.Findings

/-!
# Packages that a target has nothing to do with

What an analysis knows of external packages are the owners of products and the members in a product
map. Both are decided by the last occurrence of a product of the name, so a package in the middle of
the list can take a product away from the packages before it.  It cannot if none of its products has
the name (`owner?_insert`, `members?_ofPackages_insert`).

An analysis asks for owners and members only by the names that the target declares
(`analyze_congr`), never by the names of imported modules or of members.  So a package none of whose
products has a declared name changes nothing, whatever its products contain:
`analyze_insert_unrelated`.
-/

namespace SwiftDependencies

namespace ProductMap

section Insert

variable {before after : List ExternalPackage} {added : ExternalPackage} {n : String}
  (h : ∀ q ∈ added.products, q.name ≠ n)

include h

/-- The last occurrence of a name is not in a package without a product of that name. -/
lemma last?_insert :
    last? (occurrences (before ++ added :: after)) n = last? (occurrences (before ++ after)) n := by
  have hnone : last? (occurrences [added]) n = none := by
    rw [last?_eq_none_iff]
    intro o ho
    obtain ⟨q, hq, rfl⟩ : ∃ q ∈ added.products, (q, added.name) = o := by
      simpa [occurrences] using ho
    exact h q hq
  rw [List.append_cons, occurrences_append, occurrences_append, last?_append, last?_append, hnone,
    Option.none_or, occurrences_append, last?_append]

/-- A further package does not own a product of a name that it does not have. -/
lemma owner?_insert : owner? (before ++ added :: after) n = owner? (before ++ after) n := by
  rw [owner?_eq, owner?_eq, last?_insert h]

/-- A further package does not change the members of a product of a name that it does not have. -/
lemma members?_ofPackages_insert :
    (ofPackages (before ++ added :: after)).members? n =
      (ofPackages (before ++ after)).members? n := by
  rw [members?_ofPackages, members?_ofPackages, last?_insert h]

end Insert

end ProductMap

namespace AnalysisInput

variable {x : AnalysisInput} {externals : List ExternalPackage} {productMap : ProductMap}

/-- The same analysis with other external packages and another product map. -/
def withProducts (x : AnalysisInput) (externals : List ExternalPackage) (productMap : ProductMap) :
    AnalysisInput :=
  { x with externals := externals, productMap := productMap }

section Agreement

variable (howner : ∀ n ∈ x.target.dependencyNames,
    ProductMap.owner? externals n = ProductMap.owner? x.externals n)
  (hmembers : ∀ n ∈ x.target.dependencyNames, productMap.members? n = x.productMap.members? n)

include howner hmembers

/-- Every declaration stands for the same product. -/
lemma productUses_withProducts :
    (x.withProducts externals productMap).productUses = x.productUses := by
  refine List.filterMap_congr fun d hd => ?_
  have hname : d.name ∈ x.target.dependencyNames := mem_dependencyNames.2 ⟨d, hd, rfl⟩
  have hownerOf : (x.withProducts externals productMap).ownerOf d.name = x.ownerOf d.name :=
    congrArg (·.getD d.name) (howner _ hname)
  have hproduct : (x.withProducts externals productMap).isProductName d.name =
      x.isProductName d.name := by
    rw [isProductName, isProductName, withProducts, howner _ hname, ProductMap.contains,
      hmembers _ hname, ProductMap.contains]
  rw [productUse?, productUse?, hownerOf, hproduct]

omit howner in
/-- Every declared product has the same members. -/
lemma members_of_mem_productUses {p : ProductUse} (hp : p ∈ x.productUses) :
    productMap.members p.name = x.productMap.members p.name := by
  have hname : p.name ∈ x.target.dependencyNames :=
    mem_dependencyNames_iff.2 (.inr (mem_productNames.2 (exists_productUse_iff.1 ⟨p, hp, rfl⟩)))
  rw [ProductMap.members, hmembers _ hname, ProductMap.members]

/-- Every import has the same provider. -/
lemma provider?_withProducts (n : String) :
    (x.withProducts externals productMap).provider? n = x.provider? n := by
  rw [provider?, productUses_withProducts howner hmembers, provider?]
  refine List.find?_congr fun p hp => ?_
  exact congrArg (·.contains n) (members_of_mem_productUses hmembers hp)

/-- Every declared product makes the same declarations redundant. -/
lemma redundancies_withProducts :
    (x.withProducts externals productMap).redundancies = x.redundancies := by
  rw [redundancies, productUses_withProducts howner hmembers, redundancies]
  refine List.flatMap_congr fun p hp => ?_
  have hp := members_of_mem_productUses hmembers hp
  rw [show (x.withProducts externals productMap).productMap = productMap from rfl, hp]
  rfl

/-- An analysis depends on external packages and the product map only as far as they have products
with the declared names. -/
lemma analyze_congr : (x.withProducts externals productMap).analyze = x.analyze := by
  have huses := productUses_withProducts howner hmembers
  have hdirect : (x.withProducts externals productMap).directNames = x.directNames := by
    rw [directNames, huses]
    rfl
  have hproducts : (x.withProducts externals productMap).productNames = x.productNames := by
    rw [productNames, huses, productNames]
  have hsatisfied : (x.withProducts externals productMap).satisfied = x.satisfied := by
    rw [satisfied, funext (provider?_withProducts howner hmembers)]
    rfl
  have hredundant : (x.withProducts externals productMap).redundant = x.redundant := by
    rw [redundant, redundancies_withProducts howner hmembers, redundant]
  simp only [analyze, missing, unused, correct, satisfiedNames, usedProducts, redundantNames,
    hdirect, hproducts, hsatisfied, hredundant]
  rfl

end Agreement

/-- A further package anywhere among the external ones, none of whose products has a name that the
target declares, does not change the analysis of the target with the product map of the packages;
and it does not matter whether only the map knows the package. -/
theorem analyze_insert_unrelated (x : AnalysisInput) (before after : List ExternalPackage)
    {added : ExternalPackage} (h : ∀ q ∈ added.products, q.name ∉ x.target.dependencyNames) :
    (x.withProducts (before ++ added :: after) (.ofPackages (before ++ added :: after))).analyze =
        (x.withProducts (before ++ after) (.ofPackages (before ++ after))).analyze ∧
      (x.withProducts (before ++ after) (.ofPackages (before ++ added :: after))).analyze =
        (x.withProducts (before ++ after) (.ofPackages (before ++ after))).analyze := by
  let original := x.withProducts (before ++ after) (.ofPackages (before ++ after))
  have hother : ∀ n ∈ original.target.dependencyNames,
      ∀ q ∈ added.products, q.name ≠ n := by
    rintro n hn q hq rfl
    exact h q hq hn
  have howner : ∀ n ∈ original.target.dependencyNames,
      ProductMap.owner? (before ++ added :: after) n = ProductMap.owner? original.externals n :=
    fun n hn => ProductMap.owner?_insert (hother n hn)
  have hmembers : ∀ n ∈ original.target.dependencyNames,
      (ProductMap.ofPackages (before ++ added :: after)).members? n =
        original.productMap.members? n :=
    fun n hn => ProductMap.members?_ofPackages_insert (hother n hn)
  have hboth : (original.withProducts (before ++ added :: after)
      (.ofPackages (before ++ added :: after))).analyze = original.analyze :=
    analyze_congr howner hmembers
  have hmap : (original.withProducts (before ++ after)
      (.ofPackages (before ++ added :: after))).analyze = original.analyze :=
    analyze_congr (fun _ _ => rfl) hmembers
  exact ⟨hboth, hmap⟩

/-- Between two packages that share a product, a package is added that contains what the target
imports, in a product that the target does not declare. -/
theorem analyze_insert_unrelated_overlapping :
    let fork : ExternalPackage :=
  ⟨"fork", [⟨"Kit", .library, ["KitCore"], "fork"⟩], default⟩
    let added : ExternalPackage :=
      ⟨"added", [⟨"Extra", .library, ["KitCore", "KitUI", "All"], "added"⟩], default⟩
    let original := [overlappingProducts, fork]
    let extended := [overlappingProducts, added, fork]
    (∀ q ∈ added.products, q.name ∉ overlappingInput.target.dependencyNames) ∧
      (overlappingInput.withProducts extended (.ofPackages extended)).analyze =
        (overlappingInput.withProducts original (.ofPackages original)).analyze ∧
      (overlappingInput.withProducts original (.ofPackages extended)).analyze =
        (overlappingInput.withProducts original (.ofPackages original)).analyze := by
  intro fork added original extended
  have hadded : ∀ q ∈ added.products, q.name ∉ overlappingInput.target.dependencyNames := by
    decide +kernel
  exact ⟨hadded, analyze_insert_unrelated overlappingInput [overlappingProducts] [fork] hadded⟩

end AnalysisInput

end SwiftDependencies
