import SwiftDependencies.Analysis.ProductMap
import SwiftDependencies.Analysis.Result

/-!
# Classifying the dependencies of a target

The modules that the sources of a target import are compared with what the target declares.

* A declared product is used if one of the targets it contains is imported; the first declared
  product that contains an import provides it. A bare name that is no target of the package but a
  product of an external one is a declared product too.
* An import is missing if it is neither declared nor provided nor another target of the package.
* A direct declaration of a name that a declared product contains is redundant. A bare name that is
  a product is its own direct declaration, so only a second one is redundant to it.
* A declaration is unused if it is neither imported nor redundant nor a product that is used.
-/

namespace SwiftDependencies

/-- A product that a target declares. -/
structure ProductUse where
  name : String
  package : String
  /-- Whether it is declared by a bare name. -/
  byName : Bool
  deriving DecidableEq, Repr, Inhabited

/-- All that the classification of a target depends on. -/
structure AnalysisInput where
  target : Target
  package : Package
  externals : List ExternalPackage
  productMap : ProductMap
  files : List SourceFile
  /-- The modules that are never reported. -/
  allowed : NameSet

namespace AnalysisInput

/-- The other targets of the package that can be imported without a declaration. -/
def internalModules (target : Target) (package : Package) : NameSet :=
  NameSet.ofList
    ((package.targets.filter fun t => t.name != target.name && t.kind.isImportable).map (·.name))

/-- The imported modules that are not ignored. -/
def observed (x : AnalysisInput) : NameSet :=
  (NameSet.ofList (x.files.flatMap fun f => f.imports.map (·.module))).filter fun n =>
    !isIgnored x.allowed n

/-- The modules of the package that the target may import. -/
def internal (x : AnalysisInput) : NameSet :=
  internalModules x.target x.package

/-- The package that owns a product, which is named after the product if it is unknown. -/
def ownerOf (x : AnalysisInput) (product : String) : String :=
  (ProductMap.owner? x.externals product).getD product

/-- Whether a bare name stands for an external product. -/
def isProductName (x : AnalysisInput) (name : String) : Bool :=
  !(x.package.targets.any fun t => t.name == name) &&
    ((ProductMap.owner? x.externals name).isSome || x.productMap.contains name)

/-- The product that a dependency declares, if it declares one. -/
def productUse? (x : AnalysisInput) (d : Dependency) : Option ProductUse :=
  if d.isProduct then
    some ⟨d.name, (d.package.filter (· != "")).getD (x.ownerOf d.name), false⟩
  else if x.isProductName d.name then some ⟨d.name, x.ownerOf d.name, true⟩
  else none

/-- The products that the target declares, in order. -/
def productUses (x : AnalysisInput) : List ProductUse :=
  x.target.dependencies.filterMap x.productUse?

/-- The names of the declared products. -/
def productNames (x : AnalysisInput) : NameSet :=
  NameSet.ofList (x.productUses.map (·.name))

/-- How often a name is declared directly. -/
def directCount (x : AnalysisInput) (name : String) : Nat :=
  x.target.dependencies.countP fun d => !d.isProduct && d.name == name

/-- The names that are declared directly and are not products. -/
def directNames (x : AnalysisInput) : NameSet :=
  (NameSet.ofList ((x.target.dependencies.filter fun d => !d.isProduct).map (·.name))).filter
    fun n => !(x.productUses.any fun p => p.byName && p.name == n)

/-- The first declared product that contains a module. -/
def provider? (x : AnalysisInput) (name : String) : Option ProductUse :=
  x.productUses.find? fun p => (x.productMap.members p.name).contains name

/-- The imports that declared products provide, in the order of their names. -/
def satisfied (x : AnalysisInput) : List Satisfied :=
  (x.observed \ x.internal).toList.filterMap fun n =>
    (x.provider? n).map fun p => ⟨n, p.name, p.package⟩

/-- The modules that declared products provide. -/
def satisfiedNames (x : AnalysisInput) : NameSet :=
  NameSet.ofList (x.satisfied.map (·.module))

/-- How often a member of a product is declared apart from the product. -/
def separateCount (x : AnalysisInput) (p : ProductUse) (member : String) : Nat :=
  x.directCount member - if p.byName && member == p.name then 1 else 0

/-- The direct declarations that each declared product makes redundant, with repetitions. -/
def redundancies (x : AnalysisInput) : List Redundant :=
  x.productUses.flatMap fun p =>
    ((x.productMap.members p.name).filter fun m => x.separateCount p m != 0).map fun m =>
      ⟨m, p.name, p.package⟩

/-- Keep the first of the elements with the same key, apart from the keys in `seen`. -/
def firstOfEach (key : α → String) (seen : List String) : List α → List α
  | [] => []
  | a :: l =>
    if seen.contains (key a) then firstOfEach key seen l
    else a :: firstOfEach key (key a :: seen) l

/-- The redundant declarations, each name once. -/
def redundant (x : AnalysisInput) : List Redundant :=
  firstOfEach (·.name) [] x.redundancies

/-- The names of the redundant declarations. -/
def redundantNames (x : AnalysisInput) : NameSet :=
  NameSet.ofList (x.redundant.map (·.name))

/-- The imports that are neither declared nor provided. -/
def missing (x : AnalysisInput) : NameSet :=
  (((x.observed \ x.satisfiedNames) \ x.directNames) \ x.productNames) \ x.internal

/-- The names of the products that provide something. -/
def usedProducts (x : AnalysisInput) : NameSet :=
  NameSet.ofList (x.satisfied.map (·.product))

/-- The declarations of which nothing is imported. -/
def unused (x : AnalysisInput) : NameSet :=
  (((x.directNames \ x.redundantNames) \ x.observed).filter fun n => !isIgnored x.allowed n) ∪
    ((((x.productNames \ x.observed) \ x.satisfiedNames) \ x.usedProducts).filter fun n =>
      !isIgnored x.allowed n)

/-- The declarations that are imported by name. -/
def correct (x : AnalysisInput) : NameSet :=
  ((x.directNames \ x.redundantNames) ∩ x.observed) ∪ (x.productNames ∩ x.observed)

/-- The classification of a target. -/
def analyze (x : AnalysisInput) : Analysis :=
  if x.target.hasSources then
    ⟨x.target, x.missing, x.unused, x.correct, x.satisfied, x.redundant, x.files⟩
  else Analysis.trivial x.target

end AnalysisInput

end SwiftDependencies
