import SwiftDependencies.Path

/-!
# Packages

A package has a name, targets, products, and references to other packages. A target declares its
dependencies, each either by a bare name or as a product of a package. A product is a named group of
targets that other packages may depend on.
-/

namespace SwiftDependencies

/-- What a target is built into. -/
inductive TargetKind where
  | library
  | executable
  | test
  | compilerPlugin
  | toolPlugin
  | systemLibrary
  | binary
  deriving DecidableEq, Repr, Inhabited

namespace TargetKind

/-- All kinds. -/
def all : List TargetKind :=
  [.library, .executable, .test, .compilerPlugin, .toolPlugin, .systemLibrary, .binary]

/-- The name of a kind in a report. -/
def name : TargetKind → String
  | .library => "library"
  | .executable => "executable"
  | .test => "test"
  | .compilerPlugin => "macro"
  | .toolPlugin => "plugin"
  | .systemLibrary => "system-library"
  | .binary => "binary"

/-- The constructor that a manifest uses for a kind. -/
def constructor : TargetKind → String
  | .library => "target"
  | .executable => "executableTarget"
  | .test => "testTarget"
  | .compilerPlugin => "macro"
  | .toolPlugin => "plugin"
  | .systemLibrary => "systemLibrary"
  | .binary => "binaryTarget"

/-- The kind that a constructor of a manifest makes. -/
def ofConstructor? (s : String) : Option TargetKind :=
  all.find? fun k => k.constructor == s

/-- Different kinds of targets have different constructors. -/
theorem ofConstructor?_constructor (k : TargetKind) : ofConstructor? k.constructor = some k := by
  cases k <;> rfl

/-- Whether targets of a kind have source files in the package. -/
def hasSources : TargetKind → Bool
  | .systemLibrary | .binary => false
  | _ => true

/-- Whether other targets of the package can import a target of a kind. -/
def isImportable : TargetKind → Bool
  | .test | .systemLibrary | .binary => false
  | _ => true

end TargetKind

/-- What a product is. -/
inductive ProductKind where
  | library
  | executable
  | toolPlugin
  deriving DecidableEq, Repr, Inhabited

namespace ProductKind

/-- All kinds. -/
def all : List ProductKind :=
  [.library, .executable, .toolPlugin]

/-- The name of a kind, in a report and as a constructor of a manifest. -/
def name : ProductKind → String
  | .library => "library"
  | .executable => "executable"
  | .toolPlugin => "plugin"

/-- The kind that a constructor of a manifest makes. -/
def ofConstructor? (s : String) : Option ProductKind :=
  all.find? fun k => k.name == s

/-- Different kinds of products have different constructors, which are their names. -/
theorem ofConstructor?_name (k : ProductKind) : ofConstructor? k.name = some k := by
  cases k <;> rfl

end ProductKind

/-- How a dependency is declared: by a bare name, or as a product. -/
inductive DependencyKind where
  | target
  | product
  deriving DecidableEq, Repr, Inhabited

/-- The name of a kind of dependency. -/
def DependencyKind.name : DependencyKind → String
  | .target => "target"
  | .product => "product"

/-- One declared dependency of a target. -/
structure Dependency where
  name : String
  kind : DependencyKind
  /-- The package of a product, if it is declared. -/
  package : Option String
  /-- The line of the manifest on which the dependency is found. -/
  line : Option Nat
  deriving DecidableEq, Repr, Inhabited

/-- Whether a dependency is declared as a product. -/
def Dependency.isProduct (d : Dependency) : Bool :=
  d.kind = .product

/-- A dependency declared by a bare name, as yet without a line. -/
def Dependency.bare (name : String) : Dependency :=
  ⟨name, .target, none, none⟩

/-- A dependency declared as a product, as yet without a line. -/
def Dependency.ofProduct (name : String) (package : Option String) : Dependency :=
  ⟨name, .product, package, none⟩

/-- A target of a package. -/
structure Target where
  name : String
  kind : TargetKind
  dependencies : List Dependency
  /-- The directory of its sources, if it is declared. -/
  path : Option String
  deriving DecidableEq, Repr, Inhabited

/-- Whether a target has source files in the package. -/
def Target.hasSources (t : Target) : Bool :=
  t.kind.hasSources

/-- The names of the declared dependencies, in order and with repetitions. -/
def Target.dependencyNames (t : Target) : List String :=
  t.dependencies.map (·.name)

/-- A product of a package. -/
structure Product where
  name : String
  kind : ProductKind
  /-- The names of its targets. -/
  targets : List String
  /-- The name of the package that declares it. -/
  package : String
  deriving DecidableEq, Repr, Inhabited

/-- A reference to another package. -/
structure PackageReference where
  name : String
  /-- The address, path or identifier under which it is declared. -/
  origin : String
  /-- Whether the origin is a path. -/
  isLocal : Bool
  deriving DecidableEq, Repr, Inhabited

/-- A package as its manifest describes it. -/
structure Package where
  name : String
  /-- The directory of the manifest. -/
  root : Path
  targets : List Target
  products : List Product
  references : List PackageReference
  deriving DecidableEq, Repr, Inhabited

/-- The file name of a manifest. -/
def manifestName : String := "Package.swift"

/-- The path of the manifest in a directory. -/
theorem Path.join_manifestName (p : Path) :
    p.join manifestName = ⟨p.anchor, p.names ++ [manifestName]⟩ := by
  have h : ofString manifestName = ⟨.relative, [manifestName]⟩ := by decide +kernel
  rw [join, h]
  rfl

/-- The place of the manifest in a directory. -/
theorem Place.ofPath_join_manifestName (w : Place) (p : Path) :
    ofPath w (p.join manifestName) = ⟨(ofPath w p).names ++ [manifestName]⟩ := by
  have hstep : ∀ names, step names manifestName = names ++ [manifestName] := by
    intro names
    exact if_neg (by decide)
  rw [Path.join_manifestName, ofPath, List.foldl_append, List.foldl_cons, List.foldl_nil, hstep]
  rfl

namespace Package

/-- The first target with a name. -/
def target? (p : Package) (name : String) : Option Target :=
  p.targets.find? fun t => t.name == name

/-- The path of the manifest. -/
def manifestPath (p : Package) : Path :=
  p.root.join manifestName

end Package

/-- A package found for a reference, as far as others can see it. -/
structure ExternalPackage where
  /-- The name of the reference. -/
  name : String
  products : List Product
  path : Path
  deriving DecidableEq, Repr, Inhabited

end SwiftDependencies
