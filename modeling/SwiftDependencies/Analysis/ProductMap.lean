import SwiftDependencies.Event
import SwiftDependencies.NameSet
import SwiftDependencies.Package

/-!
# Products of external packages

A product map says which targets the products of all external packages contain. If two products have
one name, the later one counts, and if their packages have different names this is recorded. The
owner of a product, the package that a finding names, is found by going through the products once
more.
-/

namespace SwiftDependencies

/-- The members of products, by the name of the product. -/
structure ProductMap where
  entries : List (String × List String)
  deriving Repr, Inhabited

namespace ProductMap

/-- The members of a product, if the map has it. -/
def members? (m : ProductMap) (product : String) : Option (List String) :=
  m.entries.lookup product

/-- The members of a product; an unknown one has none. -/
def members (m : ProductMap) (product : String) : List String :=
  (m.members? product).getD []

/-- Whether the map has a product. -/
def contains (m : ProductMap) (product : String) : Bool :=
  (m.members? product).isSome

/-- Give a name a value, in its place if it has one and at the end if not. -/
def assign (name : String) (value : α) : List (String × α) → List (String × α)
  | [] => [(name, value)]
  | e :: es => if e.1 == name then (name, value) :: es else e :: assign name value es

/-- What is assigned is found under its name, and everything else where it was. -/
theorem lookup_assign (name other : String) (value : α) (l : List (String × α)) :
    (assign name value l).lookup other = if other == name then some value else l.lookup other := by
  induction l with
  | nil => simp [assign, List.lookup_cons]; split <;> simp_all
  | cons e es ih =>
    obtain ⟨k, v⟩ := e
    simp only [assign]
    split
    · rename_i hk
      have hk : k = name := by simpa using hk
      subst hk
      simp only [List.lookup_cons]
      split <;> simp_all
    · rename_i hk
      simp only [List.lookup_cons]
      cases ho : other == k
      · exact ih
      · have ho' : other = k := by simpa using ho
        subst ho'
        simp_all

/-- The products of packages in order, each with the name of its package. -/
def occurrences (packages : List ExternalPackage) : List (Product × String) :=
  packages.flatMap fun p => p.products.map (·, p.name)

/-- What has been collected of some products: members, owners and collisions. -/
structure Collected where
  members : List (String × List String)
  owners : List (String × String)
  events : List Event

/-- Collect one more product. -/
def Collected.add (c : Collected) (occurrence : Product × String) : Collected :=
  let (product, package) := occurrence
  ⟨assign product.name product.targets c.members, assign product.name package c.owners,
    c.events ++ match c.owners.lookup product.name with
      | some owner =>
        if owner = package then [] else [.productCollision product.name package owner]
      | none => []⟩

/-- What is collected of the products of packages. -/
def collect (packages : List ExternalPackage) : Collected :=
  (occurrences packages).foldl Collected.add ⟨[], [], []⟩

/-- The product map of packages. -/
def ofPackages (packages : List ExternalPackage) : ProductMap :=
  ⟨(collect packages).members⟩

/-- The collisions among the products of packages. -/
def collisions (packages : List ExternalPackage) : List Event :=
  (collect packages).events

/-- The owners of the products of packages: one package after the other takes each of its products,
whoever had it before. -/
def owners (packages : List ExternalPackage) : List (String × String) :=
  packages.foldl (fun owners p =>
    p.products.foldl (fun owners q => assign q.name p.name owners) owners) []

/-- The package that owns a product, if one does. -/
def owner? (packages : List ExternalPackage) (product : String) : Option String :=
  (owners packages).lookup product

end ProductMap

end SwiftDependencies
