import SwiftDependencies.Import.Sources
import SwiftDependencies.Manifest.Reader
import SwiftDependencies.Text.SmallLetter

/-!
# Finding external packages

The packages that a manifest refers to are looked for on disk: one with a path at that path, and any
other among the checkouts in the nearest directory `.build/checkouts` above the package. The result
for each name, which may be that there is none, is kept, so each name is looked for once. Where the
disk does not answer, the search ends there.
-/

namespace SwiftDependencies

/-! ### The directory of checkouts -/

/-- The place above a place. The root is above itself. -/
def Place.parent (p : Place) : Place :=
  ⟨p.names.dropLast⟩

/-- The directory of checkouts in a place. -/
def Place.checkouts (p : Place) : Path :=
  (p.toPath.entry ".build").entry "checkouts"

/-- The first directory of checkouts on the way up from a place, which ends after so many places and
at the root. -/
def FileSystem.climb (fs : FileSystem) : Nat → Place → Option Path
  | 0, _ => none
  | places + 1, p =>
    if fs.isDirectory p.checkouts then some p.checkouts
    else if p.parent = p then none
    else fs.climb places p.parent

/-- The nearest directory of checkouts, at most `depth` levels above a place. -/
def FileSystem.checkoutsAbove (fs : FileSystem) (depth : Int) (start : Place) : Option Path :=
  fs.climb (depth + 1).toNat start

/-- The nearest directory of checkouts, at most `depth` levels above a path. -/
def FileSystem.findCheckouts (fs : FileSystem) (depth : Int) (start : Path) :
    Except DiskFault (Option Path) :=
  fs.checkoutsAbove depth <$> fs.resolve start

/-! ### Matching a name -/

/-- How well the name of a directory fits the name of a package, less being better. -/
inductive Fit where
  | exact
  | sameLetters
  | overlap
  deriving DecidableEq, Repr

/-- Whether one text contains the other. -/
def overlaps (a b : String) : Bool :=
  Source.containsText a.toList b.toList || Source.containsText b.toList a.toList

/-- Whether a directory fits a package in a certain way. -/
def Fit.holds (fit : Fit) (name directory : String) : Bool :=
  match fit with
  | .exact => directory == name
  | .sameLetters => Text.lowercase directory == Text.lowercase name
  | .overlap => overlaps (Text.lowercase name) (Text.lowercase directory)

/-- The directory among some names that fits a package best; of equally good ones the first by
name. -/
def bestMatch? (name : String) (directories : List String) : Option String :=
  let sorted := sortedBy id directories
  [Fit.exact, .sameLetters, .overlap].findSome? fun fit => sorted.find? (fit.holds name)

/-- The visible directories among some entries. -/
def visibleDirectories (entries : List (String × FileTree)) : List String :=
  (entries.filter fun e => e.2.isDirectory && !isHidden e.1).map (·.1)

/-- The checkout of a package. -/
def FileSystem.matchCheckout (fs : FileSystem) (name : String) (checkouts : Path) :
    Except DiskFault (Option Path) :=
  (fun entries => (bestMatch? name (visibleDirectories entries)).map checkouts.entry) <$>
    fs.entries checkouts

/-! ### Resolving references -/

/-- How external packages are looked for. -/
structure Resolver where
  reader : Reader
  /-- How many levels above a package its checkouts may lie. -/
  depth : Int

/-- The results so far, by the name of the reference. -/
abbrev ResolverCache := List (String × Option ExternalPackage)

namespace Resolver

/-- The directory in which a reference is looked for. -/
def directory? (fs : FileSystem) (ref : PackageReference) (root : Path)
    (checkouts : Option Path) : Except DiskFault (Option Path) :=
  if ref.isLocal then (fun place => some place.toPath) <$> fs.resolve (root.join ref.origin)
  else
    match checkouts with
    | none => .ok none
    | some checkouts => fs.matchCheckout ref.name checkouts

/-- Read the package of a reference in the directory that was found for it, and say what
happened. -/
def readPackage (r : Resolver) (fs : FileSystem) (ref : PackageReference)
    (directory : Option Path) : Option ExternalPackage × List Event :=
  match directory.filter fs.isDirectory with
  | none => (none, [.referenceUnmatched ref.name])
  | some directory =>
    match r.reader.readAt fs directory with
    | (.error _, events) => (none, events ++ [.referenceSkipped ref.name])
    | (.ok p, events) =>
      (some ⟨ref.name, p.products, directory⟩, events ++ [.referenceResolved ref.name])

/-- Look for the package of a reference, and say what happened. -/
def load (r : Resolver) (fs : FileSystem) (ref : PackageReference) (root : Path)
    (checkouts : Option Path) : Except DiskFault (Option ExternalPackage × List Event) :=
  r.readPackage fs ref <$> directory? fs ref root checkouts

/-- The package of a reference, looked for only if its name has no result yet. If the disk does not
answer there is no result to keep. -/
def resolveReference (r : Resolver) (fs : FileSystem) (cache : ResolverCache)
    (ref : PackageReference) (root : Path) (checkouts : Option Path) :
    Except DiskFault (Option ExternalPackage) × ResolverCache × List Event :=
  match cache.lookup ref.name with
  | some result => (.ok result, cache, [])
  | none =>
    match r.load fs ref root checkouts with
    | .error fault => (.error fault, cache, [])
    | .ok (result, events) => (.ok result, (ref.name, result) :: cache, events)

/-- The packages of references in order, as far as the disk answers. -/
def resolveReferences (r : Resolver) (fs : FileSystem) (root : Path) (checkouts : Option Path)
    (cache : ResolverCache) : List PackageReference →
    Except DiskFault (List ExternalPackage) × ResolverCache × List Event
  | [] => (.ok [], cache, [])
  | ref :: refs =>
    if checkouts.isNone && !ref.isLocal then r.resolveReferences fs root checkouts cache refs
    else
      match r.resolveReference fs cache ref root checkouts with
      | (.error fault, cache, events) => (.error fault, cache, events)
      | (.ok result, cache, events) =>
        let (results, cache, more) := r.resolveReferences fs root checkouts cache refs
        ((result.toList ++ ·) <$> results, cache, events ++ more)

/-- The external packages of a package. Those that cannot be found are left out. -/
def resolve (r : Resolver) (fs : FileSystem) (cache : ResolverCache) (p : Package) :
    Except DiskFault (List ExternalPackage) × ResolverCache × List Event :=
  match fs.findCheckouts r.depth p.root with
  | .error fault => (.error fault, cache, [])
  | .ok checkouts =>
    let (results, cache, events) := r.resolveReferences fs p.root checkouts cache p.references
    (results, cache, (if checkouts.isNone then [.noCheckouts p.name] else []) ++ events)

end Resolver

end SwiftDependencies
