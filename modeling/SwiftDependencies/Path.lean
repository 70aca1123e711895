import SwiftDependencies.Text.Pieces

/-!
# Paths

A path is an anchor and the names below it. An absolute path hangs on one slash or on exactly two,
and three or more slashes count as one. Reading a path drops empty names and single dots and keeps
double dots, since what lies above a name is for the file tree to say.

An absolute path without dots is a `Place`: the names from the root down. A relative path denotes a
place only once a working directory is given.
-/

namespace SwiftDependencies

/-- What a path hangs on. -/
inductive Anchor where
  /-- The working directory. -/
  | relative
  /-- The root. -/
  | root
  /-- The root, written with two slashes. -/
  | doubleRoot
  deriving DecidableEq, Repr, Inhabited

/-- A path in normal form: no name is empty, a single dot, or contains a slash. -/
structure Path where
  anchor : Anchor
  names : List String
  deriving DecidableEq, Repr, Inhabited

namespace Path

/-- Whether a piece between slashes is a name. -/
def isName (piece : String) : Bool :=
  piece != "" && piece != "."

/-- The anchor of a written path. -/
def anchorOf (s : String) : Anchor :=
  match (s.toList.takeWhile (· == '/')).length with
  | 0 => .relative
  | 2 => .doubleRoot
  | _ => .root

/-- Read a path. -/
def ofString (s : String) : Path :=
  ⟨anchorOf s, (Text.piecesOf (· == '/') s).filter isName⟩

/-- Write a path. The empty relative path is a single dot. -/
def toString (p : Path) : String :=
  let body := "/".intercalate p.names
  match p.anchor with
  | .relative => if p.names.isEmpty then "." else body
  | .root => "/" ++ body
  | .doubleRoot => "//" ++ body

instance : ToString Path := ⟨toString⟩

/-- The path `q` seen from `p`: an absolute path stays what it is. -/
def append (p q : Path) : Path :=
  match q.anchor with
  | .relative => ⟨p.anchor, p.names ++ q.names⟩
  | _ => q

instance : Append Path := ⟨append⟩

/-- How paths are grouped when they are joined does not matter. -/
theorem append_assoc (p q r : Path) : p ++ q ++ r = p ++ (q ++ r) := by
  obtain ⟨anchor, names⟩ := r
  cases anchor with
  | relative =>
    obtain ⟨anchor, names⟩ := q
    cases anchor with
    | relative => exact congrArg (Path.mk _) (List.append_assoc _ _ _)
    | root | doubleRoot => rfl
  | root | doubleRoot => rfl

/-- Go on to a written path. -/
def join (p : Path) (s : String) : Path :=
  p ++ ofString s

/-- The last name, or nothing. -/
def name (p : Path) : String :=
  p.names.getLastD ""

/-- The path without its last name. -/
def parent (p : Path) : Path :=
  ⟨p.anchor, p.names.dropLast⟩

end Path

/-! ### Places -/

/-- An absolute place: the names from the root down, without dots. -/
structure Place where
  names : List String
  deriving DecidableEq, Repr, Inhabited

namespace Place

/-- One step down a path: double dots go up, and stay where they are at the root. -/
def step (names : List String) (name : String) : List String :=
  if name = ".." then names.dropLast else names ++ [name]

/-- The place that a path denotes, read from a working directory, by its names alone. -/
def ofPath (workingDirectory : Place) (p : Path) : Place :=
  ⟨p.names.foldl step (match p.anchor with
    | .relative => workingDirectory.names
    | _ => [])⟩

/-- The path from the root to a place. -/
def toPath (p : Place) : Path :=
  ⟨.root, p.names⟩

/-- The length of the common beginning of two lists. -/
def commonLength : List String → List String → Nat
  | a :: l, b :: m => if a = b then commonLength l m + 1 else 0
  | _, _ => 0

/-- The way from one place to another: up to the last place above both, then down. -/
def route (start goal : Place) : Path :=
  let n := commonLength start.names goal.names
  ⟨.relative, List.replicate (start.names.length - n) ".." ++ goal.names.drop n⟩

/-- A list is the common beginning of itself and a longer one. -/
@[simp] theorem commonLength_append (l m : List String) : commonLength l (l ++ m) = l.length := by
  induction l with
  | nil => simp [commonLength]
  | cons a l ih => simp [commonLength, ih]

end Place

end SwiftDependencies
