import SwiftDependencies.Grammar.Form
import SwiftDependencies.Source.Region

/-!
# Trees of a reading

What has been read of a text is a tree: terminals at the leaves, and over them the phrases and the
series that they make up. Every tree knows the region that it covers.
-/

namespace SwiftDependencies.Grammar

open Source (Region)

/-- A tree over terminals and phrases. -/
inductive Tree (T P : Type) where
  | leaf (terminal : T) (region : Region)
  | phrase (phrase : P) (parts : List (Tree T P)) (region : Region)
  | series (parts : List (Tree T P)) (region : Region)
  deriving Inhabited

namespace Tree

variable {T P : Type}

/-- Where a tree stands. -/
def region : Tree T P → Region
  | .leaf _ r | .phrase _ _ r | .series _ r => r

/-- The region that a row of trees covers. -/
def rowRegion (parts : List (Tree T P)) : Region :=
  match parts.head?, parts.getLast? with
  | some first, some last => first.region.through last.region
  | _, _ => default

/-- The tree of a symbol with some parts. A terminal has none. -/
def ofParts (symbol : Symbol T P) (parts : List (Tree T P)) : Tree T P :=
  match symbol with
  | .terminal t => .leaf t (rowRegion parts)
  | .phrase p => .phrase p parts (rowRegion parts)
  | .series _ => .series parts (rowRegion parts)

/-! ### Which of two trees is taken

Two readings of the same text may be equally heavy. If their trees have the same phrase with the
same number of parts, the first reading stays. Otherwise the tree is taken whose phrases come first
in the grammar. A transparent phrase with one part is no more than this part. -/

/-- A tree without the transparent phrases around it that have no other part. -/
def core (transparent : P → Bool) (t : Tree T P) : Tree T P :=
  match t with
  | .phrase p [part] _ => if transparent p then part.core transparent else t
  | t => t
termination_by sizeOf t

/-- The parts of a tree. -/
def parts : Tree T P → List (Tree T P)
  | .leaf _ _ => []
  | .phrase _ parts _ | .series parts _ => parts

mutual

/-- The number of trees in a tree, itself included. -/
def size : Tree T P → Nat
  | .leaf _ _ => 1
  | .phrase _ parts _ | .series parts _ => rowSize parts + 1

/-- The number of trees in a row of trees. -/
def rowSize : List (Tree T P) → Nat
  | [] => 0
  | t :: ts => t.size + rowSize ts

end

/-- The place of the symbol of a tree: terminals before phrases, and series last. -/
def rank (order : P → Nat) : Tree T P → Nat × Nat
  | .leaf _ _ => (0, 0)
  | .phrase p _ _ => (1, order p)
  | .series _ _ => (2, 0)

/-- Whether two trees have the same symbol and as many parts. -/
def resembles (order : P → Nat) (transparent : P → Bool) (a b : Tree T P) : Bool :=
  (a.core transparent).rank order == (b.core transparent).rank order &&
    (a.core transparent).parts.length == (b.core transparent).parts.length

/-- Compare rows of trees, the first ones first: by their symbols, then by the number of their
parts, then by these parts. At most `fuel` trees are compared. -/
def compareRows (order : P → Nat) (transparent : P → Bool) :
    Nat → List (Tree T P) → List (Tree T P) → Ordering
  | 0, _, _ => .eq
  | _, [], _ | _, _, [] => .eq
  | fuel + 1, a :: as, b :: bs =>
    let a := a.core transparent
    let b := b.core transparent
    (compareLex (compareOn (·.1)) (compareOn (·.2)) (a.rank order) (b.rank order)).then <|
      (compare a.parts.length b.parts.length).then <|
        compareRows order transparent fuel (a.parts ++ as) (b.parts ++ bs)

/-- Whether a tree is taken rather than an equally heavy one that was there before. -/
def supersedes (order : P → Nat) (transparent : P → Bool) (new old : Tree T P) : Bool :=
  !resembles order transparent new old &&
    compareRows order transparent new.size [new] [old] == .lt

end Tree

end SwiftDependencies.Grammar
