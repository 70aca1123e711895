/-!
# Bracket structure

The round, square and curly brackets are counted alike: each opener raises the level and each closer
lowers it, whatever the kind. Two counters are used. The *depth* runs from the start of a text and
never goes below zero, so a stray closer is forgiven. The *level* runs from a given element and may
be negative.

The functions work on sequences of anything that shows a character, so that a text keeps its
annotations when it is cut.
-/

namespace SwiftDependencies.Source

/-- The opening brackets. -/
def isOpener (c : Char) : Bool :=
  c == '(' || c == '[' || c == '{'

/-- The closing brackets. -/
def isCloser (c : Char) : Bool :=
  c == ')' || c == ']' || c == '}'

/-- The level after a character. -/
def levelAfter (level : Int) (c : Char) : Int :=
  if isOpener c then level + 1 else if isCloser c then level - 1 else level

/-- The depth after a character. -/
def depthAfter (depth : Nat) (c : Char) : Nat :=
  if isOpener c then depth + 1 else if isCloser c then depth - 1 else depth

/-- The depth before each character of a text, and after the last one. -/
def depthsFrom (depth : Nat) : List Char → List Nat
  | [] => [depth]
  | c :: cs => depth :: depthsFrom (depthAfter depth c) cs

/-- The depths of a text. -/
def depths (cs : List Char) : List Nat :=
  depthsFrom 0 cs

/-- There is a depth before each character and one after the last. -/
@[simp] theorem length_depthsFrom (depth : Nat) (cs : List Char) :
    (depthsFrom depth cs).length = cs.length + 1 := by
  induction cs generalizing depth with
  | nil => rfl
  | cons c cs ih => simp [depthsFrom, ih]

/-! ### Matching brackets -/

/-- How many elements stand before the closer that brings the level back to zero. -/
def closingFrom? (level : Int) : List Char → Option Nat
  | [] => none
  | c :: cs =>
    let after := levelAfter level c
    if isCloser c && after == 0 then some 0 else (closingFrom? after cs).map (· + 1)

/-- The index of the closer that matches the opener at the start of a text. -/
def closing? (cs : List Char) : Option Nat :=
  closingFrom? 0 cs

/-- The offset of the closer that matches the opener at an offset of a text. -/
def closer? (cs : List Char) (i : Nat) : Option Nat :=
  (closing? (cs.drop i)).map (i + ·)

/-- The closing bracket is in the text. -/
theorem lt_length_of_closingFrom? {level : Int} {cs : List Char} {n : Nat}
    (h : closingFrom? level cs = some n) : n < cs.length := by
  induction cs generalizing level n with
  | nil => simp [closingFrom?] at h
  | cons c cs ih =>
    simp only [closingFrom?] at h
    split at h
    · simp_all [← Option.some.inj h]
    · obtain ⟨m, hm, rfl⟩ := Option.map_eq_some_iff.1 h
      simpa using ih hm

/-- The closing bracket of a text is in it. -/
theorem lt_length_of_closing? {cs : List Char} {n : Nat} (h : closing? cs = some n) :
    n < cs.length :=
  lt_length_of_closingFrom? h

/-! ### Cutting at a separator -/

variable {α : Type}

/-- The pieces of a sequence between the separators at level zero. -/
def piecesFrom (char : α → Char) (separator : Char → Bool) (level : Int) :
    List α → List (List α)
  | [] => [[]]
  | a :: l =>
    let c := char a
    let bracket := isOpener c || isCloser c
    if !bracket && separator c && level == 0 then [] :: piecesFrom char separator level l
    else
      match piecesFrom char separator (levelAfter level c) l with
      | [] => [[a]]
      | piece :: rest => (a :: piece) :: rest

/-- The elements before the first separator at level zero. -/
def untilSeparator (char : α → Char) (separator : Char → Bool) (level : Int) :
    List α → List α
  | [] => []
  | a :: l =>
    let c := char a
    let bracket := isOpener c || isCloser c
    if !bracket && separator c && level == 0 then []
    else a :: untilSeparator char separator (levelAfter level c) l

/-- The pieces of a sequence are no longer than it. -/
theorem length_le_of_mem_piecesFrom {char : α → Char} {separator : Char → Bool} {level : Int}
    {l piece : List α} (h : piece ∈ piecesFrom char separator level l) :
    piece.length ≤ l.length := by
  induction l generalizing level piece with
  | nil => simp_all [piecesFrom]
  | cons a l ih =>
    simp only [piecesFrom] at h
    split at h
    · rcases List.mem_cons.1 h with rfl | h
      · simp
      · exact Nat.le_succ_of_le (ih h)
    · split at h
      · simp_all
      · rename_i first rest heq
        rcases List.mem_cons.1 h with rfl | h
        · have := ih (heq ▸ List.mem_cons_self (a := first))
          simpa using this
        · exact Nat.le_succ_of_le (ih (heq ▸ List.mem_cons_of_mem _ h))

end SwiftDependencies.Source
