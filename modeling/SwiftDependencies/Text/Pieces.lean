/-!
# Pieces between separators

A sequence is cut at every separator. There is always one more piece than separators, so the empty
sequence has one empty piece.
-/

namespace SwiftDependencies.Text

/-- The pieces of a sequence between the elements that `p` accepts. -/
def pieces (p : α → Bool) : List α → List (List α)
  | [] => [[]]
  | a :: l =>
    if p a then [] :: pieces p l
    else
      match pieces p l with
      | [] => [[a]]
      | piece :: rest => (a :: piece) :: rest

/-- There is at least one piece. -/
theorem pieces_ne_nil (p : α → Bool) (l : List α) : pieces p l ≠ [] := by
  cases l with
  | nil => simp [pieces]
  | cons a l =>
    simp only [pieces]
    split
    · simp
    · split <;> simp

/-- The pieces of a text. -/
def piecesOf (p : Char → Bool) (s : String) : List String :=
  (pieces p s.toList).map String.ofList

/-- What follows the last separator. -/
def lastPiece (p : Char → Bool) (s : String) : String :=
  (piecesOf p s).getLastD ""

end SwiftDependencies.Text
