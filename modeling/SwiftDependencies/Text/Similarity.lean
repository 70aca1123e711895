/-!
# Similar texts

Two texts are compared by what they share: the longest block that stands in both, and again what is
shared before it and after it. The share of the characters that are in such blocks says how similar
the texts are. Shares are compared as fractions, without rounding.
-/

namespace SwiftDependencies.Text

/-- The length of the common start of two texts. -/
def commonStart : List Char → List Char → Nat
  | a :: as, b :: bs => if a == b then commonStart as bs + 1 else 0
  | _, _ => 0

/-- A block of characters that stands in two texts. -/
structure SharedBlock where
  first : Nat
  second : Nat
  length : Nat
  deriving DecidableEq, Repr

/-- The longest block that two texts share. Of equally long ones it is the first one in the first
text, and then the first one in the second. -/
def longestShared (as bs : List Char) : SharedBlock :=
  (List.range as.length).foldl (fun best i =>
    (List.range bs.length).foldl (fun best j =>
      let length := commonStart (as.drop i) (bs.drop j)
      if best.length < length then ⟨i, j, length⟩ else best) best) ⟨0, 0, 0⟩

/-- The number of characters of a text that are in blocks shared with another. -/
def sharedCount (as bs : List Char) : Nat :=
  match longestShared as bs with
  | ⟨i, j, n⟩ =>
    if _h : 0 < n ∧ i + n ≤ as.length then
      n + sharedCount (as.take i) (bs.take j) + sharedCount (as.drop (i + n)) (bs.drop (j + n))
    else 0
termination_by as.length
decreasing_by
  · simp only [List.length_take]; omega
  · simp only [List.length_drop]; omega

/-- How similar two texts are: the share of `count` characters in `total`. -/
structure Similarity where
  count : Nat
  total : Nat
  deriving DecidableEq, Repr

namespace Similarity

/-- How similar a text is to another. -/
def of (as bs : List Char) : Similarity :=
  ⟨2 * sharedCount as bs, as.length + bs.length⟩

/-- Whether a share is at least three fifths. -/
def isClose (s : Similarity) : Bool :=
  3 * s.total ≤ 5 * s.count

/-- Whether a share is larger than another. -/
def exceeds (s t : Similarity) : Bool :=
  t.count * s.total < s.count * t.total

end Similarity

/-- The texts among some that are close to one, at most three of them. The closest ones are taken,
and of equally close ones those that come last in the order of texts. They are listed in this
order. -/
def closest (texts : List String) (text : String) : List String :=
  let scored := (texts.map fun t => (Similarity.of t.toList text.toList, t)).filter (·.1.isClose)
  let best := scored.mergeSort fun a b =>
    !b.1.exceeds a.1 && (a.1.exceeds b.1 || decide (b.2 ≤ a.2))
  ((best.take 3).map (·.2)).mergeSort fun a b => decide (a ≤ b)

end SwiftDependencies.Text
