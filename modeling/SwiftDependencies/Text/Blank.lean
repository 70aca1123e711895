/-!
# Blank characters

A blank character separates words without being seen: a space of any width, a tab, a line break, or
one of the four information separators. A run of blanks at either end of a sequence is its margin,
and trimming removes both margins. Trimming is written for sequences of anything that shows a
character, so that it serves plain text and annotated text alike.
-/

namespace SwiftDependencies.Text

/-- The blank characters of Unicode. -/
def isBlank (c : Char) : Bool :=
  let n := c.toNat
  (0x09 ≤ n && n ≤ 0x0d) || (0x1c ≤ n && n ≤ 0x20) || n == 0x85 || n == 0xa0 ||
    n == 0x1680 ||
    (0x2000 ≤ n && n ≤ 0x200a) || n == 0x2028 || n == 0x2029 || n == 0x202f || n == 0x205f ||
    n == 0x3000

/-- A space is blank. -/
@[simp] theorem isBlank_space : isBlank ' ' = true := by decide

/-- A line feed is blank. -/
@[simp] theorem isBlank_newline : isBlank '\n' = true := by decide

/-! ### Margins -/

/-- Remove the margin before the first element that `p` refuses. -/
def dropStart (p : α → Bool) (l : List α) : List α :=
  l.dropWhile p

/-- Remove the margin after the last element that `p` refuses. -/
def dropEnd (p : α → Bool) (l : List α) : List α :=
  (l.reverse.dropWhile p).reverse

/-- Remove both margins. -/
def dropMargins (p : α → Bool) (l : List α) : List α :=
  dropEnd p (dropStart p l)

/-- Nothing is added at the start. -/
theorem length_dropStart_le (p : α → Bool) (l : List α) : (dropStart p l).length ≤ l.length :=
  (List.dropWhile_sublist p).length_le

/-- Nothing is added at the end. -/
theorem length_dropEnd_le (p : α → Bool) (l : List α) : (dropEnd p l).length ≤ l.length := by
  have h := (List.dropWhile_sublist (l := l.reverse) p).length_le
  simpa [dropEnd] using h

/-- Nothing is added when margins are dropped. -/
theorem length_dropMargins_le (p : α → Bool) (l : List α) :
    (dropMargins p l).length ≤ l.length :=
  Nat.le_trans (length_dropEnd_le p _) (length_dropStart_le p l)

/-! ### Strings -/

/-- A text without its blank margins. -/
def trim (s : String) : String :=
  String.ofList (dropMargins isBlank s.toList)

end SwiftDependencies.Text
