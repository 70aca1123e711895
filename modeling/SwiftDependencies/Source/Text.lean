import SwiftDependencies.Source.Bracket
import SwiftDependencies.Source.Lexeme
import SwiftDependencies.Text.Blank
import SwiftDependencies.Text.LineBreak

/-!
# Views of a source text

A source text is read through two views of the same length. The *clean* view blanks the comments.
The *skeleton* also blanks what is inside the string literals, so that brackets, commas and names in
it are structure and nothing else. Line feeds stay in place in both.

A `Glyph` is one character of the text with all that a reader needs to know of its place, so that a
part of the text can be cut out and read by itself.
-/

namespace SwiftDependencies.Source

open Text (isBlank)

/-- A blank in place of a character. A line feed stays. -/
def blanked (c : Char) : Char :=
  if c == '\n' then '\n' else ' '

/-- Blank all but the first and the last character. -/
def blankInside : List Char → List Char
  | [] => []
  | [c] => [c]
  | c :: d :: cs => c :: ((d :: cs).dropLast.map blanked ++ [(d :: cs).getLast (by simp)])

/-- To blank the inside of a literal keeps its length. -/
@[simp] theorem length_blankInside (cs : List Char) : (blankInside cs).length = cs.length := by
  match cs with
  | [] => rfl
  | [_] => rfl
  | c :: d :: cs => simp [blankInside]

namespace Lexeme

/-- A lexeme in the clean view. -/
def clean : Lexeme → List Char
  | .code c => [c]
  | .comment text _ => text.map blanked
  | .literal text _ => text

/-- A lexeme in the skeleton. -/
def skeleton : Lexeme → List Char
  | .code c => [c]
  | .comment text _ => text.map blanked
  | .literal text _ => blankInside text

/-- The length of a literal, and zero for any other lexeme. -/
def literalLength : Lexeme → Nat
  | .literal text _ => text.length
  | _ => 0

/-- What a lexeme leaves in the clean text is as long as the lexeme. -/
@[simp] theorem length_clean (x : Lexeme) : x.clean.length = x.text.length := by
  cases x <;> simp [clean, text]

/-- What a lexeme leaves in the skeleton is as long as the lexeme. -/
@[simp] theorem length_skeleton (x : Lexeme) : x.skeleton.length = x.text.length := by
  cases x <;> simp [skeleton, text]

end Lexeme

/-- The text with comments blanked. -/
def clean (cs : List Char) : List Char :=
  (lexemes cs).flatMap Lexeme.clean

/-- The text with comments and the contents of literals blanked. -/
def skeleton (cs : List Char) : List Char :=
  (lexemes cs).flatMap Lexeme.skeleton

/-- Blanking moves nothing. -/
theorem length_clean (cs : List Char) : (clean cs).length = cs.length := by
  conv => rhs; rw [← text_lexemes cs]
  simp [clean, List.length_flatMap]

/-- Blanking moves nothing. -/
theorem length_skeleton (cs : List Char) : (skeleton cs).length = cs.length := by
  conv => rhs; rw [← text_lexemes cs]
  simp [skeleton, List.length_flatMap]

/-- A stretch of text, from its first offset up to the offset after its last. -/
structure Extent where
  start : Nat
  stop : Nat
  deriving DecidableEq, Repr

namespace Extent

/-- The elements of a text within an extent. -/
def cut (e : Extent) (l : List α) : List α :=
  (l.drop e.start).take (e.stop - e.start)

/-- An extent without the blanks at its ends. Of an extent of blanks only its end is left. -/
def trimmed (cs : List Char) (e : Extent) : Extent :=
  if e.stop ≤ e.start then e
  else
    let start := e.start + ((e.cut cs).takeWhile isBlank).length
    ⟨start, start + (Text.dropMargins isBlank (e.cut cs)).length⟩

/-- The extent of numbered elements that stand in a row; of none there is none. -/
def ofNumbered? : List (Char × Nat) → Option Extent
  | [] => none
  | x :: xs => some ⟨x.2, x.2 + xs.length + 1⟩

/-- The extents of the pieces between the separators at level zero, trimmed and without the blank
ones. -/
def items (cs : List Char) (separator : Char → Bool) (e : Extent) : List Extent :=
  (piecesFrom (·.1) separator 0 (e.cut cs.zipIdx)).filterMap fun piece =>
    ofNumbered? (Text.dropMargins (fun x => isBlank x.1) piece)

end Extent

/-- The extents of the literals among lexemes that begin at an offset. -/
def literalsFrom (offset : Nat) : List Lexeme → List Extent
  | [] => []
  | x :: xs =>
    let rest := literalsFrom (offset + x.text.length) xs
    match x with
    | .literal text _ => ⟨offset, offset + text.length⟩ :: rest
    | _ => rest

/-- The extents of the string literals of a text, in order. -/
def literals (cs : List Char) : List Extent :=
  literalsFrom 0 (lexemes cs)

/-! ### Lines -/

/-- The offsets after the line feeds of a text that begins at an offset. -/
def lineStartsFrom (offset : Nat) : List Char → List Nat
  | [] => []
  | c :: cs =>
    if c == '\n' then (offset + 1) :: lineStartsFrom (offset + 1) cs
    else lineStartsFrom (offset + 1) cs

/-- The offsets at which lines start, lines being ended by line feeds alone. -/
def lineStarts (cs : List Char) : List Nat :=
  0 :: lineStartsFrom 0 cs

/-- The number of the line that contains an offset, counted from one: how many lines start at the
offset or before it. -/
def lineAt (cs : List Char) (offset : Nat) : Nat :=
  (lineStarts cs).countP (· ≤ offset)

/-! ### Glyphs -/

/-- A character of a source text and its place. -/
structure Glyph where
  /-- The character in the clean view. -/
  clean : Char
  /-- The character in the skeleton. -/
  skeleton : Char
  /-- The number of its line. -/
  line : Nat
  /-- The bracket depth just before it. -/
  depth : Nat
  /-- The length of the string literal that starts here, or zero. -/
  literalLength : Nat
  deriving DecidableEq, Repr

namespace Glyph

/-- Whether the skeleton is blank here. -/
def isBlank (g : Glyph) : Bool :=
  Text.isBlank g.skeleton

end Glyph

/-- The line after a character. -/
def lineAfter (line : Nat) (c : Char) : Nat :=
  if c == '\n' then line + 1 else line

/-- The glyphs of one lexeme, from the characters of its two views. -/
def glyphsOf (line depth literalLength : Nat) : List Char → List Char → List Glyph
  | c :: cs, s :: ss =>
    ⟨c, s, line, depth, literalLength⟩ ::
      glyphsOf (lineAfter line s) (depthAfter depth s) 0 cs ss
  | _, _ => []

/-- The glyphs of lexemes that begin on a line at a depth. -/
def glyphsFrom (line depth : Nat) : List Lexeme → List Glyph
  | [] => []
  | x :: xs =>
    glyphsOf line depth x.literalLength x.clean x.skeleton ++
      glyphsFrom (x.skeleton.foldl lineAfter line) (x.skeleton.foldl depthAfter depth) xs

/-- The glyphs of a text. -/
def glyphs (cs : List Char) : List Glyph :=
  glyphsFrom 1 0 (lexemes cs)

end SwiftDependencies.Source
