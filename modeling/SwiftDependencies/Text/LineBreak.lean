/-!
# Lines of a text

A text is divided into lines at every line break of Unicode: line feed, vertical tab, form feed,
carriage return, the three information separators above the unit separator, next line, and the line
and paragraph separators. A carriage return and the line feed right after it are one break. The
breaks belong to no line, and a break at the very end opens no further line.
-/

namespace SwiftDependencies.Text

/-- The characters that end a line. -/
def isLineBreak (c : Char) : Bool :=
  let n := c.toNat
  (0x0a ≤ n && n ≤ 0x0d) || (0x1c ≤ n && n ≤ 0x1e) || n == 0x85 || n ==
    0x2028 || n == 0x2029

/-- The lines of a text of which `line`, reversed, has been read in the current line. The flag says
whether that line has begun, which a break does not do by itself. -/
def linesAfter (line : List Char) (begun : Bool) : List Char → List (List Char)
  | [] => if begun then [line.reverse] else []
  | '\r' :: '\n' :: cs => line.reverse :: linesAfter [] false cs
  | c :: cs =>
    if isLineBreak c then line.reverse :: linesAfter [] false cs
    else linesAfter (c :: line) true cs

/-- The lines of a text. -/
def lines (cs : List Char) : List (List Char) :=
  linesAfter [] false cs

/-- A text without characters has no lines. -/
@[simp] theorem lines_nil : lines [] = [] := rfl

end SwiftDependencies.Text
