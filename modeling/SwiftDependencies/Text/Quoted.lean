import SwiftDependencies.Text.Printable

/-!
# Quotations of a text

A message shows a text between single quotes, or between double quotes if it contains a single quote
and no double quote. The enclosing quote and the backslash are written with a backslash before them,
line feed, carriage return and tab by their letters, and any other character that cannot be shown by
its code point in two, four or eight hexadecimal digits.
-/

namespace SwiftDependencies.Text

/-- The last `n` hexadecimal digits of a number. -/
def hexDigits : Nat → Nat → List Char
  | 0, _ => []
  | n + 1, v => hexDigits n (v / 16) ++ [Nat.digitChar (v % 16)]

/-- The code point of a character after a backslash. -/
def escapedCodePoint (c : Char) : List Char :=
  let n := c.toNat
  if n < 0x100 then '\\' :: 'x' :: hexDigits 2 n
  else if n < 0x10000 then '\\' :: 'u' :: hexDigits 4 n
  else '\\' :: 'U' :: hexDigits 8 n

/-- A character as it is written between the quotes `quote`. -/
def quotedChar (quote c : Char) : List Char :=
  if c == quote || c == '\\' then ['\\', c]
  else if c == '\n' then ['\\', 'n']
  else if c == '\r' then ['\\', 'r']
  else if c == '\t' then ['\\', 't']
  else if isPrintable c then [c]
  else escapedCodePoint c

/-- The quote put around a text. -/
def enclosingQuote (cs : List Char) : Char :=
  if cs.contains '\'' && !cs.contains '"' then '"' else '\''

/-- A text between quotes. -/
def quoted (s : String) : String :=
  let q := enclosingQuote s.toList
  String.ofList (q :: s.toList.flatMap (quotedChar q) ++ [q])

/-- Quotations in a row, separated by commas. -/
def quotedRow (names : List String) : String :=
  ", ".intercalate (names.map quoted)

end SwiftDependencies.Text
