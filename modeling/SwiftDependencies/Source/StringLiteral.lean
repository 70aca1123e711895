import SwiftDependencies.Text.Blank

/-!
# The value of a string literal

The value of a literal is what stands between its quotes. Three quotes at both ends are taken off
together with the line feeds next to them. In a literal without number signs a backslash and the
character after it stand for one character, and an interpolation leaves the literal without a value.
-/

namespace SwiftDependencies.Source

/-- The character for which a backslash and a character stand. -/
def escapeValue : Char → Char
  | 'n' => '\n'
  | 't' => '\t'
  | 'r' => '\r'
  | '0' => Char.ofNat 0
  | c => c

/-- Replace the escapes in the body of a literal. A backslash before a line feed or at the end is
itself. -/
def unescape : List Char → List Char
  | [] => []
  | ['\\'] => ['\\']
  | '\\' :: c :: cs =>
    if c == '\n' then '\\' :: c :: unescape cs else escapeValue c :: unescape cs
  | c :: cs => c :: unescape cs

/-- Whether an interpolation is opened somewhere. -/
def interpolates : List Char → Bool
  | '\\' :: '(' :: _ => true
  | _ :: cs => interpolates cs
  | [] => false

/-- Whether a text starts and ends with `quotes` and has room for both. -/
def isEnclosedBy (quotes cs : List Char) : Bool :=
  quotes.isPrefixOf cs && quotes.isSuffixOf cs && 2 * quotes.length ≤ cs.length

/-- Take `n` characters off both ends. -/
def dropBothEnds (n : Nat) (cs : List Char) : List Char :=
  (cs.drop n).take (cs.length - 2 * n)

/-- What stands between the quotes of a literal. -/
def literalBody? (cs : List Char) : Option (List Char) :=
  if isEnclosedBy ['"', '"', '"'] cs then
    some (Text.dropMargins (· == '\n') (dropBothEnds 3 cs))
  else if isEnclosedBy ['"'] cs then some (dropBothEnds 1 cs)
  else none

/-- The value of a literal, unless it interpolates or is not closed. -/
def literalValue? (cs : List Char) : Option (List Char) := do
  let cs := Text.dropMargins Text.isBlank cs
  let hashes := (cs.takeWhile (· == '#')).length
  let body ← literalBody? (dropBothEnds hashes cs)
  if hashes != 0 then some body
  else if interpolates body then none
  else some (unescape body)

end SwiftDependencies.Source
