import SwiftDependencies.Program.Terminal
import SwiftDependencies.Text.Identifier

/-!
# Patterns of terminals

`Pattern.length?` is the length of the longest text of a pattern at the start of a text.
-/

namespace SwiftDependencies.Program

/-- A hexadecimal digit. -/
def isHexDigit (c : Char) : Bool :=
  c.isDigit || ('a' ≤ c && c ≤ 'f') || ('A' ≤ c && c ≤ 'F')

/-- A length, unless it is zero. -/
def positive? (n : Nat) : Option Nat :=
  if n == 0 then none else some n

/-- The length of the rest of an identifier. A sign that encloses a character stands only after the
selector of a pictograph. -/
def identifierRestLength (selected : Bool) (length : Nat) : List Char → Nat
  | [] => length
  | c :: cs =>
    if c == '\ufe0f' then identifierRestLength true (length + 1) cs
    else if Text.continuesIdentifier c || (selected && c == '\u20e3') then
      identifierRestLength false (length + 1) cs
    else length

/-- The length of the identifier at the start of a text. -/
def identifierLength : List Char → Nat
  | [] => 0
  | c :: cs => if Text.startsIdentifier c then identifierRestLength false 1 cs else 0

/-- The length of the digits at the start of a text, with underscores inside. -/
def digitsLength (isDigit : Char → Bool) (cs : List Char) : Nat :=
  if cs.head?.any isDigit then
    ((cs.takeWhile fun c => isDigit c || c == '_').reverse.dropWhile (· == '_')).length
  else 0

/-- The length of digits after a prefix such as `0x`. -/
def prefixedLength? (letters : List Char) (isDigit : Char → Bool) : List Char → Option Nat
  | '0' :: c :: cs =>
    if letters.contains c then (positive? (digitsLength isDigit cs)).map (· + 2) else none
  | _ => none

/-- The length of an exponent. -/
def exponentLength (letters : List Char) : List Char → Nat
  | c :: cs =>
    if letters.contains c then
      let sign := if cs.head?.any fun c => c == '+' || c == '-' then 1 else 0
      let digits := digitsLength Char.isDigit (cs.drop sign)
      if digits == 0 then 0 else 1 + sign + digits
    else 0
  | [] => 0

/-- The length of a point with digits after it. -/
def fractionLength (isDigit : Char → Bool) : List Char → Nat
  | '.' :: cs =>
    let digits := digitsLength isDigit cs
    if digits == 0 then 0 else digits + 1
  | _ => 0

/-- The length of a number with a fraction or an exponent. -/
def realLength? (cs : List Char) : Option Nat :=
  let whole := digitsLength Char.isDigit cs
  let fraction := fractionLength Char.isDigit (cs.drop whole)
  let exponent := exponentLength ['e', 'E'] (cs.drop (whole + fraction))
  if fraction != 0 || (whole != 0 && exponent != 0) then some (whole + fraction + exponent)
  else
    (prefixedLength? ['x'] isHexDigit cs).bind fun whole =>
      let fraction := fractionLength isHexDigit (cs.drop whole)
      let exponent := exponentLength ['p', 'P'] (cs.drop (whole + fraction))
      if exponent == 0 then none else some (whole + fraction + exponent)

/-- The length of a regular expression between slashes on one line, which does not end with a
blank. -/
def regexLength? : List Char → Option Nat
  | '/' :: cs =>
    let body := cs.takeWhile fun c => c != '/' && c != '\n'
    if (cs.drop body.length).head? == some '/' && body.getLast?.any fun c => c != ' ' && c != '\t'
    then some (body.length + 2)
    else none
  | _ => none

/-- The last end of a regular expression between slashes and number signs, given the last one found
so far. A line break stands only right after a slash. -/
def extendedRegexEnd (best : Option Nat) (afterSlash : Bool) (length : Nat) :
    List Char → Option Nat
  | [] => best
  | c :: cs =>
    if c == '\n' && !afterSlash then best
    else
      let ends := c == '/' && cs.head? == some '#' && length ≥ 2
      extendedRegexEnd (if ends then some (length + 2) else best) (c == '/') (length + 1) cs

/-- The length of the lines of a regular expression, up to a line that starts with a slash and a
number sign. A slash goes with the character after it. -/
def regexLinesLength? (afterBreak : Bool) (length : Nat) : List Char → Option Nat
  | '/' :: '#' :: _ => if afterBreak then some (length + 2) else none
  | '/' :: _ :: cs => regexLinesLength? false (length + 2) cs
  | c :: cs => regexLinesLength? (c == '\n') (length + 1) cs
  | [] => none

/-- The length of a word at the start of a text, with the rest of its line. -/
def lineLength? (word : List Char) (cs : List Char) : Option Nat :=
  if word.isPrefixOf cs then some (cs.takeWhile fun c => c != '\r' && c != '\n').length else none

/-- The length of the text of a pattern at the start of a text. -/
def Pattern.length? (p : Pattern) (cs : List Char) : Option Nat :=
  match p with
  | .name => positive? (identifierLength cs)
  | .quotedName =>
    match cs with
    | '`' :: cs =>
      let body := cs.takeWhile fun c => c != '\r' && c != '\n' && c != '`' && c != ' '
      if (cs.drop body.length).head? == some '`' then some (body.length + 2) else none
    | _ => none
  | .numberedName =>
    match cs with
    | '$' :: cs => (positive? (cs.takeWhile Char.isDigit).length).map (· + 1)
    | _ => none
  | .dollarName =>
    match cs with
    | '$' :: cs => (positive? (identifierLength cs)).map (· + 1)
    | _ => none
  | .decimal => positive? (digitsLength Char.isDigit cs)
  | .hexadecimal => prefixedLength? ['x', 'X'] isHexDigit cs
  | .octal => prefixedLength? ['o', 'O'] (fun c => '0' ≤ c && c ≤ '7') cs
  | .binary => prefixedLength? ['b', 'B'] (fun c => c == '0' || c == '1') cs
  | .real => realLength? cs
  | .lineText | .blockText => positive? (cs.takeWhile fun c => c != '\\' && c != '"').length
  | .escape =>
    match cs with
    | '\\' :: c :: _ => if "0\\tnr\"'\n".toList.contains c then some 2 else none
    | _ => none
  | .characterNumber =>
    match cs with
    | '\x7b' :: cs =>
      let digits := (cs.takeWhile isHexDigit).length
      if digits != 0 && (cs.drop digits).head? == some '\x7d' then some (digits + 2) else none
    | _ => none
  | .rawInterpolation =>
    match cs with
    | '\\' :: cs =>
      let signs := (cs.takeWhile (· == '#')).length
      if (cs.drop signs).head? == some '(' then some (signs + 2) else none
    | _ => none
  | .regex => regexLength? cs
  | .extendedRegex =>
    match cs with
    | '/' :: cs => extendedRegexEnd none false 1 cs
    | _ => none
  | .multilineRegexStart => if ['/', '\n'].isPrefixOf cs then some 2 else none
  | .multilineRegexRest => regexLinesLength? false 0 cs
  | .slash => if cs.head? == some '/' then some 1 else none
  | .starredSlash =>
    let slashes := (cs.takeWhile (· == '/')).length
    let stars := ((cs.drop slashes).takeWhile (· == '*')).length
    if slashes != 0 && stars != 0 then some (slashes + stars) else none
  | .statementLabel =>
    let length := (cs.takeWhile Text.isAsciiWord).length
    if cs.head?.any Text.isNameStart && (cs.drop length).head? == some ':' then some (length + 1)
    else none
  | .errorDirective => lineLength? "error".toList cs
  | .warningDirective => lineLength? "warning".toList cs
  | .sourceLocation => lineLength? "sourceLocation".toList cs
  | .restOfLine => lineLength? [] cs

end SwiftDependencies.Program
