import SwiftDependencies.Text.Blank
import SwiftDependencies.Text.DecimalDigit
import SwiftDependencies.Text.Quoted

/-!
# Reading a whole number

A numeral is an optional sign and decimal digits of any script, with single underscores allowed
between digits and blanks around the whole. A numeral of more than 4300 digits is refused for its
length, whatever follows its digits.
-/

namespace SwiftDependencies.Text

/-- Why a text is not read as a whole number. -/
inductive NumeralFault where
  /-- It is not a numeral. -/
  | malformed (text : String)
  /-- It has more digits than a numeral may have. -/
  | tooLong (digits : Nat)
  deriving DecidableEq, Repr

/-- The greatest number of digits in a numeral. -/
def maxDigits : Nat := 4300

/-- What a refusal says. A long text is quoted by its first two hundred characters. -/
def NumeralFault.message : NumeralFault → String
  | .malformed text =>
    "invalid literal for int() with base 10: " ++ String.ofList ((quoted text).toList.take 200)
  | .tooLong digits =>
    s!"Exceeds the limit ({maxDigits} digits) for integer string conversion: value has {digits} " ++
      "digits; use sys.set_int_max_str_digits() to increase the limit"

/-- The blanks around a numeral: those of ASCII that move the carriage, and all beyond ASCII. -/
def isNumeralMargin (c : Char) : Bool :=
  isBlank c && !(0x1c ≤ c.toNat && c.toNat ≤ 0x1f)

/-- What the digits at the start of a text amount to. -/
structure DigitRun where
  /-- The number that they write. -/
  value : Nat
  /-- How many there are. -/
  count : Nat
  /-- The text after them. -/
  rest : List Char

/-- Read digits with single underscores between them, after a digit. There is none if an underscore
does not stand between two digits. -/
def digitsAfter (value count : Nat) : List Char → Option DigitRun
  | [] => some ⟨value, count, []⟩
  | '_' :: c :: cs => do digitsAfter (10 * value + (← digitValue? c)) (count + 1) cs
  | '_' :: [] => none
  | c :: cs =>
    match digitValue? c with
    | some d => digitsAfter (10 * value + d) (count + 1) cs
    | none => some ⟨value, count, c :: cs⟩

/-- The digits at the start of a text, of which there is at least one. -/
def digits? : List Char → Option DigitRun
  | [] => none
  | c :: cs => do digitsAfter (← digitValue? c) 1 cs

/-- A sign and the text after it. -/
def splitSign : List Char → Bool × List Char
  | '-' :: cs => (true, cs)
  | '+' :: cs => (false, cs)
  | cs => (false, cs)

/-- Read a whole number. -/
def readInt (text : String) : Except NumeralFault Int :=
  let (negative, cs) := splitSign (text.toList.dropWhile isNumeralMargin)
  match digits? cs with
  | none => .error (.malformed text)
  | some run =>
    if maxDigits < run.count then .error (.tooLong run.count)
    else if run.rest.all isNumeralMargin then
      .ok (if negative then -(run.value : Int) else run.value)
    else .error (.malformed text)

end SwiftDependencies.Text
