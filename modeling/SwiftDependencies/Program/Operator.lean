import SwiftDependencies.Program.Terminal
import SwiftDependencies.Text.WordCharacter

/-!
# Operators of a program

A fixed operator, or a word that is read like one, stands at a place if its text does and what comes
after the text does not make it a part of something longer. Where several stand, the longest one is
taken. What is left of the runs of operator characters is a custom operator, but for some runs that
have a meaning of their own.
-/

namespace SwiftDependencies.Program

/-- The blanks between terminals. -/
def isLayoutBlank (c : Char) : Bool :=
  " \t\n\r\x0b\x0c\u1680\u2028\u2029\u205f\u3000".toList.contains c ||
    ('\u2000' ≤ c && c ≤ '\u2006') || ('\u2008' ≤ c && c ≤ '\u200a')

/-- What has to come after an operator. -/
inductive Boundary where
  | noOperator
  | noOperatorOrDot
  | blank
  | noWord
  deriving DecidableEq, Repr

/-- The ASCII characters that go on with an operator. -/
def operatorCharacters : List Char := "/=-+!*%<>&|^?~".toList

/-- Whether a boundary is kept before what comes next. -/
def Boundary.holds (b : Boundary) (next : Option Char) : Bool :=
  match b with
  | .noOperator => !next.any operatorCharacters.contains
  | .noOperatorOrDot => !next.any fun c => c == '.' || operatorCharacters.contains c
  | .blank => next.any isLayoutBlank
  | .noWord => !next.any fun c => c.isAlphanum || (c.toNat ≥ 0x80 && Text.isWord c)

/-- An operator with a fixed text. -/
structure FixedOperator where
  text : List Char
  mark : Mark
  boundary : Boundary

/-- The fixed operators. -/
def fixedOperators : List FixedOperator := [
  ⟨"->".toList, .arrow, .noOperator⟩,
  ⟨".".toList, .dot, .noOperatorOrDot⟩,
  ⟨"&&".toList, .conjunction, .noOperator⟩,
  ⟨"||".toList, .disjunction, .noOperator⟩,
  ⟨"??".toList, .coalescing, .noOperator⟩,
  ⟨"=".toList, .equalsSign, .noOperator⟩,
  ⟨"==".toList, .doubleEqualsSign, .noOperator⟩,
  ⟨"+".toList, .plusBeforeBlank, .blank⟩,
  ⟨"-".toList, .minusBeforeBlank, .blank⟩,
  ⟨"!".toList, .exclamationMark, .noOperator⟩,
  ⟨"throws".toList, .throws, .noWord⟩,
  ⟨"rethrows".toList, .rethrows, .noWord⟩,
  ⟨"default".toList, .defaultWord, .noWord⟩,
  ⟨"where".toList, .whereWord, .noWord⟩,
  ⟨"else".toList, .elseWord, .noWord⟩,
  ⟨"catch".toList, .catchWord, .noWord⟩,
  ⟨"as".toList, .asWord, .noWord⟩,
  ⟨"as?".toList, .asQuestionMark, .noOperator⟩,
  ⟨"as!".toList, .asExclamationMark, .noOperator⟩,
  ⟨"async".toList, .async, .noWord⟩]

/-- The runs of operator characters that are no custom operators. -/
def reservedRuns : List (List Char) :=
  ["/", "=", "-", "+", "!", "*", "%", "<", ">", "&", "|", "^", "?", "~", ".", "..", "->", "/*",
    "*/", "+=", "-=", "*=", "/=", "%=", ">>", "<<", "++", "--", "===", "...",
    "..<"].map String.toList

/-- The operator characters above ASCII. -/
def operatorRanges : List (Nat × Nat) :=
  [(0xa1, 0xa7), (0xa9, 0xa9), (0xab, 0xac), (0xae, 0xae), (0xb0, 0xb1), (0xb6, 0xb6), (0xbb, 0xbb),
   (0xbf, 0xbf), (0xd7, 0xd7), (0xf7, 0xf7), (0x2016, 0x2017), (0x2020, 0x2027), (0x2030, 0x203e),
   (0x2041, 0x2053), (0x2055, 0x205e), (0x2190, 0x23ff), (0x2500, 0x2775), (0x2794, 0x2bff),
   (0x2e00, 0x2e7f), (0x3001, 0x3003), (0x3008, 0x3020), (0x3030, 0x3030)]

/-- The marks that may follow an operator character. -/
def operatorMarkRanges : List (Nat × Nat) :=
  [(0x300, 0x36f), (0x1dc0, 0x1dff), (0x20d0, 0x20ff), (0xfe00, 0xfe0f), (0xfe20, 0xfe2f),
   (0xe0100, 0xe01ef)]

/-- Whether a character can stand in a run, given its index and the first character of the run. A
dot goes on only with a run that starts with one, and a run does not start like a comment. -/
def standsInRun (index : Nat) (first c : Char) : Bool :=
  "=-+!%<>&|^?~".toList.contains c ||
    (c == '.' && (index == 0 || first == '.')) ||
    ((c == '*' || c == '/') && (index != 1 || first != '/')) ||
    Text.inRanges operatorRanges c ||
    (index != 0 && Text.inRanges operatorMarkRanges c)

/-- The length of the rest of a run, from an index on. -/
def runLengthFrom (first : Char) (index : Nat) : List Char → Nat
  | [] => index
  | c :: cs => if standsInRun index first c then runLengthFrom first (index + 1) cs else index

/-- The length of the run of operator characters at the start of a text. -/
def runLength : List Char → Nat
  | [] => 0
  | c :: cs => runLengthFrom c 0 (c :: cs)

/-- The length of the custom operator at the start of a text. A `<` at its end is left for the types
after it, unless a blank follows or the whole run is asked for. -/
def customOperatorLength? (whole : Bool) (cs : List Char) : Option Nat :=
  let n := runLength cs
  let run := cs.take n
  if n == 0 || reservedRuns.contains run then none
  else if run.getLast? == some '<' && !(cs.drop n).head?.any isLayoutBlank && !whole then
    some (n - 1)
  else some n

/-- The operator at the start of a text, with its length, among those that are expected. An
exclamation mark is left to the word before it where it can belong to one. -/
def operator? (expects : Mark → Bool) (whole : Bool) (cs : List Char) : Option (Mark × Nat) :=
  let fitting := fixedOperators.filter fun o =>
    expects o.mark && o.text.isPrefixOf cs && o.boundary.holds (cs.drop o.text.length).head?
  match fitting.foldl (fun best o =>
      if best.any fun b : FixedOperator => decide (o.text.length ≤ b.text.length) then best
      else some o) none with
  | some o =>
    if o.mark == .exclamationMark && expects .tryMark then none else some (o.mark, o.text.length)
  | none =>
    if expects .customOperator then (customOperatorLength? whole cs).map (.customOperator, ·)
    else none

end SwiftDependencies.Program
