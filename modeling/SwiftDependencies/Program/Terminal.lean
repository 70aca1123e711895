import SwiftDependencies.Grammar.Form

/-!
# Terminals of a program

A terminal is a fixed word or sign, a text of some pattern, or a mark. Whether a mark stands
somewhere depends on what is around it: on line breaks, on the blanks next to an operator, or on the
number signs of a string literal. Words need no blanks around them, so a name is a word only where
the word, and no longer name, can stand.
-/

namespace SwiftDependencies.Program

/-- The terminals that depend on what is around them. -/
inductive Mark where
  | lineEnd
  | semicolon
  | blockComment
  | arrow
  | dot
  | conjunction
  | disjunction
  | coalescing
  | equalsSign
  | doubleEqualsSign
  | plusBeforeBlank
  | minusBeforeBlank
  | exclamationMark
  /-- Stands nowhere. Where it could stand, an exclamation mark belongs to the word before it. -/
  | tryMark
  | throws
  | rethrows
  | defaultWord
  | whereWord
  | elseWord
  | catchWord
  | asWord
  | asQuestionMark
  | asExclamationMark
  | async
  | customOperator
  | numberSign
  | ifLine
  | elseIfLine
  | elseLine
  | endIfLine
  /-- A piece of a raw string before an interpolation, with the opening if it is the first piece. -/
  | rawPart
  /-- Stands nowhere. Where it could stand, a raw string goes on. -/
  | rawContinuation
  /-- The last piece of a raw string, with its closing. -/
  | rawEnd
  deriving DecidableEq, Repr, Hashable, Inhabited

/-- The patterns of terminals without a fixed text. -/
inductive Pattern where
  | name
  | quotedName
  | numberedName
  | dollarName
  | decimal
  | hexadecimal
  | octal
  | binary
  | real
  | lineText
  | blockText
  | escape
  | characterNumber
  | rawInterpolation
  | regex
  | extendedRegex
  | multilineRegexStart
  | multilineRegexRest
  | slash
  | starredSlash
  | statementLabel
  | errorDirective
  | warningDirective
  | sourceLocation
  | restOfLine
  deriving DecidableEq, Repr, Hashable, Inhabited

/-- The terminals of a program. -/
inductive Terminal where
  | word (text : List Char)
  /-- A text with nothing before it since the last terminal. -/
  | attached (text : List Char)
  | pattern (p : Pattern)
  | mark (m : Mark)
  deriving DecidableEq, Repr, Inhabited

/-- A terminal is hashed by its kind and by what it holds, a text as a string. -/
instance : Hashable Terminal where
  hash
    | .word text => mixHash 0 (hash (String.ofList text))
    | .attached text => mixHash 1 (hash (String.ofList text))
    | .pattern p => mixHash 2 (hash p)
    | .mark m => mixHash 3 (hash m)

end SwiftDependencies.Program
