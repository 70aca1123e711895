import SwiftDependencies.Source.Span
import SwiftDependencies.Text.WordCharacter

/-!
# Where a name is mentioned

A dependency is written as a string literal or through a constant. The line of its declaration is
the first line of a span that contains the quoted name, or else the first one that contains the
constant as a whole word that is not a member of something.
-/

namespace SwiftDependencies.Source

/-- Whether a text contains another one. -/
def containsText (part : List Char) : List Char → Bool
  | [] => part.isEmpty
  | c :: cs => part.isPrefixOf (c :: cs) || containsText part cs

/-- Whether the next character, if there is any, is a word character. -/
def facesWord (cs : List Char) : Bool :=
  cs.head?.any Text.isWord

/-- Whether a name stands at the start of a text and ends there as a word does. -/
def startsWithWord (name cs : List Char) : Bool :=
  name.isPrefixOf cs &&
    (name.getLast?.any Text.isWord != facesWord (cs.drop name.length))

/-- A character after which a name is part of a longer name or a member of something. -/
def joinsName (c : Char) : Bool :=
  Text.isWord c || c == '.'

/-- Whether a text contains a name as a whole word. The flag says whether what comes before the text
joins the name to it. -/
def containsWord (name : List Char) (joined : Bool) : List Char → Bool
  | [] => false
  | c :: cs => (!joined && startsWithWord name (c :: cs)) || containsWord name (joinsName c) cs

/-- The number of the first line in a span that passes a test, the lines being numbered from
`number`. -/
def firstLineFrom? (test : List Char → Bool) (span : Span) (number : Nat) :
    List (List Char) → Option Nat
  | [] => none
  | line :: lines =>
    if span.first ≤ number && number ≤ span.last && test line then some number
    else firstLineFrom? test span (number + 1) lines

/-- The number of the first line in a span that passes a test. -/
def firstLine? (lines : List (List Char)) (span : Span) (test : List Char → Bool) : Option Nat :=
  if span.first = 0 then none else firstLineFrom? test span 1 lines

/-- The first line of a span that mentions a name in quotes, or else the first that mentions the
constant through which the name was reached. -/
def mention? (lines : List (List Char)) (span : Span) (name : String) (constant : Option String) :
    Option Nat :=
  let quotedName := '"' :: name.toList ++ ['"']
  firstLine? lines span (containsText quotedName) <|>
    match constant with
    | none => none
    | some c =>
      if c.isEmpty then none else firstLine? lines span (containsWord c.toList false)

end SwiftDependencies.Source
