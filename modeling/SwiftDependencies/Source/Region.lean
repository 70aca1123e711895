import SwiftDependencies.Source.Span

/-!
# Places and regions of a text

A place is given by what follows it, together with how many characters and how many lines come
before. A region reaches from one place to another.
-/

namespace SwiftDependencies.Source

/-- A place in a text. -/
structure Place where
  /-- What follows. -/
  rest : List Char
  /-- The number of characters before it. -/
  offset : Nat
  /-- The line that it is on, counted from one. -/
  line : Nat
  deriving Inhabited

namespace Place

/-- The start of a text. -/
def start (cs : List Char) : Place := ⟨cs, 0, 1⟩

/-- The place some characters later. -/
def advance (p : Place) : Nat → Place
  | 0 => p
  | n + 1 =>
    match p.rest with
    | [] => p
    | c :: rest => advance ⟨rest, p.offset + 1, if c == '\n' then p.line + 1 else p.line⟩ n

end Place

/-- Where something stands in a text: its offsets, and the lines of both ends. -/
structure Region where
  start : Nat
  stop : Nat
  span : Span
  deriving DecidableEq, Repr, Inhabited

namespace Region

/-- From one place to a later one. -/
def between (a b : Place) : Region :=
  ⟨a.offset, b.offset, ⟨a.line, b.line⟩⟩

/-- From the start of one region to the end of a later one. -/
def through (a b : Region) : Region :=
  ⟨a.start, b.stop, ⟨a.span.first, b.span.last⟩⟩

/-- The characters of a region. -/
def chars (r : Region) (source : List Char) : List Char :=
  (source.drop r.start).take (r.stop - r.start)

/-- The text of a region. -/
def text (r : Region) (source : List Char) : String :=
  String.ofList (r.chars source)

end Region

end SwiftDependencies.Source
