import SwiftDependencies.Program.Operator

/-!
# Layout of a program

Statements end with their lines, so the blanks before a terminal count. A line does not end where an
operator stands at the start of the next one, or a question mark, a colon or an opening curly
bracket. Comments between two lines are looked through. `layout` tells what the blanks and comments
at a place amount to, as offsets from this place.
-/

namespace SwiftDependencies.Program

/-- What the blanks and comments at a place amount to. -/
inductive Layout where
  /-- A mark from one offset to another. -/
  | found (mark : Mark) (start stop : Nat)
  /-- No mark stands here. -/
  | nothing
  /-- The line ends before an offset, unless an operator stands there. -/
  | lineEnds (offset : Nat)
  /-- What comes next is at an offset. It is taken to start at another one, which is earlier if
  there are comments that were looked through. -/
  | next (start offset : Nat)
  deriving DecidableEq, Repr

/-- The number of characters up to the end of a block comment. `depth` more comments are open around
it, and `star` says whether an asterisk has just been read. -/
def commentRestLength? (depth : Nat) (star : Bool) (length : Nat) : List Char → Option Nat
  | [] => none
  | '*' :: cs => commentRestLength? depth true (length + 1) cs
  | '/' :: cs =>
    if star then
      match depth with
      | 0 => some (length + 1)
      | depth + 1 => commentRestLength? depth false (length + 1) cs
    else
      match cs with
      | '*' :: cs => commentRestLength? (depth + 1) false (length + 2) cs
      | cs => commentRestLength? depth false (length + 1) cs
  | _ :: cs => commentRestLength? depth false (length + 1) cs

/-- The length of the block comment at the start of a text. -/
def blockCommentLength? : List Char → Option Nat
  | '/' :: '*' :: cs => commentRestLength? 0 false 2 cs
  | _ => none

/-- Look through the comments after a line break. `lines` says whether a line comment was among them
so far, `start` is the end of the last one, and `first` the start of the first comment. -/
def lookThrough (first : Nat) : Nat → Bool → Nat → Nat → List Char → Layout
  | 0, _, _, _, _ => .nothing
  | fuel + 1, lines, start, offset, cs =>
    let goOn (lines : Bool) (start length : Nat) : Layout :=
      let rest := cs.drop length
      let blanks := (rest.takeWhile isLayoutBlank).length
      lookThrough first fuel lines start (offset + length + blanks) (rest.drop blanks)
    match cs with
    | '/' :: '*' :: _ =>
      match blockCommentLength? cs with
      | none => .nothing
      | some length =>
        if lines then goOn lines start length else .found .blockComment first (offset + length)
    | '/' :: '/' :: _ =>
      let length := (cs.takeWhile (· != '\n')).length
      goOn true (offset + length) length
    | ['/'] => .next start (offset + 1)
    | '/' :: c :: _ => if isLayoutBlank c then .nothing else .next start (offset + 1)
    | _ => .next start offset

/-- What the blanks and comments at the start of a text amount to. -/
def layout (expects : Mark → Bool) (cs : List Char) : Layout :=
  let blanks := cs.takeWhile isLayoutBlank
  let n := blanks.length
  let rest := cs.drop n
  let ends := expects .lineEnd && expects .semicolon
  if ends && rest.head? == some ';' then .found .semicolon n (if n == 0 then 1 else n)
  else if !blanks.any fun c => c == '\n' || c == '\r' then .next n n
  else
    match rest.head? with
    | some '/' =>
      match lookThrough n cs.length false n n rest with
      | .next start offset =>
        if (operator? expects false (cs.drop offset)).isSome then .nothing
        else if ends then .found .lineEnd n n
        else .next start offset
      | other => other
    | some '?' | some ':' | some '\x7b' => .next n n
    | _ => if ends then .lineEnds n else .next n n

/-! ### Raw strings -/

/-- The rest of a piece of a raw string with some number signs. `last` is the character before the
number signs that have just been read, `count` is how many these are. -/
def rawPiece? (signs : Nat) (last : Option Char) (count offset : Nat) :
    List Char → Option (Mark × Nat × Nat)
  | [] => none
  | c :: cs =>
    if c == '#' then
      if count + 1 == signs then
        if last == some '\\' && cs.head? == some '(' then
          some (.rawPart, offset - count - 1, signs)
        else if last == some '"' then some (.rawEnd, offset + 1, 0)
        else rawPiece? signs none 0 (offset + 1) cs
      else rawPiece? signs last (count + 1) (offset + 1) cs
    else rawPiece? signs (some c) 0 (offset + 1) cs

/-- The words after the number sign of a line of conditional compilation. -/
def conditionalWords : List (List Char × Mark) :=
  [("elseif".toList, .elseIfLine), ("endif".toList, .endIfLine), ("else".toList, .elseLine),
    ("if".toList, .ifLine)]

/-- What starts with number signs at the start of a text: a piece of a raw string, a line of
conditional compilation, or the sign itself. The answer holds its length and the number signs of the
raw string that is open after it. -/
def numberSign? (expects : Mark → Bool) (open? : Nat) (cs : List Char) :
    Option (Mark × Nat × Nat) :=
  if !expects .rawPart then none
  else if open? != 0 then
    if expects .rawContinuation then rawPiece? open? none 0 0 cs else none
  else
    let signs := (cs.takeWhile (· == '#')).length
    if signs == 0 then none
    else
      match cs.drop signs with
      | '"' :: rest => rawPiece? signs none 0 (signs + 1) rest
      | rest =>
        if signs != 1 then none
        else
          match conditionalWords.find? fun w => w.1.isPrefixOf rest with
          | some (word, mark) => some (mark, word.length + 1, 0)
          | none => some (.numberSign, 1, 0)

/-! ### Marks -/

/-- A mark from one offset to another, with the number signs of the raw string that is open after
it. -/
structure FoundMark where
  mark : Mark
  start : Nat
  stop : Nat
  memory : Nat
  deriving DecidableEq, Repr

/-- The mark that stands at the start of a text, after blanks. -/
def mark? (expects : Mark → Bool) (memory : Nat) (cs : List Char) : Option FoundMark :=
  match layout expects cs with
  | .found mark start stop => some ⟨mark, start, stop, memory⟩
  | .nothing => none
  | .lineEnds n =>
    match operator? expects true (cs.drop n) with
    | some (mark, length) =>
      if mark == .exclamationMark then some ⟨.lineEnd, n, n, memory⟩
      else some ⟨mark, n, n + length, memory⟩
    | none => some ⟨.lineEnd, n, n, memory⟩
  | .next start offset =>
    let rest := cs.drop offset
    match rest with
    | '/' :: '*' :: _ =>
      (blockCommentLength? rest).map fun length =>
        ⟨.blockComment, start, offset + length, memory⟩
    | _ =>
      match operator? expects false rest with
      | some (mark, length) => some ⟨mark, start, offset + length, memory⟩
      | none =>
        let slash := if rest.head? == some '/' then 1 else 0
        (numberSign? expects memory (rest.drop slash)).map fun (mark, length, memory) =>
          ⟨mark, start, offset + slash + length, memory⟩

end SwiftDependencies.Program
