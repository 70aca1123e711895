import SwiftDependencies.Grammar.Reading
import SwiftDependencies.Program.Layout
import SwiftDependencies.Program.Lexical

/-!
# Scanning a program

The next terminal is looked for among those that can follow. A mark comes first; if none stands
there, the longest terminal is taken, and of two equally long ones a word before a pattern. A slash
and a regular expression give way to everything else, and comments give way to all but these.
Comments that cannot follow are passed over.
-/

namespace SwiftDependencies.Program

open Grammar (Point Scan)

/-- The blanks before words and patterns. -/
def isSpacing (c : Char) : Bool :=
  " \t\n\r\x0b\x0c".toList.contains c

/-- A text that may be the next terminal, or a comment. -/
structure Candidate where
  terminal? : Option Terminal
  /-- Which candidates it gives way to. -/
  rank : Int
  length : Nat
  /-- How fixed its text is. -/
  fixity : Nat
  /-- The number of blanks before it. -/
  blanks : Nat

/-- Whether a candidate is taken rather than another. -/
def Candidate.beats (a b : Candidate) : Bool :=
  if a.rank != b.rank then decide (b.rank < a.rank)
  else if a.length != b.length then decide (b.length < a.length)
  else decide (b.fixity < a.fixity)

/-- Which candidates a pattern gives way to. -/
def Pattern.rank : Pattern → Int
  | .slash | .regex => -4
  | _ => 0

/-- Whether blanks are part of what a pattern is looked for in. -/
def Pattern.isText : Pattern → Bool
  | .lineText | .blockText => true
  | _ => false

/-- A terminal as a candidate at the start of a text with some blanks. -/
def Terminal.candidate? (cs : List Char) (blanks : Nat) (rest : List Char) :
    Terminal → Option Candidate
  | .word text =>
    if text.isPrefixOf rest then some ⟨some (.word text), 0, text.length, 2, blanks⟩ else none
  | .attached text =>
    if text.isPrefixOf cs then some ⟨some (.attached text), 0, text.length, 3, 0⟩ else none
  | .pattern p =>
    if p.isText then (p.length? cs).map fun n => ⟨some (.pattern p), p.rank, n, 0, 0⟩
    else (p.length? rest).map fun n => ⟨some (.pattern p), p.rank, n, 0, blanks⟩
  | .mark _ => none

/-- A line comment as a candidate. -/
def commentCandidate? (blanks : Nat) (rest : List Char) : Option Candidate :=
  if ['/', '/'].isPrefixOf rest then
    some ⟨none, -3, (rest.takeWhile (· != '\n')).length, 0, blanks⟩
  else none

/-- The candidate that is taken at the start of a text. -/
def candidate? (expected : List Terminal) (cs : List Char) : Option Candidate :=
  let blanks := (cs.takeWhile isSpacing).length
  let rest := cs.drop blanks
  let candidates := expected.filterMap (Terminal.candidate? cs blanks rest) ++
    (commentCandidate? blanks rest).toList
  candidates.foldl (fun best c => if best.any fun b => !c.beats b then best else some c) none

/-- Scan on from a point, at most so many comments long. -/
def scanFrom (expected : List Terminal) : Nat → Point → Option (Scan Terminal)
  | 0, _ => none
  | fuel + 1, p =>
    let p := if p.place.offset == 0 && p.place.rest.head? == some '\ufeff'
      then { p with place := p.place.advance 1 } else p
    let expects (m : Mark) : Bool := expected.contains (.mark m)
    match mark? expects p.memory p.place.rest with
    | some found =>
      let start := p.place.advance found.start
      let stop : Point := ⟨p.place.advance found.stop, found.memory⟩
      if found.mark == .blockComment && !expects .blockComment then scanFrom expected fuel stop
      else some ⟨some (.mark found.mark), start, stop⟩
    | none =>
      match candidate? expected p.place.rest with
      | some c =>
        let start := p.place.advance c.blanks
        let stop : Point := { p with place := start.advance c.length }
        match c.terminal? with
        | some terminal => some ⟨some terminal, start, stop⟩
        | none => scanFrom expected fuel stop
      | none =>
        if p.place.rest.all isSpacing then
          let stop := p.place.advance p.place.rest.length
          some ⟨none, stop, { p with place := stop }⟩
        else none

/-- The next terminal at a point. -/
def scan : Grammar.Scanner Terminal := fun expected p =>
  scanFrom expected (p.place.rest.length + 1) p

end SwiftDependencies.Program
