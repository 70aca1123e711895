import SwiftDependencies.Grammar.Table

/-!
# States of a reading

What has been read of the phrases that are still open is summed up by a state: the positions that
the reading may stand at. A state is made of its kernel, the positions that are reached by a step;
the rules that can begin there follow from the table. `Table.next` is the step on a letter, and
`Table.choose` settles by rank which of the ways to go on are taken.
-/

namespace SwiftDependencies.Grammar

/-- The positions at which a reading may stand, in increasing order, with what follows from them. -/
structure State where
  kernel : List Nat
  /-- The terminals with which the reading can go on. -/
  firsts : Nat
  /-- The rules that can begin here. -/
  openings : Nat
  /-- The positions at which a production ends. -/
  complete : List Nat
  deriving Inhabited

instance : BEq State where
  beq s t := s.kernel == t.kernel

/-- Whether a text may end here, and which terminals may come. -/
structure Outlook where
  firsts : Nat := 0
  atEnd : Bool := false
  deriving DecidableEq, Repr, Inhabited

namespace Outlook

/-- Whether the text may go on with a terminal, or end. -/
def admits (o : Outlook) : Option Nat → Bool
  | some n => o.firsts.testBit n
  | none => o.atEnd

end Outlook

namespace Table

variable {T P : Type} [BEq T] [Hashable T]

/-- The state with some kernel. -/
def state (table : Table T P) (kernel : List Nat) : State where
  kernel
  firsts := union (kernel.map fun n => table.firsts[n]?.getD 0)
  openings := union (kernel.map fun n => table.openings[n]?.getD 0)
  complete := kernel.filter fun n => (table.positions[n]?.bind (·.weight?)).isSome

/-- The state before anything is read. -/
def initial (table : Table T P) : State :=
  table.state [table.roots[table.start]?.getD 0]

/-- The state after a letter, if the letter can be read. -/
def next? (table : Table T P) (s : State) (letter : Letter) : Option State :=
  let continued := s.kernel.flatMap fun n =>
    (edgesAt table.positions n).filterMap fun e =>
      if e.letter == letter then some e.target else none
  let heads := (match letter with
    | .terminal n => table.terminalHeads[n]?
    | .rule n => table.ruleHeads[n]?).getD []
  let begun := heads.filterMap fun (rule, target) =>
    if s.openings.testBit rule then some target else none
  let kernel := (continued ++ begun).mergeSort (fun a b => decide (a ≤ b))
  if kernel.isEmpty then none else some (table.state kernel)

/-- The ranks at which a state can go on with a terminal, those of rules that only begin there left
out. -/
def shiftRanks (table : Table T P) (s : State) (terminal : Nat) : List Int :=
  s.kernel.filterMap fun n =>
    match table.positions[n]? with
    | some p =>
      let goesOn := p.edges.any fun e => match e.letter with
        | .terminal m => m == terminal
        | .rule m => ((table.roots[m]?.bind (table.firsts[·]?)).getD 0).testBit terminal
      if p.length != 0 && goesOn then some p.standing.rank else none
    | none => none

/-- The rank with which a production ends at a position. -/
def standingAt (table : Table T P) (position : Nat) : Standing :=
  (table.positions[position]?.map (·.standing)).getD {}

/-- Settle what is done before a terminal where some productions end and perhaps the terminal can be
read. Of productions only those of the highest rank are ended. A terminal that continues phrases of
lower rank alone is not read, and one that continues phrases of higher rank alone is. At the same
rank the side settles it. Otherwise both ways are taken. The answer holds the productions to end and
whether to read the terminal. -/
def choose (table : Table T P) (s : State) (ends : List Nat) (terminal? : Option Nat) :
    List Nat × Bool :=
  let readable := terminal?.any fun t => s.firsts.testBit t
  match (ends.map fun n => (table.standingAt n).rank).max? with
  | none => ([], readable)
  | some rank =>
    let highest := ends.filter fun n => (table.standingAt n).rank == rank
    if !readable then (highest, false)
    else
      let ranks := (terminal?.map (table.shiftRanks s)).getD []
      let lower := ranks.any fun r => decide (r < rank)
      let higher := ranks.any fun r => decide (rank < r)
      if higher && !lower then ([], true)
      else if lower && !higher then (highest, false)
      else if lower && higher then (highest, true)
      else
        let sides := highest.map fun n => (table.standingAt n).side
        if sides.all (· == some .left) then (highest, false)
        else if sides.all (· == some .right) then ([], true)
        else (highest, true)

end Table

end SwiftDependencies.Grammar
