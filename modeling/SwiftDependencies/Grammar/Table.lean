import Std.Data.HashMap
import SwiftDependencies.Grammar.Form

/-!
# The table of a grammar

For reading, the symbols of a grammar are numbered, and the productions of each rule are laid into a
tree of positions, in which productions that begin with the same steps share their positions. The
table also holds what the grammar implies: with which terminals a rule can begin, and which rules
can begin where a rule begins. A set of numbers is kept as the bits of a number.
-/

namespace SwiftDependencies.Grammar

/-- A symbol by its number: among the terminals, or among the rules for phrases and series. -/
inductive Letter where
  | terminal (n : Nat)
  | rule (n : Nat)
  deriving DecidableEq, Repr, Inhabited

/-- A step from one position to the next. -/
structure Edge where
  letter : Letter
  standing : Standing
  target : Nat
  deriving Repr

/-- A place in the productions of a rule, after some steps. -/
structure Position where
  rule : Nat
  /-- The number of steps before it. -/
  length : Nat
  /-- The rank after the last of these steps. -/
  standing : Standing
  edges : List Edge
  /-- The weight of the production that ends here. -/
  weight? : Option Int
  deriving Repr

/-! ### Sets of numbers -/

/-- The set with one number. -/
def bit (n : Nat) : Nat := 1 <<< n

/-- The union of some sets. -/
def union (sets : List Nat) : Nat :=
  sets.foldl (· ||| ·) 0

/-- Repeat a step until nothing changes, at most `fuel` times. -/
def settle {α : Type} [BEq α] (f : α → α) : Nat → α → α
  | 0, a => a
  | fuel + 1, a =>
    let b := f a
    if b == a then a else settle f fuel b

/-! ### Positions -/

/-- The positions of the rules read so far. -/
abbrev Positions := Array Position

namespace Positions

/-- The position after a step from another, which is added if there is none yet. -/
def follow (positions : Positions) (source : Nat) (letter : Letter) (standing : Standing) :
    Positions × Nat :=
  match positions[source]? with
  | none => (positions, source)
  | some p =>
    match p.edges.find? fun e => e.letter == letter && e.standing == standing with
    | some e => (positions, e.target)
    | none =>
      let target := positions.size
      let extended := positions.modify source fun p =>
        { p with edges := p.edges ++ [⟨letter, standing, target⟩] }
      (extended.push ⟨p.rule, p.length + 1, standing, [], none⟩, target)

/-- Lay a production into the positions of its rule. -/
def lay {T P : Type} (letter : Symbol T P → Letter) (weight : Int) :
    Positions → Nat → List (Step T P) → Positions
  | positions, source, [] => positions.modify source fun p => { p with weight? := some weight }
  | positions, source, step :: steps =>
    let (extended, target) := positions.follow source (letter step.symbol) step.standing
    lay letter weight extended target steps

/-- Lay all productions of a rule into positions. -/
def layRule {T P : Type} (letter : Symbol T P → Letter) (positions : Positions) (rule : Nat)
    (productions : List (Production T P)) : Positions :=
  productions.foldl (fun laid p => lay letter p.weight laid positions.size p.steps)
    (positions.push ⟨rule, 0, {}, [], none⟩)

end Positions

/-! ### Tables -/

/-- A grammar that is ready for reading. -/
structure Table (T P : Type) [BEq T] [Hashable T] where
  terminals : Array T
  /-- The number of every terminal. -/
  numbers : Std.HashMap T Nat
  /-- The phrases and series, in the order of their numbers. -/
  rules : Array (Symbol T P)
  positions : Positions
  /-- The first position of every rule. -/
  roots : Array Nat
  /-- The terminals with which a reading can go on from every position. -/
  firsts : Array Nat
  /-- The rules that can begin at every position. -/
  openings : Array Nat
  /-- For every terminal the rules that begin with it, and the positions after it. -/
  terminalHeads : Array (List (Nat × Nat))
  /-- For every rule the rules that begin with it, and the positions after it. -/
  ruleHeads : Array (List (Nat × Nat))
  /-- The number of the phrase that a whole text is. -/
  start : Nat
  /-- The number of every phrase. -/
  order : P → Nat
  /-- Whether the parts of a phrase count as parts of the phrase around it. -/
  transparent : P → Bool

namespace Table

/-- The edges from a position. -/
def edgesAt (positions : Positions) (n : Nat) : List Edge :=
  (positions[n]?.map (·.edges)).getD []

/-- The terminals that an edge can begin with, given those of the rules. -/
def edgeFirsts (firsts : Array Nat) (e : Edge) : Nat :=
  match e.letter with
  | .terminal n => bit n
  | .rule n => firsts[n]?.getD 0

/-- The rules that can begin on an edge, given those that can begin with each rule. -/
def edgeOpenings (openings : Array Nat) (e : Edge) : Nat :=
  match e.letter with
  | .terminal _ => 0
  | .rule n => openings[n]?.getD 0

/-- The terminals with which each rule can begin. -/
def ruleFirsts (positions : Positions) (roots : Array Nat) : Array Nat :=
  settle (fun firsts => roots.map fun root =>
      union ((edgesAt positions root).map (edgeFirsts firsts)))
    roots.size (roots.map fun _ => 0)

/-- The rules that can begin where each rule begins, itself included. -/
def ruleOpenings (positions : Positions) (roots : Array Nat) : Array Nat :=
  settle (fun openings => roots.mapIdx fun n root =>
      bit n ||| union ((edgesAt positions root).map (edgeOpenings openings)))
    roots.size (roots.map fun _ => 0)

/-- For every letter the rules that begin with it, and the positions after it. Only letters that
`index` numbers are taken. -/
def heads (positions : Positions) (roots : Array Nat) (size : Nat) (index : Letter → Option Nat) :
    Array (List (Nat × Nat)) :=
  (roots.mapIdx fun rule root => (edgesAt positions root).map fun e => (rule, e)).foldr
    (fun entries table => entries.foldr (fun (rule, e) table =>
      match index e.letter with
      | some n => table.modify n ((rule, e.target) :: ·)
      | none => table) table)
    (Array.replicate size [])

variable {T P : Type} [BEq T] [Hashable T] [BEq P] [Hashable P]

/-- The series and phrases of a grammar, each with its productions. The series in the form of a
phrase come before the phrase. -/
def rulesOf (grammar : List (P × Form T P)) : List (Symbol T P × List (Production T P)) :=
  grammar.flatMap fun (p, form) =>
    (form.seriesItems.map fun item => (.series item, item.seriesForm.nonemptyProductions)) ++
      [(.phrase p, form.nonemptyProductions)]

/-- The different members of a list, with the numbers that they get. -/
def numbered {α : Type} [BEq α] [Hashable α] (as : List α) : Array α × Std.HashMap α Nat :=
  as.foldl (fun (members, numbers) a =>
    if numbers.contains a then (members, numbers)
    else (members.push a, numbers.insert a members.size)) (#[], {})

/-- The table of a grammar, given the phrase that a whole text is and the phrases whose parts count
as parts of the phrase around them. -/
def ofGrammar [BEq (Symbol T P)] [Hashable (Symbol T P)] (grammar : List (P × Form T P))
    (start : P) (transparent : P → Bool) : Table T P :=
  let (terminals, numbers) := numbered (grammar.flatMap fun rule => rule.2.terminals)
  let all := rulesOf grammar
  let (rules, ruleNumbers) := numbered (all.map (·.1))
  let productions : Std.HashMap (Symbol T P) (List (Production T P)) := .ofList all
  let letter : Symbol T P → Letter
    | .terminal t => .terminal (numbers.getD t 0)
    | symbol => .rule (ruleNumbers.getD symbol 0)
  let laid := (rules.mapIdx fun n symbol => (n, productions.getD symbol [])).foldl
    (fun (positions, roots) (n, productions) =>
      (positions.layRule letter n productions, roots.push positions.size))
    ((#[], #[]) : Positions × Array Nat)
  let (positions, roots) := laid
  let firsts := ruleFirsts positions roots
  let openings := ruleOpenings positions roots
  { terminals, numbers, rules, positions, roots
    firsts := positions.map fun p => union (p.edges.map (edgeFirsts firsts))
    openings := positions.map fun p => union (p.edges.map (edgeOpenings openings))
    terminalHeads := heads positions roots terminals.size fun
      | .terminal n => some n
      | .rule _ => none
    ruleHeads := heads positions roots rules.size fun
      | .terminal _ => none
      | .rule n => some n
    start := ruleNumbers.getD (.phrase start) 0
    order := fun p => ruleNumbers.getD (.phrase p) 0
    transparent }

/-- The terminals in a set. -/
def terminalsIn (table : Table T P) (set : Nat) : List T :=
  (table.terminals.toList.zipIdx.filter fun (_, n) => set.testBit n).map (·.1)

end Table

end SwiftDependencies.Grammar
