import SwiftDependencies.Grammar.Graph

/-!
# Reading a text by a grammar

A text is read place by place, in all ways that its grammar leaves open at once. The readings that
stand at one place make a round. In a round every reading first gets the terminal that comes next,
which the scanner looks for among those that can follow there. Then productions are ended, as far as
this terminal can follow them, which gives further readings at the same place; and readings that can
go on with the terminal do so, each at the place after it. Readings in the same state at the same
place are one from then on, and where one tree differs from another the heavier one is kept.
-/

namespace SwiftDependencies.Grammar

open Source (Place Region)

/-- A terminal that comes next, from where to where. At the end of the text there is none. -/
structure Scan (T : Type) where
  terminal? : Option T
  start : Place
  stop : Point

/-- What finds the next terminal at a point, among the terminals that can follow there. -/
abbrev Scanner (T : Type) := List T → Point → Option (Scan T)

/-- The next terminal with its number. -/
structure Lookahead (T : Type) where
  number? : Option Nat
  scan : Scan T

/-- Two lookaheads are the same if they have the same terminal and the same ends. -/
instance {T : Type} : BEq (Lookahead T) where
  beq a b := a.number? == b.number? && a.scan.start.offset == b.scan.start.offset &&
    a.scan.stop.place.offset == b.scan.stop.place.offset && a.scan.stop.memory == b.scan.stop.memory

/-- A reading that stands at a place, by its node and the link by which it came there. Nothing was
read before the first one, which has no link. Others came to the node by further links. -/
structure Arrival (T P : Type) where
  node : Nat
  link? : Option (Link T P)
  further : List (Link T P) := []

namespace Arrival

/-- The arrivals at a node by some links: one, which stands for all. -/
def ofLinks {T P : Type} (node : Nat) : List (Link T P) → List (Arrival T P)
  | [] => []
  | l :: links => [⟨node, some l, links⟩]

end Arrival

/-- The state of a round. -/
structure Round (T P : Type) where
  graph : Graph T P
  /-- The nodes at the place, with the terminal that follows each. -/
  heads : List (Nat × Lookahead T)
  /-- The nodes that go on with their terminal, with the nodes below for which they do. -/
  shifts : List (Nat × Option Nat)
  /-- The tree of the whole text. -/
  found : Option (Tree T P)

namespace Round

variable {T P : Type} [BEq T] [Hashable T]

/-- The productions that an arrival can end before a terminal, by their positions, with the ways
down to where they began. -/
def endings (table : Table T P) (graph : Graph T P) (state : State) (number? : Option Nat)
    (link : Link T P) : List (Nat × List (Descent T P)) :=
  state.complete.filterMap fun n =>
    match table.positions[n]? with
    | none => none
    | some p =>
      let descents :=
        (graph.descend ⟨link.below, [link.tree], link.weight⟩ (p.length - 1)).filter fun d =>
          graph.admits table d.node p.rule number?
      if descents.isEmpty then none else some (n, descents)

/-- Add a link to a node. A link that is not kept is no arrival. -/
def connect (table : Table T P) (r : Round T P) (node : Nat) (link : Link T P) :
    Round T P × List (Arrival T P) :=
  let kept := (r.graph.links node).all fun l => l.below != link.below || link.supersedes table l
  ({ r with graph := r.graph.addLink table node link },
    if kept then [⟨node, some link, []⟩] else [])

/-- End a production before a lookahead. -/
def finish (table : Table T P) (ahead : Lookahead T) (point : Point) (position : Nat)
    (r : Round T P) (d : Descent T P) : Round T P × List (Arrival T P) :=
  match table.positions[position]? with
  | none => (r, [])
  | some p =>
    match table.rules[p.rule]? with
    | none => (r, [])
    | some symbol =>
      let tree := Tree.ofParts symbol d.trees
      if p.rule == table.start then ({ r with found := some (r.found.getD tree) }, [])
      else
        match r.graph[d.node]?.bind fun n => table.next? n.state (.rule p.rule) with
        | none => (r, [])
        | some state =>
          let link : Link T P := ⟨d.node, tree, d.weight + p.weight?.getD 0⟩
          let head? := r.heads.find? fun (n, other) =>
            r.graph[n]?.any (fun node => node.state == state) && other == ahead
          match head? with
          | some (n, _) => r.connect table n link
          | none =>
            let n := r.graph.size
            ({ r with
                graph := r.graph.pushNode state point link
                heads := r.heads ++ [(n, ahead)] }, [⟨n, some link, []⟩])

/-- End some productions before a lookahead. The answer has the arrivals by each. -/
def finishAll (table : Table T P) (ahead : Lookahead T) (point : Point) (r : Round T P)
    (ended : List (Nat × List (Descent T P))) : Round T P × List (List (Arrival T P)) :=
  ended.foldl (fun (r, groups) (position, descents) =>
    let (r, arrivals) := descents.foldl (fun (r, arrivals) d =>
      let (r, more) := r.finish table ahead point position d
      (r, arrivals ++ more)) (r, [])
    (r, groups ++ [arrivals])) (r, [])

/-- The tree of a text without terminals. -/
def emptyTree? (table : Table T P) : Option (Tree T P) :=
  table.rules[table.start]?.map (Tree.ofParts · [])

/-- What follows from an arrival: what goes on at once, and what has to wait until all that waits
already has had its turn. A reading that goes on with its terminal has had its turn, so all that
follows from it otherwise waits. Else the production that ends last goes on at once. -/
def arrive (table : Table T P) (r : Round T P) (a : Arrival T P) :
    Round T P × List (Arrival T P) × List (Arrival T P) :=
  match r.graph[a.node]?, r.heads.find? (·.1 == a.node) with
  | some node, some (_, ahead) =>
    if a.link?.isNone && ahead.number?.isNone then ({ r with found := emptyTree? table }, [], [])
    else
      let ended := (a.link?.map (endings table r.graph node.state ahead.number?)).getD []
      let (chosen, readable) := table.choose node.state (ended.map (·.1)) ahead.number?
      let further := Arrival.ofLinks a.node a.further
      let shifted :=
        if readable then { r with shifts := r.shifts ++ [(a.node, a.link?.map (·.below))] } else r
      let (r, groups) :=
        shifted.finishAll table ahead node.point (ended.filter fun e => chosen.contains e.1)
      if readable then (r, [], further ++ groups.flatten)
      else
        match groups.getLast? with
        | none => (r, further, [])
        | some last => (r, last.take 1, further ++ groups.dropLast.flatten ++ last.drop 1)
  | _, _ => (r, [], [])

/-- Take arrivals in their order until there are none or the text is read. A heavier way to a node
takes the place of a lighter one, and so do all readings that follow from it. -/
def run (table : Table T P) : Nat → Round T P → List (Arrival T P) → Round T P
  | 0, r, _ => r
  | _, r, [] => r
  | fuel + 1, r, a :: arrivals =>
    if r.found.isSome then r
    else
      let (r, next, waiting) := r.arrive table a
      run table fuel r (next ++ arrivals ++ waiting)

end Round

/-- A graph with the numbers of the nodes that wait at later places. -/
structure Frontier (T P : Type) where
  graph : Graph T P
  waiting : List Nat

namespace Frontier

variable {T P : Type} [BEq T] [Hashable T]

/-- The node that goes on for some of the nodes below: the node itself if it does so for all. -/
def source (node : Nat) (belows : List (Option Nat)) (graph : Graph T P) : Graph T P × Nat :=
  match graph[node]? with
  | none => (graph, node)
  | some n =>
    let links := n.links.filter fun l => belows.contains (some l.below)
    if links.length == n.links.length then (graph, node)
    else
      let number := graph.size
      (graph.push { n with links := links }, number)

/-- Go on with the terminal after a node, for some of the nodes below. -/
def shift (table : Table T P) (f : Frontier T P) (node : Nat) (belows : List (Option Nat))
    (ahead : Lookahead T) : Frontier T P :=
  let ⟨graph, waiting⟩ := f
  match ahead.number?, ahead.scan.terminal?, graph[node]?.map (·.state) with
  | some number, some terminal, some state =>
    match table.next? state (.terminal number) with
    | none => ⟨graph, waiting⟩
    | some state =>
      let (graph, source) := source node belows graph
      let stop := ahead.scan.stop
      let link : Link T P := ⟨source, .leaf terminal (.between ahead.scan.start stop.place), 0⟩
      let target? := waiting.find? fun m => graph[m]?.any fun w =>
        w.state == state && w.point.place.offset == stop.place.offset &&
          w.point.memory == stop.memory
      match target? with
      | some m => ⟨graph.addLink table m link, waiting⟩
      | none =>
        let number := graph.size
        ⟨graph.pushNode state stop link, waiting ++ [number]⟩
  | _, _, _ => ⟨graph, waiting⟩

/-- Go on with all nodes of a round that can. -/
def ofRound (table : Table T P) (r : Round T P) (waiting : List Nat) : Frontier T P :=
  let ⟨graph, heads, shifts, _⟩ := r
  (shifts.map (·.1)).eraseDups.foldl (fun f node =>
    match heads.find? (·.1 == node) with
    | some (_, ahead) => f.shift table node ((shifts.filter (·.1 == node)).map (·.2)) ahead
    | none => f) ⟨graph, waiting⟩

end Frontier

variable {T P : Type} [BEq T] [Hashable T]

/-- The terminal that follows a node, if it is one that can follow there. -/
def lookahead? (table : Table T P) (scanner : Scanner T) (graph : Graph T P) (node : Nat) :
    Option (Lookahead T) := do
  let n ← graph[node]?
  let outlook := graph.outlook table node
  let scan ← scanner (table.terminalsIn outlook.firsts) n.point
  let number? := scan.terminal?.bind (table.numbers[·]?)
  if outlook.admits number? && number?.isSome == scan.terminal?.isSome then some ⟨number?, scan⟩
  else none

/-- The round of some nodes at one place. -/
def round (table : Table T P) (scanner : Scanner T) (graph : Graph T P) (nodes : List Nat) :
    Round T P :=
  let heads := nodes.filterMap fun n => (lookahead? table scanner graph n).map (n, ·)
  let arrivals := heads.flatMap fun (n, _) =>
    match graph.links n with
    | [] => [⟨n, none, []⟩]
    | links => Arrival.ofLinks n links
  let fuel := (graph.size + 1) * (table.rules.size + 1) * (heads.length + 1)
  Round.run table fuel ⟨graph, heads, [], none⟩ arrivals

/-- Some nodes in the order of their weights, the heaviest first. -/
def heaviestFirst (graph : Graph T P) (nodes : List Nat) : List Nat :=
  let weight (n : Nat) : Int := (graph[n]?.map (·.weight)).getD 0
  nodes.mergeSort fun m n => decide (weight n ≤ weight m)

/-- The nodes that wait at the nearest place, and those that wait at later ones. -/
def nearest (graph : Graph T P) (nodes : List Nat) : List Nat × List Nat :=
  let offset (n : Nat) : Nat := (graph[n]?.map (·.point.place.offset)).getD 0
  nodes.partition fun n => nodes.all fun m => decide (offset n ≤ offset m)

/-- Read on from the nodes that wait at some places, the nearest place first. -/
def readFrom (table : Table T P) (scanner : Scanner T) : Nat → Frontier T P → Option (Tree T P)
  | 0, _ => none
  | fuel + 1, ⟨graph, waiting⟩ =>
    match nearest graph (heaviestFirst graph waiting) with
    | ([], _) => none
    | (here, later) =>
      let r := round table scanner graph here
      match r.found with
      | some tree => some tree
      | none => readFrom table scanner fuel (.ofRound table r later)

/-- The tree of a whole text, if it can be read by the grammar. -/
def read? (table : Table T P) (scanner : Scanner T) (cs : List Char) : Option (Tree T P) :=
  readFrom table scanner (cs.length + 1)
    ⟨#[⟨table.initial, ⟨.start cs, 0⟩, [], 0⟩], [0]⟩

end SwiftDependencies.Grammar
