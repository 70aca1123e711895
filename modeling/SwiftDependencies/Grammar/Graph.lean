import Std.Data.HashSet
import SwiftDependencies.Grammar.State
import SwiftDependencies.Grammar.Tree

/-!
# Graphs of open phrases

While a text is read in several ways at once, the stacks of what is still open share what they have
in common. They form a graph, whose nodes hold a state and a place, and whose links lead down to
what was open before, with the tree that was read since. A path down the graph reads off the parts
of a production, and `Graph.outlook` tells with which terminals a reading can go on after a node.
-/

namespace SwiftDependencies.Grammar

open Source (Place)

/-- A place in a text together with what the scanner of terminals has to remember. -/
structure Point where
  place : Place
  memory : Nat
  deriving Inhabited

/-- The step from a node down to what was open before it. -/
structure Link (T P : Type) where
  below : Nat
  tree : Tree T P
  /-- The weight of the reading that the tree shows. -/
  weight : Int
  deriving Inhabited

/-- Whether a link is kept rather than another one between the same nodes: the heavier one, and of
equally heavy ones the one with the tree that is taken. -/
def Link.supersedes {T P : Type} [BEq T] [Hashable T] (table : Table T P) (new old : Link T P) :
    Bool :=
  if new.weight == old.weight then new.tree.supersedes table.order table.transparent old.tree
  else decide (old.weight < new.weight)

/-- What may be open at a place. -/
structure Node (T P : Type) where
  state : State
  point : Point
  links : List (Link T P)
  /-- The weight of all that was read, in the heaviest way. -/
  weight : Int
  deriving Inhabited

/-- The nodes of all readings, by their numbers. -/
abbrev Graph (T P : Type) := Array (Node T P)

/-- A way down a graph, with the trees and the weight that it passes. -/
structure Descent (T P : Type) where
  node : Nat
  trees : List (Tree T P)
  weight : Int

namespace Graph

variable {T P : Type}

/-- The links from a node. -/
def links (g : Graph T P) (n : Nat) : List (Link T P) :=
  (g[n]?.map (·.links)).getD []

/-- All ways down by a number of steps, going on from one. -/
def descend (g : Graph T P) (d : Descent T P) : Nat → List (Descent T P)
  | 0 => [d]
  | n + 1 => (g.links d.node).flatMap fun l =>
      g.descend ⟨l.below, l.tree :: d.trees, l.weight + d.weight⟩ n

/-- The nodes that a number of steps below a node. -/
def nodesBelow (g : Graph T P) (node : Nat) : Nat → List Nat
  | 0 => [node]
  | n + 1 => (g.links node).flatMap fun l => g.nodesBelow l.below n

/-- The weight of all that was read by a link. -/
def linkWeight (g : Graph T P) (l : Link T P) : Int :=
  (g[l.below]?.map (·.weight)).getD 0 + l.weight

/-- Add a node with one link. -/
def pushNode (g : Graph T P) (state : State) (point : Point) (l : Link T P) : Graph T P :=
  g.push ⟨state, point, [l], g.linkWeight l⟩

variable [BEq T] [Hashable T]

/-- Add a link to a node, unless there is one between the same nodes that is kept. -/
def addLink (table : Table T P) (g : Graph T P) (node : Nat) (l : Link T P) : Graph T P :=
  let weight := g.linkWeight l
  let add (links : List (Link T P)) :=
    if links.any (·.below == l.below) then
      links.map fun k => if k.below == l.below && l.supersedes table k then l else k
    else links ++ [l]
  g.modify node fun n => { n with links := add n.links, weight := max n.weight weight }

/-- What can follow when some rules have been read above some nodes, looked for until it is enough.
A production that ends there lets a further rule be read above what is below it. Each pair of a node
and a rule is looked at once. -/
def outlookFrom (table : Table T P) (g : Graph T P) (enough : Outlook → Bool) (fuel : Nat)
    (seen : Std.HashSet (Nat × Nat)) (found : Outlook) (pending : List (Nat × Nat)) : Outlook :=
  match pending with
  | [] => found
  | (node, rule) :: pending =>
    if enough found then found
    else if seen.contains (node, rule) then outlookFrom table g enough fuel seen found pending
    else
      match fuel with
      | 0 => found
      | fuel + 1 =>
        let seen := seen.insert (node, rule)
        if rule == table.start then
          outlookFrom table g enough fuel seen { found with atEnd := true } pending
        else
          match g[node]?.bind fun n => table.next? n.state (.rule rule) with
          | none => outlookFrom table g enough fuel seen found pending
          | some state =>
            let further := state.complete.flatMap fun position =>
              match table.positions[position]? with
              | some p => (g.nodesBelow node (p.length - 1)).map fun below => (below, p.rule)
              | none => []
            outlookFrom table g enough fuel seen
              { found with firsts := found.firsts ||| state.firsts } (further ++ pending)
termination_by (fuel, pending.length)

/-- Whether the text can go on with a terminal, or end, when a rule has been read above a node. -/
def admits (table : Table T P) (g : Graph T P) (node rule : Nat) (number? : Option Nat) : Bool :=
  let enough (o : Outlook) : Bool := o.admits number?
  enough (outlookFrom table g enough (g.size * table.rules.size) {} {} [(node, rule)])

/-- What can follow a node. -/
def outlook (table : Table T P) (g : Graph T P) (node : Nat) : Outlook :=
  match g[node]? with
  | none => {}
  | some n =>
    let ended := n.state.complete.flatMap fun position =>
      match table.positions[position]? with
      | some p => (g.nodesBelow node p.length).map fun below => (below, p.rule)
      | none => []
    outlookFrom table g (fun _ => false) (g.size * table.rules.size) {}
      ⟨n.state.firsts, n.state == table.initial⟩ ended

end Graph

end SwiftDependencies.Grammar
