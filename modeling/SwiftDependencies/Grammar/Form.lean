/-!
# Forms of phrases

A grammar says for every phrase which form it has: a terminal, another phrase, parts after each
other, a choice, or one or more of a kind. A form may be ranked, which settles how phrases without
brackets are grouped, and weighted, which settles which of two readings is taken.

`Form.productions` spells a form out as the rows of symbols that it stands for. A series is a symbol
of its own, which is one item or a shorter series and one item more, so every form has finitely many
productions. Each step of a production keeps the rank that is in force after its symbol: of nested
ranks the inner one holds up to the last symbol inside, and after that symbol the outer one, except
at the end of the form, where the inner one stays in force.
-/

namespace SwiftDependencies.Grammar

/-- The side on which phrases of one rank are grouped first. -/
inductive Side where
  | left
  | right
  deriving DecidableEq, Repr, Hashable

/-- What a phrase consists of, over terminals `T` and phrases `P`. -/
inductive Form (T P : Type) where
  | terminal (t : T)
  | phrase (p : P)
  | nothing
  | row (first second : Form T P)
  | choice (first second : Form T P)
  /-- One or more of a form. -/
  | series (item : Form T P)
  | ranked (rank : Int) (side : Option Side) (form : Form T P)
  | weighted (weight : Int) (form : Form T P)
  deriving DecidableEq, Hashable

/-- What is read in one step: a terminal, a phrase or a series. -/
inductive Symbol (T P : Type) where
  | terminal (t : T)
  | phrase (p : P)
  | series (item : Form T P)
  deriving DecidableEq, Hashable

/-- The rank that is in force at a place in a form. -/
structure Standing where
  rank : Int := 0
  side : Option Side := none
  deriving DecidableEq, Repr, Hashable, Inhabited

/-- A symbol with the rank that is in force after it. -/
structure Step (T P : Type) where
  symbol : Symbol T P
  standing : Standing
  deriving DecidableEq, Hashable

/-- A row of symbols, with a weight. -/
structure Production (T P : Type) where
  steps : List (Step T P)
  weight : Int

/-- Of two weights the one farther from zero, the first one if both are equally far. -/
def heavier (a b : Int) : Int :=
  if a.natAbs < b.natAbs then b else a

namespace Production

variable {T P : Type}

/-- A production of one symbol. -/
def single (symbol : Symbol T P) (standing : Standing) : Production T P :=
  ⟨[⟨symbol, standing⟩], 0⟩

/-- A production after another. -/
def append (p q : Production T P) : Production T P :=
  ⟨p.steps ++ q.steps, heavier p.weight q.weight⟩

/-- Give a production at least a weight. -/
def weigh (weight : Int) (p : Production T P) : Production T P :=
  { p with weight := heavier weight p.weight }

/-- Leave a ranked form: after its last symbol the rank outside is in force, and the side outside if
the form has a side of its own. -/
def leave (outer : Standing) (sided : Bool) (p : Production T P) : Production T P :=
  match p.steps.getLast? with
  | none => p
  | some last =>
    let standing := ⟨outer.rank, if sided then outer.side else last.standing.side⟩
    { p with steps := p.steps.dropLast ++ [{ last with standing := standing }] }

end Production

namespace Form

variable {T P : Type}

/-- The productions of a form. `last` says whether the form ends a production. -/
def productions (outer : Standing) (last : Bool) : Form T P → List (Production T P)
  | .terminal t => [.single (.terminal t) outer]
  | .phrase p => [.single (.phrase p) outer]
  | .series item => [.single (.series item) outer]
  | .nothing => [⟨[], 0⟩]
  | .row first second =>
    (first.productions outer false).flatMap fun p =>
      (second.productions outer last).map p.append
  | .choice first second => first.productions outer last ++ second.productions outer last
  | .ranked rank side form =>
    let inner := form.productions ⟨rank, side <|> outer.side⟩ last
    if last then inner else inner.map (.leave outer side.isSome)
  | .weighted weight form => (form.productions outer last).map (.weigh weight)

/-- The items of the series in a form, those inside other series included. -/
def seriesItems : Form T P → List (Form T P)
  | .terminal _ | .phrase _ | .nothing => []
  | .row first second | .choice first second => first.seriesItems ++ second.seriesItems
  | .series item => item.seriesItems ++ [item]
  | .ranked _ _ form | .weighted _ form => form.seriesItems

/-- The terminals in a form. -/
def terminals : Form T P → List T
  | .terminal t => [t]
  | .phrase _ | .nothing => []
  | .row first second | .choice first second => first.terminals ++ second.terminals
  | .series item => item.terminals
  | .ranked _ _ form | .weighted _ form => form.terminals

/-- The productions of a form that stands alone. The empty one is left out, as no phrase is
empty. -/
def nonemptyProductions (form : Form T P) : List (Production T P) :=
  (form.productions {} true).filter fun p => !p.steps.isEmpty

/-- A series as a form: an item, or a series and an item more. -/
def seriesForm (item : Form T P) : Form T P :=
  .choice item (.row (.series item) item)

/-! ### Ways to write forms -/

/-- Forms after each other. -/
def seq : List (Form T P) → Form T P
  | [] => .nothing
  | [form] => form
  | form :: forms => .row form (seq forms)

/-- One of several forms. -/
def oneOf : List (Form T P) → Form T P
  | [] => .nothing
  | [form] => form
  | form :: forms => .choice form (oneOf forms)

/-- A form or nothing. -/
def maybe (form : Form T P) : Form T P :=
  .choice form .nothing

/-- A form any number of times. -/
def many (form : Form T P) : Form T P :=
  maybe (.series form)

/-- A form one or more times, with a separator between. -/
def separated (form separator : Form T P) : Form T P :=
  seq [form, many (seq [separator, form])]

/-- A form one or more times, with a separator between and perhaps one at the end. -/
def listed (form separator : Form T P) : Form T P :=
  seq [form, many (seq [separator, form]), maybe separator]

/-- A form of a rank. -/
def level (rank : Int) (form : Form T P) : Form T P :=
  .ranked rank none form

/-- A form of a rank that is grouped from the left. -/
def left (rank : Int) (form : Form T P) : Form T P :=
  .ranked rank (some .left) form

/-- A form of a rank that is grouped from the right. -/
def right (rank : Int) (form : Form T P) : Form T P :=
  .ranked rank (some .right) form

end Form

end SwiftDependencies.Grammar
