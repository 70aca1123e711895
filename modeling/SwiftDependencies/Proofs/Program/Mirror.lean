import Mathlib.Data.Option.Basic
import Mathlib.Tactic.Common
import SwiftDependencies.Proofs.Manifest.Lowering
import SwiftDependencies.Proofs.Program.Nodes
import SwiftDependencies.Proofs.Text.Pieces

/-!
# Trees of expressions

What a parser of programs makes of an expression: a node for the expression, with a node for each of
its items, and with comments as nodes of their own among them.  `Written.Mirrors` says this of a
node, whatever else the parser keeps in it.

A node that mirrors an expression means its term (`Written.Mirrors.term`), and the first call of
`Package` that is met in the node is that of the expression (`Written.Mirrors.package?`).
-/

namespace SwiftDependencies

open Source Program

/-! ### Nodes and lexemes -/

namespace Program.Node

/-- Whether a node takes the text of some lexemes, which begins on a line. -/
structure Spells (source : List Char) (line : Nat) (xs : List Lexeme) (n : Node) : Prop where
  chars : n.region.chars source = textOf xs
  span : n.region.span = ⟨line, line + newlines xs⟩

/-- Whether a node is the list of some arguments. -/
structure IsArgumentList (arguments : List Node → Prop) (n : Node) : Prop where
  phrase : n.phrase? = some .valueArguments
  comments : n.HasPlainComments
  arguments : arguments n.essentialPhrases

/-- Whether a node is what follows the callee of a call. -/
structure IsSuffix (arguments : List Node → Prop) (n : Node) : Prop where
  isCallSuffix : n.isCallSuffix = true
  comments : n.HasPlainComments
  parts : ∃ list, n.essentialPhrases = [list] ∧ list.IsArgumentList arguments

/-- Whether a node is a dotted name in front of the arguments of a call. -/
structure IsCallee (source callee : List Char) (n : Node) : Prop where
  chars : n.region.chars source = callee
  isPlain : n.IsPlain
  not_suffix : n.isCallSuffix = false

/-- Whether a node is a call of a dotted name. -/
structure IsCallWith (source callee : List Char) (arguments : List Node → Prop) (n : Node) :
    Prop where
  isCall : n.isCall = true
  comments : n.HasPlainComments
  parts : ∃ name suffix, n.phrases.head? = some name ∧ n.essentialPhrases = [name, suffix] ∧
    name.IsCallee source callee ∧ suffix.IsSuffix arguments

/-- Whether a node is an argument with a label and a value. -/
def IsArgument (source : List Char) (label : Option Label) (value : Node → Prop) (n : Node) :
    Prop :=
  n.phrase? = some .argument ∧ n.HasPlainComments ∧
    match label with
    | none => ∃ v, n.essentialParts = [v] ∧ value v
    | some l => ∃ name sign v, n.essentialParts = [name, sign, v] ∧
      name.phrase? = some .argumentLabel ∧ name.region.chars source = l.name.chars ∧
      name.IsPlain ∧ sign.phrase? = none ∧ value v

end Program.Node

/-! ### Mirrors -/

/-- Whether a node is of the kind that a word has: a name, a member of the expected type, or a
member of something. -/
def Word.IsKind (w : Word) (n : Node) : Prop :=
  if w.isName then n.phrase? = some .name
  else n.phrase? = some .prefixExpression ∨ n.phrase? = some .memberAccess

mutual

/-- Whether a node is what a parser makes of an expression that begins on a line. A call of a member
of the expected type may be a call of the member, to which the dot is applied, unless the member has
the name of a package. -/
def Written.Mirrors (source : List Char) : Written → Nat → Node → Prop
  | .literal text _, line, n =>
    (n.phrase? = some .lineString ∨ n.phrase? = some .rawString) ∧ n.IsPlain ∧
      n.Spells source line [.literal text true]
  | .word w, line, n => w.IsKind n ∧ n.IsPlain ∧ n.Spells source line w.lexemes
  | .array items, line, n =>
    n.phrase? = some .arrayLiteral ∧ n.HasPlainComments ∧
      n.Spells source line (.code '[' :: (items.lexemes ++ [.code ']'])) ∧
      items.Mirrors source line n.essentialPhrases
  | .call callee gap arguments, line, n =>
    (n.IsCallWith source callee.chars (arguments.Mirrors source (line + newlines gap.lexemes)) ∧
      n.Spells source line
        (callee.lexemes ++ gap.lexemes ++ .code '(' :: (arguments.lexemes ++ [.code ')']))) ∨
    ∃ member call, callee.chars = '.' :: member ∧ member ≠ "Package".toList ∧
      n.phrase? = some .prefixExpression ∧ n.HasPlainComments ∧ n.essentialPhrases = [call] ∧
      (n.region.chars source).head? = some '.' ∧
      call.IsCallWith source member (arguments.Mirrors source (line + newlines gap.lexemes)) ∧
      call.Spells source line
        (member.map .code ++ gap.lexemes ++ .code '(' :: (arguments.lexemes ++ [.code ')']))

/-- Whether a node is what a parser makes of an item that begins on a line. -/
def Entry.Mirrors (source : List Char) {labelled : Bool} : Entry labelled → Nat → Node → Prop
  | .mk before label value _ _, line, n =>
    if labelled then
      n.IsArgument source label
        (value.Mirrors source (line + newlines before.lexemes + newlines (Label.lexemes label)))
    else value.Mirrors source (line + newlines before.lexemes + newlines (Label.lexemes label)) n

/-- Whether some nodes are what a parser makes of the items of a row that begins on a line. -/
def Row.Mirrors (source : List Char) {labelled : Bool} : Row labelled → Nat → List Node → Prop
  | .empty _, _, nodes => nodes = []
  | .last entry, line, nodes => ∃ n, nodes = [n] ∧ entry.Mirrors source line n
  | .more entry rest, line, nodes => ∃ n ns, nodes = n :: ns ∧ entry.Mirrors source line n ∧
      rest.Mirrors source (line + newlines entry.lexemes) ns

end

/-! ### Terms -/

/-- The kinds of the nodes of expressions. -/
def Program.expressionPhrases : List Phrase :=
  [.lineString, .rawString, .name, .prefixExpression, .memberAccess, .arrayLiteral, .functionCall,
    .constructorCall, .operandCall]

namespace Program.Node

variable {n : Node} {source : List Char}

/-- Whether a node is of a kind that expressions have. -/
def IsExpression (n : Node) : Prop :=
  ∃ p ∈ expressionPhrases, n.phrase? = some p

/-- An expression is of no other kind than expressions have. -/
lemma IsExpression.isA (h : n.IsExpression) {q : Phrase} (hq : q ∉ expressionPhrases) :
    n.isA q = false := by
  obtain ⟨p, hp, hphrase⟩ := h
  rw [isA_of_phrase? hphrase, beq_eq_false_iff_ne]
  rintro rfl
  exact hq hp

/-- An expression is a phrase. -/
lemma IsExpression.isSome_phrase? (h : n.IsExpression) : n.phrase?.isSome = true := by
  obtain ⟨p, -, hphrase⟩ := h
  rw [hphrase]
  rfl

/-- The arguments of a call are the phrases in the list of its arguments. -/
lemma IsSuffix.argumentsOf {arguments : List Node → Prop} (h : n.IsSuffix arguments)
    (hkind : ∀ nodes, arguments nodes → ∀ m ∈ nodes, m.phrase? = some .argument) :
    ∃ nodes, arguments nodes ∧ argumentsOf n = nodes := by
  obtain ⟨-, -, list, hparts, hlist⟩ := h
  refine ⟨list.essentialPhrases, hlist.arguments, ?_⟩
  have hfind : n.phrases.find? (fun m => m.isA .valueArguments || m.isA .roundArguments) =
      some list := by
    have hessential :
        n.essentialPhrases.find? (fun m => m.isA .valueArguments || m.isA .roundArguments) =
        some list := by
      rw [hparts, List.find?_cons_of_pos (by simp [isA_of_phrase? hlist.phrase])]
    rw [essentialPhrases, List.find?_filter] at hessential
    rw [← hessential]
    refine congrArg (n.phrases.find? ·) (funext fun m => ?_)
    cases hm : m.phrase? with
    | none => simp [isA, hm]
    | some p => cases p <;> simp [isComment, isA, hm]
  rw [Node.argumentsOf, hfind, Option.getD_some, filter_phrases (by decide), List.filter_eq_self]
  intro m hm
  rw [isA_iff]
  exact hkind _ hlist.arguments m hm

/-- The term of a call. -/
lemma IsCallWith.term {callee : List Char} {arguments : List Node → Prop}
    {terms : List (Option String × Term)} (h : n.IsCallWith source callee arguments)
    (hkind : ∀ nodes, arguments nodes → ∀ m ∈ nodes, m.phrase? = some .argument)
    (hterms : ∀ nodes, arguments nodes → nodes.map (argumentTerm source) = terms) :
    n.term source = .call (Term.lastPart (String.ofList callee)) terms n.region.span := by
  obtain ⟨hcall, -, name, suffix, -, hparts, hname, hsuffix⟩ := h
  obtain ⟨nodes, hnodes, harguments⟩ := hsuffix.argumentsOf hkind
  rw [term_call hcall hparts hname.not_suffix hsuffix.isCallSuffix, harguments, hterms nodes hnodes,
    Source.Region.text, hname.chars]

/-- The label and the term of an argument. -/
lemma IsArgument.argumentTerm {label : Option Label} {value : Node → Prop} {t : Term}
    (h : n.IsArgument source label value)
    (hkind : ∀ v, value v → v.IsExpression) (hterm : ∀ v, value v → v.term source = t) :
    n.argumentTerm source = (label.map fun l => String.ofList l.name.chars, t) := by
  obtain ⟨-, -, hparts⟩ := h
  have hvalue {v : Node} (hv : value v) : valueParts [v] = [v] := by
    simp [valueParts, (hkind v hv).isA (q := .typeAttributes) (by decide),
      (hkind v hv).isA (q := .argumentLabel) (by decide)]
  rw [Node.argumentTerm, label?, find?_phrases (by decide), essentialPhrases_eq]
  cases label with
  | none =>
    obtain ⟨v, hv, hval⟩ := hparts
    have hlabel := (hkind v hval).isA (q := .argumentLabel) (by decide)
    simp [argumentValue?, hv, hvalue hval, (hkind v hval).isSome_phrase?, hlabel, hterm v hval]
  | some l =>
    obtain ⟨name, sign, v, hv, hname, hchars, -, hsign, hval⟩ := hparts
    have hvalues : valueParts [name, sign, v] = [v] := by
      rw [valueParts]
      simp [isA_of_phrase? hname, hvalue hval]
    have htrim : Text.trim (name.region.text source) = String.ofList l.name.chars := by
      rw [Source.Region.text, hchars]
      exact trim_of_joins l.name.toWord.joins
    simp [argumentValue?, hv, hvalues, hname, isA_of_phrase? hname, htrim, hterm v hval]

end Program.Node

/-- The last part of a name is the same with a dot in front. -/
lemma Term.lastPart_dot {cs : List Char} (h : ∀ c ∈ cs, joinsName c = true) :
    lastPart (String.ofList ('.' :: cs)) = lastPart (String.ofList cs) := by
  have hdot : ∀ c ∈ '.' :: cs, joinsName c = true := by
    intro c hc
    rcases List.mem_cons.1 hc with rfl | hc
    · simp [joinsName]
    · exact h c hc
  have hlast : Text.lastPiece (· == '.') (String.ofList ('.' :: cs)) =
      Text.lastPiece (· == '.') (String.ofList cs) := by
    have hends := Text.lastPiece_eq_iff.1 (rfl : Text.lastPiece (· == '.') (String.ofList cs) = _)
    rw [Text.lastPiece_eq_iff]
    rw [String.toList_ofList] at hends ⊢
    exact hends.append (by rfl) []
  rw [lastPart, lastPart, trim_of_joins hdot, trim_of_joins h, hlast]

variable {source : List Char}

/-- A node that mirrors an expression is of a kind that expressions have. -/
lemma Written.Mirrors.isExpression {w : Written} {line : Nat} {n : Node}
    (h : w.Mirrors source line n) :
    n.IsExpression := by
  cases w with
  | literal text ht =>
    obtain ⟨hkind, -⟩ := h
    rcases hkind with hkind | hkind <;> exact ⟨_, by decide, hkind⟩
  | word v =>
    obtain ⟨hkind, -⟩ := h
    unfold Word.IsKind at hkind
    split at hkind
    · exact ⟨_, by decide, hkind⟩
    · rcases hkind with hkind | hkind <;> exact ⟨_, by decide, hkind⟩
  | array items => exact ⟨_, by decide, h.1⟩
  | call callee gap arguments =>
    rcases h with ⟨hcall, -⟩ | ⟨-, -, -, -, hkind, -⟩
    · rcases Node.isCall_iff.1 hcall.isCall with hkind | hkind | hkind <;>
        exact ⟨_, by decide, hkind⟩
    · exact ⟨_, by decide, hkind⟩

/-- A node that mirrors an item with a label is an argument. -/
lemma Entry.Mirrors.argument {e : Entry true} {line : Nat} {n : Node}
    (h : e.Mirrors source line n) :
    n.phrase? = some .argument := by
  cases e with
  | mk before label value after hl =>
    rw [Entry.Mirrors, if_pos rfl] at h
    exact h.1

/-- The arguments of a call are arguments. -/
lemma Row.Mirrors.argument : ∀ {r : Row true} {line : Nat} {nodes : List Node},
    r.Mirrors source line nodes → ∀ m ∈ nodes, m.phrase? = some .argument
  | .empty _, _, _, h => by
    rw [Row.Mirrors] at h
    simp [h]
  | .last entry, _, _, h => by
    rw [Row.Mirrors] at h
    obtain ⟨n, rfl, hn⟩ := h
    intro m hm
    obtain rfl := List.mem_singleton.1 hm
    exact hn.argument
  | .more entry rest, _, _, h => by
    rw [Row.Mirrors] at h
    obtain ⟨n, ns, rfl, hn, hns⟩ := h
    intro m hm
    rcases List.mem_cons.1 hm with rfl | hm
    · exact hn.argument
    · exact hns.argument m hm

/-- The label and the term of an item. -/
def Program.Node.itemTerm (source : List Char) (labelled : Bool) (n : Node) :
    Option String × Term :=
  if labelled then n.argumentTerm source else (none, n.term source)

mutual

/-- A node that mirrors an expression means what the expression means. -/
theorem Written.Mirrors.term : ∀ {w : Written} {line : Nat} {n : Node},
    w.Mirrors source line n → n.term source = w.term line
  | .literal text ht, line, n, h => by
    obtain ⟨hkind, -, hspells⟩ := h
    have hchars : n.region.chars source = text := by simpa [Lexeme.text] using hspells.chars
    rw [Node.term_literal hkind, hspells.span, newlines_literal ht, hchars, Written.term]
    rfl
  | .word w, line, n, h => by
    obtain ⟨hkind, hplain, hspells⟩ := h
    have hchars : n.region.chars source = w.chars := by simpa [Word.lexemes] using hspells.chars
    have hspan : n.region.span = ⟨line, line⟩ := by simpa [w.newlines_eq] using hspells.span
    unfold Word.IsKind at hkind
    rw [Written.term]
    split at hkind <;> rename_i hname
    · rw [Node.term_name hkind, if_pos hname, hchars, hspan]
    · rw [if_neg hname]
      rcases hkind with hkind | hkind <;>
        rw [Node.term_unknown hkind (by decide) hplain.isCall fun part => hplain.isCall_of_mem,
          hchars, hspan]
  | .array items, line, n, h => by
    obtain ⟨hkind, -, hspells, hitems⟩ := h
    have hterms := congrArg (List.map (·.2)) hitems.terms
    rw [List.map_map] at hterms
    rw [Node.term_array hkind, hspells.span, Written.term, ← hterms,
      newlines_enclosed (by decide) (by decide)]
    rfl
  | .call callee gap arguments, line, n, h => by
    rcases h with ⟨hcall, hspells⟩ |
      ⟨member, call, hmember, -, hkind, -, hparts, hdot, hcall, hspells⟩
    · rw [hcall.term (fun nodes hnodes => hnodes.argument) (fun nodes hnodes => hnodes.terms),
        hspells.span, Written.term, Word.lexemes, newlines_call callee.joins, Nat.add_assoc]
    · have hjoins : ∀ c ∈ member, joinsName c = true := fun c hc =>
        callee.joins c (hmember ▸ List.mem_cons_of_mem _ hc)
      rw [Node.term_member hkind hdot (by rw [hparts]; rfl) hcall.isCall,
        hcall.term (fun nodes hnodes => hnodes.argument) (fun nodes hnodes => hnodes.terms),
        hspells.span, Written.term, hmember, Term.lastPart_dot hjoins, newlines_call hjoins,
        Nat.add_assoc]

/-- A node that mirrors an item has the label and the term of the item. -/
theorem Entry.Mirrors.term {labelled : Bool} : ∀ {e : Entry labelled} {line : Nat} {n : Node},
    e.Mirrors source line n → n.itemTerm source labelled = e.item line
  | .mk before label value after hl, line, n, h => by
    rw [Entry.Mirrors] at h
    rw [Node.itemTerm, Entry.item]
    split at h <;> rename_i hlabelled
    · rw [if_pos hlabelled]
      exact h.argumentTerm (fun v hv => hv.isExpression) (fun v hv => hv.term)
    · rw [if_neg hlabelled, h.term]
      cases label with
      | none => rfl
      | some l => exact absurd (hl rfl) hlabelled

/-- Nodes that mirror a row have the labels and terms of its items. -/
theorem Row.Mirrors.terms {labelled : Bool} :
    ∀ {r : Row labelled} {line : Nat} {nodes : List Node},
    r.Mirrors source line nodes → nodes.map (Node.itemTerm source labelled) = r.items line
  | .empty gap, line, nodes, h => by
    rw [Row.Mirrors] at h
    rw [h, Row.items]
    rfl
  | .last entry, line, nodes, h => by
    rw [Row.Mirrors] at h
    obtain ⟨n, rfl, hn⟩ := h
    rw [Row.items, List.map_singleton, hn.term]
  | .more entry rest, line, nodes, h => by
    rw [Row.Mirrors] at h
    obtain ⟨n, ns, rfl, hn, hns⟩ := h
    rw [Row.items, List.map_cons, hn.term, hns.terms]

end

/-! ### The constructed package -/

namespace Program.Node

/-- Whether a search found a call with the arguments that were to be found, if there were any. -/
def FindsArguments (source : List Char) : Option Node → Option (Nat × Row true) → Prop :=
  Option.Rel fun call found =>
    ∃ name span, call.term source = .call name (found.2.items found.1) span

/-- If two searches find their arguments, so does the first and then the second. -/
lemma FindsArguments.or {call call' : Option Node} {found found' : Option (Nat × Row true)}
    (h : FindsArguments source call found) (h' : FindsArguments source call' found') :
    FindsArguments source (call.or call') (found.or found') := by
  cases h with
  | some h => exact .some h
  | none => exact h'

variable {n : Node}

/-- What is no call is no call of a name. -/
lemma isCallOf_eq_false (h : n.isCall = false) (name : String) :
    n.isCallOf name source = false := by
  simp [isCallOf, h]

/-- Whether a call is a call of a name is seen from its callee. -/
lemma IsCallWith.isCallOf {callee : List Char} {arguments : List Node → Prop} {name : String}
    (h : n.IsCallWith source callee arguments) (hjoins : ∀ c ∈ callee, joinsName c = true) :
    n.isCallOf name source = (callee == name.toList) := by
  obtain ⟨hcall, -, head, suffix, hhead, -, hname, -⟩ := h
  rw [Node.isCallOf, hcall, hhead, Bool.true_and, Option.any_some, Source.Region.text, hname.chars,
    trim_of_joins hjoins, Bool.eq_iff_iff, beq_iff_eq, beq_iff_eq]
  exact ⟨fun heq => by rw [← heq, String.toList_ofList],
    fun heq => by rw [heq, String.ofList_toList]⟩

/-- In a call of another name the search goes on with the arguments. -/
lemma IsCallWith.find?_within {callee : List Char} {arguments : List Node → Prop} {name : String}
    {found : Option (Nat × Row true)} (h : n.IsCallWith source callee arguments)
    (hjoins : ∀ c ∈ callee, joinsName c = true) (hname : callee ≠ name.toList)
    (hfound : ∀ nodes, arguments nodes → FindsArguments source
      (nodes.findSome? fun m => m.within.find? (Node.isCallOf name source)) found) :
    FindsArguments source (n.within.find? (Node.isCallOf name source)) found := by
  have hnot : n.isCallOf name source = false := by
    rw [h.isCallOf hjoins]
    exact beq_eq_false_iff_ne.2 hname
  obtain ⟨-, hcomments, head, suffix, -, hparts, hhead, hsuffix⟩ := h
  obtain ⟨hkind, hscomments, list, hlist, harguments⟩ := hsuffix
  have hsuffixcall : suffix.isCall = false := by
    rcases isCallSuffix_iff.1 hkind with hkind | hkind | hkind <;>
      exact isCall_eq_false_of_phrase? hkind (by decide) (by decide) (by decide)
  have hlistcall : list.isCall = false :=
    isCall_eq_false_of_phrase? harguments.phrase (by decide) (by decide) (by decide)
  have hsearch : n.within.find? (Node.isCallOf name source) =
      list.essentialPhrases.findSome? fun m => m.within.find? (Node.isCallOf name source) := by
    rw [find?_within_of_not hnot hcomments, hparts, List.findSome?_cons,
      find?_within_of_plain hhead.isPlain, List.findSome?_cons,
      find?_within_of_not (isCallOf_eq_false hsuffixcall name) hscomments, hlist,
      List.findSome?_cons,
      find?_within_of_not (isCallOf_eq_false hlistcall name) harguments.comments]
    cases list.essentialPhrases.findSome? fun m =>
      m.within.find? (Node.isCallOf name source) <;> rfl
  rw [hsearch]
  exact hfound _ harguments.arguments

/-- In an argument the search goes on with the value. -/
lemma IsArgument.find?_within {label : Option Label} {value : Node → Prop} {name : String}
    {found : Option (Nat × Row true)} (h : n.IsArgument source label value)
    (hkind : ∀ v, value v → v.IsExpression)
    (hfound : ∀ v, value v →
      FindsArguments source (v.within.find? (Node.isCallOf name source)) found) :
    FindsArguments source (n.within.find? (Node.isCallOf name source)) found := by
  obtain ⟨hargument, hcomments, hparts⟩ := h
  have hcall : n.isCall = false :=
    isCall_eq_false_of_phrase? hargument (by decide) (by decide) (by decide)
  rw [find?_within_of_not (isCallOf_eq_false hcall name) hcomments, essentialPhrases_eq]
  have hphrases {v : Node} (hv : value v) : [v].filter (fun part => part.phrase?.isSome) = [v] := by
    rw [List.filter_cons_of_pos (p := fun part : Node => part.phrase?.isSome)
      (hkind v hv).isSome_phrase?, List.filter_nil]
  cases label with
  | none =>
    obtain ⟨v, hv, hval⟩ := hparts
    rw [hv, hphrases hval, List.findSome?_singleton]
    exact hfound v hval
  | some l =>
    obtain ⟨head, sign, v, hv, hhead, -, hplain, hsign, hval⟩ := hparts
    rw [hv, List.filter_cons_of_pos (by rw [hhead]; rfl), List.filter_cons_of_neg (by simp [hsign]),
      hphrases hval, List.findSome?_cons, find?_within_of_plain hplain, List.findSome?_singleton]
    exact hfound v hval

end Program.Node

mutual

/-- The first call of `Package` in a node that mirrors an expression is that of the expression. -/
theorem Written.Mirrors.package? : ∀ {w : Written} {line : Nat} {n : Node},
    w.Mirrors source line n → Node.FindsArguments source
      (n.within.find? (Node.isCallOf "Package" source)) (w.package? line)
  | .literal _ _, _, _, h => by
    rw [Node.find?_within_of_plain h.2.1]
    exact .none
  | .word _, _, _, h => by
    rw [Node.find?_within_of_plain h.2.1]
    exact .none
  | .array items, line, n, h => by
    obtain ⟨hkind, hcomments, -, hitems⟩ := h
    have hcall : n.isCall = false :=
      Node.isCall_eq_false_of_phrase? hkind (by decide) (by decide) (by decide)
    rw [Node.find?_within_of_not (Node.isCallOf_eq_false hcall _) hcomments]
    exact hitems.package?
  | .call callee gap arguments, line, n, h => by
    rw [Written.package?]
    rcases h with ⟨hcall, hspells⟩ |
      ⟨member, call, hmember, hne, hkind, hcomments, hparts, -, hcall, -⟩
    · split <;> rename_i hcallee
      · have hfound : n.isCallOf "Package" source = true := by
          rw [hcall.isCallOf callee.joins, hcallee, beq_self_eq_true]
        rw [Node.within_eq, List.find?_cons_of_pos hfound]
        exact .some ⟨_, _, hcall.term (fun nodes hnodes => hnodes.argument)
          fun nodes hnodes => hnodes.terms⟩
      · exact hcall.find?_within callee.joins hcallee fun nodes hnodes => hnodes.package?
    · have hdotted : callee.chars ≠ "Package".toList := by
        rw [hmember]
        intro heq
        exact absurd (List.cons.inj heq).1 (by decide)
      have hjoins : ∀ c ∈ member, joinsName c = true := fun c hc =>
        callee.joins c (hmember ▸ List.mem_cons_of_mem _ hc)
      have hprefix : n.isCall = false :=
        Node.isCall_eq_false_of_phrase? hkind (by decide) (by decide) (by decide)
      rw [if_neg hdotted, Node.find?_within_of_not (Node.isCallOf_eq_false hprefix _) hcomments,
        hparts, List.findSome?_singleton]
      exact hcall.find?_within hjoins hne fun nodes hnodes => hnodes.package?

/-- In a node that mirrors an item, the first call of the constructor is the one in the item. -/
theorem Entry.Mirrors.package? {labelled : Bool} : ∀ {e : Entry labelled} {line : Nat} {n : Node},
    e.Mirrors source line n → Node.FindsArguments source
      (n.within.find? (Node.isCallOf "Package" source)) (e.package? line)
  | .mk before label value after hl, line, n, h => by
    rw [Entry.Mirrors] at h
    rw [Entry.package?]
    split at h
    · exact h.find?_within (fun v hv => hv.isExpression) fun v hv => hv.package?
    · exact h.package?

/-- In nodes that mirror a row, the first call of the constructor is the first one in the row. -/
theorem Row.Mirrors.package? {labelled : Bool} :
    ∀ {r : Row labelled} {line : Nat} {nodes : List Node},
    r.Mirrors source line nodes → Node.FindsArguments source
      (nodes.findSome? fun n => n.within.find? (Node.isCallOf "Package" source)) (r.package? line)
  | .empty gap, line, nodes, h => by
    rw [Row.Mirrors] at h
    rw [h]
    exact .none
  | .last entry, line, nodes, h => by
    rw [Row.Mirrors] at h
    obtain ⟨n, rfl, hn⟩ := h
    rw [Row.package?, List.findSome?_singleton]
    exact hn.package?
  | .more entry rest, line, nodes, h => by
    rw [Row.Mirrors] at h
    obtain ⟨n, ns, rfl, hn, hns⟩ := h
    have hfound := hn.package?.or hns.package?
    rw [Row.package?, List.findSome?_cons]
    split <;> rename_i heq <;> rwa [heq] at hfound

end

end SwiftDependencies
