import SwiftDependencies.Program.Parse
import SwiftDependencies.Source.StringLiteral
import SwiftDependencies.Term

/-!
# Nodes of a program

The tree of a program is seen as nodes, in which transparent phrases and series are replaced by
their parts. A parser may keep comments as nodes of their own, and these mean nothing. `Node.term`
says what a node means in a manifest, and `Node.within` lists a node and the nodes in it in the
order in which a reader meets them.
-/

namespace SwiftDependencies.Program

open Grammar (Tree)
open Source (Region)

/-- A terminal, or a phrase with its parts. -/
inductive Node where
  | word (terminal : Terminal) (region : Region)
  | phrase (phrase : Phrase) (parts : List Node) (region : Region)
  deriving Inhabited

/-! ### Nodes of a tree -/

mutual

/-- The nodes that a tree is seen as, before some others. -/
def nodesOf (rest : List Node) : Tree Terminal Phrase → List Node
  | .leaf terminal region => .word terminal region :: rest
  | .phrase p parts region =>
    if p.isTransparent then nodesOfRow rest parts
    else .phrase p (nodesOfRow [] parts) region :: rest
  | .series parts _ => nodesOfRow rest parts

/-- The nodes that a row of trees is seen as, before some others. -/
def nodesOfRow (rest : List Node) : List (Tree Terminal Phrase) → List Node
  | [] => rest
  | tree :: trees => nodesOf (nodesOfRow rest trees) tree

end

namespace Node

/-- Where a node stands. -/
def region : Node → Region
  | .word _ r | .phrase _ _ r => r

/-- The phrase that a node is. -/
def phrase? : Node → Option Phrase
  | .word _ _ => none
  | .phrase p _ _ => some p

/-- Whether a node is a phrase of a kind. -/
def isA (p : Phrase) (n : Node) : Bool :=
  n.phrase? == some p

/-- Whether a node is a word or a sign with a given text. -/
def isWord (text : String) : Node → Bool
  | .word (.word t) _ => t == text.toList
  | _ => false

/-- The parts of a node. -/
def parts : Node → List Node
  | .word _ _ => []
  | .phrase _ parts _ => parts

/-- The parts of a node that are phrases. -/
def phrases (n : Node) : List Node :=
  n.parts.filter fun part => part.phrase?.isSome

/-- Whether a node is a comment. -/
def isComment (n : Node) : Bool :=
  n.isA .comment

/-- The parts of a node but for comments. -/
def essentialParts (n : Node) : List Node :=
  n.parts.filter fun part => !part.isComment

/-- The parts of a node that are phrases but for comments. -/
def essentialPhrases (n : Node) : List Node :=
  n.phrases.filter fun part => !part.isComment

/-- A part of a node is smaller than the node. -/
theorem sizeOf_lt_of_mem_parts {n part : Node} (h : part ∈ n.parts) : sizeOf part < sizeOf n := by
  cases n with
  | word => simp [parts] at h
  | phrase p ps r =>
    have := List.sizeOf_lt_of_mem h
    simp only [phrase.sizeOf_spec, parts] at this ⊢
    omega

/-- A phrase in a node is smaller than the node. -/
theorem sizeOf_lt_of_mem_phrases {n part : Node} (h : part ∈ n.phrases) :
    sizeOf part < sizeOf n :=
  sizeOf_lt_of_mem_parts (List.mem_filter.1 h).1

/-- A phrase that is not a comment is smaller than the node that it is in. -/
theorem sizeOf_lt_of_mem_essentialPhrases {n part : Node} (h : part ∈ n.essentialPhrases) :
    sizeOf part < sizeOf n :=
  sizeOf_lt_of_mem_phrases (List.mem_filter.1 h).1

/-! ### Calls -/

/-- Whether a node is a call of a function or of a type. -/
def isCall (n : Node) : Bool :=
  n.isA .functionCall || n.isA .constructorCall || n.isA .operandCall

/-- Whether a node holds what follows the callee of a call. -/
def isCallSuffix (n : Node) : Bool :=
  n.isA .callSuffix || n.isA .constructorSuffix || n.isA .operandCallSuffix

/-- The arguments of a call, given what follows the callee. -/
def argumentsOf (suffix : Node) : List Node :=
  let list :=
    (suffix.phrases.find? fun n => n.isA .valueArguments || n.isA .roundArguments).getD suffix
  list.phrases.filter (isA .argument)

/-- The label of an argument. -/
def label? (argument : Node) : Option Node :=
  argument.phrases.find? (isA .argumentLabel)

/-- The parts of an argument from its value on. -/
def valueParts : List Node → List Node
  | [] => []
  | n :: rest =>
    if n.isA .typeAttributes then valueParts rest
    else if n.isA .argumentLabel then
      match rest with
      | [] => []
      | _ :: rest => valueParts rest
    else n :: rest

/-- The parts of a value are among the parts that it is looked for in. -/
theorem mem_of_mem_valueParts {n : Node} {ns : List Node} (h : n ∈ valueParts ns) : n ∈ ns := by
  fun_induction valueParts ns with
  | case1 => exact h
  | case2 _ _ _ ih => exact List.mem_cons_of_mem _ (ih h)
  | case3 => simp at h
  | case4 _ _ _ _ _ ih => exact List.mem_cons_of_mem _ (List.mem_cons_of_mem _ (ih h))
  | case5 => exact h

/-- The value of an argument. Attributes stand for the value of an argument that has none. -/
def argumentValue? (argument : Node) : Option Node :=
  match valueParts argument.essentialParts with
  | value :: _ => some value
  | [] => (argument.essentialPhrases.filter fun n => !n.isA .argumentLabel).getLast?

/-- The value of an argument is smaller than the argument. -/
theorem sizeOf_lt_of_argumentValue? {argument value : Node}
    (h : argument.argumentValue? = some value) : sizeOf value < sizeOf argument := by
  unfold argumentValue? at h
  split at h
  · next v rest hv =>
    cases h
    have hmem :=
      mem_of_mem_valueParts (hv ▸
        List.mem_cons_self : value ∈ valueParts argument.essentialParts)
    exact sizeOf_lt_of_mem_parts (List.mem_filter.1 hmem).1
  · exact sizeOf_lt_of_mem_essentialPhrases (List.mem_filter.1 (List.mem_of_getLast? h)).1

/-- An argument is smaller than the suffix of the call that it is in. -/
theorem sizeOf_lt_of_mem_argumentsOf {suffix argument : Node}
    (h : argument ∈ argumentsOf suffix) :
    sizeOf argument < sizeOf suffix := by
  have h := (List.mem_filter.1 h).1
  cases hl : suffix.phrases.find? fun n => n.isA .valueArguments || n.isA .roundArguments with
  | none =>
    rw [hl] at h
    exact sizeOf_lt_of_mem_phrases h
  | some list =>
    rw [hl] at h
    exact Nat.lt_trans (sizeOf_lt_of_mem_phrases h)
      (sizeOf_lt_of_mem_phrases (List.mem_of_find?_eq_some hl))

/-! ### Meaning -/

/-- What a leading dot is applied to, if it is a call: the call of a member of the expected type. -/
def memberCall? (source : List Char) (n : Node) : Option Node :=
  if n.isA .prefixExpression && (n.region.chars source).head? == some '.' then
    n.essentialPhrases.getLast?.filter isCall
  else none

/-- A call that is named as a member is smaller than the node that it is in. -/
theorem sizeOf_lt_of_memberCall? {source : List Char} {n call : Node}
    (h : n.memberCall? source = some call) : sizeOf call < sizeOf n := by
  unfold memberCall? at h
  split at h
  · obtain ⟨h, -⟩ := Option.filter_eq_some_iff.1 h
    exact sizeOf_lt_of_mem_essentialPhrases (List.mem_of_getLast? h)
  · cases h

/-- What a node means in a manifest. Its text is taken from the source. -/
def term (source : List Char) (n : Node) : Term :=
  let text := n.region.text source
  let span := n.region.span
  if n.isA .lineString || n.isA .blockString || n.isA .rawString then
    match Source.literalValue? text.toList with
    | some value => .string (String.ofList value) span
    | none => .unknown text span
  else if n.isA .name then .reference text span
  else if n.isA .arrayLiteral then
    .array (n.essentialPhrases.attach.map fun ⟨item, h⟩ =>
      have := sizeOf_lt_of_mem_essentialPhrases h
      item.term source) span
  else
    match _h : n.memberCall? source with
    | some call => call.term source
    | none =>
      match _h : if n.isCall then n.essentialPhrases.find? isCallSuffix else none with
      | none => .unknown text span
      | some suffix =>
        .call (Term.lastPart ((n.essentialPhrases.head?.map (·.region.text source)).getD ""))
          ((argumentsOf suffix).attach.map fun ⟨argument, _ha⟩ =>
            (argument.label?.map fun label => Text.trim (label.region.text source),
              match _hv : argument.argumentValue? with
              | some value => value.term source
              | none => .unknown "" ⟨0, 0⟩)) span
termination_by sizeOf n
decreasing_by
  · assumption
  · exact sizeOf_lt_of_memberCall? _h
  · have hs : suffix ∈ n.essentialPhrases := by
      split at _h
      · exact List.mem_of_find?_eq_some _h
      · cases _h
    have := sizeOf_lt_of_mem_essentialPhrases hs
    have := sizeOf_lt_of_mem_argumentsOf _ha
    have := sizeOf_lt_of_argumentValue? _hv
    omega

/-- A node and the nodes in it, each before those in it. -/
def within (n : Node) : List Node :=
  n :: n.parts.attach.flatMap fun ⟨part, h⟩ =>
    have := sizeOf_lt_of_mem_parts h
    part.within
termination_by sizeOf n

end Node

end SwiftDependencies.Program
