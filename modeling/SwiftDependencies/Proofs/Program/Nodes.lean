import Mathlib.Tactic.Common
import SwiftDependencies.Manifest.Program

/-!
# Terms and calls of nodes

What `Node.term` makes of each kind of node, and where `Node.within` finds a call.  A node without
calls in it is passed over by every search for a call (`find?_within_of_plain`), and so are the
signs and comments among the parts of a node (`find?_parts`).
-/

namespace SwiftDependencies.Program.Node

variable {n : Node} {source : List Char}

/-! ### Kinds of nodes -/

/-- A node is of a kind if it is a phrase of it. -/
lemma isA_iff {p : Phrase} : n.isA p = true ↔ n.phrase? = some p := by
  rw [isA, beq_iff_eq]

/-- A phrase is of its own kind only. -/
lemma isA_of_phrase? {p : Phrase} (h : n.phrase? = some p) (q : Phrase) : n.isA q = (p == q) := by
  rw [isA, h]
  rfl

/-- A call is a call of a function, of a type, or of an operand. -/
lemma isCall_iff : n.isCall = true ↔ n.phrase? = some .functionCall ∨
    n.phrase? = some .constructorCall ∨ n.phrase? = some .operandCall := by
  rw [isCall, Bool.or_eq_true, Bool.or_eq_true, isA_iff, isA_iff, isA_iff, or_assoc]

/-- The kinds of suffixes that calls have. -/
lemma isCallSuffix_iff : n.isCallSuffix = true ↔ n.phrase? = some .callSuffix ∨
    n.phrase? = some .constructorSuffix ∨ n.phrase? = some .operandCallSuffix := by
  rw [isCallSuffix, Bool.or_eq_true, Bool.or_eq_true, isA_iff, isA_iff, isA_iff, or_assoc]

/-- A node is a comment if it is a phrase of that kind. -/
lemma isComment_iff : n.isComment = true ↔ n.phrase? = some .comment := isA_iff

/-- A phrase of another kind is no call. -/
lemma isCall_eq_false_of_phrase? {p : Phrase} (h : n.phrase? = some p) (hf : p ≠ .functionCall)
    (hc : p ≠ .constructorCall) (ho : p ≠ .operandCall) : n.isCall = false := by
  simp [isCall, isA_of_phrase? h, hf, hc, ho]

/-- The phrases among the essential parts of a node. -/
lemma essentialPhrases_eq (n : Node) :
    n.essentialPhrases = n.essentialParts.filter fun part => part.phrase?.isSome := by
  rw [essentialPhrases, phrases, essentialParts, List.filter_filter, List.filter_filter]
  refine List.filter_congr fun part _ => ?_
  rw [Bool.and_comm]

/-- A phrase of another kind is no comment. -/
lemma isA_and_not_isComment {p : Phrase} (hp : p ≠ .comment) (n : Node) :
    (n.isA p && !n.isComment) = n.isA p := by
  by_cases h : n.phrase? = some p
  · simp [isComment, isA_of_phrase? h, hp]
  · have hn : n.isA p = false := Bool.eq_false_iff.2 (isA_iff.not.2 h)
    rw [hn, Bool.false_and]

/-- Comments do not matter to a search for phrases of another kind. -/
lemma find?_phrases {p : Phrase} (hp : p ≠ .comment) (n : Node) :
    n.phrases.find? (isA p) = n.essentialPhrases.find? (isA p) := by
  rw [essentialPhrases, List.find?_filter]
  refine congrArg (n.phrases.find? ·) (funext fun part => ?_)
  rw [Bool.decide_and, Bool.decide_eq_true, Bool.decide_eq_true, Bool.and_comm,
    isA_and_not_isComment hp]

/-- Among the phrases of a kind there are comments only if it is that of comments. -/
lemma filter_phrases {p : Phrase} (hp : p ≠ .comment) (n : Node) :
    n.phrases.filter (isA p) = n.essentialPhrases.filter (isA p) := by
  rw [essentialPhrases, List.filter_filter]
  exact List.filter_congr fun part _ => (isA_and_not_isComment hp part).symm

/-! ### Terms -/

/-- The term of a literal is its text, or it is unknown if the literal has no value. -/
lemma term_literal (h : n.phrase? = some .lineString ∨ n.phrase? = some .rawString) :
    n.term source = match Source.literalValue? (n.region.chars source) with
      | some value => .string (String.ofList value) n.region.span
      | none => .unknown (String.ofList (n.region.chars source)) n.region.span := by
  have hkind : (n.isA .lineString || n.isA .blockString || n.isA .rawString) = true := by
    rcases h with h | h <;> simp [isA_of_phrase? h]
  rw [term]
  cases hvalue : Source.literalValue? (n.region.chars source) <;>
    simp [hkind, Source.Region.text, hvalue]

/-- The term of a name is a reference. -/
lemma term_name (h : n.phrase? = some .name) :
    n.term source = .reference (String.ofList (n.region.chars source)) n.region.span := by
  rw [term]
  simp [isA_of_phrase? h, Source.Region.text]

/-- The term of an array has the terms of its items. -/
lemma term_array (h : n.phrase? = some .arrayLiteral) :
    n.term source = .array (n.essentialPhrases.map (term source)) n.region.span := by
  rw [term]
  simp [isA_of_phrase? h]

/-- What is applied to a leading dot is a call of a member. -/
lemma memberCall?_eq {call : Node} (h : n.phrase? = some .prefixExpression)
    (hdot : (n.region.chars source).head? = some '.')
    (hcall : n.essentialPhrases.getLast? = some call) (hc : call.isCall = true) :
    n.memberCall? source = some call := by
  simp [memberCall?, isA_of_phrase? h, hdot, hcall, hc]

/-- The term of a call that is named as a member is that of the call. -/
lemma term_member {call : Node} (h : n.phrase? = some .prefixExpression)
    (hdot : (n.region.chars source).head? = some '.')
    (hcall : n.essentialPhrases.getLast? = some call) (hc : call.isCall = true) :
    n.term source = call.term source := by
  rw [term]
  simp only [isA_of_phrase? h]
  split
  · rename_i hkind
    exact absurd hkind (by decide)
  · split
    · rename_i hkind
      exact absurd hkind (by decide)
    · split
      · rename_i hkind
        exact absurd hkind (by decide)
      · split
        · rename_i found hfound
          rw [memberCall?_eq h hdot hcall hc] at hfound
          rw [Option.some.inj hfound]
        · rename_i hfound
          simp [memberCall?_eq h hdot hcall hc] at hfound

/-- The label and the term of an argument. -/
def argumentTerm (source : List Char) (argument : Node) : Option String × Term :=
  (argument.label?.map fun label => Text.trim (label.region.text source),
    match argument.argumentValue? with
    | some value => value.term source
    | none => .unknown "" ⟨0, 0⟩)

/-- A call is not itself named as a member. -/
lemma memberCall?_eq_none_of_isCall (h : n.isCall = true) : n.memberCall? source = none := by
  have hprefix : n.isA .prefixExpression = false := by
    rcases isCall_iff.1 h with h | h | h <;> simp [isA_of_phrase? h]
  simp [memberCall?, hprefix]

/-- The term of a call has the last part of its name and the terms of its arguments. -/
lemma term_call {callee suffix : Node} (h : n.isCall = true)
    (hparts : n.essentialPhrases = [callee, suffix]) (hcallee : callee.isCallSuffix = false)
    (hsuffix : suffix.isCallSuffix = true) :
    n.term source = .call (Term.lastPart (callee.region.text source))
      ((argumentsOf suffix).map (argumentTerm source)) n.region.span := by
  have hfind : n.essentialPhrases.find? isCallSuffix = some suffix := by
    rw [hparts, List.find?_cons_of_neg (by simp [hcallee]), List.find?_cons_of_pos hsuffix]
  have hother (p : Phrase) (hp : p ≠ .functionCall ∧ p ≠ .constructorCall ∧
      p ≠ .operandCall) :
      n.isA p = false := by
    obtain ⟨hf, hc, ho⟩ := hp
    rcases isCall_iff.1 h with h | h | h <;> simp [isA_of_phrase? h, hf.symm, hc.symm, ho.symm]
  rw [term]
  simp only [hother .lineString (by decide), hother .blockString (by decide),
    hother .rawString (by decide), hother .name (by decide), hother .arrayLiteral (by decide),
    Bool.or_false, Bool.false_eq_true, if_false]
  split
  · rename_i found hfound
    simp [memberCall?_eq_none_of_isCall h] at hfound
  · split
    · rename_i hnone
      simp [h, hfind] at hnone
    · rename_i found hfound
      obtain rfl : suffix = found := by simpa [h, hfind] using hfound
      rw [hparts]
      simp only [List.head?_cons, Option.map_some, Option.getD_some, List.map_subtype,
        List.unattach_attach]
      rw [Term.call.injEq]
      refine ⟨rfl, List.map_congr_left fun argument _ => ?_, rfl⟩
      rw [argumentTerm, Prod.mk.injEq]
      refine ⟨rfl, ?_⟩
      split <;> rename_i hvalue <;> rw [hvalue]

/-- A phrase of any other kind means nothing. -/
lemma term_unknown {p : Phrase} (h : n.phrase? = some p)
    (hp : p ∉ [.lineString, .blockString, .rawString, .name, .arrayLiteral])
    (hcall : n.isCall = false) (hlast : ∀ part ∈ n.essentialPhrases, part.isCall = false) :
    n.term source = .unknown (String.ofList (n.region.chars source)) n.region.span := by
  have hmember : n.memberCall? source = none := by
    rw [memberCall?]
    split
    · rw [Option.filter_eq_none_iff]
      intro part hpart
      simp [hlast part (List.mem_of_getLast? hpart)]
    · rfl
  simp only [List.mem_cons, List.not_mem_nil, or_false, not_or] at hp
  obtain ⟨h₁, h₂, h₃, h₄, h₅⟩ := hp
  rw [term]
  simp only [isA_of_phrase? h, beq_eq_false_iff_ne.2 h₁, beq_eq_false_iff_ne.2 h₂,
    beq_eq_false_iff_ne.2 h₃, beq_eq_false_iff_ne.2 h₄, beq_eq_false_iff_ne.2 h₅,
    Bool.or_false, Bool.false_eq_true, if_false]
  split
  · rename_i found hfound
    simp [hmember] at hfound
  · split
    · rfl
    · rename_i found hfound
      simp [hcall] at hfound

/-! ### Searches -/

/-- A node, and then the nodes in its parts. -/
lemma within_eq (n : Node) : n.within = n :: n.parts.flatMap within := by
  rw [within]
  simp [List.flatMap_subtype]

/-- Whether there is no call in a node. -/
def IsPlain (n : Node) : Prop :=
  ∀ m ∈ n.within, m.isCall = false

/-- A node is within itself. -/
lemma mem_within_self (n : Node) : n ∈ n.within := by
  rw [within_eq]
  exact List.mem_cons_self

/-- The parts of a node are within it. -/
lemma mem_within_of_mem_parts {part : Node} (h : part ∈ n.parts) : part ∈ n.within := by
  rw [within_eq]
  exact List.mem_cons_of_mem _ (List.mem_flatMap.2 ⟨part, h, part.mem_within_self⟩)

/-- A plain node is no call. -/
lemma IsPlain.isCall (h : n.IsPlain) : n.isCall = false :=
  h n n.mem_within_self

/-- A phrase that is not a comment is a part. -/
lemma mem_parts_of_mem_essentialPhrases {part : Node} (h : part ∈ n.essentialPhrases) :
    part ∈ n.parts :=
  (List.mem_filter.1 (List.mem_filter.1 h).1).1

/-- No part of a plain node is a call. -/
lemma IsPlain.isCall_of_mem {part : Node} (h : n.IsPlain) (hp : part ∈ n.essentialPhrases) :
    part.isCall = false :=
  h part (mem_within_of_mem_parts (mem_parts_of_mem_essentialPhrases hp))

/-- Whether comments have no parts. -/
def HasPlainComments (n : Node) : Prop :=
  ∀ part ∈ n.parts, part.isComment = true → part.parts = []

/-- The comments of a node are plain if they have no parts. -/
lemma hasPlainComments_of_all
    (h : (n.parts.all fun part => !part.isComment || part.parts.isEmpty) = true) :
    n.HasPlainComments := by
  intro part hpart hcomment
  have := List.all_eq_true.1 h part hpart
  simpa [hcomment] using this

/-- A node that is no call is plain if its parts are. -/
lemma isPlain_of_parts (h : n.isCall = false) (hparts : ∀ part ∈ n.parts, part.IsPlain) :
    n.IsPlain := by
  intro m hm
  rw [within_eq, List.mem_cons, List.mem_flatMap] at hm
  rcases hm with rfl | ⟨part, hpart, hm⟩
  · exact h
  · exact hparts part hpart m hm

/-- A phrase is plain if it is no call and its parts are plain. -/
@[simp] lemma isPlain_phrase (p : Phrase) (parts : List Node) (r : Source.Region) :
    IsPlain (.phrase p parts r) ↔
      isCall (.phrase p parts r) = false ∧ ∀ part ∈ parts, part.IsPlain := by
  refine ⟨fun h => ⟨h.isCall, fun part hpart m hm => h m ?_⟩,
    fun ⟨hcall, h⟩ => isPlain_of_parts hcall h⟩
  rw [within_eq]
  exact List.mem_cons_of_mem _ (List.mem_flatMap.2 ⟨part, hpart, hm⟩)

/-- There is no call within a plain node. -/
lemma find?_within_of_plain (h : n.IsPlain) (name : String) :
    n.within.find? (isCallOf name source) = none := by
  rw [List.find?_eq_none]
  intro m hm
  simp [isCallOf, h m hm]

/-- A word is plain. -/
@[simp] lemma isPlain_word (t : Terminal) (r : Source.Region) : IsPlain (.word t r) :=
  isPlain_of_parts rfl (by simp [parts])

/-- A comment without parts is plain. -/
lemma isPlain_of_isComment (h : n.isComment = true) (hparts : n.parts = []) : n.IsPlain :=
  isPlain_of_parts
    (isCall_eq_false_of_phrase? (isComment_iff.1 h) (by decide) (by decide) (by decide))
    (by simp [hparts])

/-- Signs and comments do not matter to a search among the parts of a node. -/
lemma find?_parts (h : n.HasPlainComments) (name : String) :
    (n.parts.flatMap within).find? (isCallOf name source) =
      n.essentialPhrases.findSome? fun node => node.within.find? (isCallOf name source) := by
  have hparts (parts : List Node) (hsub : ∀ part ∈ parts, part ∈ n.parts) :
      (parts.flatMap within).find? (isCallOf name source) =
        ((parts.filter fun part => part.phrase?.isSome).filter fun part =>
          !part.isComment).findSome?
          fun node => node.within.find? (isCallOf name source) := by
    induction parts with
    | nil => rfl
    | cons part parts ih =>
      have ih := ih fun part hpart => hsub part (List.mem_cons_of_mem _ hpart)
      rw [List.flatMap_cons, List.find?_append, ih]
      cases part with
      | word t r =>
        rw [find?_within_of_plain (isPlain_word t r)]
        rfl
      | phrase p ps r =>
        rcases Bool.eq_false_or_eq_true (isComment (.phrase p ps r)) with hc | hc
        · rw [find?_within_of_plain (isPlain_of_isComment hc (h _ (hsub _ List.mem_cons_self) hc))]
          simp [phrase?, hc]
        · rw [List.filter_cons_of_pos rfl, List.filter_cons_of_pos (by simp [hc]),
            List.findSome?_cons]
          cases within (.phrase p ps r) |>.find? (isCallOf name source) <;> rfl
  exact hparts n.parts fun _ hpart => hpart

/-- A search in a node that is not what it looks for goes on with the parts. -/
lemma find?_within_of_not {name : String} (h : n.isCallOf name source = false)
    (hcomments : n.HasPlainComments) :
    n.within.find? (isCallOf name source) =
      n.essentialPhrases.findSome? fun node => node.within.find? (isCallOf name source) := by
  rw [within_eq, List.find?_cons_of_neg (by simp [h]), find?_parts hcomments]

end SwiftDependencies.Program.Node
