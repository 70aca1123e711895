import Mathlib.Data.List.Basic
import Mathlib.Logic.Relation
import Mathlib.Tactic.Common
import SwiftDependencies.Term

/-!
# Unfolding of constants

A term is unfolded by putting the value of a constant in the place of its name, and doing the same
in the value.  This ends because a constant that has been unfolded is not looked up again below its
own name.

If the constants do not refer to themselves in a circle, such a constant could not be met again
anyway. Then it does not matter which constants have been put aside on the way
(`Constants.unfolded_congr`), a name unfolds to what its value unfolds to
(`Constants.unfolded_reference`), and no name of a constant is left
(`Constants.find?_eq_none_of_mentions_unfolded`).  The invariant of all inductions is
`Constants.Covers`: the constants not put aside answer for every name that is still to come.
-/

namespace SwiftDependencies

open Source (Span)

namespace Term

/-- A name occurs in a term. -/
inductive Mentions (name : String) : Term → Prop where
  | reference (span : Span) : Mentions name (.reference name span)
  | item {items : List Term} {span : Span} {t : Term} (ht : t ∈ items) (h : Mentions name t) :
    Mentions name (.array items span)
  | argument {callee : String} {arguments : List (Option String × Term)} {span : Span}
    {a : Option String × Term} (ha : a ∈ arguments) (h : Mentions name a.2) :
    Mentions name (.call callee arguments span)

section Mentions

variable {name other callee : String} {span : Span}

/-- A string mentions no names. -/
@[simp] lemma mentions_string : ¬ (Term.string other span).Mentions name :=
  nofun

/-- A reference mentions its name. -/
@[simp] lemma mentions_reference : (Term.reference other span).Mentions name ↔ other = name := by
  constructor
  · rintro ⟨⟩
    rfl
  · rintro rfl
    exact .reference span

/-- An array mentions what its items mention. -/
@[simp] lemma mentions_array {items : List Term} :
    (Term.array items span).Mentions name ↔ ∃ t ∈ items, t.Mentions name := by
  constructor
  · rintro (_ | ⟨ht, h⟩)
    exact ⟨_, ht, h⟩
  · rintro ⟨t, ht, h⟩
    exact .item ht h

/-- A call mentions what its arguments mention. -/
@[simp] lemma mentions_call {arguments : List (Option String × Term)} :
    (Term.call callee arguments span).Mentions name ↔ ∃ a ∈ arguments, a.2.Mentions name := by
  constructor
  · rintro (_ | _ | ⟨ha, h⟩)
    exact ⟨_, ha, h⟩
  · rintro ⟨a, ha, h⟩
    exact .argument ha h

/-- An unknown term mentions no names. -/
@[simp] lemma mentions_unknown : ¬ (Term.unknown other span).Mentions name :=
  nofun

end Mentions

/-- The text of a literal. -/
def literal? : Term → Option String
  | .string value _ => some value
  | _ => none

/-- The items of an array; nothing else has items. -/
def elements : Term → List Term
  | .array items _ => items
  | _ => []

end Term

namespace Constants

variable {cs rest others : Constants} {name other callee : String} {t : Term} {span : Span}

/-! ### References between constants -/

/-- The value of a constant mentions a name. -/
def RefersTo (cs : Constants) (name other : String) : Prop :=
  ∃ t, cs.find? name = some t ∧ t.Mentions other

/-- No constant refers to itself, be it through other constants. -/
def Acyclic (cs : Constants) : Prop :=
  ∀ name, ¬ Relation.TransGen cs.RefersTo name name

/-- A name occurs in a term, or in the values of the constants that one finds from there. -/
def LeadsTo (cs : Constants) (t : Term) (name : String) : Prop :=
  ∃ mentioned, t.Mentions mentioned ∧ Relation.ReflTransGen cs.RefersTo mentioned name

/-- There is no circle if the values of constants only mention names of lower rank. -/
lemma acyclic_of_rank (rank : String → Nat)
    (h : ∀ c ∈ cs, ∀ other, c.value.Mentions other → rank other < rank c.name) :
    cs.Acyclic := by
  have hstep : ∀ name other, cs.RefersTo name other → rank other < rank name := by
    rintro name other ⟨t, ht, hmentions⟩
    obtain ⟨before, c, after, rfl, rfl, rfl, -⟩ := find?_eq_some_iff.1 ht
    exact h c (by simp) other hmentions
  have hpath : ∀ name other, Relation.TransGen cs.RefersTo name other →
      rank other < rank name := by
    intro name other hpath
    induction hpath with
    | single hlast => exact hstep _ _ hlast
    | tail _ hlast ih => exact Nat.lt_trans (hstep _ _ hlast) ih
  intro name hcircle
  exact Nat.lt_irrefl _ (hpath name name hcircle)

/-! ### Looking up names -/

/-- A constant that is put aside is not found, and all others are as before. -/
@[simp] lemma find?_without (cs : Constants) (name other : String) :
    (cs.without name).find? other = if other = name then none else cs.find? other := by
  unfold find? without
  rw [List.find?_filter]
  split
  · rename_i heq
    subst heq
    simp
  · rename_i hne
    congr 1
    refine congrArg (List.find? · cs) (funext fun c => ?_)
    by_cases hc : c.name = other <;> simp [hc, hne]

/-- What is left of the constants answers like all of them for every name to which a term leads. -/
def Covers (cs rest : Constants) (t : Term) : Prop :=
  ∀ name, cs.LeadsTo t name → rest.find? name = cs.find? name

/-- All constants cover every term. -/
lemma covers_self (cs : Constants) (t : Term) : cs.Covers cs t :=
  fun _ _ => rfl

/-- What covers a reference finds its name. -/
lemma Covers.find? (h : cs.Covers rest (.reference name span)) : rest.find? name = cs.find? name :=
  h name ⟨name, .reference span, .refl⟩

/-- What covers an array covers its items. -/
lemma Covers.item {items : List Term} (h : cs.Covers rest (.array items span)) (ht : t ∈ items) :
    cs.Covers rest t := by
  rintro name ⟨mentioned, hmentions, hpath⟩
  exact h name ⟨mentioned, .item ht hmentions, hpath⟩

/-- What covers a call covers its arguments. -/
lemma Covers.argument {arguments : List (Option String × Term)} {a : Option String × Term}
    (h : cs.Covers rest (.call callee arguments span)) (ha : a ∈ arguments) :
    cs.Covers rest a.2 := by
  rintro name ⟨mentioned, hmentions, hpath⟩
  exact h name ⟨mentioned, .argument ha hmentions, hpath⟩

/-- Below the value of a constant its own name is not met again, so it can be put aside. -/
lemma Covers.value (hcs : cs.Acyclic) (h : cs.Covers rest (.reference name span))
    (ht : cs.find? name = some t) : cs.Covers (rest.without name) t := by
  rintro other ⟨mentioned, hmentions, hpath⟩
  have hstep : cs.RefersTo name mentioned := ⟨t, ht, hmentions⟩
  have hne : other ≠ name := by
    rintro rfl
    exact hcs other (.head' hstep hpath)
  rw [find?_without, if_neg hne]
  exact h other ⟨name, .reference span, .head hstep hpath⟩

/-! ### Unfolding -/

/-- A term in which the names of the constants that are left are replaced by their values, and so
are the names in these. -/
def unfolded (rest : Constants) (t : Term) : Term :=
  match t with
  | .string value span => .string value span
  | .reference name span =>
    match h : rest.find? name with
    | none => .reference name span
    | some t =>
      have := length_without_lt h
      (rest.without name).unfolded t
  | .array items span => .array (items.attach.map fun ⟨item, _⟩ => rest.unfolded item) span
  | .call callee arguments span =>
    .call callee (arguments.attach.map fun ⟨a, ha⟩ =>
      have := Term.sizeOf_lt_of_mem_arguments ha
      (a.1, rest.unfolded a.2)) span
  | .unknown text span => .unknown text span
termination_by (rest.length, sizeOf t)
decreasing_by
  · exact Prod.Lex.left _ _ this
  · exact Prod.Lex.right _ (by simp; have := List.sizeOf_lt_of_mem ‹_›; omega)
  · exact Prod.Lex.right _ (by simp; omega)

/-- Labelled values, each unfolded. -/
def unfoldedArguments (cs : Constants) (arguments : List (Option String × Term)) :
    List (Option String × Term) :=
  arguments.map fun a => (a.1, cs.unfolded a.2)

/-- A string is unfolded already. -/
@[simp] lemma unfolded_string (cs : Constants) (value : String) (span : Span) :
    cs.unfolded (.string value span) = .string value span := by
  rw [unfolded]

/-- An unknown term is unfolded already. -/
@[simp] lemma unfolded_unknown (cs : Constants) (text : String) (span : Span) :
    cs.unfolded (.unknown text span) = .unknown text span := by
  rw [unfolded]

/-- An array is unfolded item by item. -/
@[simp] lemma unfolded_array (cs : Constants) (items : List Term) (span : Span) :
    cs.unfolded (.array items span) = .array (items.map cs.unfolded) span := by
  rw [unfolded]
  simp

/-- A call is unfolded argument by argument. -/
@[simp] lemma unfolded_call (cs : Constants) (callee : String)
    (arguments : List (Option String × Term)) (span : Span) :
    cs.unfolded (.call callee arguments span) =
      .call callee (cs.unfoldedArguments arguments) span := by
  rw [unfolded, unfoldedArguments]
  conv => rhs; rw [← List.attach_map_subtype_val arguments, List.map_map]
  rfl

/-- An unknown name is unfolded already. -/
lemma unfolded_of_find?_eq_none (h : rest.find? name = none) :
    rest.unfolded (.reference name span) = .reference name span := by
  rw [unfolded]
  split
  · rfl
  · simp_all

/-- A name is unfolded to its unfolded term. -/
lemma unfolded_of_find?_eq_some (h : rest.find? name = some t) :
    rest.unfolded (.reference name span) = (rest.without name).unfolded t := by
  rw [unfolded]
  split
  · simp_all
  · simp_all

/-- It does not matter which constants have been put aside, as long as what is left covers the
term. -/
lemma unfolded_congr (hcs : cs.Acyclic) (hrest : cs.Covers rest t) (hothers : cs.Covers others t) :
    rest.unfolded t = others.unfolded t := by
  fun_induction unfolded rest t generalizing others with
  | case1 rest value span => rw [unfolded_string]
  | case2 rest name span hnone =>
    rw [unfolded_of_find?_eq_none]
    rw [hothers.find?, ← hrest.find?, hnone]
  | case3 rest name span t hsome _ ih =>
    have ht : cs.find? name = some t := hrest.find? ▸ hsome
    rw [unfolded_of_find?_eq_some (hothers.find?.trans ht)]
    exact ih (hrest.value hcs ht) (hothers.value hcs ht)
  | case4 rest items span ih =>
    rw [unfolded_array]
    congr 1
    conv => rhs; rw [← List.attach_map_subtype_val items, List.map_map]
    refine List.map_congr_left ?_
    rintro ⟨item, hitem⟩ _
    exact ih item hitem (hrest.item hitem) (hothers.item hitem)
  | case5 rest callee arguments span ih =>
    rw [unfolded_call, unfoldedArguments]
    congr 1
    conv => rhs; rw [← List.attach_map_subtype_val arguments, List.map_map]
    refine List.map_congr_left ?_
    rintro ⟨a, ha⟩ _
    exact congrArg (Prod.mk a.1) (ih a ha (hrest.argument ha) (hothers.argument ha))
  | case6 rest text span => rw [unfolded_unknown]

/-- A name unfolds to what the value of the constant unfolds to. -/
lemma unfolded_reference (hcs : cs.Acyclic) (ht : cs.find? name = some t) :
    cs.unfolded (.reference name span) = cs.unfolded t := by
  rw [unfolded_of_find?_eq_some ht]
  exact unfolded_congr hcs ((cs.covers_self (.reference name span)).value hcs ht) (cs.covers_self t)

/-- The names that are left in an unfolded term are not names of constants. -/
lemma find?_eq_none_of_mentions (hcs : cs.Acyclic) (hrest : cs.Covers rest t)
    (h : (rest.unfolded t).Mentions name) : cs.find? name = none := by
  fun_induction unfolded rest t with
  | case1 => simp at h
  | case2 rest other span hnone =>
    rw [Term.mentions_reference] at h
    subst h
    rw [← hrest.find?, hnone]
  | case3 rest other span t hsome _ ih =>
    exact ih (hrest.value hcs (hrest.find? ▸ hsome)) h
  | case4 rest items span ih =>
    obtain ⟨u, hu, hmentions⟩ := Term.mentions_array.1 h
    obtain ⟨⟨item, hitem⟩, -, rfl⟩ := List.mem_map.1 hu
    exact ih item hitem (hrest.item hitem) hmentions
  | case5 rest callee arguments span ih =>
    obtain ⟨u, hu, hmentions⟩ := Term.mentions_call.1 h
    obtain ⟨⟨a, ha⟩, -, rfl⟩ := List.mem_map.1 hu
    exact ih a ha (hrest.argument ha) hmentions
  | case6 => simp at h

/-- No name of a constant is left in an unfolded term. -/
theorem find?_eq_none_of_mentions_unfolded (hcs : cs.Acyclic) (h : (cs.unfolded t).Mentions name) :
    cs.find? name = none :=
  find?_eq_none_of_mentions hcs (cs.covers_self t) h

/-! ### What a name directly stands for -/

/-- Not the name of a constant. -/
def Settled (cs : Constants) (t : Term) : Prop :=
  ∀ name span, t = .reference name span → cs.find? name = none

/-- Not the name of a constant that is in turn only the name of a constant. -/
def Direct (cs : Constants) (t : Term) : Prop :=
  cs.Settled (cs.resolve t)

/-- Written as an array, if an array is what it stands for in the end. -/
def ArrayWritten (cs : Constants) (t : Term) : Prop :=
  (cs.unfolded t).isArray = true → t.isArray = true

/-- A name and what it stands for unfold to the same. -/
lemma unfolded_resolve (hcs : cs.Acyclic) (t : Term) :
    cs.unfolded (cs.resolve t) = cs.unfolded t := by
  cases t with
  | reference name span =>
    cases hvalue : cs.find? name with
    | none => simp [resolve, hvalue]
    | some t => rw [resolve, hvalue, Option.getD_some, unfolded_reference hcs hvalue]
  | _ => rfl

/-- Unfolding does not change a literal, and makes none of another settled term. -/
lemma Settled.literal?_unfolded (h : cs.Settled t) : (cs.unfolded t).literal? = t.literal? := by
  cases t with
  | reference name span => rw [unfolded_of_find?_eq_none (h name span rfl)]
  | _ => simp [Term.literal?]

/-- Unfolding does not change the number of items, and makes no array of another settled term. -/
lemma Settled.elements_unfolded (h : cs.Settled t) :
    (cs.unfolded t).elements = t.elements.map cs.unfolded := by
  cases t with
  | reference name span =>
    rw [unfolded_of_find?_eq_none (h name span rfl)]
    rfl
  | _ => simp [Term.elements]

/-- The elements of an unfolded array are the unfolded ones. -/
lemma elements_unfolded_of_isArray (h : t.isArray = true) :
    (cs.unfolded t).elements = t.elements.map cs.unfolded := by
  refine Settled.elements_unfolded ?_
  rintro name span rfl
  exact absurd h (by simp [Term.isArray])

/-- Unfolding makes no array of a term that is written as one if it stands for one. -/
lemma ArrayWritten.isArray_unfolded (h : cs.ArrayWritten t) :
    (cs.unfolded t).isArray = t.isArray := by
  cases harray : t.isArray with
  | true =>
    cases t with
    | array items span => rw [unfolded_array, Term.isArray]
    | _ => simp [Term.isArray] at harray
  | false =>
    rw [← Bool.not_eq_true]
    intro hunfolded
    rw [h hunfolded] at harray
    exact absurd harray (by decide)

/-- The text of a term is that of the literal that it stands for. -/
lemma stringOf?_eq_literal? (cs : Constants) (t : Term) :
    cs.stringOf? t = (cs.resolve t).literal? := by
  cases t with
  | reference name span =>
    rw [stringOf?, string?, resolve]
    cases cs.find? name with
    | none => rfl
    | some t => cases t <;> rfl
  | _ => rfl

/-- The items of a term are those of the array that it stands for. -/
lemma itemsOf_eq_elements (cs : Constants) (t : Term) :
    cs.itemsOf (some t) = (cs.resolve t).elements := by
  rw [itemsOf, Option.map_some]
  cases cs.resolve t <;> rfl

/-! ### Unfolded constants -/

/-- The constants with unfolded values. -/
def unfold (cs : Constants) : Constants :=
  cs.map fun c => { c with value := cs.unfolded c.value }

/-- A name stands for its unfolded term in unfolded constants. -/
@[simp] lemma find?_unfold (cs : Constants) (name : String) :
    cs.unfold.find? name = (cs.find? name).map cs.unfolded := by
  rw [find?, find?, unfold, List.find?_map, Option.map_map, Option.map_map]
  rfl

/-- An unfolded term does not name a constant, so there is nothing to look up. -/
lemma resolve_unfold (hcs : cs.Acyclic) (t : Term) :
    cs.unfold.resolve (cs.unfolded t) = cs.unfolded t := by
  cases hunfolded : cs.unfolded t with
  | reference name span =>
    have hmentions : (cs.unfolded t).Mentions name := hunfolded ▸ .reference span
    simp [resolve, find?_eq_none_of_mentions_unfolded hcs hmentions]
  | _ => rfl

section Direct

variable (hcs : cs.Acyclic)

include hcs

/-- The text of a direct term is that of the unfolded term. -/
lemma Direct.stringOf?_unfold (h : cs.Direct t) :
    cs.unfold.stringOf? (cs.unfolded t) = cs.stringOf? t := by
  rw [stringOf?_eq_literal?, resolve_unfold hcs, ← unfolded_resolve hcs, h.literal?_unfolded,
    stringOf?_eq_literal?]

/-- A direct term and the unfolded term stand for the same call, if for any. -/
lemma Direct.call_cases (h : cs.Direct t) :
    (∃ callee arguments span, cs.resolve t = .call callee arguments span ∧
      cs.unfold.resolve (cs.unfolded t) = .call callee (cs.unfoldedArguments arguments) span) ∨
    (∀ callee arguments span, cs.resolve t ≠ .call callee arguments span) ∧
      ∀ callee arguments span, cs.unfold.resolve (cs.unfolded t) ≠
        .call callee arguments span := by
  rw [resolve_unfold hcs, ← unfolded_resolve hcs]
  cases hresolve : cs.resolve t with
  | call callee arguments span => exact .inl ⟨callee, arguments, span, rfl, unfolded_call ..⟩
  | reference name span =>
    rw [unfolded_of_find?_eq_none (h name span hresolve)]
    exact .inr ⟨nofun, nofun⟩
  | _ => simp

/-- The items of a direct term, unfolded, are those of the unfolded term. -/
lemma Direct.itemsOf_unfold {t? : Option Term} (h : ∀ t, t? = some t → cs.Direct t) :
    cs.unfold.itemsOf (t?.map cs.unfolded) = (cs.itemsOf t?).map cs.unfolded := by
  cases t? with
  | none => rfl
  | some t =>
    rw [Option.map_some, itemsOf_eq_elements, resolve_unfold hcs, ← unfolded_resolve hcs,
      (h t rfl).elements_unfolded, itemsOf_eq_elements]

end Direct

/-- The text that a name directly stands for is that of the unfolded constant. -/
lemma Direct.string?_unfold (h : cs.Direct (.reference name span)) :
    cs.unfold.string? name = cs.string? name := by
  have hstring : ∀ cs : Constants, cs.string? name = (cs.find? name).bind Term.literal? := by
    intro cs
    rw [string?]
    cases cs.find? name with
    | none => rfl
    | some t => cases t <;> rfl
  rw [hstring, hstring, find?_unfold]
  cases hvalue : cs.find? name with
  | none => rfl
  | some t =>
    rw [Direct, resolve, hvalue] at h
    exact h.literal?_unfolded

/-- An array of the right element type has its elements for its items, and nothing else
has items. -/
lemma typedItems?_eq (elementType : String) (c : Constant) :
    typedItems? elementType c =
      if c.value.isArray && c.elementType == some elementType then some c.value.elements
      else none := by
  rw [typedItems?]
  cases c.value <;> simp [Term.isArray, Term.elements]

/-- The items of the arrays of an element type, unfolded, are those of the unfolded constants, if
the arrays are written out. -/
lemma itemsOfType?_unfold {elementType : String}
    (h : ∀ c ∈ cs, c.elementType = some elementType → cs.ArrayWritten c.value) :
    cs.unfold.itemsOfType? elementType =
      (cs.itemsOfType? elementType).map (List.map cs.unfolded) := by
  have hitems : ∀ c ∈ cs, typedItems? elementType { c with value := cs.unfolded c.value } =
      (typedItems? elementType c).map (List.map cs.unfolded) := by
    intro c hc
    rw [typedItems?_eq, typedItems?_eq]
    by_cases htype : c.elementType = some elementType
    · rw [(h c hc htype).isArray_unfolded]
      cases harray : c.value.isArray with
      | true => simp [htype, elements_unfolded_of_isArray harray]
      | false => simp
    · simp [htype]
  have harrays : cs.unfold.filterMap (typedItems? elementType) =
      (cs.filterMap (typedItems? elementType)).map (List.map cs.unfolded) := by
    rw [unfold, List.filterMap_map, List.map_filterMap]
    exact List.filterMap_congr hitems
  rw [itemsOfType?, itemsOfType?, harrays]
  cases cs.filterMap (typedItems? elementType) <;> simp

/-! ### Arguments -/

/-- The unfolded argument of a label is found under this label. -/
lemma argument?_unfolded (cs : Constants) (arguments : List (Option String × Term))
    (label : String) :
    Term.argument? (cs.unfoldedArguments arguments) label =
      (Term.argument? arguments label).map cs.unfolded := by
  rw [Term.argument?, Term.argument?, unfoldedArguments, List.find?_map, Option.map_map,
    Option.map_map]
  rfl

/-- The argument with a label, if there is one, is direct. -/
def DirectArgument (cs : Constants) (arguments : List (Option String × Term)) (label : String) :
    Prop :=
  ∀ t, Term.argument? arguments label = some t → cs.Direct t

end Constants

end SwiftDependencies
