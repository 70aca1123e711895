import Mathlib.Data.List.DropRight
import Mathlib.Tactic.Common
import SwiftDependencies.Proofs.Source.Views

/-!
# Terms by offset

The reader of terms that is given two offsets: it trims them, asks which literal starts at the
first, looks up the character there and the bracket that closes it, and reads the extents of the
items in turn.  A bracket is looked for to the end of the text and not to that of the extent.  Each
look-up is checked, and each item and each argument has to be shorter than the extent that it is in,
so that reading ends.

On an extent that holds a fragment this gives the term of the fragment (`termAt?_of`), whatever the
text.
-/

namespace SwiftDependencies.Source

namespace Extent

/-- The length of an extent. -/
def size (e : Extent) : Nat :=
  e.stop - e.start

/-- An extent is as long as the part that it holds. -/
lemma Holds.size {α : Type} {whole part : List α} {e : Extent} (h : e.Holds whole part) :
    e.size = part.length := by
  have := h.stop
  unfold Extent.size
  omega

end Extent

namespace Views

/-- The label of an argument, if it has one, and the extent of its value. -/
def argumentAt? (v : Views) (e : Extent) : Option (Option String × Extent) := do
  let f ← v.fragment? e
  match f.label? with
  | some (label, rest) => some (some label, ⟨e.stop - rest.length, e.stop⟩)
  | none => some (none, e)

/-- The term that an extent writes. -/
def termAt? (v : Views) (e : Extent) : Option Term := do
  let t ← trimAt? v.skeleton e
  if t.start < t.stop then
    let f ← v.fragment? t
    let c ← v.skeleton[t.start]?
    let close ← closingAt? v.skeleton 0 t.start
    let span : Span := ⟨v.lineOf t.start, v.lineOf (t.stop - 1)⟩
    if v.literalStop? t.start = some t.stop then
      match literalValue? f.cleanText with
      | some value => some (.string (String.ofList value) span)
      | none => some (.unknown (String.ofList f.cleanText) span)
    else if c = '[' ∧ close = some (t.stop - 1) then
      let items ← itemsAt? v.skeleton ⟨t.start + 1, t.stop - 1⟩
      let terms ← items.mapM fun item =>
        if item.size < e.size then termAt? v item else none
      some (.array terms span)
    else if f.identifierLength = f.length then some (.reference (String.ofList f.chars) span)
    else
      match f.calleeLength? with
      | none => some (.unknown (String.ofList f.cleanText) span)
      | some n =>
        let close ← closingAt? v.skeleton 0 (t.start + (n - 1))
        if close = some (t.stop - 1) then
          let items ← itemsAt? v.skeleton ⟨t.start + n, t.stop - 1⟩
          let arguments ← items.mapM fun item => do
            let (label, value) ← v.argumentAt? item
            if value.size < e.size then (termAt? v value).map (label, ·) else none
          some (.call (Term.lastPart (String.ofList (f.chars.take (n - 1)))) arguments span)
        else some (.unknown (String.ofList f.cleanText) span)
  else some (.unknown "" ⟨0, 0⟩)
termination_by e.size

end Views

/-! ### What is held inside brackets -/

section Inside

variable {gs f rest : Fragment} {g : Glyph} {i j n : Nat}

/-- The last offset of an extent is that of the last glyph that it holds. -/
lemma getElem?_last (h : Extent.Holds ⟨i, j⟩ gs (g :: rest)) :
    gs[j - 1]? = some (rest.getLastD g) := by
  induction rest generalizing i g with
  | nil =>
    obtain rfl := h.stop_eq
    exact (Extent.Holds.cons_iff.1 h).1
  | cons e rest ih =>
    rw [ih (Extent.Holds.cons_iff.1 h).2, List.getLastD_cons]

/-- What is held inside a bracket and the last character. -/
lemma holds_inside (h : Extent.Holds ⟨i, j⟩ gs f) (hn : n < f.length) :
    Extent.Holds ⟨i + n, j - 1⟩ gs (f.inside n) := by
  have hj := h.stop_eq
  have hdrop : Extent.Holds ⟨i + n, j⟩ gs (f.drop n) := by
    have := h.suffix (List.drop_suffix n f)
    rw [List.length_drop, show j - (f.length - n) = i + n by omega] at this
    exact this
  have hne : f.drop n ≠ [] := by
    rw [Ne, List.drop_eq_nil_iff]
    omega
  rw [← List.dropLast_concat_getLast hne] at hdrop
  have hleft := hdrop.left
  rw [List.length_dropLast, List.length_drop, show i + n + (f.length - n - 1) =
    j - 1 by omega] at hleft
  exact hleft

/-- The closing bracket of what an extent holds is at its end if the search ends there. -/
lemma exists_closingAt? (h : Extent.Holds ⟨i, j⟩ gs (g :: rest)) :
    ∃ close, closingAt? gs.chars 0 i = some close ∧
      (close = some (j - 1) ↔ closing? (Fragment.chars (g :: rest)) = some rest.length) := by
  have hj := h.stop_eq
  rw [List.length_cons] at hj
  refine ⟨_, closingAt?_eq _ _ _, ?_⟩
  rw [closing?, ← closingAt?_eq_some_iff h (Nat.lt_succ_self rest.length), closingAt?_eq,
    Option.some.injEq, show j - 1 = i + rest.length by omega]

/-- No character that opens a bracket closes it. -/
lemma pos_of_closing? (hg : isOpener g.skeleton = true)
    (h : closing? (Fragment.chars (g :: rest)) = some n) : 0 < n := by
  rw [closing?, Fragment.chars, List.map_cons, closingFrom?_opener hg] at h
  obtain ⟨m, -, rfl⟩ := Option.map_eq_some_iff.1 h
  exact Nat.succ_pos m

/-- A callee ends with an opening parenthesis. -/
lemma exists_of_calleeLength? (h : f.calleeLength? = some n) :
    ∃ o rest, f.drop (n - 1) = o :: rest ∧ o.skeleton = '(' ∧
      n - 1 + (rest.length + 1) = f.length ∧ 1 ≤ n := by
  unfold Fragment.calleeLength? at h
  extract_lets dot name word rest at h
  by_cases hname : (!(Fragment.first? name).any Text.isNameStart) = true
  · simp [hname] at h
  rw [if_neg hname] at h
  by_cases hopen : (rest.first? == some '(') = true
  · rw [if_pos hopen] at h
    obtain rfl := Option.some.inj h
    have hsuffix : rest <:+ f :=
      (List.dropWhile_suffix _).trans ((List.dropWhile_suffix _).trans (List.drop_suffix _ _))
    obtain ⟨before, hbefore⟩ := hsuffix
    cases hrest : rest with
    | nil => simp [hrest, Fragment.first?] at hopen
    | cons o tail =>
      rw [hrest] at hbefore hopen
      have hlength : f.length = before.length + (o :: tail).length := by
        rw [← hbefore, List.length_append]
      have hdrop : f.length - (o :: tail).length + 1 - 1 = before.length := by omega
      refine ⟨o, tail, ?_, by simpa [Fragment.first?] using hopen, ?_, Nat.le_add_left 1 _⟩
      · rw [hdrop, ← hbefore, List.drop_left]
      · rw [hdrop, hlength, List.length_cons]
  · simp [hopen] at h

/-- Behind the name of a callee, an extent holds an opening parenthesis and what follows it. They
reach the end of the extent together, or neither does. -/
lemma exists_parenthesis (h : Extent.Holds ⟨i, j⟩ gs f) (hcallee : f.calleeLength? = some n) :
    ∃ close, closingAt? gs.chars 0 (i + (n - 1)) = some close ∧
      (close = some (j - 1) ↔ closing? (f.chars.drop (n - 1)) = some (f.length - n)) ∧
      (closing? (f.chars.drop (n - 1)) = some (f.length - n) → n < f.length) := by
  obtain ⟨o, tail, hdrop, ho, hlength, hpos⟩ := exists_of_calleeLength? hcallee
  have hopen : Extent.Holds ⟨i + (n - 1), j⟩ gs (o :: tail) := by
    have hstart : j - (o :: tail).length = i + (n - 1) := by
      rw [h.stop_eq, ← hlength, List.length_cons]
      omega
    rw [← hstart, ← hdrop]
    exact h.suffix (List.drop_suffix (n - 1) f)
  have hchars : f.chars.drop (n - 1) = Fragment.chars (o :: tail) := by
    rw [Fragment.chars, ← List.map_drop, hdrop, Fragment.chars]
  have htail : f.length - n = tail.length := by omega
  obtain ⟨close, hclose, hend⟩ := exists_closingAt? hopen
  rw [hchars, htail]
  refine ⟨close, hclose, hend, fun hcall => ?_⟩
  have := pos_of_closing? (by rw [ho]; decide) hcall
  omega

/-- What is found for each extent is found for all. -/
lemma mapM_of_forall₂ {α β γ : Type} {r : α → β → Prop} {F : α → Option γ}
    {G : β → γ} {as : List α} {bs : List β} (h : List.Forall₂ r as bs)
    (hF : ∀ a b, b ∈ bs → r a b → F a = some (G b)) :
    as.mapM F = some (bs.map G) := by
  induction h with
  | nil => rfl
  | @cons a b as bs hab _ ih =>
    rw [List.mapM_cons, hF a b List.mem_cons_self hab,
      ih fun a b hb => hF a b (List.mem_cons_of_mem _ hb)]
    rfl

end Inside

/-! ### Terms -/

namespace Fragment

/-- What is trimmed once is trimmed. -/
lemma trimmed_trimmed (f : Fragment) : f.trimmed.trimmed = f.trimmed := by
  have hend : ∀ l : Fragment, Text.dropEnd Glyph.isBlank l = l.rdropWhile Glyph.isBlank :=
    fun _ => rfl
  have hstart : f.trimmed.dropWhile Glyph.isBlank = f.trimmed := by
    rw [List.dropWhile_eq_self_iff]
    intro hpos
    have hstarts : f.trimmed <+: f.dropWhile Glyph.isBlank := List.rdropWhile_prefix _ _
    have hlong := Nat.lt_of_lt_of_le hpos hstarts.length_le
    rw [hstarts.getElem hpos]
    exact List.dropWhile_eq_self_iff.1 (List.dropWhile_idempotent _ f) hlong
  rw [trimmed, Text.dropMargins, Text.dropStart, hstart, hend, trimmed, Text.dropMargins, hend,
    List.rdropWhile_idempotent]

/-- Blanks around a fragment do not change its term. -/
lemma term_trimmed (f : Fragment) : f.trimmed.term = f.term := by
  rw [term_eq, trimmed_trimmed, ← term_eq]

end Fragment

namespace Views

variable {cs : List Char} {gs f rest : Fragment} {g : Glyph} {e : Extent} {i j n : Nat}

/-- The lines of what an extent holds. -/
lemma span_of (h : Extent.Holds ⟨i, j⟩ (glyphs cs) (g :: rest)) :
    (⟨(of cs).lineOf i, (of cs).lineOf (j - 1)⟩ : Span) = Fragment.span g rest := by
  have hfirst := (known_of_getElem? (Extent.Holds.cons_iff.1 h).1).1
  have hlast := (known_of_getElem? (getElem?_last h)).1
  rw [Fragment.span, hfirst, hlast]

/-- The argument of what an extent holds is held by the extent of its value. -/
lemma exists_argumentAt? {piece : Fragment} (h : e.Holds (glyphs cs) piece.trimmed) :
    ∃ value, (of cs).argumentAt? e = some (piece.argument.1, value) ∧
      ∃ f : Fragment, value.Holds (glyphs cs) f ∧ f.length ≤ piece.length ∧
        f.term = piece.argument.2.term := by
  have hlength := piece.length_trimmed_le
  rw [argumentAt?, fragment?_of h, Fragment.argument, Option.bind_eq_bind, Option.bind_some]
  cases hlabel : piece.trimmed.label? with
  | none => exact ⟨e, rfl, piece.trimmed, h, hlength, Fragment.term_trimmed piece⟩
  | some x =>
    obtain ⟨label, value⟩ := x
    have hsuffix : value <:+ piece.trimmed := by
      simp only [Fragment.label?] at hlabel
      split at hlabel
      · obtain ⟨-, rfl⟩ := Prod.mk.inj (Option.some.inj hlabel)
        exact (List.drop_suffix _ _).trans ((List.dropWhile_suffix _).trans (List.drop_suffix _ _))
      · simp at hlabel
    exact ⟨_, rfl, value, h.suffix hsuffix, Nat.le_trans hsuffix.length_le hlength, rfl⟩

/-- Fragments below a length are read as their terms. -/
def ReadsBelow (cs : List Char) (limit : Nat) : Prop :=
  ∀ (e : Extent) (f : Fragment), e.Holds (glyphs cs) f → f.length < limit →
    (of cs).termAt? e = some f.term

section Inside

variable {limit : Nat} (hread : ReadsBelow cs limit) (h : Extent.Holds ⟨i, j⟩ (glyphs cs) f)
  (hn : n < f.length) (hlimit : f.length ≤ limit)

include hread h hn hlimit

/-- The items inside brackets are shorter than what is held, and are read as their terms. -/
lemma exists_terms :
    ∃ items, itemsAt? (Fragment.chars (glyphs cs)) ⟨i + n, j - 1⟩ = some items ∧
      (items.mapM fun item => if item.size < limit then (of cs).termAt? item else none) =
        some ((f.inside n).items.map Fragment.term) := by
  obtain ⟨items, hitems, heach⟩ := exists_itemsAt? (holds_inside h hn)
  refine ⟨items, hitems, mapM_of_forall₂ heach ?_⟩
  intro item piece hpiece hvalue
  have hlt : piece.trimmed.length < limit := by
    have hne : f ≠ [] := List.length_pos_iff.1 (Nat.zero_lt_of_lt hn)
    calc
      piece.trimmed.length ≤ piece.length := piece.length_trimmed_le
      _ ≤ (f.inside n).length := Fragment.length_le_of_mem_items hpiece
      _ < f.length := Fragment.length_inside_lt n hne
      _ ≤ limit := hlimit
  rw [if_pos (by rwa [hvalue.size]), hread item _ hvalue hlt, Fragment.term_trimmed]

/-- The arguments inside brackets are shorter than what is held, and their values are read as their
terms. -/
lemma exists_arguments :
    ∃ items, itemsAt? (Fragment.chars (glyphs cs)) ⟨i + n, j - 1⟩ = some items ∧
      (items.mapM fun item => ((of cs).argumentAt? item).bind fun x =>
        if x.2.size < limit then ((of cs).termAt? x.2).map (x.1, ·) else none) =
        some ((f.inside n).items.map fun item => (item.argument.1, item.argument.2.term)) := by
  obtain ⟨items, hitems, heach⟩ := exists_itemsAt? (holds_inside h hn)
  refine ⟨items, hitems, mapM_of_forall₂ heach ?_⟩
  intro item piece hpiece hvalue
  obtain ⟨value, hargument, part, hpart, hle, hsame⟩ := exists_argumentAt? hvalue
  have hlt : part.length < limit := by
    have hne : f ≠ [] := List.length_pos_iff.1 (Nat.zero_lt_of_lt hn)
    calc
      part.length ≤ piece.length := hle
      _ ≤ (f.inside n).length := Fragment.length_le_of_mem_items hpiece
      _ < f.length := Fragment.length_inside_lt n hne
      _ ≤ limit := hlimit
  rw [hargument, Option.bind_some, if_pos (by rwa [hpart.size]), hread value part hpart hlt, hsame,
    Option.map_some]

end Inside

/-- On an extent that holds a fragment, the reader by offsets gives the term of the fragment. -/
theorem termAt?_of (h : e.Holds (glyphs cs) f) : (of cs).termAt? e = some f.term := by
  induction hn : f.length using Nat.strongRecOn generalizing e f with
  | ind n ih =>
  subst hn
  have hread : ReadsBelow cs e.size := by
    intro value part hvalue hlt
    rw [h.size] at hlt
    exact ih part.length hlt hvalue rfl
  obtain ⟨t, ht, hholds⟩ := exists_trimAt? h
  rw [termAt?, skeleton_of, ht, Option.bind_eq_bind, Option.bind_some, Fragment.term_eq]
  have hlimit : f.trimmed.length ≤ e.size := by
    rw [h.size]
    exact f.length_trimmed_le
  generalize f.trimmed = solid at hholds hlimit ⊢
  cases solid with
  | nil =>
    rw [if_neg (by rw [hholds.lt_iff]; simp)]
    rfl
  | cons g rest =>
    have hg := (Extent.Holds.cons_iff.1 hholds).1
    obtain ⟨close, hclose, hend⟩ := exists_closingAt? hholds
    rw [if_pos (hholds.lt_iff.2 (List.cons_ne_nil g rest)), fragment?_of hholds, getElem?_chars hg,
      hclose, Fragment.termOf]
    simp only [Option.bind_eq_bind, Option.bind_some, span_of hholds, literalStop?_of hholds, hend]
    by_cases hliteral : g.literalLength = (g :: rest).length
    · rw [if_pos hliteral, if_pos hliteral]
      cases literalValue? (Fragment.cleanText (g :: rest)) <;> rfl
    rw [if_neg hliteral, if_neg hliteral]
    by_cases harray : g.skeleton = '[' ∧ closing? (Fragment.chars (g :: rest)) = some rest.length
    · have hone : 1 < (g :: rest).length :=
        Nat.succ_lt_succ (pos_of_closing? (by rw [harray.1]; decide) harray.2)
      obtain ⟨items, hitems, hterms⟩ := exists_terms hread hholds hone hlimit
      rw [if_pos harray, if_pos harray, hitems, Option.bind_some, hterms, Option.bind_some]
    rw [if_neg harray, if_neg harray]
    by_cases hname : Fragment.identifierLength (g :: rest) = (g :: rest).length
    · rw [if_pos hname, if_pos hname]
    rw [if_neg hname, if_neg hname]
    cases hcallee : Fragment.calleeLength? (g :: rest) with
    | none => rfl
    | some m =>
      obtain ⟨close, hclose, hend, hlt⟩ := exists_parenthesis hholds hcallee
      simp only [hclose, Option.bind_some, hend]
      by_cases hcall : closing? ((Fragment.chars (g :: rest)).drop (m - 1)) =
        some ((g :: rest).length - m)
      · obtain ⟨items, hitems, harguments⟩ := exists_arguments hread hholds (hlt hcall) hlimit
        rw [if_pos hcall, if_pos hcall, hitems, Option.bind_some, harguments, Option.bind_some]
      · rw [if_neg hcall, if_neg hcall]

end Views

end SwiftDependencies.Source
