import Mathlib.Data.List.TakeWhile
import Mathlib.Tactic.Common
import SwiftDependencies.Text.Blank

/-!
# Margins

What `dropMargins` leaves of a sequence stands between margins (`exists_margins`) and has none
itself (`not_of_mem_head?_dropMargins`, `not_of_mem_getLast?_dropMargins`).  So an element that is
no margin is kept (`mem_dropMargins`), and more margins around a sequence change nothing.  For the
margin at the end alone this is said in one piece (`dropEnd_eq_iff`).
-/

namespace SwiftDependencies.Text

variable {α β : Type} {p : α → Bool} {l m r : List α}

/-- What is dropped at the end of a sequence, after what is left. -/
lemma dropEnd_append_takeWhile (p : α → Bool) (l : List α) :
    dropEnd p l ++ (l.reverse.takeWhile p).reverse = l := by
  rw [dropEnd, ← List.reverse_append, List.takeWhile_append_dropWhile, List.reverse_reverse]

/-- What is accepted at the end of a sequence is dropped with the rest of the end. -/
lemma dropEnd_append_right (hr : ∀ x ∈ r, p x = true) (l : List α) :
    dropEnd p (l ++ r) = dropEnd p l := by
  rw [dropEnd, List.reverse_append,
    List.dropWhile_append_of_pos fun x hx => hr x (List.mem_reverse.1 hx), dropEnd]

/-- What is left after dropping begins with something that is not dropped. -/
lemma not_of_mem_head?_dropWhile : ∀ x ∈ (l.dropWhile p).head?, p x = false := by
  intro x hx
  have h := List.head?_dropWhile_not p l
  rwa [Option.mem_def.1 hx] at h

/-- What is left ends with something that is not dropped. -/
lemma not_of_mem_getLast?_dropEnd : ∀ x ∈ (dropEnd p l).getLast?, p x = false := by
  rw [dropEnd, List.getLast?_reverse]
  exact not_of_mem_head?_dropWhile

/-- A sequence that ends with something that is not dropped stays as it is. -/
lemma dropEnd_of_getLast? (h : ∀ x ∈ l.getLast?, p x = false) : dropEnd p l = l := by
  rcases List.eq_nil_or_concat l with rfl | ⟨front, x, rfl⟩
  · rfl
  · have hx : p x = false := h x (by simp)
    rw [dropEnd, List.concat_eq_append, List.reverse_append, List.reverse_singleton,
      List.singleton_append, List.dropWhile_cons_of_neg (by simp [hx]), List.reverse_cons,
      List.reverse_reverse]

/-- What is left is the part up to the last element that is not dropped. -/
lemma dropEnd_eq_iff :
    dropEnd p l = m ↔ (∀ x ∈ m.getLast?, p x = false) ∧
      ∃ b, (∀ x ∈ b, p x = true) ∧ l = m ++ b := by
  constructor
  · rintro rfl
    refine ⟨not_of_mem_getLast?_dropEnd, (l.reverse.takeWhile p).reverse, fun x hx => ?_, ?_⟩
    · exact List.all_eq_true.1 List.all_takeWhile x (List.mem_reverse.1 hx)
    · exact (dropEnd_append_takeWhile p l).symm
  · rintro ⟨hm, b, hb, rfl⟩
    rw [dropEnd_append_right hb, dropEnd_of_getLast? hm]

/-- A sequence is what `dropMargins` leaves of it, between margins. -/
lemma exists_margins (p : α → Bool) (l : List α) :
    ∃ a b, (∀ x ∈ a, p x = true) ∧ (∀ x ∈ b, p x = true) ∧
      l = a ++ dropMargins p l ++ b := by
  refine ⟨l.takeWhile p, ((dropStart p l).reverse.takeWhile p).reverse, ?_, ?_, ?_⟩
  · exact List.all_eq_true.1 List.all_takeWhile
  · intro x hx
    exact List.all_eq_true.1 List.all_takeWhile x (List.mem_reverse.1 hx)
  · rw [List.append_assoc, dropMargins, dropEnd_append_takeWhile, dropStart,
      List.takeWhile_append_dropWhile]

/-- What `p` accepts at the start of a sequence is margin. -/
lemma dropMargins_append_left (hl : ∀ x ∈ l, p x = true) (m : List α) :
    dropMargins p (l ++ m) = dropMargins p m := by
  rw [dropMargins, dropStart, List.dropWhile_append_of_pos hl, dropMargins, dropStart]

/-- What `p` accepts at the end of a sequence is margin. -/
lemma dropMargins_append_right (hr : ∀ x ∈ r, p x = true) (l : List α) :
    dropMargins p (l ++ r) = dropMargins p l := by
  rw [dropMargins, dropStart, List.dropWhile_append]
  split
  · rename_i hl
    rw [List.dropWhile_eq_nil_iff.2 hr, dropMargins, dropStart, List.isEmpty_iff.1 hl]
  · exact dropEnd_append_right hr _

/-- The margins of a sequence are what `p` accepts around its solid part. -/
lemma dropMargins_append (hl : ∀ x ∈ l, p x = true) (hfirst : ∃ x ∈ m.head?, p x = false)
    (hlast : ∃ x ∈ m.getLast?, p x = false) (hr : ∀ x ∈ r, p x = true) :
    dropMargins p (l ++ m ++ r) = m := by
  obtain ⟨x, hx, hxp⟩ := hfirst
  obtain ⟨y, hy, hyp⟩ := hlast
  have hend : dropEnd p m = m := by
    refine dropEnd_of_getLast? fun z hz => ?_
    obtain rfl := Option.mem_unique hz hy
    exact hyp
  obtain ⟨tail, rfl⟩ := List.head?_eq_some_iff.1 hx
  have hstart : dropStart p (x :: tail) = x :: tail := List.dropWhile_cons_of_neg (by simp [hxp])
  rw [dropMargins_append_right hr, dropMargins_append_left hl, dropMargins, hstart, hend]

/-- A sequence without its margins is empty if all of it is margin. -/
lemma dropMargins_eq_nil_iff : dropMargins p l = [] ↔ ∀ x ∈ l, p x = true := by
  constructor
  · intro h
    obtain ⟨a, b, ha, hb, hl⟩ := exists_margins p l
    rw [h, List.append_nil] at hl
    intro x hx
    rw [hl] at hx
    exact (List.mem_append.1 hx).elim (ha x) (hb x)
  · intro h
    exact dropMargins_append_right h []

/-- What is not margin is kept. -/
lemma mem_dropMargins {x : α} (hx : x ∈ l) (h : p x = false) : x ∈ dropMargins p l := by
  obtain ⟨a, b, ha, hb, hl⟩ := exists_margins p l
  rw [hl, List.mem_append, List.mem_append] at hx
  rcases hx with (hx | hx) | hx
  · simp [ha x hx] at h
  · exact hx
  · simp [hb x hx] at h

/-- What is left between the margins ends with something that is no margin. -/
lemma not_of_mem_getLast?_dropMargins : ∀ x ∈ (dropMargins p l).getLast?, p x = false :=
  not_of_mem_getLast?_dropEnd

/-- What is left between the margins begins with something that is no margin. -/
lemma not_of_mem_head?_dropMargins : ∀ x ∈ (dropMargins p l).head?, p x = false := by
  intro x hx
  obtain ⟨tail, htail⟩ := List.head?_eq_some_iff.1 hx
  have hstart : l.dropWhile p = x :: (tail ++ ((dropStart p l).reverse.takeWhile p).reverse) := by
    rw [← List.cons_append, ← htail, dropMargins, dropEnd_append_takeWhile, dropStart]
  exact not_of_mem_head?_dropWhile x (by rw [hstart]; rfl)

/-- To drop the margins of what a function gives is to drop them by what it gives. -/
lemma dropMargins_map (f : β → α) (l : List β) :
    dropMargins p (l.map f) = (dropMargins (p ∘ f) l).map f := by
  simp only [dropMargins, dropEnd, dropStart, List.dropWhile_map, ← List.map_reverse]

end SwiftDependencies.Text
