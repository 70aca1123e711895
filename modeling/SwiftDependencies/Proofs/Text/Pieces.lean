import Mathlib.Tactic.Common
import SwiftDependencies.Text.Pieces

/-!
# What a text ends in

Names are read off the end of a text: the last part of a dotted name, of a path, of an address.
This end is found by cutting the whole text at every separator and keeping the last piece.  Here it is
said without the other pieces: it is the part without separators that begins the text or follows one
(`lastPiece_eq_iff`), and there is exactly one such part.
-/

namespace SwiftDependencies.Text

variable {α : Type} {p : α → Bool} {l part : List α} {a : α}

/-- The pieces of two sequences with a separator between them are the pieces of both. -/
lemma pieces_append (ha : p a = true) (l r : List α) :
    pieces p (l ++ a :: r) = pieces p l ++ pieces p r := by
  induction l with
  | nil => simp [pieces, ha]
  | cons b l ih =>
    rw [List.cons_append, pieces, pieces, ih]
    split
    · rfl
    · cases hl : pieces p l with
      | nil => exact absurd hl (pieces_ne_nil p l)
      | cons piece rest => rfl

/-- A sequence without separators is its only piece. -/
lemma pieces_of_forall (h : ∀ a ∈ l, p a = false) : pieces p l = [l] := by
  induction l with
  | nil => rfl
  | cons b l ih =>
    rw [pieces, h b List.mem_cons_self, ih fun a ha => h a (List.mem_cons_of_mem _ ha)]
    rfl

/-- A sequence ends in a part without separators, before which there is nothing or a separator. -/
def EndsIn (p : α → Bool) (l part : List α) : Prop :=
  (∀ a ∈ part, p a = false) ∧
    (l = part ∨ ∃ before a, p a = true ∧ l = before ++ a :: part)

/-- More in front of a separator does not change the end. -/
lemma EndsIn.append (h : EndsIn p l part) (ha : p a = true) (before : List α) :
    EndsIn p (before ++ a :: l) part := by
  obtain ⟨hpart, rfl | ⟨start, b, hb, rfl⟩⟩ := h
  · exact ⟨hpart, .inr ⟨before, a, ha, rfl⟩⟩
  · exact ⟨hpart, .inr ⟨before ++ a :: start, b, hb, by simp⟩⟩

/-- Every sequence ends in some part. -/
lemma exists_endsIn (p : α → Bool) (l : List α) : ∃ part, EndsIn p l part := by
  induction l with
  | nil => exact ⟨[], by simp, .inl rfl⟩
  | cons b l ih =>
    obtain ⟨part, hpart, rfl | ⟨before, a, ha, rfl⟩⟩ := ih
    · cases hb : p b with
      | true => exact ⟨l, hpart, .inr ⟨[], b, hb, rfl⟩⟩
      | false =>
        refine ⟨b :: l, fun a ha => ?_, .inl rfl⟩
        rcases List.mem_cons.1 ha with rfl | ha
        · exact hb
        · exact hpart a ha
    · exact ⟨part, hpart, .inr ⟨b :: before, a, ha, rfl⟩⟩

/-- The part that a sequence ends in is its last piece. -/
lemma EndsIn.getLast?_pieces (h : EndsIn p l part) : (pieces p l).getLast? = some part := by
  obtain ⟨hpart, rfl | ⟨before, a, ha, rfl⟩⟩ := h
  · rw [pieces_of_forall hpart]
    rfl
  · rw [pieces_append ha, pieces_of_forall hpart]
    simp

/-- The last piece of a text is the part that it ends in. -/
lemma lastPiece_eq_iff {p : Char → Bool} {s part : String} :
    lastPiece p s = part ↔ EndsIn p s.toList part.toList := by
  have hlast : ∀ {cs}, EndsIn p s.toList cs → lastPiece p s = String.ofList cs := fun h => by
    rw [lastPiece, piecesOf, List.getLastD_eq_getLast?, List.getLast?_map, h.getLast?_pieces]
    rfl
  constructor
  · rintro rfl
    obtain ⟨cs, h⟩ := exists_endsIn p s.toList
    rwa [hlast h, String.toList_ofList]
  · intro h
    rw [hlast h, String.ofList_toList]

end SwiftDependencies.Text
