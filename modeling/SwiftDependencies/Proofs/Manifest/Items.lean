import Mathlib.Tactic.Common
import SwiftDependencies.Proofs.Manifest.Arguments

/-!
# The items of a balanced fragment

A balanced fragment is one item, or an item, a comma and another balanced fragment.
`items_induction` is the induction on that, so that a proof about a row of items need not look for
the commas.  An item that begins with a label is the label, a colon and a value, with blanks between
them (`exists_of_argument`).
-/

namespace SwiftDependencies.Source.Fragment

open Text (isWord)

variable {f : Fragment}

/-! ### Items -/

/-- A balanced fragment is one item, or an item, a comma, and a balanced fragment. -/
theorem items_induction {motive : Fragment → Prop}
    (last : ∀ f, Balanced (· ≠ ',') f.chars → motive f)
    (more : ∀ f comma rest, Balanced (· ≠ ',') f.chars →
      comma.skeleton = ',' → motive rest →
      motive (f ++ comma :: rest)) :
    ∀ f : Fragment, Balanced (fun _ => True) f.chars → motive f := by
  intro f hf
  induction hlength : f.length using Nat.strongRecOn generalizing f with
  | ind length ih =>
  subst hlength
  rcases hf.exists_split ',' with hall | ⟨before, after, hsplit, hbefore, hafter⟩
  · exact last f (hall.mono fun _ h => h.2)
  · obtain ⟨item, tail, rfl, rfl, htail⟩ := List.map_eq_append_iff.1 hsplit
    obtain ⟨comma, rest, rfl, hcomma, rfl⟩ := List.map_eq_cons_iff.1 htail
    refine more item comma rest (hbefore.mono fun _ h => h.2) hcomma (ih _ ?_ rest hafter rfl)
    simp only [List.length_append, List.length_cons]
    omega

/-- What is in an item is in the fragment. -/
lemma subset_of_mem_items {item : Fragment} (h : item ∈ f.items) : item ⊆ f :=
  (infix_of_mem_piecesFrom (List.mem_filter.1 h).1).subset

/-- An item of a balanced fragment is balanced. -/
lemma balanced_of_mem_items {item : Fragment} (hf : Balanced (fun _ => True) f.chars)
    (h : item ∈ f.items) : Balanced (fun _ => True) item.chars := by
  have hitem (f : Fragment) (hf : Balanced (· ≠ ',') f.chars) (h : item ∈ itemOf f) :
      Balanced (fun _ => True) item.chars := by
    rw [itemOf] at h
    split at h
    · simp at h
    · obtain rfl := List.mem_singleton.1 h
      exact hf.mono fun _ _ => trivial
  revert h
  refine items_induction (motive := fun f => item ∈ f.items →
    Balanced (fun _ => True) item.chars)
    ?_ ?_ f hf
  · intro f hf h
    rw [items_of_balanced hf fun _ h => h] at h
    exact hitem f hf h
  · intro f comma rest hf hcomma ih h
    rw [items_append_comma hf (fun _ h => h) hcomma] at h
    exact (List.mem_append.1 h).elim (hitem f hf) ih

/-! ### Arguments -/

/-- An argument with a label is the label, a colon and the value, with blanks between them. -/
lemma exists_of_argument {l : String} (h : f.argument.1 = some l) :
    ∃ (before name gap : Fragment) (colon : Glyph) (after : Fragment),
      f = before ++ (name ++ gap ++ colon :: (f.argument.2 ++ after)) ∧ AllBlank before ∧
        l = String.ofList name.chars ∧ name ≠ [] ∧ (∀ c ∈ name.chars, isWord c = true) ∧
        AllBlank gap ∧ colon.skeleton = ':' ∧ Avoids ':' f.argument.2 ∧ AllBlank after := by
  obtain ⟨before, after, hbefore, hafter, hf⟩ := Text.exists_margins Glyph.isBlank f
  cases hlabel : label? f.trimmed with
  | none => simp [argument, hlabel] at h
  | some found =>
    obtain ⟨l', v⟩ := found
    have hargument : f.argument = (some l', v) := by simp [argument, hlabel]
    obtain rfl : l' = l := by
      rw [hargument] at h
      exact Option.some.inj h
    obtain ⟨name, gap, colon, htrimmed, hl, hne, hword, hgap, hcolon, hv⟩ :=
      exists_of_label? hlabel
    refine ⟨before, name, gap, colon, after, ?_, allBlank_of_forall hbefore, hl, hne,
      hword, hgap, hcolon, ?_, allBlank_of_forall hafter⟩
    · conv => lhs; rw [hf]
      rw [show Text.dropMargins Glyph.isBlank f = f.trimmed from rfl, htrimmed, hargument]
      simp
    · rw [hargument]
      exact hv

/-- What is in the value of an argument is in the argument. -/
lemma argument_subset (f : Fragment) : f.argument.2 ⊆ f := by
  cases h : f.argument.1 with
  | none =>
    unfold argument at h ⊢
    split at h
    · simp at h
    · exact List.Subset.refl _
  | some l =>
    obtain ⟨before, name, gap, colon, after, hf, -⟩ := exists_of_argument h
    intro g hg
    rw [hf]
    simp [hg]

/-- The value of an argument is balanced if the argument is. -/
lemma balanced_argument {p : Char → Prop} {l : String} (h : f.argument.1 = some l)
    (hf : Balanced p f.chars) : Balanced p f.argument.2.chars := by
  obtain ⟨before, name, gap, colon, after, heq, hbefore, -, -, hname, hgap,
      hcolon, -, hafter⟩ :=
    exists_of_argument h
  have hsplit : f.chars = (before.chars ++ name.chars ++ gap.chars ++ [':']) ++
      (f.argument.2.chars ++ after.chars) := by
    conv => lhs; rw [heq]
    simp [chars, hcolon]
  have hblank (a : Fragment) (ha : AllBlank a) : ∀ c ∈ a.chars, isOpener c = false ∧
      isCloser c = false :=
    fun c hc => (ha.signs c hc).2
  rw [hsplit] at hf
  refine (hf.of_append_left ?_).of_append_right (hblank after hafter)
  intro c hc
  simp only [List.mem_append, List.mem_singleton] at hc
  rcases hc with ((hc | hc) | hc) | rfl
  · exact hblank before hbefore c hc
  · have hjoin := joinsName_of_isWord (hname c hc)
    exact ⟨isOpener_of_joinsName hjoin, isCloser_of_joinsName hjoin⟩
  · exact hblank gap hgap c hc
  · exact ⟨rfl, rfl⟩

end SwiftDependencies.Source.Fragment
