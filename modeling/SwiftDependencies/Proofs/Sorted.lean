import Mathlib.Data.List.Nodup
import Mathlib.Data.List.Perm.Basic
import Mathlib.Tactic.Common
import SwiftDependencies.Sorted

/-!
# What sorting leaves open

To sort by a key leaves open nothing but the order of elements with the same key.  So the result
depends on the order in which the elements are given only if two of them have the same key
(`sortedBy_eq_of_perm`), and a search through a sorted list finds the least element that passes the
test (`find?_sortedBy_eq_some_iff`).
-/

namespace SwiftDependencies

variable {α β : Type} {key : β → String} {l m : List β}

/-- To sort what a function gives is to sort by the key of what it gives. -/
lemma sortedBy_map (f : α → β) (l : List α) :
    sortedBy key (l.map f) = (sortedBy (fun a => key (f a)) l).map f := by
  rw [sortedBy, sortedBy, List.map_mergeSort]
  intros
  rfl

/-- Elements with different keys are in strictly rising order. -/
lemma pairwise_lt_sortedBy (h : (l.map key).Nodup) :
    (sortedBy key l).Pairwise fun a b => key a < key b := by
  have hne : (sortedBy key l).Pairwise fun a b => key a ≠ key b :=
    List.pairwise_map.1 (((perm_sortedBy key l).map key).nodup_iff.2 h)
  exact ((pairwise_sortedBy key l).and hne).imp fun ⟨hle, hne⟩ => Std.lt_of_le_of_ne hle hne

/-- Sorting leaves nothing if there was nothing. -/
lemma isEmpty_sortedBy : (sortedBy key l).isEmpty = l.isEmpty := by
  rw [Bool.eq_iff_iff, List.isEmpty_iff, List.isEmpty_iff, sortedBy_eq_nil_iff]

/-- A list that is in order already stays as it is. -/
lemma sortedBy_eq_self (h : l.Pairwise fun a b => key a ≤ key b) : sortedBy key l = l :=
  List.mergeSort_of_pairwise (h.imp fun hle => decide_eq_true hle)

/-- If no two elements have the same key, it does not matter in which order they are given. -/
lemma sortedBy_eq_of_perm (h : l.Perm m)
    (hkey : ∀ a ∈ l, ∀ b ∈ l, key a = key b → a = b) :
    sortedBy key l = sortedBy key m := by
  have hperm : (sortedBy key l).Perm (sortedBy key m) :=
    (perm_sortedBy key l).trans (h.trans (perm_sortedBy key m).symm)
  refine hperm.eq_of_pairwise ?_ (pairwise_sortedBy key l) (pairwise_sortedBy key m)
  intro a b ha hb hab hba
  exact hkey a (mem_sortedBy.1 ha) b (h.mem_iff.2 (mem_sortedBy.1 hb)) (String.le_antisymm hab hba)

section Search

variable {names : List String} {test : String → Bool} {n other : String}

/-- The first name in order that passes a test comes before all others that do. -/
lemma le_of_find?_sortedBy (h : (sortedBy id names).find? test = some n) (hother : other ∈ names)
    (htest : test other = true) : n ≤ other := by
  obtain ⟨-, before, after, hsplit, hbefore⟩ := List.find?_eq_some_iff_append.1 h
  have hrising := pairwise_sortedBy id names
  rw [hsplit, List.pairwise_append, List.pairwise_cons] at hrising
  have hmem : other ∈ sortedBy id names := mem_sortedBy.2 hother
  rw [hsplit, List.mem_append, List.mem_cons] at hmem
  rcases hmem with hmem | rfl | hmem
  · have hnot := hbefore other hmem
    rw [htest] at hnot
    exact absurd hnot Bool.false_ne_true
  · exact String.le_refl _
  · exact hrising.2.1.1 other hmem

/-- The first name in order that passes a test is the least one that does. -/
lemma find?_sortedBy_eq_some_iff :
    (sortedBy id names).find? test = some n ↔
      n ∈ names ∧ test n = true ∧ ∀ other ∈ names, test other = true → n ≤ other := by
  constructor
  · intro h
    exact ⟨mem_sortedBy.1 (List.mem_of_find?_eq_some h), List.find?_some h,
      fun _ hother htest => le_of_find?_sortedBy h hother htest⟩
  · rintro ⟨hmem, htest, hleast⟩
    have hsome : ((sortedBy id names).find? test).isSome = true :=
      List.find?_isSome.2 ⟨n, mem_sortedBy.2 hmem, htest⟩
    obtain ⟨first, hfirst⟩ := Option.isSome_iff_exists.1 hsome
    have hle : n ≤ first :=
      hleast first (mem_sortedBy.1 (List.mem_of_find?_eq_some hfirst)) (List.find?_some hfirst)
    rw [hfirst, String.le_antisymm hle (le_of_find?_sortedBy hfirst hmem htest)]

end Search

end SwiftDependencies
