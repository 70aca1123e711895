/-!
# Sorting by a key

A list is put in rising order of a key of its elements. Elements with the same key keep their order.
-/

namespace SwiftDependencies

/-- The elements of a list in rising order of a key. -/
def sortedBy (key : α → String) (l : List α) : List α :=
  l.mergeSort fun a b => decide (key a ≤ key b)

/-- Sorting neither loses nor adds anything. -/
theorem perm_sortedBy (key : α → String) (l : List α) : (sortedBy key l).Perm l :=
  List.mergeSort_perm l _

/-- Sorting keeps all elements. -/
@[simp] theorem mem_sortedBy {key : α → String} {l : List α} {a : α} :
    a ∈ sortedBy key l ↔ a ∈ l :=
  (perm_sortedBy key l).mem_iff

/-- Sorting leaves nothing only of nothing. -/
@[simp] theorem sortedBy_eq_nil_iff {key : α → String} {l : List α} :
    sortedBy key l = [] ↔ l = [] := by
  rw [← List.length_eq_zero_iff, (perm_sortedBy key l).length_eq, List.length_eq_zero_iff]

/-- A sorted list is in rising order. -/
theorem pairwise_sortedBy (key : α → String) (l : List α) :
    (sortedBy key l).Pairwise fun a b => key a ≤ key b := by
  have h : (sortedBy key l).Pairwise fun a b => decide (key a ≤ key b) = true := by
    refine List.pairwise_mergeSort (fun a b c hab hbc => ?_) (fun a b => ?_) l
    · simp only [decide_eq_true_eq] at *
      exact String.le_trans hab hbc
    · simp only [Bool.or_eq_true, decide_eq_true_eq]
      exact String.le_total _ _
  exact h.imp fun h => by simpa using h

end SwiftDependencies
