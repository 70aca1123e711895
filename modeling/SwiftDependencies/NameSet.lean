/-!
# Sets of names

A finite set of names is kept as the list of its members in rising order, each once. Names are
compared by their code points. Because the order leaves no choice, two sets with the same members
are equal, and the list of members is what a report prints.
-/

namespace SwiftDependencies

/-- A finite set of names, kept in rising order. -/
structure NameSet where
  /-- The members in rising order. -/
  toList : List String
  sorted : toList.Pairwise (· < ·)

namespace NameSet

instance : Membership String NameSet where
  mem s a := a ∈ s.toList

/-- A name is in a set if it is in the list that the set is kept as. -/
theorem mem_def {a : String} {s : NameSet} : a ∈ s ↔ a ∈ s.toList := Iff.rfl

instance (a : String) (s : NameSet) : Decidable (a ∈ s) :=
  inferInstanceAs (Decidable (a ∈ s.toList))

/-- Sets with the same members are equal. -/
theorem ext {s t : NameSet} (h : ∀ a, a ∈ s ↔ a ∈ t) : s = t := by
  obtain ⟨l, hl⟩ := s
  obtain ⟨m, hm⟩ := t
  suffices l = m by subst this; rfl
  replace h : ∀ a, a ∈ l ↔ a ∈ m := h
  induction l generalizing m with
  | nil => exact (List.eq_nil_iff_forall_not_mem.2 fun a ha => by simpa using (h a).2 ha).symm
  | cons x l ih =>
    cases m with
    | nil => simpa using (h x).1 (by simp)
    | cons y m =>
      have hx := List.pairwise_cons.1 hl
      have hy := List.pairwise_cons.1 hm
      have hxy : x = y := by
        rcases List.mem_cons.1 ((h x).1 (by simp)) with rfl | h₁
        · rfl
        · rcases List.mem_cons.1 ((h y).2 (by simp)) with rfl | h₂
          · rfl
          · exact absurd (String.lt_trans (hx.1 y h₂) (hy.1 x h₁)) (String.lt_irrefl x)
      subst hxy
      have hlm : ∀ a, a ∈ l ↔ a ∈ m := fun a => by
        have := h a
        simp only [List.mem_cons] at this
        constructor
        · intro ha
          rcases this.1 (.inr ha) with rfl | hm
          · exact absurd (hx.1 a ha) (String.lt_irrefl a)
          · exact hm
        · intro ha
          rcases this.2 (.inr ha) with rfl | hl
          · exact absurd (hy.1 a ha) (String.lt_irrefl a)
          · exact hl
      rw [ih hx.2 m hy.2 hlm]

/-! ### Building sets -/

/-- Put a name in its place in a rising list, unless it is there. -/
def insertInto (a : String) : List String → List String
  | [] => [a]
  | b :: l => if a < b then a :: b :: l else if a = b then b :: l else b :: insertInto a l

/-- To insert a name adds this name and no other. -/
@[simp] theorem mem_insertInto {a b : String} {l : List String} :
    b ∈ insertInto a l ↔ b = a ∨ b ∈ l := by
  induction l with
  | nil => simp [insertInto]
  | cons c l ih =>
    simp only [insertInto]
    split
    · simp
    · split <;> grind

/-- A sorted list without repetitions stays so when a name is inserted. -/
theorem pairwise_insertInto {a : String} {l : List String} (h : l.Pairwise (· < ·)) :
    (insertInto a l).Pairwise (· < ·) := by
  induction l with
  | nil => simp [insertInto]
  | cons b l ih =>
    have hb := List.pairwise_cons.1 h
    simp only [insertInto]
    split
    · rename_i hab
      refine List.pairwise_cons.2 ⟨fun c hc => ?_, h⟩
      rcases List.mem_cons.1 hc with rfl | hc
      · exact hab
      · exact String.lt_trans hab (hb.1 c hc)
    · split
      · exact h
      · rename_i hab hne
        refine List.pairwise_cons.2 ⟨fun c hc => ?_, ih hb.2⟩
        rcases mem_insertInto.1 hc with rfl | hc
        · rcases Std.lt_trichotomy c b with h₁ | h₁ | h₁
          · exact absurd h₁ hab
          · exact absurd h₁ hne
          · exact h₁
        · exact hb.1 c hc

/-- The set without members. -/
def empty : NameSet := ⟨[], .nil⟩

instance : EmptyCollection NameSet := ⟨empty⟩

instance : Inhabited NameSet := ⟨∅⟩

/-- Add a name. -/
def insert (a : String) (s : NameSet) : NameSet :=
  ⟨insertInto a s.toList, pairwise_insertInto s.sorted⟩

/-- The set of the names in a list. -/
def ofList (l : List String) : NameSet :=
  l.foldr insert ∅

/-- The members that pass a test. -/
def filter (p : String → Bool) (s : NameSet) : NameSet :=
  ⟨s.toList.filter p, s.sorted.filter p⟩

/-- The names in one of two sets. -/
def union (s t : NameSet) : NameSet :=
  s.toList.foldr insert t

/-- The members that another set lacks. -/
def diff (s t : NameSet) : NameSet :=
  s.filter fun a => !(a ∈ t)

/-- The members that another set has too. -/
def inter (s t : NameSet) : NameSet :=
  s.filter fun a => a ∈ t

instance : Union NameSet := ⟨union⟩

instance : SDiff NameSet := ⟨diff⟩

instance : Inter NameSet := ⟨inter⟩

/-- Whether there is no member. -/
def isEmpty (s : NameSet) : Bool :=
  s.toList.isEmpty

/-! ### Membership -/

/-- The empty set has no names. -/
@[simp] theorem not_mem_empty (a : String) : ¬a ∈ (∅ : NameSet) :=
  List.not_mem_nil

/-- The names of a set with one more are that one and those of the set. -/
@[simp] theorem mem_insert {a b : String} {s : NameSet} : b ∈ s.insert a ↔ b = a ∨ b ∈ s :=
  mem_insertInto

/-- The set of a list has the names of the list. -/
@[simp] theorem mem_ofList {a : String} {l : List String} : a ∈ ofList l ↔ a ∈ l := by
  induction l with
  | nil => simp [ofList]
  | cons b l ih => simp [ofList] at ih ⊢; rw [ih]

/-- A filtered set has the names that pass the test. -/
@[simp] theorem mem_filter {a : String} {p : String → Bool} {s : NameSet} :
    a ∈ s.filter p ↔ a ∈ s ∧ p a = true :=
  List.mem_filter

/-- A union has the names of either set. -/
@[simp] theorem mem_union {a : String} {s t : NameSet} : a ∈ s ∪ t ↔ a ∈ s ∨ a ∈ t := by
  show a ∈ s.toList.foldr insert t ↔ a ∈ s.toList ∨ a ∈ t
  induction s.toList with
  | nil => simp
  | cons b l ih => simp [ih, or_assoc]

/-- A difference has the names that are only in the first set. -/
@[simp] theorem mem_diff {a : String} {s t : NameSet} : a ∈ s \ t ↔ a ∈ s ∧ ¬a ∈ t := by
  show a ∈ s.filter _ ↔ _
  simp

/-- An intersection has the names of both sets. -/
@[simp] theorem mem_inter {a : String} {s t : NameSet} : a ∈ s ∩ t ↔ a ∈ s ∧ a ∈ t := by
  show a ∈ s.filter _ ↔ _
  simp

/-- A set is empty if no name is in it. -/
@[simp] theorem isEmpty_iff {s : NameSet} : s.isEmpty = true ↔ ∀ a, ¬a ∈ s := by
  simp [isEmpty, mem_def, List.eq_nil_iff_forall_not_mem]

end NameSet

end SwiftDependencies
