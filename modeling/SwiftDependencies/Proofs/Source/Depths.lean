import Mathlib.Order.Bounds.Basic
import Mathlib.Tactic.Common
import SwiftDependencies.Proofs.Source.Balance

/-!
# Closing brackets and depths

The bracket that closes an opening bracket is looked for by the level, which counts from the opening
bracket on and may be negative.  The depth counts from the start of the text and forgives the
closing brackets that close nothing. While a bracket is open the two differ by a constant, whatever
stands before it (`depthAfter_eq_add`).  So the bracket is closed where the depth is for the first
time what it was before the bracket (`closer?_eq_idxOf?`).

Neither counter tells the kinds of the brackets apart.  In a text in which every bracket is closed
by one of its own kind it need not: what closes a bracket there is its partner
(`Partners.closer?_eq`), and every opening bracket has one (`WellNested.exists_partner`).
-/

namespace SwiftDependencies.Source

/-! ### Depths by offset -/

/-- The first depth is the one to begin with. -/
lemma depthsFrom_eq_cons (depth : Nat) (cs : List Char) :
    depthsFrom depth cs = depth :: (depthsFrom depth cs).tail := by
  cases cs <;> rfl

/-- The depths from an offset on are those of the text from there. -/
lemma drop_depthsFrom {cs : List Char} {i : Nat} (hi : i ≤ cs.length) (depth : Nat) :
    (depthsFrom depth cs).drop i = depthsFrom ((cs.take i).foldl depthAfter depth) (cs.drop i) := by
  induction cs generalizing depth i with
  | nil =>
    obtain rfl := Nat.le_zero.1 hi
    rfl
  | cons c cs ih =>
    cases i with
    | zero => rfl
    | succ i => exact ih (Nat.le_of_succ_le_succ hi) _

/-- The depth at an offset is that after the characters before it. -/
lemma getElem?_depthsFrom {cs : List Char} {i : Nat} (hi : i ≤ cs.length) (depth : Nat) :
    (depthsFrom depth cs)[i]? = some ((cs.take i).foldl depthAfter depth) := by
  rw [← List.head?_drop, drop_depthsFrom hi, depthsFrom_eq_cons, List.head?_cons]

/-- The offsets behind an offset after which the depth is what it is before that offset. -/
def depthReturns (cs : List Char) (i : Nat) : Set Nat :=
  {j | i < j ∧ (depths cs)[j + 1]? = (depths cs)[i]?}

/-- An offset at which the depth returns is one behind which the depth is what it was at
the start. -/
lemma mem_depthReturns {cs : List Char} {i j : Nat} :
    j ∈ depthReturns cs i ↔ i < j ∧ (depths cs)[j + 1]? = (depths cs)[i]? := Iff.rfl

/-! ### Level and depth of an open bracket -/

section Counters

variable {base depth : Nat} {level : Int} {c : Char}

/-- One character changes level and depth alike if the level is positive before it. -/
lemma depthAfter_eq_add (hpos : 0 < level) (h : (depth : Int) = base + level) :
    (depthAfter depth c : Int) = base + levelAfter level c := by
  unfold depthAfter levelAfter
  split
  · omega
  · split <;> omega

/-- A positive level ends at zero with a closing bracket only, and then the depth is back. -/
lemma depthAfter_eq_base_iff (hpos : 0 < level) (h : (depth : Int) = base + level) :
    depthAfter depth c = base ↔ isCloser c = true ∧ levelAfter level c = 0 := by
  have hafter := depthAfter_eq_add (c := c) hpos h
  constructor
  · intro hback
    have hzero : levelAfter level c = 0 := by omega
    refine ⟨?_, hzero⟩
    by_contra hc
    unfold levelAfter at hzero
    rw [if_neg hc] at hzero
    split at hzero <;> omega
  · rintro ⟨-, hzero⟩
    omega

/-- The bracket that brings the level to zero is the first after which the depth is back. -/
lemma closingFrom?_eq_idxOf? (hpos : 0 < level) (h : (depth : Int) = base + level)
    (cs : List Char) :
    closingFrom? level cs = (depthsFrom depth cs).tail.idxOf? base := by
  induction cs generalizing level depth with
  | nil => rfl
  | cons c cs ih =>
    have hafter := depthAfter_eq_add (c := c) hpos h
    have hback := depthAfter_eq_base_iff (c := c) hpos h
    rw [closingFrom?, depthsFrom, List.tail_cons, depthsFrom_eq_cons, List.idxOf?_cons]
    by_cases hstop : depthAfter depth c = base
    · rw [if_pos (by simpa using hback.1 hstop), if_pos (by simpa using hstop)]
    · have hgo : ¬(isCloser c = true ∧ levelAfter level c = 0) := fun hc => hstop (hback.2 hc)
      have hup : 0 < levelAfter level c := by
        have : 0 ≤ levelAfter level c := by
          unfold levelAfter
          split
          · omega
          · split <;> omega
        omega
      rw [if_neg (by simpa using hgo), if_neg (by simpa using hstop), ih hup hafter]

end Counters

section Opener

variable {cs : List Char} {i : Nat} {o : Char}

/-- An opening bracket is closed where the depth is for the first time what it was before it. -/
lemma closer?_eq_idxOf? (hi : cs[i]? = some o) (opens : isOpener o = true) :
    ∃ base, (depths cs)[i]? = some base ∧
      closer? cs i = (((depths cs).drop (i + 2)).idxOf? base).map (i + 1 + ·) := by
  obtain ⟨hlt, rfl⟩ := List.getElem?_eq_some_iff.1 hi
  have hbase := getElem?_depthsFrom (Nat.le_of_lt hlt) 0
  refine ⟨_, hbase, ?_⟩
  set base := (cs.take i).foldl depthAfter 0
  have hdepth : (cs.take (i + 1)).foldl depthAfter 0 = base + 1 := by
    rw [List.take_add_one, hi, Option.toList_some, List.foldl_append, List.foldl_cons,
      List.foldl_nil, depthAfter, if_pos opens]
  have hrest : (depths cs).drop (i + 2) = (depthsFrom (base + 1) (cs.drop (i + 1))).tail := by
    rw [← hdepth, ← drop_depthsFrom hlt, List.tail_drop]
    rfl
  have hclosing : closingFrom? 1 (cs.drop (i + 1)) =
      (depthsFrom (base + 1) (cs.drop (i + 1))).tail.idxOf? base :=
    closingFrom?_eq_idxOf? (by decide) (Int.natCast_succ base) _
  rw [closer?, closing?, List.drop_eq_getElem_cons hlt, closingFrom?_opener opens, Int.zero_add,
    hclosing, hrest, Option.map_map]
  congr 1
  funext n
  simp only [Function.comp]
  omega

/-- The depth returns at the offsets at which it is found behind the bracket. -/
lemma mem_depthReturns_iff {base j : Nat} (hbase : (depths cs)[i]? = some base) :
    j ∈ depthReturns cs i ↔
      ∃ n, j = i + 1 + n ∧ ((depths cs).drop (i + 2))[n]? = some base := by
  rw [mem_depthReturns, hbase]
  constructor
  · rintro ⟨hlt, hj⟩
    obtain ⟨n, rfl⟩ := Nat.exists_eq_add_of_lt hlt
    refine ⟨n, by omega, ?_⟩
    rw [List.getElem?_drop, ← hj]
    congr 1
    omega
  · rintro ⟨n, rfl, hn⟩
    refine ⟨by omega, ?_⟩
    rw [← hn, List.getElem?_drop]
    congr 1
    omega

/-- The partner of an opening bracket is where the depth first returns. -/
lemma closer?_eq_some_iff (hi : cs[i]? = some o) (opens : isOpener o = true) (j : Nat) :
    closer? cs i = some j ↔ IsLeast (depthReturns cs i) j := by
  obtain ⟨base, hbase, hcloser⟩ := closer?_eq_idxOf? hi opens
  rw [hcloser, Option.map_eq_some_iff]
  constructor
  · rintro ⟨n, hn, rfl⟩
    obtain ⟨hlt, hget, hfirst⟩ := List.idxOf?_eq_some_iff.1 hn
    refine ⟨(mem_depthReturns_iff hbase).2 ⟨n, rfl,
      List.getElem?_eq_some_iff.2 ⟨hlt, hget⟩⟩, ?_⟩
    intro k hk
    obtain ⟨m, rfl, hm⟩ := (mem_depthReturns_iff hbase).1 hk
    obtain ⟨hmlt, hmget⟩ := List.getElem?_eq_some_iff.1 hm
    have hle : n ≤ m := Nat.le_of_not_lt fun hlt => hfirst m hlt hmget
    omega
  · rintro ⟨hj, hleast⟩
    obtain ⟨n, rfl, hn⟩ := (mem_depthReturns_iff hbase).1 hj
    obtain ⟨hlt, hget⟩ := List.getElem?_eq_some_iff.1 hn
    refine ⟨n, List.idxOf?_eq_some_iff.2 ⟨hlt, hget, ?_⟩, rfl⟩
    intro m hm hmget
    have hmem := List.getElem?_eq_some_iff.2 ⟨Nat.lt_trans hm hlt, hmget⟩
    have hle := hleast ((mem_depthReturns_iff hbase).2 ⟨m, rfl, hmem⟩)
    omega

/-- An opening bracket has no partner if the depth does not return. -/
lemma closer?_eq_none_iff (hi : cs[i]? = some o) (opens : isOpener o = true) :
    closer? cs i = none ↔ depthReturns cs i = ∅ := by
  obtain ⟨base, hbase, hcloser⟩ := closer?_eq_idxOf? hi opens
  rw [hcloser, Option.map_eq_none_iff, List.idxOf?_eq_none_iff, Set.eq_empty_iff_forall_notMem]
  constructor
  · intro hnone j hj
    obtain ⟨n, -, hn⟩ := (mem_depthReturns_iff hbase).1 hj
    exact hnone (List.mem_of_getElem? hn)
  · intro hempty hmem
    obtain ⟨n, hn⟩ := List.mem_iff_getElem?.1 hmem
    exact hempty _ ((mem_depthReturns_iff hbase).2 ⟨n, rfl, hn⟩)

end Opener

/-! ### Brackets of one kind -/

/-- The opening and the closing bracket of each kind. -/
inductive SameKind : Char → Char → Prop
  | round : SameKind '(' ')'
  | square : SameKind '[' ']'
  | curly : SameKind '{' '}'

/-- The first of two brackets of a kind opens. -/
lemma SameKind.isOpener {o c : Char} (h : SameKind o c) : isOpener o = true := by
  cases h <;> rfl

/-- The second of two brackets of a kind closes. -/
lemma SameKind.isCloser {o c : Char} (h : SameKind o c) : isCloser c = true := by
  cases h <;> rfl

/-- The texts in which every bracket is closed by one of its own kind. -/
inductive WellNested : List Char → Prop
  | nil : WellNested []
  | plain {c : Char} {cs : List Char} (opens : isOpener c = false) (closes : isCloser c = false)
      (rest : WellNested cs) : WellNested (c :: cs)
  | group {o c : Char} {inner cs : List Char} (kind : SameKind o c) (inside : WellNested inner)
      (rest : WellNested cs) : WellNested (o :: (inner ++ c :: cs))

/-- The brackets at two offsets are partners if they are of one kind and the text between them is
well nested. -/
def Partners (cs : List Char) (i j : Nat) : Prop :=
  ∃ before o inner c after, cs = before ++ o :: (inner ++ c :: after) ∧ SameKind o c ∧
    WellNested inner ∧ i = before.length ∧ j = before.length + inner.length + 1

/-- A well-nested text is balanced. -/
lemma WellNested.balanced {cs : List Char} (h : WellNested cs) : Balanced (fun _ => True) cs := by
  induction h with
  | nil => exact .nil
  | plain opens closes _ ih => exact .plain opens closes trivial ih
  | group kind _ _ ihin ih => exact .group kind.isOpener kind.isCloser ihin ih

namespace Partners

variable {cs : List Char} {i j : Nat}

/-- Partners stay so, moved, behind more text. -/
lemma append_left (h : Partners cs i j) (more : List Char) :
    Partners (more ++ cs) (i + more.length) (j + more.length) := by
  obtain ⟨before, o, inner, c, after, rfl, kind, inside, rfl, rfl⟩ := h
  refine ⟨more ++ before, o, inner, c, after, (List.append_assoc ..).symm, kind,
    inside, ?_, ?_⟩ <;>
    rw [List.length_append] <;> omega

/-- Partners stay so in front of more text. -/
lemma append_right (h : Partners cs i j) (more : List Char) : Partners (cs ++ more) i j := by
  obtain ⟨before, o, inner, c, after, rfl, kind, inside, hi, hj⟩ := h
  exact ⟨before, o, inner, c, after ++ more, by simp, kind, inside, hi, hj⟩

/-- Whatever the text, an opening bracket that has a partner is closed by it. -/
lemma closer?_eq (h : Partners cs i j) : closer? cs i = some j := by
  obtain ⟨before, o, inner, c, after, rfl, kind, inside, rfl, rfl⟩ := h
  rw [closer?, List.drop_left, closing?_enclosed kind.isOpener kind.isCloser inside.balanced,
    Option.map_some]
  rfl

end Partners

/-- In a well nested text every opening bracket has a partner. -/
lemma WellNested.exists_partner {cs : List Char} (h : WellNested cs) {i : Nat} {o : Char}
    (hi : cs[i]? = some o) (opens : isOpener o = true) : ∃ j, Partners cs i j := by
  induction h generalizing i with
  | nil => simp at hi
  | @plain c cs hc _ _ ih =>
    cases i with
    | zero =>
      obtain rfl : c = o := by simpa using hi
      exact absurd opens (by simp [hc])
    | succ i =>
      obtain ⟨j, hj⟩ := ih hi
      exact ⟨j + 1, hj.append_left [c]⟩
  | @group o' c inner cs kind inside rest ihin ih =>
    cases i with
    | zero => exact ⟨_, [], o', inner, c, cs, rfl, kind, inside, rfl, rfl⟩
    | succ i =>
      rw [List.getElem?_cons_succ] at hi
      rcases Nat.lt_trichotomy i inner.length with hlt | rfl | hgt
      · rw [List.getElem?_append_left hlt] at hi
        obtain ⟨j, hj⟩ := ihin hi
        exact ⟨j + 1, (hj.append_right (c :: cs)).append_left [o']⟩
      · -- the closing bracket of the group does not open one
        obtain rfl : c = o := by simpa using hi
        have := isCloser_of_isOpener opens
        simp [kind.isCloser] at this
      · obtain ⟨m, rfl⟩ := Nat.exists_eq_add_of_lt hgt
        have hm : cs[m]? = some o := by
          rw [List.getElem?_append_right (by omega)] at hi
          rw [← hi, show inner.length + m + 1 - inner.length = m + 1 by omega,
            List.getElem?_cons_succ]
        obtain ⟨j, hj⟩ := ih hm
        have hgroup := hj.append_left (o' :: (inner ++ [c]))
        have htext : o' :: (inner ++ [c]) ++ cs = o' :: (inner ++ c :: cs) := by simp
        have hoffset : m + (o' :: (inner ++ [c])).length = inner.length + m + 1 + 1 := by
          rw [List.length_cons, List.length_append, List.length_singleton]
          omega
        rw [htext, hoffset] at hgroup
        exact ⟨_, hgroup⟩

/-! ### Closing brackets -/

/-- Whatever the text, an opening bracket is closed at the first offset behind it after which the
depth is again what it was before it, and it is not closed if there is none. In a well nested text
it is closed by its partner, which is the only one. -/
theorem closer?_of_opener (cs : List Char) (i : Nat) {o : Char} (hi : cs[i]? = some o)
    (opens : isOpener o = true) :
    (∀ j, closer? cs i = some j ↔ IsLeast (depthReturns cs i) j) ∧
    (closer? cs i = none ↔ depthReturns cs i = ∅) ∧
    (WellNested cs → ∃ j, closer? cs i = some j ∧ ∀ k, Partners cs i k ↔ k = j) := by
  refine ⟨closer?_eq_some_iff hi opens, closer?_eq_none_iff hi opens, ?_⟩
  intro h
  obtain ⟨j, hj⟩ := h.exists_partner hi opens
  have hcloser := hj.closer?_eq
  refine ⟨j, hcloser, fun k => ⟨?_, ?_⟩⟩
  · intro hk
    exact Option.some.inj (hk.closer?_eq.symm.trans hcloser)
  · rintro rfl
    exact hj

/-- A stray closing bracket stands in front of the first text, and its brackets are closed by other
kinds. The second text ends too soon, and the third is well nested. -/
theorem closer?_of_opener_mixed :
    (")[a(b]c)".toList[1]? = some '[' ∧ isOpener '[' = true ∧
      closer? ")[a(b]c)".toList 1 = some 7 ∧ IsLeast (depthReturns ")[a(b]c)".toList 1) 7) ∧
    (")[a(b]c".toList[1]? = some '[' ∧ depthReturns ")[a(b]c".toList 1 = ∅) ∧
    (WellNested "([a])".toList ∧ Partners "([a])".toList 0 4) := by
  have hinner : WellNested ('[' :: (['a'] ++ ']' :: [])) :=
    .group .square (.plain rfl rfl .nil) .nil
  have hnested : WellNested ('(' :: (['[', 'a', ']'] ++ ')' :: [])) := .group .round hinner .nil
  obtain ⟨j, hj, hpartner⟩ := (closer?_of_opener "([a])".toList 0 rfl rfl).2.2 hnested
  refine ⟨⟨rfl, rfl, rfl, ?_⟩, ⟨rfl, ?_⟩, hnested, ?_⟩
  · exact ((closer?_of_opener ")[a(b]c)".toList 1 rfl rfl).1 7).1 rfl
  · exact (closer?_of_opener ")[a(b]c".toList 1 rfl rfl).2.1.1 rfl
  · exact (hpartner 4).2 (Option.some.inj (hj.symm.trans rfl)).symm

end SwiftDependencies.Source
