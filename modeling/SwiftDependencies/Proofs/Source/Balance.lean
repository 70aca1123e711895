import Mathlib.Tactic.Common
import SwiftDependencies.Source.Bracket

/-!
# Balanced texts

A text is balanced if every bracket in it is closed in it.  The kinds of the brackets are not told
apart, as the level does not tell them apart either.  `Balanced p` also says that `p` holds of every
character outside brackets, which is what a scanner that stops at certain characters outside
brackets needs to know.

The scanners of `Source.Bracket` run over a balanced text without stopping: the search for a closing
bracket (`closingFrom?_append`), the division at separators (`piecesFrom_append`) and the search for
the first separator (`untilSeparator_append`).
-/

namespace SwiftDependencies.Source

/-! ### The level -/

/-- No character both opens and closes. -/
lemma isCloser_of_isOpener {c : Char} (h : isOpener c = true) : isCloser c = false := by
  simp only [isOpener, Bool.or_eq_true, beq_iff_eq] at h
  rcases h with (rfl | rfl) | rfl <;> rfl

/-- No character both opens and closes. -/
lemma isOpener_of_isCloser {c : Char} (h : isCloser c = true) : isOpener c = false := by
  simp only [isCloser, Bool.or_eq_true, beq_iff_eq] at h
  rcases h with (rfl | rfl) | rfl <;> rfl

/-- An opening bracket raises the level. -/
lemma levelAfter_opener {c : Char} (level : Int) (h : isOpener c = true) :
    levelAfter level c = level + 1 := by
  simp [levelAfter, h]

/-- A closing bracket lowers the level. -/
lemma levelAfter_closer {c : Char} (level : Int) (h : isCloser c = true) :
    levelAfter level c = level - 1 := by
  simp [levelAfter, h, isOpener_of_isCloser h]

/-- Anything else keeps the level. -/
lemma levelAfter_plain {c : Char} (level : Int) (ho : isOpener c = false)
    (hc : isCloser c = false) : levelAfter level c = level := by
  simp [levelAfter, ho, hc]

/-! ### Balanced texts -/

/-- The texts in which every bracket is closed, with a property of the characters outside
brackets. -/
inductive Balanced : (Char → Prop) → List Char → Prop
  | nil {p : Char → Prop} : Balanced p []
  | plain {p : Char → Prop} {c : Char} {cs : List Char} (opens : isOpener c = false)
      (closes : isCloser c = false) (holds : p c) (rest : Balanced p cs) : Balanced p (c :: cs)
  | group {p : Char → Prop} {o c : Char} {inner cs : List Char} (opens : isOpener o = true)
      (closes : isCloser c = true) (inside : Balanced (fun _ => True) inner)
      (rest : Balanced p cs) : Balanced p (o :: (inner ++ c :: cs))

namespace Balanced

variable {p q : Char → Prop} {a b rest : List Char}

/-- A balanced text stays so if more is allowed outside brackets. -/
lemma mono (h : Balanced p a) (hpq : ∀ c, p c → q c) : Balanced q a := by
  induction h with
  | nil => exact .nil
  | plain opens closes holds _ ih => exact .plain opens closes (hpq _ holds) (ih hpq)
  | group opens closes inside _ _ ih => exact .group opens closes inside (ih hpq)

/-- Two balanced texts in a row are balanced. -/
lemma append (ha : Balanced p a) (hb : Balanced p b) : Balanced p (a ++ b) := by
  induction ha with
  | nil => exact hb
  | plain opens closes holds _ ih => exact .plain opens closes holds (ih hb)
  | group opens closes inside _ _ ih =>
    rw [List.cons_append, List.append_assoc, List.cons_append]
    exact .group opens closes inside (ih hb)

/-- A text without brackets is balanced. -/
lemma of_forall (h : ∀ c ∈ a, isOpener c = false ∧ isCloser c = false ∧ p c) :
    Balanced p a := by
  induction a with
  | nil => exact .nil
  | cons c cs ih =>
    obtain ⟨opens, closes, holds⟩ := h c List.mem_cons_self
    exact .plain opens closes holds (ih fun d hd => h d (List.mem_cons_of_mem _ hd))

/-- A balanced text leaves the level as it was. -/
lemma foldl_levelAfter (h : Balanced p a) (level : Int) : a.foldl levelAfter level = level := by
  induction h generalizing level with
  | nil => rfl
  | plain opens closes _ _ ih => rw [List.foldl_cons, levelAfter_plain level opens closes, ih]
  | group opens closes _ _ ihin ih =>
    rw [List.foldl_cons, List.foldl_append, List.foldl_cons, levelAfter_opener level opens, ihin,
      levelAfter_closer _ closes, Int.add_sub_cancel, ih]

/-- What follows a text without brackets is balanced if the whole is. -/
lemma of_append_left (ha : ∀ c ∈ a, isOpener c = false ∧ isCloser c = false)
    (h : Balanced p (a ++ b)) : Balanced p b := by
  induction a with
  | nil => exact h
  | cons c a ih =>
    have hc := ha c List.mem_cons_self
    generalize htext : c :: a ++ b = text at h
    cases h with
    | nil => simp at htext
    | plain opens closes holds rest =>
      obtain ⟨-, rfl⟩ := List.cons.inj htext
      exact ih (fun d hd => ha d (List.mem_cons_of_mem _ hd)) rest
    | group opens closes inside rest =>
      obtain ⟨rfl, -⟩ := List.cons.inj htext
      rw [opens] at hc
      simp at hc

/-- What precedes a text without brackets is balanced if the whole is. -/
lemma of_append_right (hb : ∀ c ∈ b, isOpener c = false ∧ isCloser c = false)
    (h : Balanced p (a ++ b)) : Balanced p a := by
  generalize htext : a ++ b = text at h
  induction h generalizing a with
  | nil =>
    obtain ⟨rfl, -⟩ := List.append_eq_nil_iff.1 htext
    exact .nil
  | plain opens closes holds _ ih =>
    cases a with
    | nil => exact .nil
    | cons c a =>
      obtain ⟨rfl, htail⟩ := List.cons.inj htext
      exact .plain opens closes holds (ih htail)
  | group opens closes inside _ _ ih =>
    cases a with
    | nil => exact .nil
    | cons c a =>
      obtain ⟨rfl, htail⟩ := List.cons.inj htext
      -- the closing bracket is no part of the text that has none, so the first text reaches
      -- beyond it
      rcases List.append_eq_append_iff.1 htail with ⟨more, -, rfl⟩ | ⟨more, rfl, hmore⟩
      · have := (hb _ (List.mem_append_right _ List.mem_cons_self)).2
        rw [closes] at this
        exact absurd this (by decide)
      · cases more with
        | nil =>
          have := (hb _ (hmore ▸ List.mem_cons_self)).2
          rw [closes] at this
          exact absurd this (by decide)
        | cons d more =>
          obtain ⟨rfl, hrest⟩ := List.cons.inj hmore
          exact .group opens closes inside (ih hrest.symm)

/-- A balanced text that begins with a bracket begins with a group. -/
lemma exists_group {o : Char} (opens : isOpener o = true) (h : Balanced p (o :: a)) :
    ∃ inner c rest, a = inner ++ c :: rest ∧ isCloser c = true ∧
      Balanced (fun _ => True) inner ∧ Balanced p rest := by
  cases h with
  | plain hopens => simp [opens] at hopens
  | group _ closes inside rest => exact ⟨_, _, _, rfl, closes, inside, rest⟩

/-- A balanced text is either without a character outside its brackets, or cut at the first one. -/
lemma exists_split (h : Balanced p a) (d : Char) :
    Balanced (fun c => p c ∧ c ≠ d) a ∨
      ∃ before after, a = before ++ d :: after ∧ Balanced (fun c => p c ∧ c ≠ d) before ∧
        Balanced p after := by
  induction h with
  | nil => exact .inl .nil
  | @plain p c cs opens closes holds rest ih =>
    by_cases hd : c = d
    · exact .inr ⟨[], cs, by rw [hd, List.nil_append], .nil, rest⟩
    · rcases ih with hall | ⟨before, after, rfl, hbefore, hafter⟩
      · exact .inl (.plain opens closes ⟨holds, hd⟩ hall)
      · exact .inr ⟨c :: before, after, rfl,
          .plain opens closes ⟨holds, hd⟩ hbefore, hafter⟩
  | @group p o c inner cs opens closes inside rest _ ih =>
    rcases ih with hall | ⟨before, after, rfl, hbefore, hafter⟩
    · exact .inl (.group opens closes inside hall)
    · exact .inr ⟨o :: (inner ++ c :: before), after, by simp,
        .group opens closes inside hbefore, hafter⟩

/-- A balanced text in brackets is balanced. -/
lemma enclosed {o c : Char} (opens : isOpener o = true) (closes : isCloser c = true)
    (inside : Balanced p a) : Balanced q (o :: (a ++ [c])) :=
  .group opens closes (inside.mono fun _ _ => trivial) .nil

end Balanced

/-! ### Closing brackets -/

/-- A search that begins with an opening bracket goes on one level higher. -/
lemma closingFrom?_opener {c : Char} (opens : isOpener c = true) (level : Int) (cs : List Char) :
    closingFrom? level (c :: cs) = (closingFrom? (level + 1) cs).map (· + 1) := by
  rw [closingFrom?, isCloser_of_isOpener opens, levelAfter_opener level opens, Bool.false_and,
    if_neg Bool.false_ne_true]

/-- Inside brackets, no bracket of a balanced text is the closing one. -/
lemma closingFrom?_append {p : Char → Prop} {a : List Char} (h : Balanced p a) {level : Int}
    (hl : 1 ≤ level) (rest : List Char) :
    closingFrom? level (a ++ rest) = (closingFrom? level rest).map (· + a.length) := by
  induction h generalizing level rest with
  | nil => simp
  | plain opens closes _ _ ih =>
    simp only [List.cons_append, closingFrom?, closes, Bool.false_and, Bool.false_eq_true,
      if_false, levelAfter_plain level opens closes, ih hl, Option.map_map]
    rfl
  | @group p o c inner cs opens closes _ _ ihin ih =>
    have hback : levelAfter (level + 1) c = level := by
      rw [levelAfter_closer _ closes]
      omega
    have hne : (level == 0) = false := by
      rw [beq_eq_false_iff_ne]
      omega
    have hstop : closingFrom? (level + 1) (c :: (cs ++ rest)) =
        (closingFrom? level (cs ++ rest)).map (· + 1) := by
      simp [closingFrom?, hback, hne]
    rw [List.cons_append, List.append_assoc, List.cons_append, closingFrom?_opener opens,
      ihin (by omega), hstop, ih hl]
    simp only [Option.map_map]
    congr 1
    funext n
    simp only [Function.comp, List.length_cons, List.length_append]
    omega

/-- An opening bracket before a balanced text is closed by the bracket right after it. -/
lemma closing?_enclosed {p : Char → Prop} {o c : Char} {a : List Char} (opens : isOpener o = true)
    (closes : isCloser c = true) (h : Balanced p a) (rest : List Char) :
    closing? (o :: (a ++ c :: rest)) = some (a.length + 1) := by
  have hfirst : closing? (o :: (a ++ c :: rest)) = (closingFrom? 1 (a ++ c :: rest)).map (· + 1) :=
    closingFrom?_opener opens 0 _
  have hlast : closingFrom? 1 (c :: rest) = some 0 := by
    simp [closingFrom?, closes, levelAfter_closer 1 closes]
  rw [hfirst, closingFrom?_append h (by omega), hlast]
  simp

/-- The character at which a search for a closing bracket ends is a closing bracket. -/
lemma exists_of_closingFrom? {level : Int} {cs : List Char} {n : Nat}
    (h : closingFrom? level cs = some n) :
    ∃ c rest, isCloser c = true ∧ cs = cs.take n ++ c :: rest ∧ cs.drop (n + 1) = rest := by
  induction cs generalizing level n with
  | nil => simp [closingFrom?] at h
  | cons c cs ih =>
    simp only [closingFrom?] at h
    split at h
    · rename_i hc
      obtain rfl := Option.some.inj h
      exact ⟨c, cs, (Bool.and_eq_true_iff.1 hc).1, rfl, rfl⟩
    · obtain ⟨m, hm, rfl⟩ := Option.map_eq_some_iff.1 h
      obtain ⟨d, rest, hd, hcs, hrest⟩ := ih hm
      exact ⟨d, rest, hd, congrArg (c :: ·) hcs, hrest⟩

/-- Above level zero no bracket closes. -/
lemma not_closes_of_pos (c : Char) {level : Int} (h : 1 ≤ level) :
    (isCloser c && level == 0) = false := by
  have hne : (level == 0) = false := beq_eq_false_iff_ne.2 (by omega)
  rw [hne, Bool.and_false]

/-- On its way down a search for a closing bracket passes every level in between. -/
lemma closingFrom?_add {a b : Int} (ha : 1 ≤ a) (hb : 1 ≤ b) {cs : List Char} {n : Nat}
    (h : closingFrom? (a + b) cs = some n) :
    ∃ k m, closingFrom? a cs = some k ∧ closingFrom? b (cs.drop (k + 1)) = some m ∧
      n = k + 1 + m := by
  induction cs generalizing a n with
  | nil => simp [closingFrom?] at h
  | cons c cs ih =>
    have hsum : levelAfter (a + b) c = levelAfter a c + b := by
      unfold levelAfter
      split
      · omega
      · split <;> omega
    simp only [closingFrom?, hsum] at h ⊢
    by_cases hstop : (isCloser c && levelAfter a c == 0) = true
    · have hzero : levelAfter a c = 0 := by simpa using (Bool.and_eq_true_iff.1 hstop).2
      have hgo := not_closes_of_pos c (show 1 ≤ levelAfter a c + b by omega)
      rw [hgo, if_neg Bool.false_ne_true, hzero, Int.zero_add] at h
      obtain ⟨m, hm, rfl⟩ := Option.map_eq_some_iff.1 h
      refine ⟨0, m, if_pos hstop, hm, ?_⟩
      omega
    · have hup : 1 ≤ levelAfter a c := by
        simp only [Bool.and_eq_true, beq_iff_eq, not_and] at hstop
        unfold levelAfter at hstop ⊢
        split
        · omega
        · split
          · rename_i ho hc
            have := hstop hc
            simp only [ho, hc, Bool.false_eq_true, if_false, if_true] at this
            omega
          · omega
      have hgo := not_closes_of_pos c (show 1 ≤ levelAfter a c + b by omega)
      rw [hgo, if_neg Bool.false_ne_true] at h
      obtain ⟨m', hm', rfl⟩ := Option.map_eq_some_iff.1 h
      obtain ⟨k, m, hk, hm, rfl⟩ := ih hup hm'
      refine ⟨k + 1, m, ?_, hm, by omega⟩
      rw [if_neg hstop, hk]
      rfl

/-- What stands before the bracket that closes it is balanced. -/
theorem balanced_of_closingFrom? {cs : List Char} {n : Nat} (h : closingFrom? 1 cs = some n) :
    Balanced (fun _ => True) (cs.take n) := by
  induction hlength : cs.length using Nat.strongRecOn generalizing cs n with
  | ind length ih =>
  subst hlength
  cases cs with
  | nil => simp [closingFrom?] at h
  | cons c cs =>
    rcases Bool.eq_false_or_eq_true (isOpener c) with opens | opens
    · rw [closingFrom?_opener opens] at h
      obtain ⟨m, hm, rfl⟩ := Option.map_eq_some_iff.1 h
      obtain ⟨k, j, hk, hj, rfl⟩ := closingFrom?_add (by decide) (by decide) hm
      obtain ⟨d, rest, closes, hcs, rfl⟩ := exists_of_closingFrom? hk
      have hlast := lt_length_of_closingFrom? hk
      have htake : cs.take (k + 1 + j) = cs.take k ++ d :: (cs.drop (k + 1)).take j := by
        have hkeep : (cs.take k).length = k := List.length_take_of_le (Nat.le_of_lt hlast)
        conv => lhs; rw [hcs]
        rw [List.take_append, hkeep, List.take_of_length_le (by omega),
          show k + 1 + j - k = j + 1 by omega, List.take_succ_cons]
      rw [List.take_succ_cons, htake]
      refine .group opens closes (ih _ ?_ hk rfl) (ih _ ?_ hj rfl)
      · exact Nat.lt_succ_self _
      · rw [List.length_drop, List.length_cons]
        omega
    · rcases Bool.eq_false_or_eq_true (isCloser c) with closes | closes
      · simp only [closingFrom?, closes, levelAfter_closer 1 closes] at h
        obtain rfl := Option.some.inj h
        exact .nil
      · simp only [closingFrom?, closes, levelAfter_plain 1 opens closes, Bool.false_and,
          Bool.false_eq_true, if_false] at h
        obtain ⟨m, hm, rfl⟩ := Option.map_eq_some_iff.1 h
        rw [List.take_succ_cons]
        exact .plain opens closes trivial (ih _ (by simp) hm rfl)

/-! ### Separators -/

section Separators

variable {α : Type} {char : α → Char} {separator : Char → Bool}

/-- There is at least one piece. -/
lemma piecesFrom_ne_nil (level : Int) (l : List α) : piecesFrom char separator level l ≠ [] := by
  cases l with
  | nil => simp [piecesFrom]
  | cons a l =>
    simp only [piecesFrom]
    split
    · simp
    · split <;> simp

/-- An element that does not separate belongs to the first piece. -/
lemma piecesFrom_cons_of_not {level : Int} {a : α} (l : List α)
    (h : (!(isOpener (char a) || isCloser (char a)) && separator (char a) && level == 0) = false) :
    piecesFrom char separator level (a :: l) =
      (piecesFrom char separator (levelAfter level (char a)) l).modifyHead (a :: ·) := by
  simp only [piecesFrom, h, Bool.false_eq_true, if_false]
  split
  · exact absurd ‹_› (piecesFrom_ne_nil _ _)
  · rename_i heq
    rw [heq]
    rfl

/-- A separator at level zero begins a new piece. -/
lemma piecesFrom_cons_of_separator {a : α} (l : List α) (ho : isOpener (char a) = false)
    (hc : isCloser (char a) = false) (hs : separator (char a) = true) :
    piecesFrom char separator 0 (a :: l) = [] :: piecesFrom char separator 0 l := by
  simp [piecesFrom, ho, hc, hs]

/-- The first piece begins the sequence, and every other piece stands in it. -/
lemma exists_piecesFrom_eq (char : α → Char) (separator : Char → Bool) (level : Int)
    (l : List α) :
    ∃ first rest, piecesFrom char separator level l = first :: rest ∧ first <+: l ∧
      ∀ piece ∈ rest, piece <:+: l := by
  induction l generalizing level with
  | nil => exact ⟨[], [], rfl, List.prefix_rfl, by simp⟩
  | cons a l ih =>
    by_cases hcut : (!(isOpener (char a) || isCloser (char a)) && separator (char a) &&
      level == 0) = true
    · obtain ⟨first, rest, heq, hfirst, hrest⟩ := ih level
      refine ⟨[], first :: rest, ?_, List.nil_prefix, ?_⟩
      · rw [piecesFrom, if_pos hcut, heq]
      · intro piece hpiece
        rcases List.mem_cons.1 hpiece with rfl | hpiece
        · exact hfirst.isInfix.trans (List.suffix_cons a l).isInfix
        · exact (hrest piece hpiece).trans (List.suffix_cons a l).isInfix
    · obtain ⟨first, rest, heq, hfirst, hrest⟩ := ih (levelAfter level (char a))
      refine ⟨a :: first, rest, ?_, List.cons_prefix_cons.2 ⟨rfl, hfirst⟩, ?_⟩
      · rw [piecesFrom_cons_of_not l (Bool.not_eq_true _ ▸ hcut), heq, List.modifyHead_cons]
      · exact fun piece hpiece => (hrest piece hpiece).trans (List.suffix_cons a l).isInfix

/-- A piece stands in the sequence. -/
lemma infix_of_mem_piecesFrom {level : Int} {l piece : List α}
    (h : piece ∈ piecesFrom char separator level l) : piece <:+: l := by
  obtain ⟨first, rest, heq, hfirst, hrest⟩ := exists_piecesFrom_eq char separator level l
  rw [heq] at h
  rcases List.mem_cons.1 h with rfl | h
  · exact hfirst.isInfix
  · exact hrest piece h

/-- A sequence is not cut at a character that does not separate at level zero. -/
lemma not_separates_of_plain {level : Int} {c : Char} (h : level = 0 → separator c = false) :
    (!(isOpener c || isCloser c) && separator c && level == 0) = false := by
  by_cases hz : level = 0
  · simp [h hz]
  · simp [hz]

/-- A balanced text belongs to one piece, inside brackets or without separators outside its own
brackets. -/
lemma piecesFrom_append {p : Char → Prop} {cs : List Char} (h : Balanced p cs) {level : Int}
    (hl : 0 ≤ level) (hsep : level = 0 → ∀ c, p c → separator c = false) {a : List α}
    (ha : a.map char = cs) (rest : List α) :
    piecesFrom char separator level (a ++ rest) =
      (piecesFrom char separator level rest).modifyHead (a ++ ·) := by
  induction h generalizing level a rest with
  | nil =>
    obtain rfl := List.map_eq_nil_iff.1 ha
    cases hp : piecesFrom char separator level rest with
    | nil => exact absurd hp (piecesFrom_ne_nil level rest)
    | cons piece pieces => simp [hp]
  | plain opens closes holds _ ih =>
    obtain ⟨g, gs, rfl, rfl, rfl⟩ := List.map_eq_cons_iff.1 ha
    have hnot := not_separates_of_plain fun hz => hsep hz _ holds
    rw [List.cons_append, piecesFrom_cons_of_not _ hnot, levelAfter_plain _ opens closes,
      ih hl hsep rfl]
    simp [List.modifyHead_modifyHead, Function.comp_def]
  | group opens closes _ _ ihin ih =>
    obtain ⟨g, gs, rfl, rfl, hgs⟩ := List.map_eq_cons_iff.1 ha
    obtain ⟨inner, tail, rfl, rfl, htail⟩ := List.map_eq_append_iff.1 hgs
    obtain ⟨e, es, rfl, rfl, rfl⟩ := List.map_eq_cons_iff.1 htail
    have hopen : (!(isOpener (char g) || isCloser (char g)) && separator (char g) && level == 0)
        = false := by
      simp [opens]
    have hclose : (!(isOpener (char e) || isCloser (char e)) && separator (char e) &&
        level + 1 == 0) = false := by
      simp [closes]
    have hback : levelAfter (level + 1) (char e) = level := by
      rw [levelAfter_closer _ closes]
      omega
    rw [List.cons_append, List.append_assoc, List.cons_append, piecesFrom_cons_of_not _ hopen,
      levelAfter_opener _ opens, ihin (by omega) (by omega) rfl, piecesFrom_cons_of_not _ hclose,
      hback, ih hl hsep rfl]
    simp [List.modifyHead_modifyHead, Function.comp_def]

/-- The search for a separator passes over a balanced text that has none outside its brackets. -/
lemma untilSeparator_append {p : Char → Prop} {cs : List Char} (h : Balanced p cs) {level : Int}
    (hl : 0 ≤ level) (hsep : level = 0 → ∀ c, p c → separator c = false) {a : List α}
    (ha : a.map char = cs) (rest : List α) :
    untilSeparator char separator level (a ++ rest) =
      a ++ untilSeparator char separator level rest := by
  induction h generalizing level a rest with
  | nil =>
    obtain rfl := List.map_eq_nil_iff.1 ha
    simp
  | plain opens closes holds _ ih =>
    obtain ⟨g, gs, rfl, rfl, rfl⟩ := List.map_eq_cons_iff.1 ha
    have hnot := not_separates_of_plain fun hz => hsep hz _ holds
    rw [List.cons_append, untilSeparator, if_neg (by rw [hnot]; exact Bool.false_ne_true),
      levelAfter_plain _ opens closes,
      ih hl hsep rfl, List.cons_append]
  | group opens closes _ _ ihin ih =>
    obtain ⟨g, gs, rfl, rfl, hgs⟩ := List.map_eq_cons_iff.1 ha
    obtain ⟨inner, tail, rfl, rfl, htail⟩ := List.map_eq_append_iff.1 hgs
    obtain ⟨e, es, rfl, rfl, rfl⟩ := List.map_eq_cons_iff.1 htail
    have hback : levelAfter (level + 1) (char e) = level := by
      rw [levelAfter_closer _ closes]
      omega
    rw [List.cons_append, List.append_assoc, List.cons_append, untilSeparator,
      if_neg (by simp [opens]), levelAfter_opener _ opens, ihin (by omega) (by omega) rfl,
      untilSeparator, if_neg (by simp [closes]), hback, ih hl hsep rfl]
    simp

end Separators

end SwiftDependencies.Source
