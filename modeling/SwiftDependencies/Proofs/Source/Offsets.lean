import Mathlib.Data.List.Forall2
import Mathlib.Data.List.Induction
import Mathlib.Tactic.Common
import SwiftDependencies.Proofs.Manifest.Fragments

/-!
# Reading by offsets

A reader that is given a text and two offsets looks up one character after the other.  Here the
loops of `Source.Text` and `Source.Bracket` are written in this way.  Every look-up is checked: the
result is `none` if an offset is not within the text, and an answer otherwise.

What a loop is to do is known from the function that is given the characters themselves.  An extent
*holds* a stretch of a text if the stretch stands there (`Extent.Holds`), and on an extent that
holds something each loop has an answer, which is that of the function for what is held.  So no
look-up fails.
-/

namespace SwiftDependencies.Source

variable {α : Type}

/-! ### What an extent holds -/

/-- The extent holds a part of a sequence. -/
structure Extent.Holds (e : Extent) (whole part : List α) : Prop where
  stop : e.stop = e.start + part.length
  here : part <+: whole.drop e.start

namespace Extent.Holds

variable {whole part a b : List α} {i j k : Nat} {x : α}

/-- An empty extent holds the empty part. -/
lemma nil (whole : List α) (i : Nat) : Holds ⟨i, i⟩ whole [] :=
  ⟨rfl, List.nil_prefix⟩

/-- An extent holds a part if its first offset holds the first element and the rest of it
the rest. -/
lemma cons_iff :
    Holds ⟨i, j⟩ whole (x :: part) ↔
      whole[i]? = some x ∧ Holds ⟨i + 1, j⟩ whole part := by
  have hprefix : x :: part <+: whole.drop i ↔
      whole[i]? = some x ∧ part <+: whole.drop (i + 1) := by
    have hhead : whole[i]? = (whole.drop i).head? := by
      rw [List.head?_drop]
    rw [hhead, ← List.tail_drop]
    cases whole.drop i with
    | nil => simp
    | cons y rest =>
      rw [List.cons_prefix_cons, List.head?_cons, List.tail_cons, Option.some.injEq, eq_comm]
  constructor
  · intro h
    obtain ⟨hx, hpart⟩ := hprefix.1 h.here
    have hstop := h.stop
    rw [List.length_cons] at hstop
    exact ⟨hx, ⟨by dsimp only at hstop ⊢; omega, hpart⟩⟩
  · rintro ⟨hx, h⟩
    have hstop := h.stop
    refine ⟨?_, hprefix.2 ⟨hx, h.here⟩⟩
    rw [List.length_cons]
    dsimp only at hstop ⊢
    omega

/-- An extent holds two parts in a row if it holds the first and, from where that ends,
the second. -/
lemma append_iff :
    Holds ⟨i, k⟩ whole (a ++ b) ↔
      Holds ⟨i, i + a.length⟩ whole a ∧ Holds ⟨i + a.length, k⟩ whole b := by
  induction a generalizing i with
  | nil =>
    rw [List.nil_append, List.length_nil, Nat.add_zero]
    exact ⟨fun h => ⟨nil whole i, h⟩, And.right⟩
  | cons x a ih =>
    rw [List.cons_append, cons_iff, cons_iff, ih, List.length_cons, and_assoc,
      Nat.add_right_comm i 1, Nat.add_assoc i]

/-- An extent stops where the part that it holds ends. -/
lemma stop_eq (h : Holds ⟨i, j⟩ whole part) : j = i + part.length :=
  h.stop

/-- The first part of what an extent holds is held by an extent that begins there. -/
lemma left (h : Holds ⟨i, k⟩ whole (a ++ b)) : Holds ⟨i, i + a.length⟩ whole a :=
  (append_iff.1 h).1

/-- The second part of what an extent holds is held by an extent that ends there. -/
lemma right (h : Holds ⟨i, k⟩ whole (a ++ b)) : Holds ⟨k - b.length, k⟩ whole b := by
  have hb := (append_iff.1 h).2
  have hk : k - b.length = i + a.length := by
    have := hb.stop_eq
    omega
  rwa [hk]

/-- The end of a part is held by the end of its extent. -/
lemma suffix (h : Holds ⟨i, k⟩ whole part) (hb : b <:+ part) :
    Holds ⟨k - b.length, k⟩ whole b := by
  obtain ⟨a, rfl⟩ := hb
  exact h.right

/-- The beginning of a part is held by the beginning of its extent. -/
lemma take (h : Holds ⟨i, k⟩ whole part) (n : Nat) :
    Holds ⟨i, i + (part.take n).length⟩ whole (part.take n) := by
  rw [← List.take_append_drop n part] at h
  exact h.left

/-- The whole of a sequence. -/
lemma refl (whole : List α) : Holds ⟨0, whole.length⟩ whole whole :=
  ⟨(Nat.zero_add _).symm, List.prefix_rfl⟩

/-- An extent up to the end holds all that follows its start. -/
lemma eq_drop (h : Holds ⟨i, whole.length⟩ whole part) : part = whole.drop i := by
  have hstop := h.stop_eq
  refine h.here.eq_of_length ?_
  rw [List.length_drop]
  show part.length = whole.length - i
  omega

/-- The elements of a part are those from the start of its extent. -/
lemma getElem?_add (h : Holds ⟨i, j⟩ whole part) {n : Nat} (hn : n < part.length) :
    whole[i + n]? = part[n]? := by
  obtain ⟨more, hmore⟩ := h.here
  rw [← List.getElem?_drop, ← hmore, List.getElem?_append_left hn]

/-- An extent is not empty if the part that it holds is not. -/
lemma lt_iff (h : Holds ⟨i, j⟩ whole part) : i < j ↔ part ≠ [] := by
  rw [← List.length_pos_iff, h.stop_eq]
  omega

end Extent.Holds

/-! ### Blanks -/

section Blanks

variable {s : List Char} {gs f : Fragment} {i j : Nat}

/-- The first offset up to `stop` at which there is no blank. -/
def skipAt? (s : List Char) (i stop : Nat) : Option Nat :=
  if i < stop then do
    let c ← s[i]?
    if Text.isBlank c then skipAt? s (i + 1) stop else some i
  else some i
termination_by stop - i

/-- The last offset down to `start` before which there is no blank. -/
def skipBackAt? (s : List Char) (start i : Nat) : Option Nat :=
  if start < i then do
    let c ← s[i - 1]?
    if Text.isBlank c then skipBackAt? s start (i - 1) else some i
  else some i
termination_by i

/-- An extent without the blanks at its ends. -/
def trimAt? (s : List Char) (e : Extent) : Option Extent := do
  let start ← skipAt? s e.start e.stop
  let stop ← skipBackAt? s start e.stop
  some ⟨start, stop⟩

/-- The character that a glyph shows is looked up in the skeleton. -/
lemma getElem?_chars {g : Glyph} (h : gs[i]? = some g) : gs.chars[i]? = some g.skeleton := by
  rw [Fragment.chars, List.getElem?_map, h, Option.map_some]

/-- From where an extent begins, the skeleton shows what the extent holds. -/
lemma exists_drop_chars (h : Extent.Holds ⟨i, j⟩ gs f) :
    ∃ rest, gs.chars.drop i = f.chars ++ rest := by
  obtain ⟨rest, hrest⟩ := h.here
  refine ⟨Fragment.chars rest, ?_⟩
  rw [Fragment.chars, ← List.map_drop, ← hrest, ← Fragment.chars_append]
  rfl

/-- What a text shows from an offset to the end is what the rest of it shows. -/
lemma drop_chars (h : Extent.Holds ⟨i, gs.length⟩ gs f) : gs.chars.drop i = f.chars := by
  rw [h.eq_drop, Fragment.chars, Fragment.chars, List.map_drop]

/-- There is an offset behind the blanks, from which what is left without them begins. -/
lemma exists_skipAt? (h : Extent.Holds ⟨i, j⟩ gs f) :
    ∃ k, skipAt? gs.chars i j = some k ∧ Extent.Holds ⟨k, j⟩ gs f.skipBlanks := by
  induction f generalizing i with
  | nil =>
    obtain rfl := h.stop_eq
    refine ⟨j, ?_, h⟩
    rw [skipAt?, if_neg (Nat.lt_irrefl j)]
  | cons g f ih =>
    obtain ⟨hg, hf⟩ := Extent.Holds.cons_iff.1 h
    have hlt : i < j := h.lt_iff.2 (List.cons_ne_nil g f)
    rw [skipAt?, if_pos hlt, getElem?_chars hg, Option.bind_eq_bind, Option.bind_some]
    rw [← Glyph.isBlank, Fragment.skipBlanks]
    by_cases hb : g.isBlank = true
    · rw [if_pos hb, List.dropWhile_cons_of_pos hb]
      exact ih hf
    · rw [if_neg hb, List.dropWhile_cons_of_neg hb]
      exact ⟨i, rfl, h⟩

/-- There is an offset before the blanks at the end, up to which what is left without them goes. -/
lemma exists_skipBackAt? (h : Extent.Holds ⟨i, j⟩ gs f) :
    ∃ k, skipBackAt? gs.chars i j = some k ∧
      Extent.Holds ⟨i, k⟩ gs (Text.dropEnd Glyph.isBlank f) := by
  induction f using List.reverseRecOn generalizing j with
  | nil =>
    obtain rfl := h.stop_eq
    refine ⟨j, ?_, h⟩
    rw [skipBackAt?, if_neg (Nat.lt_irrefl j)]
  | append_singleton f g ih =>
    have hj : j = i + f.length + 1 := by simpa [Nat.add_assoc] using h.stop_eq
    obtain ⟨hf, hlast⟩ := Extent.Holds.append_iff.1 h
    have hg : gs[i + f.length]? = some g := (Extent.Holds.cons_iff.1 hlast).1
    rw [skipBackAt?, if_pos (by omega), hj, Nat.add_sub_cancel, getElem?_chars hg,
      Option.bind_eq_bind, Option.bind_some, Text.dropEnd, List.reverse_append,
      List.reverse_singleton, List.singleton_append, ← Glyph.isBlank]
    by_cases hb : g.isBlank = true
    · rw [if_pos hb, List.dropWhile_cons_of_pos hb]
      exact ih hf
    · rw [if_neg hb, List.dropWhile_cons_of_neg hb, List.reverse_cons, List.reverse_reverse]
      rw [hj] at h
      exact ⟨_, rfl, h⟩

/-- There are offsets between which a fragment stands without the blanks around it. -/
lemma exists_trimAt? {e : Extent} (h : e.Holds gs f) :
    ∃ t, trimAt? gs.chars e = some t ∧ t.Holds gs f.trimmed := by
  obtain ⟨start, hstart, hskip⟩ := exists_skipAt? h
  obtain ⟨stop, hstop, hback⟩ := exists_skipBackAt? hskip
  refine ⟨⟨start, stop⟩, ?_, hback⟩
  simp only [trimAt?, hstart, hstop, Option.bind_eq_bind, Option.bind_some]

end Blanks

/-! ### Brackets -/

section Brackets

variable {s : List Char} {gs f : Fragment} {i j : Nat} {level : Int}

/-- The offset of the closer that brings the level back to zero, if there is one. -/
def closingAt? (s : List Char) (level : Int) (i : Nat) : Option (Option Nat) :=
  if i < s.length then do
    let c ← s[i]?
    if isCloser c && levelAfter level c == 0 then some (some i)
    else closingAt? s (levelAfter level c) (i + 1)
  else some none
termination_by s.length - i

/-- The offset of the closing bracket is where the search in the rest of the text ends. -/
lemma closingAt?_eq (s : List Char) (level : Int) (i : Nat) :
    closingAt? s level i = some ((closingFrom? level (s.drop i)).map (i + ·)) := by
  induction hlength : s.length - i generalizing level i with
  | zero =>
    have hi : s.length ≤ i := by omega
    rw [closingAt?, if_neg (by omega), List.drop_of_length_le hi, closingFrom?, Option.map_none]
  | succ n ih =>
    have hi : i < s.length := by omega
    rw [closingAt?, if_pos hi, List.getElem?_eq_getElem hi, Option.bind_eq_bind, Option.bind_some,
      List.drop_eq_getElem_cons hi, closingFrom?]
    split
    · rfl
    · rw [ih _ _ (by omega), Option.map_map]
      congr 2
      funext m
      simp only [Function.comp]
      omega

/-- A bracket that is closed within a part of a text is closed there. -/
lemma closingFrom?_append_eq_some_iff {a : List Char} {n : Nat} (hn : n < a.length)
    (rest : List Char) :
    closingFrom? level (a ++ rest) = some n ↔ closingFrom? level a = some n := by
  induction a generalizing level n with
  | nil => simp at hn
  | cons c a ih =>
    simp only [List.cons_append, closingFrom?]
    split
    · rfl
    · cases n with
      | zero => simp
      | succ n =>
        have hrest : closingFrom? (levelAfter level c) (a ++ rest) = some n ↔
            closingFrom? (levelAfter level c) a = some n := ih (Nat.lt_of_succ_lt_succ hn)
        simpa [Option.map_eq_some_iff] using hrest

/-- What an extent holds ends with the closing bracket if the closing bracket is the last that the
extent reaches. -/
lemma closingAt?_eq_some_iff {n : Nat} (h : Extent.Holds ⟨i, j⟩ gs f) (hn : n < f.length) :
    closingAt? gs.chars level i = some (some (i + n)) ↔ closingFrom? level f.chars = some n := by
  obtain ⟨rest, hchars⟩ := exists_drop_chars h
  have hadd : ∀ m, i + m = i + n ↔ m = n := fun m => Nat.add_left_cancel_iff
  rw [closingAt?_eq, hchars, Option.some.injEq, Option.map_eq_some_iff,
    ← closingFrom?_append_eq_some_iff (a := f.chars) (by simpa using hn) rest]
  simp only [hadd, exists_eq_right]

/-- The offset of the first comma at level zero, or where the extent ends. -/
def commaAt? (s : List Char) (level : Int) (i stop : Nat) : Option Nat :=
  if i < stop then do
    let c ← s[i]?
    if isOpener c || isCloser c then commaAt? s (levelAfter level c) (i + 1) stop
    else if c == ',' && level == 0 then some i
    else commaAt? s level (i + 1) stop
  else some stop
termination_by stop - i

/-- What is no bracket keeps the level. -/
lemma levelAfter_of_not {c : Char} (h : (isOpener c || isCloser c) = false) (level : Int) :
    levelAfter level c = level := by
  rw [Bool.or_eq_false_iff] at h
  exact levelAfter_plain level h.1 h.2

/-- There is an offset up to which a fragment has no comma outside brackets. -/
lemma exists_commaAt? (level : Int) (h : Extent.Holds ⟨i, j⟩ gs f) :
    ∃ k, commaAt? gs.chars level i j = some k ∧
      Extent.Holds ⟨i, k⟩ gs (untilSeparator (·.skeleton) (· == ',') level f) := by
  induction f generalizing i level with
  | nil =>
    obtain rfl := h.stop_eq
    refine ⟨j, ?_, h⟩
    rw [commaAt?, if_neg (Nat.lt_irrefl j)]
  | cons g f ih =>
    obtain ⟨hg, hf⟩ := Extent.Holds.cons_iff.1 h
    have hlt : i < j := h.lt_iff.2 (List.cons_ne_nil g f)
    rw [commaAt?, if_pos hlt, getElem?_chars hg, Option.bind_eq_bind, Option.bind_some,
      untilSeparator]
    by_cases hb : (isOpener g.skeleton || isCloser g.skeleton) = true
    · obtain ⟨k, hk, hholds⟩ := ih (levelAfter level g.skeleton) hf
      rw [if_pos hb, if_neg (by simp [hb])]
      exact ⟨k, hk, Extent.Holds.cons_iff.2 ⟨hg, hholds⟩⟩
    · rw [Bool.not_eq_true] at hb
      rw [if_neg (by simp [hb]), levelAfter_of_not hb]
      by_cases hc : (g.skeleton == ',' && level == 0) = true
      · rw [if_pos hc, if_pos (by simpa [hb] using hc)]
        exact ⟨i, rfl, .nil gs i⟩
      · obtain ⟨k, hk, hholds⟩ := ih level hf
        rw [if_neg hc, if_neg (by simpa [hb] using hc)]
        exact ⟨k, hk, Extent.Holds.cons_iff.2 ⟨hg, hholds⟩⟩

/-- The extents between the commas at level zero, the first of them begun at `first`. -/
def piecesAt? (s : List Char) (level : Int) (first i stop : Nat) : Option (List Extent) :=
  if i < stop then do
    let c ← s[i]?
    if isOpener c || isCloser c then piecesAt? s (levelAfter level c) first (i + 1) stop
    else if c == ',' && level == 0 then do
      let piece ← trimAt? s ⟨first, i⟩
      let rest ← piecesAt? s level (i + 1) (i + 1) stop
      some (piece :: rest)
    else piecesAt? s level first (i + 1) stop
  else do
    let piece ← trimAt? s ⟨first, stop⟩
    some [piece]
termination_by stop - i

/-- The extents of the items between the commas at level zero, without the empty ones. -/
def itemsAt? (s : List Char) (e : Extent) : Option (List Extent) := do
  let pieces ← piecesAt? s 0 e.start e.start e.stop
  some (pieces.filter fun p => p.start < p.stop)

/-- Extents hold the pieces of a fragment, each without its margins. -/
def HoldEach (gs : Fragment) (es : List Extent) (pieces : List Fragment) : Prop :=
  List.Forall₂ (fun e (piece : Fragment) => e.Holds gs piece.trimmed) es pieces

/-- There are offsets between which the pieces of a fragment stand, the first with what has been
read of it before. -/
lemma exists_piecesAt? (level : Int) {read : Fragment} {first : Nat}
    (hread : Extent.Holds ⟨first, i⟩ gs read) (h : Extent.Holds ⟨i, j⟩ gs f) :
    ∃ es, piecesAt? gs.chars level first i j = some es ∧
      HoldEach gs es
        ((piecesFrom (·.skeleton) (· == ',') level f).modifyHead (read ++ ·)) := by
  induction f generalizing i level first read with
  | nil =>
    obtain rfl := h.stop_eq
    obtain ⟨piece, hpiece, hholds⟩ := exists_trimAt? hread
    refine ⟨[piece], ?_, ?_⟩
    · rw [piecesAt?, if_neg (Nat.lt_irrefl j), hpiece, Option.bind_eq_bind, Option.bind_some]
    · simpa [HoldEach, piecesFrom] using hholds
  | cons g f ih =>
    obtain ⟨hg, hf⟩ := Extent.Holds.cons_iff.1 h
    have hlt : i < j := h.lt_iff.2 (List.cons_ne_nil g f)
    have hread' : Extent.Holds ⟨first, i + 1⟩ gs (read ++ [g]) := by
      obtain rfl := hread.stop_eq
      exact Extent.Holds.append_iff.2 ⟨hread, Extent.Holds.cons_iff.2 ⟨hg, .nil gs _⟩⟩
    rw [piecesAt?, if_pos hlt, getElem?_chars hg, Option.bind_eq_bind, Option.bind_some]
    by_cases hb : (isOpener g.skeleton || isCloser g.skeleton) = true
    · rw [if_pos hb, piecesFrom_cons_of_not f (by simp [hb]), List.modifyHead_modifyHead]
      simpa [Function.comp_def] using ih _ hread' hf
    · rw [Bool.not_eq_true] at hb
      rw [if_neg (by simp [hb])]
      by_cases hc : (g.skeleton == ',' && level == 0) = true
      · obtain ⟨piece, hpiece, hholds⟩ := exists_trimAt? hread
        obtain ⟨rest, hrest, heach⟩ := ih level (.nil gs (i + 1)) hf
        have hlevel : level = 0 := by simpa using (Bool.and_eq_true_iff.1 hc).2
        refine ⟨piece :: rest, ?_, ?_⟩
        · rw [if_pos hc, hpiece, Option.bind_eq_bind, Option.bind_some, hrest]
          rfl
        · rw [Bool.or_eq_false_iff] at hb
          rw [hlevel, piecesFrom_cons_of_separator f hb.1 hb.2 (Bool.and_eq_true_iff.1 hc).1,
            List.modifyHead_cons, List.append_nil]
          refine .cons hholds ?_
          rw [hlevel] at heach
          cases hp : piecesFrom (fun g : Glyph => g.skeleton) (· == ',') 0 f with
          | nil => exact absurd hp (piecesFrom_ne_nil 0 f)
          | cons p ps => simpa [hp, HoldEach] using heach
      · rw [if_neg hc, piecesFrom_cons_of_not f (by simpa [hb] using hc),
          List.modifyHead_modifyHead, levelAfter_of_not hb]
        simpa [Function.comp_def] using ih _ hread' hf

/-- A piece is blank if nothing is left of it without its margins. -/
lemma trimmed_eq_nil_iff (f : Fragment) : f.trimmed = [] ↔ f.isBlank = true :=
  Text.dropMargins_eq_nil_iff.trans List.all_eq_true.symm

/-- The items of what an extent holds are held by the extents of its items. -/
theorem exists_itemsAt? {e : Extent} (h : e.Holds gs f) :
    ∃ es, itemsAt? gs.chars e = some es ∧ HoldEach gs es f.items := by
  obtain ⟨es, hes, heach⟩ := exists_piecesAt? 0 (.nil gs e.start) h
  have hsame : (piecesFrom (fun g : Glyph => g.skeleton) (· == ',') 0 f).modifyHead ([] ++ ·) =
      piecesFrom (fun g : Glyph => g.skeleton) (· == ',') 0 f := by
    cases piecesFrom (fun g : Glyph => g.skeleton) (· == ',') 0 f <;> rfl
  rw [hsame] at heach
  refine ⟨es.filter fun p => p.start < p.stop, ?_, ?_⟩
  · rw [itemsAt?, hes]
    rfl
  · rw [Fragment.items]
    clear hes
    generalize piecesFrom (fun g : Glyph => g.skeleton) (· == ',') 0 f = pieces at heach
    induction heach with
    | nil => exact .nil
    | @cons p piece ps pieces hp _ ih =>
      have hiff : p.start < p.stop ↔ Fragment.isBlank piece = false := by
        rw [Extent.Holds.lt_iff hp, Ne, trimmed_eq_nil_iff, Bool.not_eq_true]
      by_cases hblank : Fragment.isBlank piece = true
      · have hnot : ¬p.start < p.stop := by rw [hiff, hblank]; simp
        rw [List.filter_cons_of_neg (by simpa using hnot),
          List.filter_cons_of_neg (by simp [hblank])]
        exact ih
      · rw [List.filter_cons_of_pos (by simpa [hiff] using hblank),
          List.filter_cons_of_pos (by simpa using hblank)]
        exact .cons hp ih

end Brackets

end SwiftDependencies.Source
