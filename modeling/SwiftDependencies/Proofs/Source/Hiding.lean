import Mathlib.Tactic.Common
import SwiftDependencies.Proofs.Source.Extents

/-!
# What comments and literals hide

The skeleton blanks what is between the first and the last character of a literal.  The first one is
a mark, and so is the last one of a literal that is closed (`Lexeme.exists_last_mark`).  A literal
that is cut off by the end of its line or of the text ends with a character like any other, and the
skeleton shows it.

So a bracket, a comma, a colon or a letter of a literal is visible in one case only, and the depths
are those of the text without comments and literals exactly if no such character changes the depth
(`structure_of_covers`).
-/

namespace SwiftDependencies.Source

/-! ### Lexemes and their marks -/

/-- What holds of every lexeme that begins a text holds of every lexeme of a text. -/
lemma forall_mem_lexemes {P : Lexeme → Prop} (h : ∀ c cs, P (first c cs).1) {x : Lexeme}
    {cs : List Char} (hx : x ∈ lexemes cs) : P x := by
  fun_induction lexemes cs with
  | case1 => simp at hx
  | case2 c cs ih =>
    rcases List.mem_cons.1 hx with rfl | hx
    · exact h c cs
    · exact ih hx

/-- A frame whose closing, if it has one, ends with a mark. -/
def Frame.EndsWithMark : Frame → Prop
  | .literal closing _ _ => ∃ c ∈ closing.getLast?, IsMark c
  | .interpolation _ => True

/-- The frame that a literal is opened with ends it with a mark. -/
lemma endsWithMark_opening (hashes : Nat) (cs : List Char) :
    (opening hashes cs).2.EndsWithMark := by
  have hclosing : ∀ quotes : List Char,
      ∃ c ∈ ((quotes ++ ['"']) ++ List.replicate hashes '#').getLast?,
      IsMark c := by
    intro quotes
    cases hashes with
    | zero => exact ⟨'"', by simp, .inl rfl⟩
    | succ n =>
      refine ⟨'#', ?_, .inr rfl⟩
      rw [List.replicate_succ', ← List.append_assoc]
      exact List.getLast?_concat
  rw [opening_eq]
  split
  · exact hclosing ['"', '"']
  · exact hclosing []

/-- A step that ends a literal takes the closing of one of its frames. -/
lemma eq_closing_of_step {frames : List Frame} {c : Char} {cs : List Char} {extra : Nat}
    (h : step frames c cs = .finish extra) :
    ∃ closing raw short, Frame.literal closing raw short ∈ frames ∧
      (closing ≠ [] → c :: cs.take extra = closing) := by
  obtain ⟨closing, raw, short, hmem, ⟨rest, hrest⟩, rfl⟩ := exists_of_step_eq_finish h
  refine ⟨closing, raw, short, hmem, fun hne => ?_⟩
  have hlength : closing.length - 1 + 1 = closing.length := by
    have := List.length_pos_iff.2 hne
    omega
  rw [← List.take_succ_cons, ← hrest, hlength, List.take_left]

/-- The rest of a literal that is closed ends with a mark. -/
lemma exists_last_of_literalRest {frames : List Frame} (hf : ∀ f ∈ frames, f.EndsWithMark)
    {cs : List Char} (h : (literalRest frames cs).closed = true) :
    ∃ c ∈ (literalRest frames cs).text.getLast?, IsMark c := by
  fun_induction literalRest frames cs with
  | case1 frames => simp at h
  | case2 frames c cs extra frames' hstep ih =>
    obtain ⟨d, hd, hmark⟩ :=
      ih (forall_of_step endsWithMark_opening (fun _ => trivial) hf hstep) h
    refine ⟨d, ?_, hmark⟩
    rw [Taken.text_prepend, List.getLast?_append, Option.mem_def.1 hd]
    rfl
  | case3 frames c cs extra hstep =>
    obtain ⟨closing, raw, short, hmem, hclosing⟩ := eq_closing_of_step hstep
    obtain ⟨d, hd, hmark⟩ := hf _ hmem
    have hne : closing ≠ [] := by
      rintro rfl
      simp at hd
    exact ⟨d, by rw [hclosing hne]; exact hd, hmark⟩
  | case4 frames c cs hstep => simp at h

namespace Lexeme

/-- Whether a lexeme is a literal that is not closed. -/
def isOpenLiteral : Lexeme → Bool
  | .literal _ closed => !closed
  | _ => false

/-- What a lexeme shows if comments and literals are blanked as a whole. -/
def bare : Lexeme → List Char
  | .code c => [c]
  | .comment text _ => text.map blanked
  | .literal text _ => text.map blanked

/-- A lexeme without its inside is as long as its text. -/
@[simp] lemma length_bare (x : Lexeme) : x.bare.length = x.text.length := by
  cases x <;> simp [bare, text]

/-- A literal begins with a mark, and a literal that is closed ends with one. -/
def HasMarks : Lexeme → Prop
  | .literal text closed =>
    (∃ c ∈ text.head?, IsMark c) ∧ (closed = true → ∃ c ∈ text.getLast?, IsMark c)
  | _ => True

end Lexeme

/-- The first lexeme of a text has marks at its ends if it is a literal. -/
lemma hasMarks_first (c : Char) (cs : List Char) : (first c cs).1.HasMarks := by
  cases hstart : startsLiteral (c :: cs) with
  | false =>
    unfold first
    split
    · trivial
    split
    · trivial
    · rw [hstart]
      trivial
  | true =>
    rw [first_of_startsLiteral hstart]
    obtain ⟨hashes, body, hh, hb, hsplit⟩ :
        ∃ hashes body, (∀ c ∈ hashes, (c == '#') = true) ∧
        body.head? = some '"' ∧ c :: cs = hashes ++ body :=
      ⟨_, _, List.all_eq_true.1 List.all_takeWhile, beq_iff_eq.1 hstart,
        List.takeWhile_append_dropWhile.symm⟩
    rw [hsplit, takeLiteral_eq hh hb]
    have hends := endsWithMark_opening hashes.length body
    have hopens : ((body.take (opening hashes.length body).1.length).head?) = some '"' := by
      have hpos : 0 < (opening hashes.length body).1.length := by
        rw [opening_eq]
        split <;> exact Nat.succ_pos _
      rw [List.head?_take, if_neg (by omega), hb]
    constructor
    · rw [Taken.text_prepend, List.append_assoc]
      cases hashes with
      | nil =>
        refine ⟨'"', ?_, .inl rfl⟩
        rw [List.nil_append, List.head?_append, hopens]
        rfl
      | cons d hashes =>
        exact ⟨d, rfl, .inr (beq_iff_eq.1 (hh d List.mem_cons_self))⟩
    · intro hclosed
      obtain ⟨d, hd, hmark⟩ := exists_last_of_literalRest (by simpa using hends) hclosed
      refine ⟨d, ?_, hmark⟩
      rw [Taken.text_prepend, List.getLast?_append, Option.mem_def.1 hd]
      rfl

/-- The literals of a text have marks at their ends. -/
lemma Lexeme.hasMarks {x : Lexeme} {cs : List Char} (h : x ∈ lexemes cs) : x.HasMarks :=
  forall_mem_lexemes hasMarks_first h

/-! ### What the skeleton shows -/

/-- A character that gives a manifest its structure: a bracket, a comma, a colon, or a letter or
digit of a name. -/
def IsStructural (c : Char) : Prop :=
  isOpener c = true ∨ isCloser c = true ∨ c = ',' ∨ c = ':' ∨ Text.isWord c = true

/-- A blanked character has no meaning for the structure. -/
lemma IsBlanked.not_structural {c : Char} (h : IsBlanked c) : ¬IsStructural c := by
  have hspace : Text.isWord ' ' = false ∧ Text.isWord '\n' = false := by decide +kernel
  rintro (ho | hc | rfl | rfl | hw)
  · rcases h with rfl | rfl <;> exact absurd ho (by decide)
  · rcases h with rfl | rfl <;> exact absurd hc (by decide)
  · rcases h with h | h <;> exact absurd h (by decide)
  · rcases h with h | h <;> exact absurd h (by decide)
  · rcases h with rfl | rfl <;> simp [hspace] at hw

/-- The marks of literals have no meaning for the structure. -/
lemma IsMark.not_structural {c : Char} (h : IsMark c) : ¬IsStructural c := by
  have hword : Text.isWord '"' = false ∧ Text.isWord '#' = false := by decide +kernel
  rintro (ho | hc | rfl | rfl | hw)
  · rcases h with rfl | rfl <;> exact absurd ho (by decide)
  · rcases h with rfl | rfl <;> exact absurd hc (by decide)
  · rcases h with h | h <;> exact absurd h (by decide)
  · rcases h with h | h <;> exact absurd h (by decide)
  · rcases h with rfl | rfl <;> simp [hword] at hw

/-- What is neither a bracket nor a name leaves the depth as it is. -/
lemma depthAfter_of_not_structural {c : Char} (h : ¬IsStructural c) (depth : Nat) :
    depthAfter depth c = depth := by
  have ho : isOpener c = false := Bool.eq_false_iff.2 fun ho => h (.inl ho)
  have hc : isCloser c = false := Bool.eq_false_iff.2 fun hc => h (.inr (.inl hc))
  simp [depthAfter, ho, hc]

/-- Between its first and its last character a literal is blanked. -/
lemma getElem?_blankInside {cs : List Char} {k : Nat} (hk : k < cs.length) :
    (k = 0 ∨ k + 1 = cs.length) ∧ (blankInside cs)[k]? = cs[k]? ∨
      k ≠ 0 ∧ k + 1 ≠ cs.length ∧ (blankInside cs)[k]? = some (blanked cs[k]) := by
  match cs, k with
  | [], _ => simp at hk
  | [c], k =>
    obtain rfl : k = 0 := by simpa using hk
    exact .inl ⟨.inl rfl, rfl⟩
  | c :: d :: cs, 0 => exact .inl ⟨.inl rfl, rfl⟩
  | c :: d :: cs, k + 1 =>
    have hlength : ((d :: cs).dropLast.map blanked).length = cs.length := by simp
    rw [blankInside, List.getElem?_cons_succ]
    simp only [List.length_cons] at hk
    rcases Nat.lt_or_eq_of_le (show k ≤ cs.length by omega) with hlt | rfl
    · refine .inr ⟨by omega, by simp; omega, ?_⟩
      rw [List.getElem?_append_left (by omega), List.getElem?_map, List.getElem?_dropLast,
        if_pos (by simpa using hlt), List.getElem?_eq_getElem (by simp; omega)]
      rfl
    · refine .inl ⟨.inr (by simp), ?_⟩
      rw [List.getElem?_append_right (by omega), hlength, Nat.sub_self, List.getElem?_cons_succ,
        List.getLast_eq_getElem]
      simp

/-- Of a comment or a literal the skeleton shows what is not structural, or the last character of a
literal that is not closed. -/
lemma Lexeme.not_structural_or {x : Lexeme} (hx : x.isCover = true) (hmarks : x.HasMarks) {k : Nat}
    (hk : k < x.text.length) {c : Char} (hc : x.skeleton[k]? = some c) :
    ¬IsStructural c ∨ x.isOpenLiteral = true ∧ k + 1 = x.text.length ∧
    x.text[k]? = some c := by
  cases x with
  | code d => simp [isCover, isComment, isLiteral] at hx
  | comment text closed =>
    rw [skeleton, List.getElem?_map] at hc
    obtain ⟨d, -, rfl⟩ := Option.map_eq_some_iff.1 hc
    exact .inl (isBlanked_blanked d).not_structural
  | literal text closed =>
    have hk : k < text.length := hk
    obtain ⟨hhead, hlast⟩ := hmarks
    rcases getElem?_blankInside hk with ⟨hends, hsame⟩ | ⟨-, -, hblank⟩
    · have htext : text[k]? = some c := hsame.symm.trans hc
      rcases hends with rfl | hend
      · -- the first quote or number sign
        obtain ⟨d, hd, hmark⟩ := hhead
        rw [List.head?_eq_getElem?, htext] at hd
        obtain rfl := Option.some.inj hd
        exact .inl hmark.not_structural
      · cases closed with
        | true =>
          obtain ⟨d, hd, hmark⟩ := hlast rfl
          rw [List.getLast?_eq_getElem?, ← hend, Nat.add_sub_cancel, htext] at hd
          obtain rfl := Option.some.inj hd
          exact .inl hmark.not_structural
        | false => exact .inr ⟨rfl, hend, htext⟩
    · obtain rfl : blanked text[k] = c := Option.some.inj (hblank.symm.trans hc)
      exact .inl (isBlanked_blanked _).not_structural

section At

variable {cs : List Char} {e : Extent} {i : Nat} {c : Char}

/-- The extents of the literals of a text that are not closed, in order. -/
def openLiterals (cs : List Char) : List Extent :=
  extents Lexeme.isOpenLiteral cs

/-- The text with all of its comments and literals blanked. -/
def bare (cs : List Char) : List Char :=
  (lexemes cs).flatMap Lexeme.bare

/-- What the skeleton shows in a comment or a literal is not structural, or it is the last character
of a literal that is not closed. -/
lemma not_structural_or_of_mem_covers (he : e ∈ covers cs) (hi : i ∈ e)
    (hc : (skeleton cs)[i]? = some c) :
    ¬IsStructural c ∨ e ∈ openLiterals cs ∧ i + 1 = e.stop ∧ cs[i]? = some c := by
  obtain ⟨before, x, after, k, hsplit, hx, hk, rfl, rfl⟩ := exists_of_mem_extents he hi
  have hmem : x ∈ lexemes cs := by simp [hsplit]
  rw [getElem?_skeleton hsplit hk] at hc
  rw [getElem?_text hsplit hk]
  refine (Lexeme.not_structural_or hx (Lexeme.hasMarks hmem) hk hc).imp_right ?_
  rintro ⟨hopen, hend, htext⟩
  refine ⟨mem_extents.2 ⟨before, x, after, hsplit, hopen, rfl⟩, ?_, htext⟩
  dsimp only
  omega

/-- The skeleton shows the last character of a literal that is not closed. -/
lemma getElem?_skeleton_of_mem_openLiterals (he : e ∈ openLiterals cs) (hlast : i + 1 = e.stop) :
    e ∈ covers cs ∧ i ∈ e ∧ (skeleton cs)[i]? = cs[i]? := by
  have hi : i ∈ e := by
    have hbounds := bounds_of_mem_extents he
    rw [Extent.mem_iff]
    omega
  obtain ⟨before, x, after, k, hsplit, hx, hk, rfl, rfl⟩ := exists_of_mem_extents he hi
  cases x with
  | code d => simp [Lexeme.isOpenLiteral] at hx
  | comment text closed => simp [Lexeme.isOpenLiteral] at hx
  | literal text closed =>
    refine ⟨mem_extents.2 ⟨before, _, after, hsplit, rfl, rfl⟩, hi, ?_⟩
    rw [getElem?_text hsplit hk, getElem?_skeleton hsplit hk]
    rcases getElem?_blankInside hk with ⟨-, hsame⟩ | ⟨-, hne, -⟩
    · exact hsame
    · refine absurd ?_ hne
      have hlength : (Lexeme.literal text closed).text.length = text.length := rfl
      dsimp only at hlast
      omega

/-- Without comments and literals there is nothing structural in them. -/
lemma not_structural_bare (he : e ∈ covers cs) (hi : i ∈ e) (hc : (bare cs)[i]? = some c) :
    ¬IsStructural c := by
  obtain ⟨before, x, after, k, hsplit, hx, hk, rfl, rfl⟩ := exists_of_mem_extents he hi
  have hbare : x.bare = x.text.map blanked := by
    cases x with
    | code d => simp [Lexeme.isCover, Lexeme.isComment, Lexeme.isLiteral] at hx
    | _ => rfl
  rw [bare, hsplit, getElem?_flatMap Lexeme.length_bare _ _ _ hk, hbare, List.getElem?_map] at hc
  obtain ⟨d, -, rfl⟩ := Option.map_eq_some_iff.1 hc
  exact (isBlanked_blanked d).not_structural

end At

/-! ### Depths -/

/-- Two texts have the same depths exactly if their characters do the same to the depths. -/
lemma depthsFrom_eq_iff {cs ds : List Char} (h : cs.length = ds.length) (depth : Nat) :
    depthsFrom depth cs = depthsFrom depth ds ↔
      ∀ (i n : Nat) (c d : Char), (depthsFrom depth cs)[i]? = some n → cs[i]? = some c →
        ds[i]? = some d → depthAfter n c = depthAfter n d := by
  induction cs generalizing ds depth with
  | nil =>
    obtain rfl := List.length_eq_zero_iff.1 h.symm
    simp
  | cons c cs ih =>
    cases ds with
    | nil => simp at h
    | cons d ds =>
      have hlength : cs.length = ds.length := Nat.succ.inj h
      have hstart : ∀ (n : Nat) (l : List Char), (depthsFrom n l).head? = some n := by
        intro n l
        cases l <;> rfl
      rw [depthsFrom, depthsFrom, List.cons.injEq, eq_self, true_and]
      constructor
      · intro heq i n c' d' hn hc hd
        have hnext : depthAfter depth c = depthAfter depth d := by
          have := congrArg List.head? heq
          rwa [hstart, hstart, Option.some.injEq] at this
        cases i with
        | zero =>
          obtain rfl := Option.some.inj hn
          obtain rfl := Option.some.inj hc
          obtain rfl := Option.some.inj hd
          exact hnext
        | succ i =>
          rw [← hnext] at heq
          exact (ih hlength _).1 heq i n c' d' hn hc hd
      · intro hall
        rw [← hall 0 depth c d rfl rfl rfl]
        exact (ih hlength _).2 fun i n c' d' hn hc hd => hall (i + 1) n c' d' hn hc hd

/-- Of what a text has in its comments and literals, the skeleton shows one kind of structure only:
the last character of a literal that is not closed. The depths are those of the text without its
comments and literals exactly if none of these characters changes the depth that it is found at. -/
theorem structure_of_covers (cs : List Char) :
    (∀ e ∈ covers cs, ∀ i ∈ e, ∀ c, IsStructural c →
      ((skeleton cs)[i]? = some c ↔
        e ∈ openLiterals cs ∧ i + 1 = e.stop ∧ cs[i]? = some c)) ∧
    (depths (skeleton cs) = depths (bare cs) ↔
      ∀ e ∈ openLiterals cs, ∀ i c n, i + 1 = e.stop → cs[i]? = some c →
        (depths (skeleton cs))[i]? = some n → depthAfter n c = n) := by
  have hlength : (skeleton cs).length = (bare cs).length := by
    rw [length_skeleton]
    conv => lhs; rw [← text_lexemes cs]
    simp [bare, List.length_flatMap]
  constructor
  · intro e he i hi c hc
    constructor
    · intro hskeleton
      exact (not_structural_or_of_mem_covers he hi hskeleton).resolve_left fun hnot => hnot hc
    · rintro ⟨hopen, hstop, htext⟩
      rw [(getElem?_skeleton_of_mem_openLiterals hopen hstop).2.2, htext]
  · rw [depths, depths, depthsFrom_eq_iff hlength]
    constructor
    · intro hall e he i c n hi hc hn
      obtain ⟨hcover, hmem, hskeleton⟩ := getElem?_skeleton_of_mem_openLiterals he hi
      obtain ⟨d, hd⟩ : ∃ d, (bare cs)[i]? = some d := by
        have hlt := (List.getElem?_eq_some_iff.1 (hskeleton.trans hc)).1
        exact ⟨_, List.getElem?_eq_getElem (hlength ▸ hlt)⟩
      rw [hall i n c d hn (hskeleton.trans hc) hd]
      exact depthAfter_of_not_structural (not_structural_bare hcover hmem hd) n
    · intro hall i n c d hn hc hd
      by_cases hcover : ∃ e ∈ covers cs, i ∈ e
      · obtain ⟨e, he, hi⟩ := hcover
        rw [depthAfter_of_not_structural (not_structural_bare he hi hd)]
        rcases not_structural_or_of_mem_covers he hi hc with hnot | ⟨hopen, hstop, htext⟩
        · exact depthAfter_of_not_structural hnot n
        · exact hall e hopen i c n hstop htext hn
      · -- outside comments and literals both views show the text
        have hsame : (skeleton cs)[i]? = (bare cs)[i]? := by
          refine getElem?_eq_of_not_mem Lexeme.length_skeleton Lexeme.length_bare ?_
            fun e he hi => hcover ⟨e, he, hi⟩
          intro x hx
          cases x with
          | code c => rfl
          | comment text closed => rfl
          | literal text closed => simp [Lexeme.isCover, Lexeme.isLiteral] at hx
        obtain rfl : c = d := Option.some.inj (hc.symm.trans (hsame.trans hd))
        rfl

/-- A literal that is not closed is counted with the bracket at its end. -/
theorem depths_of_open_literal :
    covers "\"(".toList = [⟨0, 2⟩] ∧ (skeleton "\"(".toList)[1]? = some '(' ∧
      depths (skeleton "\"(".toList) = [0, 0, 1] ∧ depths (bare "\"(".toList) = [0, 0, 0] := by
  decide +kernel

end SwiftDependencies.Source
