import Mathlib.Data.List.Infix
import Mathlib.Data.List.TakeWhile
import Mathlib.Tactic.Common
import SwiftDependencies.Proofs.Source.Hiding
import SwiftDependencies.Proofs.Source.LineNumbers

/-!
# Lines and their comments

If all line breaks of a text are line feeds, it has the same lines as its clean view, at the same
places and with the same numbers (`Text.LineIn.inClean`).  What is left of a line that no block
comment meets is said by `Text.LineIn.exists_code`: the line is code and at most one comment, which
goes on to the end of the line, and of the comment there are blanks left.

The code does not end with a slash.  This takes more than the rule that two slashes begin a comment,
since a string literal may end with a slash if it is not closed; but such a literal goes on up to
the next line (`rest_of_open_literal`).
-/

namespace SwiftDependencies

namespace Text

/-! ### Lines that end with line feeds -/

/-- A text without line breaks other than line feeds. -/
def FeedsOnly (cs : List Char) : Prop :=
  ∀ c ∈ cs, isLineBreak c = true → c = '\n'

-- Named, since the quantifier would otherwise be decided by going through every character there is.
instance (cs : List Char) : Decidable (FeedsOnly cs) :=
  List.decidableBAll (fun c => isLineBreak c = true → c = '\n') cs

variable {cs ds line rest : List Char}

/-- If only line feeds break lines in a text, this holds for its beginnings. -/
lemma FeedsOnly.of_append_left {after : List Char} (h : FeedsOnly (cs ++ after)) : FeedsOnly cs :=
  fun c hc => h c (List.mem_append_left _ hc)

/-- If only line feeds break lines, lines are counted by line feeds. -/
lemma FeedsOnly.breaksByFeeds (h : FeedsOnly cs) : BreaksByFeeds cs := by
  rintro before c after rfl hc
  exact .inl (h c (by simp) hc)

/-- A line ends at its line feed. -/
lemma linesAfter_feed (acc : List Char) (begun : Bool)
    (hline : ∀ c ∈ line, isLineBreak c = false) (rest : List Char) :
    linesAfter acc begun (line ++ '\n' :: rest) = (acc.reverse ++ line) :: lines rest := by
  induction line generalizing acc begun with
  | nil => rw [List.nil_append, linesAfter_cons _ _ (by simp), if_pos (by decide), List.append_nil]
  | cons c line ih =>
    rw [List.forall_mem_cons] at hline
    have hpair : ¬(c = '\r' ∧ (line ++ '\n' :: rest).head? = some '\n') := by
      rintro ⟨rfl, -⟩
      exact absurd hline.1 (by decide)
    rw [List.cons_append, linesAfter_cons _ _ hpair, if_neg (by simp [hline.1]), ih _ _ hline.2]
    simp

/-- A line that ends with a line feed comes before the lines of the rest. -/
lemma lines_feed (hline : ∀ c ∈ line, isLineBreak c = false) (rest : List Char) :
    lines (line ++ '\n' :: rest) = line :: lines rest :=
  linesAfter_feed [] false hline rest

/-- A text without line breaks is one line, unless there is nothing. -/
lemma linesAfter_unbroken (acc : List Char) (begun : Bool)
    (hline : ∀ c ∈ line, isLineBreak c = false) (hbegun : line = [] → begun = true) :
    linesAfter acc begun line = [acc.reverse ++ line] := by
  induction line generalizing acc begun with
  | nil => rw [linesAfter, hbegun rfl, if_pos rfl, List.append_nil]
  | cons c line ih =>
    rw [List.forall_mem_cons] at hline
    have hpair : ¬(c = '\r' ∧ line.head? = some '\n') := by
      rintro ⟨rfl, -⟩
      exact absurd hline.1 (by decide)
    rw [linesAfter_cons _ _ hpair, if_neg (by simp [hline.1]), ih _ _ hline.2 fun _ => rfl]
    simp

namespace LineIn

/-- The number of a line is one more than the line feeds before it. -/
lemma number_eq (h : FeedsOnly cs) (l : LineIn cs) : l.number = l.before.count '\n' + 1 := by
  have hbefore : FeedsOnly l.before := (l.text ▸ h).of_append_left
  have hcount : l.before.count '\n' = (lines l.before).length :=
    (count_newline_linesAfter l.starts fun _ => rfl).2.2 hbefore.breaksByFeeds
  rw [number, hcount]

/-- Between two line starts there is a line feed. -/
lemma eq_nil_of_count {before more : List Char} (hfeeds : FeedsOnly (before ++ more))
    (hends : EndsLine (before ++ more)) (hcount : (before ++ more).count '\n' = before.count '\n') :
    more = [] := by
  rcases List.eq_nil_or_concat more with hnil | ⟨init, c, rfl⟩
  · exact hnil
  · have hc : isLineBreak c = true := hends c (by simp [← List.append_assoc])
    obtain rfl : c = '\n' := hfeeds c (by simp) hc
    simp [List.count_append] at hcount

/-- A line is determined by its number. -/
lemma eq_of_number (h : FeedsOnly cs) {l l' : LineIn cs} (hnumber : l.number = l'.number) :
    l.before = l'.before ∧ l.line = l'.line := by
  have hcount : l.before.count '\n' = l'.before.count '\n' := by
    rw [number_eq h, number_eq h] at hnumber
    omega
  have hbefore : l.before = l'.before := by
    have hprefix : l.before <+: cs := ⟨_, l.text.symm⟩
    have hprefix' : l'.before <+: cs := ⟨_, l'.text.symm⟩
    have hfeeds : FeedsOnly l.before := (l.text ▸ h).of_append_left
    have hfeeds' : FeedsOnly l'.before := (l'.text ▸ h).of_append_left
    rcases List.prefix_or_prefix_of_prefix hprefix hprefix' with
      ⟨more, hmore⟩ | ⟨more, hmore⟩
    · have hnil := eq_nil_of_count (hmore ▸ hfeeds') (hmore ▸ l'.starts)
        (by rw [hmore, hcount])
      rw [← hmore, hnil, List.append_nil]
    · have hnil := eq_nil_of_count (hmore ▸ hfeeds) (hmore ▸ l.starts) (by rw [hmore, hcount])
      rw [← hmore, hnil, List.append_nil]
  refine ⟨hbefore, ?_⟩
  have htakeWhile : ∀ m : LineIn cs,
      (m.line ++ m.after).takeWhile (fun c => !isLineBreak c) = m.line := by
    intro m
    have hline : ∀ c ∈ m.line, (!isLineBreak c) = true :=
      fun c hc => by rw [m.unbroken c hc, Bool.not_false]
    rw [List.takeWhile_append_of_pos hline]
    cases hafter : m.after with
    | nil => rw [List.takeWhile_nil, List.append_nil]
    | cons c after =>
      have hc : isLineBreak c = true := m.ends c (by rw [hafter]; rfl)
      rw [List.takeWhile_cons_of_neg (by simp [hc]), List.append_nil]
  have htext := l.text.symm.trans l'.text
  rw [hbefore, List.append_cancel_left_eq] at htext
  rw [← htakeWhile l, htext, htakeWhile l']

end LineIn

/-- A text without other breaks is a line, or a line, a line feed, and a text. -/
lemma exists_firstLine (h : FeedsOnly cs) :
    ∃ first, (∀ c ∈ first, isLineBreak c = false) ∧
      (cs = first ∨ ∃ rest, cs = first ++ '\n' :: rest) := by
  have hsplit := List.takeWhile_append_dropWhile (p := fun c => !isLineBreak c) (l := cs)
  refine ⟨cs.takeWhile fun c => !isLineBreak c,
    fun c hc => by simpa using List.mem_takeWhile_imp hc, ?_⟩
  cases hdrop : cs.dropWhile fun c => !isLineBreak c with
  | nil =>
    rw [hdrop, List.append_nil] at hsplit
    exact .inl hsplit.symm
  | cons c rest =>
    have hnot := List.head?_dropWhile_not (fun c => !isLineBreak c) cs
    rw [hdrop] at hsplit hnot
    have hmem : c ∈ cs := hsplit ▸ List.mem_append_right _ List.mem_cons_self
    obtain rfl : c = '\n' := h c hmem (by simpa using hnot)
    exact .inr ⟨rest, hsplit.symm⟩

/-- A line stays a line behind another one. -/
lemma LineIn.exists_feed {first : List Char} (hfirst : ∀ c ∈ first, isLineBreak c = false)
    (l : LineIn rest) :
    ∃ l' : LineIn (first ++ '\n' :: rest), l'.line = l.line ∧ l'.number = l.number + 1 := by
  have hstarts : EndsLine (first ++ '\n' :: l.before) := by
    intro c hc
    cases hbefore : l.before with
    | nil =>
      obtain rfl : '\n' = c := by simpa [hbefore] using hc
      decide
    | cons d before =>
      rw [hbefore, List.getLast?_append, List.getLast?_cons_cons, ← hbefore] at hc
      apply l.starts
      simpa [hbefore] using hc
  have htext : first ++ '\n' :: rest = first ++ '\n' :: l.before ++ (l.line ++ l.after) := by
    conv => lhs; rw [l.text]
    simp
  refine ⟨⟨first ++ '\n' :: l.before, l.line, l.after, htext, hstarts, l.unbroken, l.ends⟩,
    rfl, ?_⟩
  rw [number, number, lines_feed hfirst, List.length_cons]

/-- Every line stands somewhere. -/
lemma exists_lineIn_of_lines (h : FeedsOnly cs) {k : Nat} (hk : (lines cs)[k]? = some line) :
    ∃ l : LineIn cs, l.line = line ∧ l.number = k + 1 := by
  induction k generalizing cs with
  | zero =>
    obtain ⟨first, hfirst, rfl | ⟨rest, rfl⟩⟩ := exists_firstLine h
    · have hne : cs ≠ [] := by
        rintro rfl
        simp at hk
      rw [lines, linesAfter_unbroken [] false hfirst fun hnil => absurd hnil hne] at hk
      obtain rfl : cs = line := by simpa using hk
      exact ⟨⟨[], cs, [], by simp, by simp [EndsLine], hfirst, by simp⟩, rfl, rfl⟩
    · rw [lines_feed hfirst] at hk
      obtain rfl : first = line := by simpa using hk
      exact ⟨⟨[], first, '\n' :: rest, rfl, by simp [EndsLine], hfirst, by simp; decide⟩, rfl,
        rfl⟩
  | succ k ih =>
    obtain ⟨first, hfirst, rfl | ⟨rest, rfl⟩⟩ := exists_firstLine h
    · -- There is one line at most.
      have hlength : (lines cs).length ≤ 1 := by
        cases cs with
        | nil => simp
        | cons c cs =>
          rw [lines, linesAfter_unbroken [] false hfirst (by simp), List.length_singleton]
      rw [List.getElem?_eq_none (by omega)] at hk
      cases hk
    · rw [lines_feed hfirst, List.getElem?_cons_succ] at hk
      have hrest : FeedsOnly rest := fun c hc => h c (by simp [hc])
      obtain ⟨l, rfl, hnumber⟩ := ih hrest hk
      obtain ⟨l', hline, hnumber'⟩ := l.exists_feed hfirst
      exact ⟨l', hline, by rw [hnumber', hnumber]⟩

/-- How many line feeds there are depends on their places only. -/
lemma count_newline_eq (cs : List Char) : cs.count '\n' = (cs.map (· == '\n')).count true := by
  rw [List.count, List.count, List.countP_map]
  refine List.countP_congr fun c _ => ?_
  simp

/-- Whether there is a line feed depends on the places of line feeds only. -/
lemma mem_newline_iff : '\n' ∈ cs ↔ true ∈ cs.map (· == '\n') := by
  simp

/-- A text with line feeds at the same places has lines at the same places. -/
lemma LineIn.exists_same (hcs : FeedsOnly cs) (hds : FeedsOnly ds)
    (hmap : cs.map (· == '\n') = ds.map (· == '\n')) (l : LineIn cs) :
    ∃ l' : LineIn ds, l'.before.length = l.before.length ∧ l'.line.length = l.line.length ∧
      l'.number = l.number := by
  -- What is a break on one side is a line feed, and one on the other side too.
  have hbreak : ∀ {o o' : Option Char}, o.map (· == '\n') = o'.map (· == '\n') →
      (∀ c ∈ o, c ∈ cs) →
      (∀ c ∈ o, isLineBreak c = true) → ∀ c ∈ o', isLineBreak c = true := by
    rintro o o' heq hmem hall c rfl
    obtain ⟨d, rfl, hd⟩ := Option.map_eq_some_iff.1 heq
    obtain rfl : d = '\n' := hcs d (hmem d rfl) (hall d rfl)
    obtain rfl : c = '\n' := by simpa using hd
    decide
  have hbefore' : ∀ c ∈ l.before.getLast?, c ∈ cs := fun c hc => by
    rw [l.text]
    exact List.mem_append_left _ (List.mem_of_getLast? hc)
  have hafter' : ∀ c ∈ l.after.head?, c ∈ cs := fun c hc => by
    rw [l.text]
    exact List.mem_append_right _ (List.mem_append_right _ (List.mem_of_head? hc))
  rw [l.text, List.map_append, List.map_append] at hmap
  obtain ⟨before, tail, rfl, hbefore, htail⟩ := List.map_eq_append_iff.1 hmap.symm
  obtain ⟨line, after, rfl, hline, hafter⟩ := List.map_eq_append_iff.1 htail
  have hlength := congrArg List.length hbefore
  have hlength' := congrArg List.length hline
  have hcount : before.count '\n' = l.before.count '\n' := by
    rw [count_newline_eq, hbefore, ← count_newline_eq]
  simp only [List.length_map] at hlength hlength'
  have hstarts : EndsLine before :=
    hbreak (by simp only [← List.getLast?_map, hbefore]) hbefore' l.starts
  have hends : ∀ c ∈ after.head?, isLineBreak c = true :=
    hbreak (by simp only [← List.head?_map, hafter]) hafter' l.ends
  have hunbroken : ∀ c ∈ line, isLineBreak c = false := by
    intro c hc
    rw [← Bool.not_eq_true]
    intro hc'
    obtain rfl : c = '\n' := hds c (by simp [hc]) hc'
    rw [mem_newline_iff, hline, ← mem_newline_iff] at hc
    exact absurd (l.unbroken _ hc) (by decide)
  refine ⟨⟨before, line, after, rfl, hstarts, hunbroken, hends⟩, hlength, hlength', ?_⟩
  rw [number_eq hds, number_eq hcs, hcount]

end Text

namespace Source

open Text (FeedsOnly LineIn)

/-! ### What follows a lexeme -/

section Lexemes

variable {cs rest text : List Char} {before after : List Lexeme} {x : Lexeme} {c : Char}

/-- A lexeme of a text is the first one of what it stands in front of. -/
lemma exists_first (h : lexemes cs = before ++ x :: after) :
    ∃ c rest, first c rest = (x, textOf after) := by
  induction before generalizing cs with
  | nil =>
    cases cs with
    | nil => simp [lexemes] at h
    | cons c cs =>
      rw [lexemes, List.nil_append, List.cons.injEq] at h
      refine ⟨c, cs, Prod.ext h.1 ?_⟩
      rw [← h.2, textOf, text_lexemes]
  | cons y before ih =>
    cases cs with
    | nil => simp [lexemes] at h
    | cons c cs =>
      rw [lexemes, List.cons_append, List.cons.injEq] at h
      exact ih h.2

/-- Whether a lexeme is a block comment. -/
def Lexeme.isBlockComment : Lexeme → Bool
  | .comment text _ => ['/', '*'].isPrefixOf text
  | _ => false

/-- A comment that is no block comment goes on to the end of its line. -/
lemma lineComment_of_first {closed : Bool} (h : first c cs = (.comment text closed, rest))
    (hblock : Lexeme.isBlockComment (.comment text closed) = false) :
    (∃ body, text = '/' :: '/' :: body) ∧ '\n' ∉ text ∧ ∀ d ∈ rest.head?, d = '\n' := by
  unfold first at h
  split at h
  · rename_i hslash
    simp only [Bool.and_eq_true, beq_iff_eq] at hslash
    obtain ⟨rfl, hhead⟩ := hslash
    obtain ⟨tail, rfl⟩ := List.head?_eq_some_iff.1 hhead
    obtain ⟨hx, rfl⟩ := Prod.mk.inj h
    obtain ⟨rfl, -⟩ := Lexeme.comment.inj hx
    refine ⟨⟨tail.takeWhile (· != '\n'), by simp [lineComment]⟩, ?_, ?_⟩
    · intro hmem
      rcases List.mem_cons.1 hmem with hmem | hmem
      · exact absurd hmem (by decide)
      · simpa using List.mem_takeWhile_imp hmem
    · intro d hd
      have hrest : (lineComment ('/' :: tail)).rest = ('/' :: tail).dropWhile (· != '\n') := rfl
      rw [hrest] at hd
      simpa using Text.not_of_mem_head?_dropWhile d hd
  split at h
  · rename_i hstar
    simp only [Bool.and_eq_true, beq_iff_eq] at hstar
    obtain ⟨rfl, hhead⟩ := hstar
    obtain ⟨tail, rfl⟩ := List.head?_eq_some_iff.1 hhead
    obtain ⟨hx, -⟩ := Prod.mk.inj h
    obtain ⟨rfl, -⟩ := Lexeme.comment.inj hx
    simp [Lexeme.isBlockComment, List.isPrefixOf] at hblock
  split at h <;> cases h

/-- The frame that was opened first is a literal. -/
def Rooted (frames : List Frame) : Prop :=
  ∃ closing raw short, frames.getLast? = some (.literal closing raw short)

/-- The frames that a literal is opened with have one at the bottom that ends with its line. -/
lemma rooted_opening (hashes : Nat) (cs : List Char) : Rooted [(opening hashes cs).2] := by
  rw [opening_eq]
  split <;> exact ⟨_, _, _, rfl⟩

/-- A further frame on top leaves the bottom as it is. -/
lemma Rooted.cons {frames : List Frame} (h : Rooted frames) (f : Frame) : Rooted (f :: frames) := by
  obtain ⟨closing, raw, short, h⟩ := h
  refine ⟨closing, raw, short, ?_⟩
  rw [List.getLast?_cons, h, Option.getD_some]

/-- If more frames are open than a literal alone, the first one is among the others. -/
lemma Rooted.tail {f : Frame} {frames : List Frame} (h : Rooted (f :: frames))
    (hne : frames ≠ []) : Rooted frames := by
  obtain ⟨closing, raw, short, h⟩ := h
  obtain ⟨g, rest, rfl⟩ := List.exists_cons_of_ne_nil hne
  exact ⟨closing, raw, short, by rwa [List.getLast?_cons_cons] at h⟩

/-- Another frame on top leaves the bottom as it is. -/
lemma Rooted.head {f g : Frame} {frames : List Frame} (h : Rooted (f :: frames))
    (hne : frames ≠ []) :
    Rooted (g :: frames) :=
  (h.tail hne).cons g

/-- A step keeps the literal that was opened first. -/
lemma rooted_of_step {frames frames' : List Frame} {extra : Nat} (h : Rooted frames)
    (hstep : step frames c cs = .more extra frames') : Rooted frames' := by
  have hinterpolation : ∀ {n outer}, Rooted (.interpolation n :: outer) → outer ≠ [] := by
    rintro n outer ⟨closing, raw, short, h⟩ rfl
    cases h
  cases stepsTo_of_step hstep with
  | stays => exact h
  | opens => exact h.cons _
  | interpolates => exact h.cons _
  | counts => exact h.head (hinterpolation h)
  | returns => exact h.tail (hinterpolation h)
  | closes _ _ _ inside => exact h.tail inside

/-- A literal that is not closed ends with its line. -/
lemma head?_literalRest {frames : List Frame} (h : Rooted frames)
    (hopen : (literalRest frames cs).closed = false) :
    ∀ d ∈ (literalRest frames cs).rest.head?, d = '\n' := by
  fun_induction literalRest frames cs with
  | case1 => simp
  | case2 frames c cs extra frames' hstep ih => exact ih (rooted_of_step h hstep) hopen
  | case3 => simp at hopen
  | case4 frames c cs hstep =>
    rcases eq_newline_of_step hstep with rfl | rfl
    · obtain ⟨closing, raw, short, h⟩ := h
      cases h
    · simp

/-- A literal that is not closed goes on to the end of its line. -/
lemma rest_of_open_literal (h : first c cs = (.literal text false, rest)) :
    ∀ d ∈ rest.head?, d = '\n' := by
  cases hstart : startsLiteral (c :: cs) with
  | true =>
    rw [first_of_startsLiteral hstart] at h
    obtain ⟨hx, rfl⟩ := Prod.mk.inj h
    obtain ⟨-, hopen⟩ := Lexeme.literal.inj hx
    exact head?_literalRest (rooted_opening _ _) hopen
  | false =>
    unfold first at h
    split at h
    · cases h
    split at h
    · cases h
    · rw [hstart] at h
      cases h

/-- A lexeme that is no comment does not end with a slash if a slash follows. -/
lemma getLast?_ne_of_first (h : first c cs = (x, rest)) (hx : x.isComment = false)
    (hrest : rest.head? = some '/') :
    x.text.getLast? ≠ some '/' := by
  intro hslash
  cases x with
  | comment text closed => cases hx
  | code d =>
    obtain rfl : d = '/' := by simpa [Lexeme.text] using hslash
    have hcode : (first c cs).1.isComment = false := by rw [h]; rfl
    have happend := text_first_append c cs
    rw [h] at happend
    obtain ⟨rfl, rfl⟩ := List.cons.inj happend
    exact (not_slash_of_first hcode).1 ⟨rfl, hrest⟩
  | literal text closed =>
    cases closed with
    | true =>
      have hmarks := hasMarks_first c cs
      rw [h] at hmarks
      obtain ⟨d, hd, hmark⟩ := hmarks.2 rfl
      obtain rfl : '/' = d := Option.some.inj (hslash.symm.trans hd)
      rcases hmark with h | h <;> exact absurd h (by decide)
    | false =>
      have hfeed := rest_of_open_literal h '/' hrest
      exact absurd hfeed (by decide)

end Lexemes

/-! ### The clean view of a line -/

/-- The extents of the block comments of a text, in order. -/
def blockComments (cs : List Char) : List Extent :=
  extents Lexeme.isBlockComment cs

variable {cs ds : List Char}

/-- If only line feeds break lines in a text, this holds for the clean text. -/
lemma feedsOnly_clean (h : FeedsOnly cs) : FeedsOnly (clean cs) := by
  intro c hc hbreak
  obtain ⟨x, hx, hc⟩ := List.mem_flatMap.1 hc
  have hmem : ∀ d ∈ x.text, d ∈ cs := fun d hd => by
    rw [← text_lexemes cs]
    exact List.mem_flatMap.2 ⟨x, hx, hd⟩
  cases x with
  | code d => exact h c (hmem c hc) hbreak
  | literal text closed => exact h c (hmem c hc) hbreak
  | comment text closed =>
    obtain ⟨d, -, rfl⟩ := List.mem_map.1 hc
    rcases isBlanked_blanked d with hd | hd
    · rw [hd] at hbreak
      exact absurd hbreak (by decide)
    · exact hd

/-- No two extents meet. -/
lemma eq_of_mem_extents {p : Lexeme → Bool} {e e' : Extent} (he : e ∈ extents p cs)
    (he' : e' ∈ extents p cs) {i : Nat} (hi : i ∈ e) (hi' : i ∈ e') : e = e' :=
  Extent.eq_of_mem (pairwise_extentsFrom p 0 (lexemes cs)) he he' hi hi'

/-- A comment that is no block comment begins with two slashes, has no line feed in it, and goes on
to the next one. -/
lemma lineComment_of_mem {e : Extent} (he : e ∈ comments cs) (hblock : e ∉ blockComments cs) :
    (∀ i ∈ e, cs[i]? ≠ some '\n') ∧ (∀ c ∈ cs[e.stop]?, c = '\n') ∧
      e.start + 1 < e.stop ∧ cs[e.start]? = some '/' ∧ cs[e.start + 1]? = some '/' := by
  obtain ⟨before, x, after, hsplit, hx, rfl⟩ := mem_extents.1 he
  cases x with
  | code c => simp [Lexeme.isComment] at hx
  | literal text closed => simp [Lexeme.isComment] at hx
  | comment text closed =>
    have hnot : Lexeme.isBlockComment (.comment text closed) = false := by
      rw [← Bool.not_eq_true]
      intro h
      exact hblock (mem_extents.2 ⟨before, _, after, hsplit, h, rfl⟩)
    obtain ⟨c, rest, hfirst⟩ := exists_first hsplit
    obtain ⟨⟨body, rfl⟩, hfeed, hrest⟩ := lineComment_of_first hfirst hnot
    have htext : ∀ k, k < ('/' :: '/' :: body).length →
        cs[(textOf before).length + k]? = ('/' :: '/' :: body)[k]? :=
      fun k hk => getElem?_text hsplit hk
    refine ⟨fun i hi hnewline => ?_, fun c hc => ?_, ?_, htext 0 (by simp), htext 1 (by simp)⟩
    · obtain ⟨hle, hlt⟩ := Extent.mem_iff.1 hi
      obtain ⟨k, rfl⟩ := Nat.exists_eq_add_of_le hle
      rw [htext k (Nat.lt_of_add_lt_add_left hlt)] at hnewline
      exact hfeed (List.mem_of_getElem? hnewline)
    · refine hrest c ?_
      have hcs : cs = textOf before ++ ('/' :: '/' :: body ++ textOf after) := by
        rw [← text_lexemes cs, hsplit]
        exact textOf_append before _
      rw [hcs, ← List.append_assoc, List.getElem?_append_right (by simp [Lexeme.text])] at hc
      simpa [Lexeme.text, List.head?_eq_getElem?] using hc
    · simp [Lexeme.text]

/-- A slash right before a comment belongs to a comment. -/
lemma exists_comment_before {e : Extent} (he : e ∈ comments cs) (hpos : 0 < e.start)
    (hslash : cs[e.start - 1]? = some '/') : ∃ e' ∈ comments cs, e.start - 1 ∈ e' := by
  obtain ⟨before, x, after, hsplit, hx, rfl⟩ := mem_extents.1 he
  obtain ⟨init, y, rfl⟩ : ∃ init y, before = init ++ [y] := by
    rcases List.eq_nil_or_concat before with rfl | ⟨init, y, h⟩
    · simp at hpos
    · exact ⟨init, y, by rw [h, List.concat_eq_append]⟩
  have hsplit' : lexemes cs = init ++ y :: (x :: after) := by simp [hsplit]
  have hmem : y ∈ lexemes cs := by simp [hsplit']
  have hy : 0 < y.text.length := List.length_pos_iff.2 (text_ne_nil_of_mem_lexemes hmem)
  have hoffset : (textOf (init ++ [y])).length - 1 =
      (textOf init).length + (y.text.length - 1) := by
    simp only [textOf_append, textOf_cons, textOf_nil, List.append_nil, List.length_append]
    omega
  have hnext : (textOf (x :: after)).head? = some '/' := by
    obtain ⟨c, rest, hfirst⟩ := exists_first hsplit
    have hcomment : (first c rest).1.isComment = true := by rw [hfirst]; exact hx
    obtain ⟨text, closed, -, hcomment⟩ := eq_comment_of_first hcomment
    rw [hfirst] at hcomment
    obtain rfl : x = _ := hcomment
    rfl
  dsimp only at hslash ⊢
  rw [hoffset] at hslash ⊢
  rw [getElem?_text hsplit' (by omega), ← List.getLast?_eq_getElem?] at hslash
  cases hcomment : y.isComment with
  | true =>
    exact ⟨_, mem_extents.2 ⟨init, y, x :: after, hsplit', hcomment, rfl⟩,
      mem_of_split (by omega)⟩
  | false =>
    obtain ⟨c, rest, hfirst⟩ := exists_first hsplit'
    exact absurd hslash (getLast?_ne_of_first hfirst hcomment hnext)

end Source

namespace Text.LineIn

open Source

variable {cs : List Char} {l : LineIn cs}

/-- What the clean view shows in the place of a line. -/
def cleaned (l : LineIn cs) : List Char :=
  ((clean cs).drop l.before.length).take l.line.length

/-- Whether a character of a line belongs to a block comment. -/
def MeetsBlock (l : LineIn cs) : Prop :=
  ∃ e ∈ blockComments cs, ∃ i ∈ e, l.Contains i

/-- A line is a stretch of the text. -/
lemma eq_take_drop (l : LineIn cs) : (cs.drop l.before.length).take l.line.length = l.line := by
  have htext := congrArg (fun ds => (ds.drop l.before.length).take l.line.length) l.text
  simpa using htext

/-- The clean view has a line in the place of each line, with the same number. -/
lemma inClean (h : FeedsOnly cs) (l : LineIn cs) :
    ∃ l' : LineIn (clean cs), l'.line = l.cleaned ∧ l'.number = l.number := by
  obtain ⟨l', hbefore, hline, hnumber⟩ :=
    l.exists_same h (feedsOnly_clean h) (map_newline_clean cs).symm
  refine ⟨l', ?_, hnumber⟩
  rw [cleaned, ← hbefore, ← hline, l'.eq_take_drop]

/-- The characters of a line are those of the text from its start. -/
lemma getElem?_line (l : LineIn cs) {k : Nat} (hk : k < l.line.length) :
    l.line[k]? = cs[l.before.length + k]? := by
  conv => lhs; rw [← l.eq_take_drop]
  rw [List.getElem?_take_of_lt hk, List.getElem?_drop]

/-- The characters of a line of the clean text are those of the clean text from its start. -/
lemma getElem?_cleaned (l : LineIn cs) {k : Nat} (hk : k < l.line.length) :
    l.cleaned[k]? = (clean cs)[l.before.length + k]? := by
  rw [cleaned, List.getElem?_take_of_lt hk, List.getElem?_drop]

/-- A line of the clean text is as long as the line. -/
lemma length_cleaned (l : LineIn cs) : l.cleaned.length = l.line.length := by
  have htext := congrArg List.length l.text
  rw [cleaned, List.length_take, List.length_drop, Source.length_clean]
  simp only [List.length_append] at htext
  omega

/-- There is a line feed before each line but the first. -/
lemma getElem?_before (h : FeedsOnly cs) (l : LineIn cs) (hpos : 0 < l.before.length) :
    cs[l.before.length - 1]? = some '\n' := by
  have hlast : cs[l.before.length - 1]? = l.before.getLast? := by
    conv => lhs; arg 1; rw [l.text]
    rw [List.getElem?_append_left (by omega), List.getLast?_eq_getElem?]
  obtain ⟨c, hc⟩ :=
    Option.isSome_iff_exists.1 (List.getLast?_isSome.2 (List.length_pos_iff.1 hpos))
  rw [hlast, hc, h c (List.mem_of_getElem? (hlast.trans hc)) (l.starts c hc)]

/-- There is a line feed behind each line that does not end the text. -/
lemma getElem?_after (h : FeedsOnly cs) (l : LineIn cs)
    (hlt : l.before.length + l.line.length < cs.length) :
    cs[l.before.length + l.line.length]? = some '\n' := by
  have hhead : cs[l.before.length + l.line.length]? = l.after.head? := by
    conv => lhs; arg 1; rw [l.text, ← List.append_assoc]
    rw [List.getElem?_append_right (by simp), List.length_append, Nat.sub_self,
      List.head?_eq_getElem?]
  rw [hhead]
  cases hafter : l.after.head? with
  | none =>
    rw [hafter, List.getElem?_eq_none_iff] at hhead
    omega
  | some c => rw [h c (List.mem_of_getElem? (hhead.trans hafter)) (l.ends c hafter)]

/-- A comment that meets a line begins in it and goes on to its end, if no block comment meets the
line. -/
lemma bounds_of_comment (h : FeedsOnly cs) (hblock : ¬l.MeetsBlock) {e : Extent}
    (he : e ∈ comments cs) {i : Nat} (hi : i ∈ e) (hl : l.Contains i) :
    l.before.length ≤ e.start ∧ e.stop = l.before.length + l.line.length ∧
    e ∉ blockComments cs := by
  have hnot : e ∉ blockComments cs := fun hmem => hblock ⟨e, hmem, i, hi, hl⟩
  obtain ⟨hinside, hstop, -⟩ := lineComment_of_mem he hnot
  obtain ⟨hle, hlt⟩ := Extent.mem_iff.1 hi
  obtain ⟨hle', hlt'⟩ := hl
  have hbounds := bounds_of_mem_extents he
  have hlength := congrArg List.length l.text
  simp only [List.length_append] at hlength
  refine ⟨?_, Nat.le_antisymm ?_ ?_, hnot⟩
  · -- The line feed before the line would be in the comment.
    by_contra hstart
    exact hinside _ (Extent.mem_iff.2 ⟨by omega, by omega⟩) (l.getElem?_before h (by omega))
  · -- So would the one behind it.
    by_contra hend
    exact hinside _ (Extent.mem_iff.2 ⟨by omega, by omega⟩) (l.getElem?_after h (by omega))
  · -- The line feed behind the comment would be in the line.
    by_contra hend
    obtain ⟨k, hk⟩ := Nat.exists_eq_add_of_le (show l.before.length ≤ e.stop by omega)
    have hk' : k < l.line.length := by omega
    have hline := l.getElem?_line hk'
    rw [← hk, List.getElem?_eq_getElem hk'] at hline
    have hnewline := hstop _ hline.symm
    have hbreak := l.unbroken _ (List.getElem_mem hk')
    rw [hnewline] at hbreak
    exact absurd hbreak (by decide)

/-- Up to its first comment a line is the same in the clean view. -/
lemma take_cleaned {n : Nat} (hn : n ≤ l.line.length)
    (h : ∀ e ∈ comments cs, ∀ i ∈ e, l.before.length ≤ i → l.before.length + n ≤ i) :
    l.cleaned.take n = l.line.take n := by
  refine List.ext_getElem? fun k => ?_
  rw [List.getElem?_take, List.getElem?_take]
  split
  · rename_i hk
    have hapart : ∀ e ∈ extents Lexeme.isComment cs,
        l.before.length + k ∉ e := fun e he hi => by
      have hle := h e he _ hi (Nat.le_add_right _ _)
      omega
    have hsame := getElem?_eq_of_not_mem Lexeme.length_clean (fun _ => rfl)
      (fun x hx => Lexeme.clean_eq_text hx) hapart
    rw [text_lexemes] at hsame
    rw [l.getElem?_cleaned (by omega), l.getElem?_line (by omega)]
    exact hsame
  · rfl

/-- In the place of a comment there are blanks. -/
lemma isBlank_of_mem_drop {e : Extent} (he : e ∈ comments cs)
    (hstop : e.stop = l.before.length + l.line.length) {n : Nat}
    (hn : l.before.length + n = e.start) : ∀ c ∈ l.cleaned.drop n, isBlank c = true := by
  intro c hc
  obtain ⟨k, hk, rfl⟩ := List.getElem_of_mem hc
  rw [List.length_drop, length_cleaned] at hk
  have hclean : (clean cs)[l.before.length + (n + k)]? = some (l.cleaned.drop n)[k] := by
    rw [← l.getElem?_cleaned (by omega), List.getElem_drop]
    exact List.getElem?_eq_getElem _
  have hmem : l.before.length + (n + k) ∈ e := Extent.mem_iff.2 ⟨by omega, by omega⟩
  obtain ⟨d, hd, hshown, -⟩ := isBlanked_of_mem_comments he hmem
  rw [hshown] at hclean
  rw [← Option.some.inj hclean]
  rcases hd with rfl | rfl <;> decide

section Comment

variable {e : Extent} {n : Nat}

/-- One comment meets a line at most, if no block comment does. -/
lemma eq_of_comments (h : FeedsOnly cs) (hblock : ¬l.MeetsBlock) {e' : Extent}
    (he : e ∈ comments cs) (he' : e' ∈ comments cs) {i i' : Nat} (hi : i ∈ e)
    (hl : l.Contains i) (hi' : i' ∈ e') (hl' : l.Contains i') :
    e' = e := by
  obtain ⟨-, hstop, -⟩ := bounds_of_comment h hblock he hi hl
  obtain ⟨-, hstop', -⟩ := bounds_of_comment h hblock he' hi' hl'
  have hpos := (bounds_of_mem_extents he).1
  have hpos' := (bounds_of_mem_extents he').1
  have hlast : e.stop - 1 ∈ e := Extent.mem_iff.2 ⟨by omega, by omega⟩
  have hlast' : e.stop - 1 ∈ e' := Extent.mem_iff.2 ⟨by omega, by omega⟩
  exact eq_of_mem_extents he' he hlast' hlast

/-- A comment begins with itself. -/
lemma mem_start (he : e ∈ comments cs) : e.start ∈ e :=
  Extent.mem_iff.2 ⟨Nat.le_refl _, (bounds_of_mem_extents he).1⟩

/-- A line comment stands in its line with its slashes. -/
lemma drop_eq_of_comment (he : e ∈ comments cs) (hnot : e ∉ blockComments cs)
    (hstop : e.stop = l.before.length + l.line.length) (hn : e.start = l.before.length + n) :
    l.line.drop n = '/' :: '/' :: l.line.drop (n + 2) := by
  obtain ⟨-, -, hlt, hslash, hslash'⟩ := lineComment_of_mem he hnot
  have hlength : n + 1 < l.line.length := by omega
  have hfirst := l.getElem?_line (show n < l.line.length by omega)
  have hsecond := l.getElem?_line hlength
  rw [← hn, hslash, List.getElem?_eq_getElem (by omega)] at hfirst
  rw [← Nat.add_assoc, ← hn, hslash', List.getElem?_eq_getElem hlength] at hsecond
  rw [List.drop_eq_getElem_cons (by omega), List.drop_eq_getElem_cons hlength,
    Option.some.inj hfirst, Option.some.inj hsecond]

/-- The code before a comment does not end with a slash. -/
lemma getLast?_take_ne (h : FeedsOnly cs) (hblock : ¬l.MeetsBlock) (he : e ∈ comments cs)
    (hl : l.Contains e.start) (hn : e.start = l.before.length + n) :
    (l.line.take n).getLast? ≠ some '/' := by
  intro hlast
  have hlt := hl.2
  have hlength : (l.line.take n).length = n := by rw [List.length_take]; omega
  have hpos : 0 < n := by
    rcases Nat.eq_zero_or_pos n with rfl | hpos
    · simp at hlast
    · exact hpos
  rw [List.getLast?_eq_getElem?, hlength, List.getElem?_take_of_lt (by omega),
    l.getElem?_line (by omega)] at hlast
  rw [show l.before.length + (n - 1) = e.start - 1 by omega] at hlast
  obtain ⟨e', he', hmem⟩ := exists_comment_before he (by omega) hlast
  obtain rfl := eq_of_comments h hblock he he' (mem_start he) hl hmem ⟨by omega, by omega⟩
  rw [Extent.mem_iff] at hmem
  omega

end Comment

/-- A line that no block comment meets is code and at most one line comment. The clean view shows
the code, and blanks in the place of the comment. -/
lemma exists_code (h : FeedsOnly cs) (hblock : ¬l.MeetsBlock) :
    (l.cleaned = l.line ∧ ∀ e ∈ comments cs, ¬l.Contains e.start) ∨
      ∃ code body gap, l.line = code ++ '/' :: '/' :: body ∧ l.cleaned = code ++ gap ∧
        (∀ c ∈ gap, isBlank c = true) ∧ code.getLast? ≠ some '/' ∧
        ∀ e, e ∈ comments cs ∧ l.Contains e.start ↔
          e = ⟨l.before.length + code.length, l.before.length + l.line.length⟩ := by
  by_cases hmeets : ∃ e ∈ comments cs, ∃ i ∈ e, l.Contains i
  · obtain ⟨e, he, i, hi, hl⟩ := hmeets
    obtain ⟨hle, hstop, hnot⟩ := bounds_of_comment h hblock he hi hl
    have hbounds := bounds_of_mem_extents he
    have hstart : l.Contains e.start := ⟨hle, by omega⟩
    obtain ⟨n, hn⟩ := Nat.exists_eq_add_of_le hle
    have hlength : (l.line.take n).length = n := by rw [List.length_take]; omega
    have htake : l.cleaned.take n = l.line.take n := by
      refine take_cleaned (by omega) fun e' he' j hj hlj => ?_
      by_contra hsmall
      obtain rfl := eq_of_comments h hblock he he' hi hl hj ⟨hlj, by omega⟩
      have hstart := (Extent.mem_iff.1 hj).1
      omega
    refine .inr ⟨l.line.take n, l.line.drop (n + 2), l.cleaned.drop n, ?_, ?_,
      isBlank_of_mem_drop he hstop hn.symm, getLast?_take_ne h hblock he hstart hn, fun e' => ?_⟩
    · rw [← drop_eq_of_comment he hnot hstop hn, List.take_append_drop]
    · rw [← htake, List.take_append_drop]
    · have heq : (⟨l.before.length + (l.line.take n).length, l.before.length + l.line.length⟩ :
          Extent) = e := by
        rw [hlength, ← hn, ← hstop]
      rw [heq]
      constructor
      · rintro ⟨he', hstart'⟩
        exact eq_of_comments h hblock he he' hi hl (mem_start he') hstart'
      · rintro rfl
        exact ⟨he, hstart⟩
  · have hnone : ∀ e ∈ comments cs, ∀ i ∈ e, ¬l.Contains i := fun e he i hi hl =>
      hmeets ⟨e, he, i, hi, hl⟩
    refine .inl ⟨?_, fun e he hl => hnone e he e.start (mem_start he) hl⟩
    have htake := take_cleaned (Nat.le_refl l.line.length) fun e he i hi hle => by
      by_contra hlt
      exact hnone e he i hi ⟨hle, by omega⟩
    rwa [List.take_of_length_le (by rw [length_cleaned]), List.take_length] at htake

end Text.LineIn

end SwiftDependencies
