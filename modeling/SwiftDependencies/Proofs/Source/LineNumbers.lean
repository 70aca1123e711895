import Mathlib.Data.List.Induction
import Mathlib.Data.List.TakeWhile
import Mathlib.Tactic.Common
import SwiftDependencies.Proofs.Source.Extents
import SwiftDependencies.Proofs.Text.Margins

/-!
# Two ways to number lines

Where something stands in a manifest is said by numbers that count line feeds (`lineAt`), but the
lines in which a name is looked for end at every line break of Unicode (`Text.lines`).  A line that
has any other break in front of it has a greater number among the latter.

A line is taken as a place here, not as a text, since a text may have the same line twice: `LineIn`
is a stretch between two breaks with what is before and after it.  Its number among all lines is one
more than the number of lines before it (`LineIn.getElem?_lines`), and the line feeds before it are
as many as these lines exactly if they all end with one (`count_newline_eq_iff`).
-/

namespace SwiftDependencies

namespace Text

/-- A text that is empty or ends with a line break. -/
def EndsLine (cs : List Char) : Prop :=
  ∀ c ∈ cs.getLast?, isLineBreak c = true

/-- A stretch of a text from one line break to the next, with what stands before it and after it. -/
structure LineIn (cs : List Char) where
  before : List Char
  line : List Char
  after : List Char
  text : cs = before ++ (line ++ after)
  starts : EndsLine before
  unbroken : ∀ c ∈ line, isLineBreak c = false
  ends : ∀ c ∈ after.head?, isLineBreak c = true

namespace LineIn

variable {cs : List Char}

/-- Whether an offset belongs to a line. -/
def Contains (l : LineIn cs) (offset : Nat) : Prop :=
  l.before.length ≤ offset ∧ offset < l.before.length + l.line.length

/-- The number of a line among the lines of the text, counted from one. -/
def number (l : LineIn cs) : Nat :=
  (lines l.before).length + 1

end LineIn

/-- What stands after the last line break. -/
lemma exists_lastBreak (cs : List Char) :
    ∃ before line, cs = before ++ line ∧ EndsLine before ∧
      ∀ c ∈ line, isLineBreak c = false := by
  induction cs using List.reverseRecOn with
  | nil => exact ⟨[], [], rfl, by simp [EndsLine], by simp⟩
  | append_singleton cs c ih =>
    cases hc : isLineBreak c with
    | true => exact ⟨cs ++ [c], [], by simp, by simpa [EndsLine] using hc, by simp⟩
    | false =>
      obtain ⟨before, line, rfl, hlast, hline⟩ := ih
      refine ⟨before, line ++ [c], by simp, hlast, ?_⟩
      intro d hd
      rcases List.mem_append.1 hd with hd | hd
      · exact hline d hd
      · obtain rfl := List.mem_singleton.1 hd
        exact hc

/-- An offset outside the line breaks belongs to a line. -/
lemma exists_lineIn {cs : List Char} {offset : Nat} {c : Char} (h : cs[offset]? = some c)
    (hc : isLineBreak c = false) : ∃ l : LineIn cs, l.Contains offset := by
  obtain ⟨hoffset, rfl⟩ := List.getElem?_eq_some_iff.1 h
  obtain ⟨before, start, hsplit, hlast, hstart⟩ := exists_lastBreak (cs.take offset)
  have hlength : before.length + start.length = offset := by
    rw [← List.length_append, ← hsplit, List.length_take_of_le (Nat.le_of_lt hoffset)]
  let line := (cs.drop offset).takeWhile fun c => !isLineBreak c
  let after := (cs.drop offset).dropWhile fun c => !isLineBreak c
  have hline : 0 < line.length := by
    simp only [line, List.drop_eq_getElem_cons hoffset]
    rw [List.takeWhile_cons_of_pos (by simp [hc])]
    exact Nat.succ_pos _
  refine ⟨⟨before, start ++ line, after, ?_, hlast, ?_, ?_⟩, ?_, ?_⟩
  · rw [List.append_assoc, List.takeWhile_append_dropWhile, ← List.append_assoc, ← hsplit,
      List.take_append_drop]
  · intro d hd
    rcases List.mem_append.1 hd with hd | hd
    · exact hstart d hd
    · simpa using List.mem_takeWhile_imp hd
  · intro d hd
    simpa using Text.not_of_mem_head?_dropWhile d hd
  · dsimp only
    omega
  · dsimp only
    rw [List.length_append]
    omega

/-! ### The lines before and after a break -/

section EndsLine

variable {c : Char} {cs : List Char}

/-- What ends with a line does so without its first character. -/
lemma EndsLine.tail (h : EndsLine (c :: cs)) : EndsLine cs := by
  intro d hd
  refine h d ?_
  cases cs with
  | nil => simp at hd
  | cons e es => exact hd

/-- Behind a character that breaks no line there is more before the line ends. -/
lemma EndsLine.ne_nil (h : EndsLine (c :: cs)) (hc : ¬isLineBreak c = true) : cs ≠ [] := by
  rintro rfl
  exact hc (h c rfl)

end EndsLine

/-- A character that does not begin a break of two characters ends its line or belongs to it. -/
lemma linesAfter_cons (acc : List Char) (begun : Bool) {c : Char} {cs : List Char}
    (h : ¬(c = '\r' ∧ cs.head? = some '\n')) :
    linesAfter acc begun (c :: cs) =
      if isLineBreak c then acc.reverse :: lines cs else linesAfter (c :: acc) true cs := by
  rw [linesAfter, lines]
  rintro rest rfl rfl
  exact h ⟨rfl, rfl⟩

/-- The lines of a text that ends with a break are followed by those of what comes next. -/
lemma linesAfter_append {acc : List Char} {begun : Bool} {before rest : List Char}
    (hends : EndsLine before) (hnil : before = [] → acc = [] ∧ begun = false)
    (hrest : rest.head? ≠ some '\n') :
    linesAfter acc begun (before ++ rest) = linesAfter acc begun before ++ lines rest := by
  fun_induction linesAfter acc begun before with
  | case1 => simp at hnil
  | case2 acc begun hbegun =>
    obtain ⟨rfl, rfl⟩ := hnil rfl
    rfl
  | case3 acc begun before ih =>
    rw [List.cons_append, List.cons_append, linesAfter,
      ih hends.tail.tail (fun _ => ⟨rfl, rfl⟩), List.cons_append]
  | case4 acc begun c before hnot hbreak ih =>
    have hpair : ¬(c = '\r' ∧ (before ++ rest).head? = some '\n') := by
      rintro ⟨rfl, hhead⟩
      cases before with
      | nil => exact hrest hhead
      | cons d ds =>
        obtain rfl : d = '\n' := by simpa using hhead
        exact hnot ds rfl rfl
    have hlines : lines (before ++ rest) = lines before ++ lines rest :=
      ih hends.tail fun _ => ⟨rfl, rfl⟩
    rw [List.cons_append, linesAfter_cons _ _ hpair, if_pos hbreak, hlines, List.cons_append]
    rfl
  | case5 acc begun c before hnot hbreak ih =>
    have hpair : ¬(c = '\r' ∧ (before ++ rest).head? = some '\n') := by
      rintro ⟨rfl, -⟩
      exact hbreak (by decide)
    rw [List.cons_append, linesAfter_cons _ _ hpair, if_neg hbreak]
    exact ih hends.tail fun h => absurd h (hends.ne_nil hbreak)

/-- A line goes on to the next break. -/
lemma head?_linesAfter {acc : List Char} {begun : Bool} {line after : List Char}
    (hline : ∀ c ∈ line, isLineBreak c = false)
    (hafter : ∀ c ∈ after.head?, isLineBreak c = true) (hbegun : line = [] → begun = true) :
    (linesAfter acc begun (line ++ after)).head? = some (acc.reverse ++ line) := by
  induction line generalizing acc begun with
  | nil =>
    obtain rfl := hbegun rfl
    rw [List.nil_append, List.append_nil]
    cases after with
    | nil => rfl
    | cons c after =>
      by_cases hpair : c = '\r' ∧ after.head? = some '\n'
      · obtain ⟨rfl, hhead⟩ := hpair
        obtain ⟨rest, rfl⟩ := List.head?_eq_some_iff.1 hhead
        rw [linesAfter, List.head?_cons]
      · rw [linesAfter_cons _ _ hpair, if_pos (hafter c rfl), List.head?_cons]
  | cons c line ih =>
    have hc := hline c List.mem_cons_self
    have hpair : ¬(c = '\r' ∧ (line ++ after).head? = some '\n') := by
      rintro ⟨rfl, -⟩
      exact absurd hc (by decide)
    rw [List.cons_append, linesAfter_cons _ _ hpair, if_neg (by simp [hc]),
      ih (fun d hd => hline d (List.mem_cons_of_mem _ hd)) (fun _ => rfl)]
    simp

namespace LineIn

variable {cs : List Char}

/-- A line is found under its number. -/
lemma getElem?_lines (l : LineIn cs) (h : l.line ≠ []) :
    (lines cs)[l.number - 1]? = some l.line := by
  have hhead : (l.line ++ l.after).head? ≠ some '\n' := by
    obtain ⟨c, line, hline⟩ := List.exists_cons_of_ne_nil h
    have hc := l.unbroken c (by simp [hline])
    rw [hline, List.cons_append, List.head?_cons]
    rintro heq
    obtain rfl := Option.some.inj heq
    exact absurd hc (by decide)
  have hsplit : lines cs = lines l.before ++ lines (l.line ++ l.after) := by
    conv => lhs; rw [l.text]
    exact linesAfter_append l.starts (fun _ => ⟨rfl, rfl⟩) hhead
  have hfirst : (lines (l.line ++ l.after)).head? = some l.line :=
    head?_linesAfter l.unbroken l.ends fun hnil => absurd hnil h
  rw [hsplit, number, Nat.add_sub_cancel, List.getElem?_append_right (Nat.le_refl _), Nat.sub_self,
    ← List.head?_eq_getElem?, hfirst]

end LineIn

/-! ### Line feeds and other breaks -/

/-- Every line break of a text is a line feed, alone or behind a carriage return. -/
def BreaksByFeeds (cs : List Char) : Prop :=
  ∀ before c after, cs = before ++ c :: after → isLineBreak c = true →
    c = '\n' ∨ c = '\r' ∧ after.head? = some '\n'

/-- In the empty text only line feeds break lines. -/
lemma breaksByFeeds_nil : BreaksByFeeds [] := by
  intro before c after h
  simp at h

/-- Only line feeds break lines if this holds for the first character and for the rest, where a
carriage return may come before a line feed. -/
lemma breaksByFeeds_cons {c : Char} {cs : List Char} :
    BreaksByFeeds (c :: cs) ↔
      (isLineBreak c = true → c = '\n' ∨ c = '\r' ∧ cs.head? = some '\n') ∧
      BreaksByFeeds cs := by
  constructor
  · intro h
    refine ⟨h [] c cs rfl, ?_⟩
    rintro before d after rfl
    exact h (c :: before) d after rfl
  · rintro ⟨hc, hcs⟩ before d after h
    cases before with
    | nil =>
      obtain ⟨rfl, rfl⟩ := List.cons.inj h
      exact hc
    | cons e before =>
      obtain ⟨rfl, rfl⟩ := List.cons.inj h
      exact hcs before d after rfl

/-- A text that ends with a break has as many line feeds as lines, if they all end with one, and
fewer if some line does not. -/
lemma count_newline_linesAfter {acc : List Char} {begun : Bool} {cs : List Char}
    (hends : EndsLine cs) (hnil : cs = [] → begun = false) :
    cs.count '\n' ≤ (linesAfter acc begun cs).length ∧
      (cs.count '\n' = (linesAfter acc begun cs).length ↔ BreaksByFeeds cs) := by
  fun_induction linesAfter acc begun cs with
  | case1 => simp at hnil
  | case2 => simp [breaksByFeeds_nil]
  | case3 acc begun cs ih =>
    obtain ⟨hle, heq⟩ := ih hends.tail.tail fun _ => rfl
    have hcount : ('\r' :: '\n' :: cs).count '\n' = cs.count '\n' + 1 := by simp
    have hbreaks : BreaksByFeeds ('\r' :: '\n' :: cs) ↔ BreaksByFeeds cs := by
      simp [breaksByFeeds_cons]
    rw [hcount, hbreaks, ← heq, List.length_cons]
    omega
  | case4 acc begun c cs hnot hbreak ih =>
    obtain ⟨hle, heq⟩ := ih hends.tail fun _ => rfl
    rw [breaksByFeeds_cons, ← heq, List.length_cons]
    by_cases hc : c = '\n'
    · subst hc
      simp
      omega
    · -- another break ends a line without a line feed
      have hother : ¬(isLineBreak c = true →
          c = '\n' ∨ c = '\r' ∧ cs.head? = some '\n') := by
        intro h
        obtain ⟨rfl, hhead⟩ := (h hbreak).resolve_left hc
        obtain ⟨rest, rfl⟩ := List.head?_eq_some_iff.1 hhead
        exact hnot rest rfl rfl
      rw [List.count_cons_of_ne hc]
      exact ⟨by omega, iff_of_false (by omega) fun h => hother h.1⟩
  | case5 acc begun c cs hnot hbreak ih =>
    obtain ⟨hle, heq⟩ := ih hends.tail fun h => absurd h (hends.ne_nil hbreak)
    have hc : c ≠ '\n' := by
      rintro rfl
      exact hbreak (by decide)
    have hcount : (c :: cs).count '\n' = cs.count '\n' := List.count_cons_of_ne hc
    rw [hcount, breaksByFeeds_cons, ← heq]
    exact ⟨hle, by simp [hbreak]⟩

end Text

namespace Source

open Text

/-- What is no line break in the text is none in the clean view. -/
lemma exists_clean {cs : List Char} {offset : Nat} {c : Char}
    (h : cs[offset]? = some c ∨ (clean cs)[offset]? = some c) (hc : isLineBreak c = false) :
    ∃ d, (clean cs)[offset]? = some d ∧ isLineBreak d = false := by
  rcases h with h | h
  · by_cases hcomment : ∃ e ∈ comments cs, offset ∈ e
    · obtain ⟨e, he, hoffset⟩ := hcomment
      obtain ⟨d, hd, hclean, -⟩ := isBlanked_of_mem_comments he hoffset
      rcases hd with rfl | rfl
      · exact ⟨' ', hclean, by decide⟩
      · have hnewline : cs[offset]? = some '\n' :=
          (newline_iff_of_view map_clean cs offset).1 hclean
        obtain rfl : c = '\n' := Option.some.inj (h.symm.trans hnewline)
        exact absurd hc (by decide)
    · have hsame : ((lexemes cs).flatMap Lexeme.clean)[offset]? =
          ((lexemes cs).flatMap Lexeme.text)[offset]? :=
        getElem?_eq_of_not_mem Lexeme.length_clean (fun _ => rfl)
          (fun x hx => Lexeme.clean_eq_text hx)
          fun e he hoffset => hcomment ⟨e, he, hoffset⟩
      rw [text_lexemes, h] at hsame
      exact ⟨c, hsame, hc⟩
  · exact ⟨c, h, hc⟩

/-- The number of line feeds before an offset counts the lines before its line that end with a line
feed. -/
lemma lineAt_of_contains {cs : List Char} (l : LineIn (clean cs)) {offset : Nat}
    (h : l.Contains offset) :
    lineAt cs offset = l.before.count '\n' + 1 := by
  obtain ⟨hle, hlt⟩ := h
  have htake : (clean cs).take offset = l.before ++ l.line.take (offset - l.before.length) := by
    conv => lhs; rw [l.text]
    rw [List.take_append, List.take_of_length_le hle, List.take_append_of_le_length (by omega)]
  have hline : (l.line.take (offset - l.before.length)).count '\n' = 0 := by
    rw [List.count_eq_zero]
    intro hmem
    exact absurd (l.unbroken _ (List.mem_of_mem_take hmem)) (by decide)
  have hclean : lineAt cs offset = lineAt (clean cs) offset := by
    rw [lineAt, lineAt, lineStarts_clean]
  rw [hclean, lineAt_eq, htake, List.count_append, hline, Nat.add_zero]

/-- A character that is no line break, in the text or without its comments, stands in a line of the
clean view, which is found under its number among all lines. The number that is counted by line
feeds is never greater, so it is the number of some line. It is the number of this line exactly if
all breaks before the line are line feeds, alone or behind a carriage return. -/
theorem lineAt_eq_number_iff {cs : List Char} {offset : Nat} {c : Char}
    (h : cs[offset]? = some c ∨ (clean cs)[offset]? = some c) (hc : isLineBreak c = false) :
    lineAt cs offset ≤ (lines (clean cs)).length ∧
      ∃ l : LineIn (clean cs), l.Contains offset ∧
        (lines (clean cs))[l.number - 1]? = some l.line ∧
        lineAt cs offset ≤ l.number ∧
        (lineAt cs offset = l.number ↔ BreaksByFeeds l.before) := by
  obtain ⟨d, hd, hbreak⟩ := exists_clean h hc
  obtain ⟨l, hl⟩ := exists_lineIn hd hbreak
  have hne : l.line ≠ [] := by
    rintro hnil
    have := hl.1
    have := hl.2
    simp only [hnil, List.length_nil] at this
    omega
  have hfound := l.getElem?_lines hne
  obtain ⟨hle, heq⟩ : l.before.count '\n' ≤ (lines l.before).length ∧
      (l.before.count '\n' = (lines l.before).length ↔ BreaksByFeeds l.before) :=
    count_newline_linesAfter l.starts fun _ => rfl
  have hnumber : lineAt cs offset ≤ l.number := by
    rw [lineAt_of_contains l hl, LineIn.number]
    omega
  have hlast : l.number ≤ (lines (clean cs)).length := by
    have := (List.getElem?_eq_some_iff.1 hfound).1
    rw [LineIn.number, Nat.add_sub_cancel] at this
    exact this
  refine ⟨Nat.le_trans hnumber hlast, l, hl, hfound, hnumber, ?_⟩
  rw [lineAt_of_contains l hl, LineIn.number, Nat.add_right_cancel_iff, heq]

/-- The third line of a text with a line feed behind a carriage return and a form feed is the second
one by its number. -/
theorem lineAt_eq_number_iff_formFeed :
    "a\r\nb\x0cc".toList[5]? = some 'c' ∧ isLineBreak 'c' = false ∧
      lineAt "a\r\nb\x0cc".toList 5 = 2 ∧ (lines (clean "a\r\nb\x0cc".toList)).length = 3 ∧
      ∃ l : LineIn (clean "a\r\nb\x0cc".toList), l.Contains 5 ∧
        (lines (clean "a\r\nb\x0cc".toList))[l.number - 1]? = some l.line ∧ 2 ≤ l.number ∧
          (2 = l.number ↔ BreaksByFeeds l.before) := by
  have hchar : "a\r\nb\x0cc".toList[5]? = some 'c' := by decide
  have hbreak : isLineBreak 'c' = false := by decide
  have hline : lineAt "a\r\nb\x0cc".toList 5 = 2 := by decide
  have hlength : (lines (clean "a\r\nb\x0cc".toList)).length = 3 := by decide +kernel
  obtain ⟨-, hfound⟩ := lineAt_eq_number_iff (.inl hchar) hbreak
  rw [hline] at hfound
  exact ⟨hchar, hbreak, hline, hlength, hfound⟩

/-- A form feed ends a line that is not counted: the line of its number is not the one that an
offset is on. -/
theorem lines_of_formFeed :
    "a\x0cb".toList[2]? = some 'b' ∧ isLineBreak 'b' = false ∧ lineAt "a\x0cb".toList 2 = 1 ∧
      lines (clean "a\x0cb".toList) = [['a'], ['b']] ∧
      (lines (clean "a\x0cb".toList))[lineAt "a\x0cb".toList 2 - 1]? = some ['a'] := by
  decide +kernel

end Source

end SwiftDependencies
