import Mathlib.Tactic.Common
import SwiftDependencies.Proofs.Manifest.Description
import SwiftDependencies.Proofs.Source.Extents

/-!
# Terms with the lines of their characters

`Written.term` gives an expression its lines by counting the line feeds of its parts.  Here the
lines are those of characters: a term spans the lines of the first and of the last character of its
expression, wherever the expression stands in a text (`Written.termAt`).

The two are the same for expressions of plain literals and names (`Written.term_eq_termAt`).  The
induction carries along that lines are counted right from the offset of each part on (`Counts`).
-/

namespace SwiftDependencies

open Source

/-! ### Lines by offsets -/

/-- The line of an offset in a text, counted by the line feeds in front of it. -/
def countedLine (text : List Char) (offset : Nat) : Nat :=
  (text.take offset).count '\n' + 1

/-- The lines of the first and the last character of some lexemes at an offset. -/
def spanAt (lineOf : Nat → Nat) (start : Nat) (xs : List Lexeme) : Span :=
  ⟨lineOf start, lineOf (start + (textOf xs).length - 1)⟩

/-- Whether the lines of some lexemes at an offset are counted by their line feeds, from a line
on. -/
def Counts (lineOf : Nat → Nat) (start line : Nat) (xs : List Lexeme) : Prop :=
  ∀ n ≤ (skeletonOf xs).length, lineOf (start + n) = line + ((skeletonOf xs).take n).count '\n'

namespace Counts

variable {lineOf : Nat → Nat} {start line : Nat} {xs ys : List Lexeme}

/-- Lines that are counted for some lexemes and others are counted for the former. -/
lemma left (h : Counts lineOf start line (xs ++ ys)) : Counts lineOf start line xs := by
  intro n hn
  have hall := h n (by rw [skeletonOf_append, List.length_append]; omega)
  rwa [skeletonOf_append, List.take_append_of_le_length hn] at hall

/-- Lines that are counted for some lexemes and others are counted for the latter, from where these
begin. -/
lemma right (h : Counts lineOf start line (xs ++ ys)) :
    Counts lineOf (start + (textOf xs).length) (line + newlines xs) ys := by
  intro n hn
  have hlength := length_skeletonOf xs
  have hall := h ((skeletonOf xs).length + n) (by rw [skeletonOf_append, List.length_append]; omega)
  rw [skeletonOf_append, List.take_length_add_append, List.count_append, hlength] at hall
  rw [Nat.add_assoc, hall, newlines, Nat.add_assoc]

/-- A sign takes one offset and no line. -/
lemma tail {c : Char} (hc : c ≠ '\n') (h : Counts lineOf start line (.code c :: xs)) :
    Counts lineOf (start + 1) line xs := by
  have hsplit : Counts lineOf start line ([.code c] ++ xs) := h
  have hright := hsplit.right
  rwa [newlines_code hc, newlines_nil, Nat.add_zero] at hright

/-- Of solid lexemes the lines of both ends are known. -/
lemma spanAt_eq (h : Counts lineOf start line xs) (hs : Fragment.Solid (skeletonOf xs)) :
    spanAt lineOf start xs = ⟨line, line + newlines xs⟩ := by
  obtain ⟨d, hd, hblank⟩ := hs.2
  obtain ⟨front, hfront⟩ := List.getLast?_eq_some_iff.1 hd
  have hlength : (textOf xs).length = front.length + 1 := by
    rw [← length_skeletonOf, hfront, List.length_append, List.length_singleton]
  have hne : d ≠ '\n' := by
    rintro rfl
    exact absurd hblank (by decide)
  have hfirst := h 0 (Nat.zero_le _)
  have hlast := h front.length (by rw [hfront, List.length_append]; omega)
  rw [hfront, List.take_left] at hlast
  have hcount : newlines xs = front.count '\n' := by
    rw [newlines, hfront, List.count_append, List.count_singleton,
      if_neg (by simpa using hne), Nat.add_zero]
  rw [spanAt, hlength, ← Nat.add_assoc, Nat.add_sub_cancel, hlast, hcount]
  simpa using hfirst

end Counts

/-- The lines of the text itself are counted like this. -/
lemma counts_countedLine (xs : List Lexeme) : Counts (countedLine (textOf xs)) 0 1 xs := by
  intro n hn
  have hmap : (skeletonOf xs).map (· == '\n') = (textOf xs).map (· == '\n') := by
    simp only [skeletonOf, textOf, List.map_flatMap, map_skeleton]
  have hcount (l : List Char) : l.count '\n' = (l.map (· == '\n')).count true := by
    rw [List.count_eq_countP, List.count_eq_countP, List.countP_map]
    congr 1
    funext c
    simp
  rw [Nat.zero_add, countedLine, hcount, hcount, List.map_take, List.map_take, hmap, Nat.add_comm]

/-! ### Plain expressions -/

mutual

/-- Whether the literals of an expression are plain, and its words are names. -/
def Written.IsPlain : Written → Prop
  | .literal text _ =>
    ∃ body, text = quoted body ∧ ∀ c ∈ body, c ≠ '"' ∧ c ≠ '\\' ∧ c ≠ '\n'
  | .word w => w.isName = true
  | .array items => items.IsPlain
  | .call _ _ arguments => arguments.IsPlain

/-- Whether the value of an item is plain. -/
def Entry.IsPlain {labelled : Bool} : Entry labelled → Prop
  | .mk _ _ value _ _ => value.IsPlain

/-- Whether the values of a row are plain. -/
def Row.IsPlain {labelled : Bool} : Row labelled → Prop
  | .empty _ => True
  | .last entry => entry.IsPlain
  | .more entry rest => entry.IsPlain ∧ rest.IsPlain

end

/-- The part of a dotted name after its last dot. -/
def lastSegment (cs : List Char) : List Char :=
  (cs.reverse.takeWhile (· != '.')).reverse

mutual

/-- The term that a plain expression means, when it begins at an offset. -/
def Written.termAt (lineOf : Nat → Nat) (start : Nat) : Written → Term
  | .literal text h =>
    .string (String.ofList (text.drop 1).dropLast)
      (spanAt lineOf start (Written.literal text h).lexemes)
  | .word w => .reference (String.ofList w.chars) (spanAt lineOf start w.lexemes)
  | .array items =>
    .array ((items.itemsAt lineOf (start + 1)).map (·.2))
      (spanAt lineOf start (Written.array items).lexemes)
  | .call callee gap arguments =>
    .call (String.ofList (lastSegment callee.chars))
      (arguments.itemsAt lineOf (start + callee.chars.length + (textOf gap.lexemes).length + 1))
      (spanAt lineOf start (Written.call callee gap arguments).lexemes)

/-- The label and the term of an item that begins at an offset. -/
def Entry.itemAt {labelled : Bool} (lineOf : Nat → Nat) (start : Nat) :
    Entry labelled → Option String × Term
  | .mk before label value _ _ =>
    (label.map fun l => String.ofList l.name.chars,
      value.termAt lineOf
        (start + (textOf before.lexemes).length + (textOf (Label.lexemes label)).length))

/-- The labels and terms of a row that begins at an offset. -/
def Row.itemsAt {labelled : Bool} (lineOf : Nat → Nat) (start : Nat) :
    Row labelled → List (Option String × Term)
  | .empty _ => []
  | .last entry => [entry.itemAt lineOf start]
  | .more entry rest =>
    entry.itemAt lineOf start :: rest.itemsAt lineOf (start + (textOf entry.lexemes).length + 1)

end

/-! ### The last part of a callee -/

/-- A dotted name has no dot, or its last part follows its last dot. -/
lemma exists_lastSegment (cs : List Char) :
    (∀ c ∈ lastSegment cs, (c == '.') = false) ∧
      (lastSegment cs = cs ∨ ∃ front, cs = front ++ '.' :: lastSegment cs) := by
  have hsplit : cs = (cs.reverse.dropWhile (· != '.')).reverse ++ lastSegment cs := by
    rw [lastSegment, ← List.reverse_append, List.takeWhile_append_dropWhile, List.reverse_reverse]
  constructor
  · intro c hc
    have hpass := List.all_eq_true.1 List.all_takeWhile c (List.mem_reverse.1 hc)
    simpa using hpass
  · cases hrest : cs.reverse.dropWhile (· != '.') with
    | nil =>
      left
      rw [hrest] at hsplit
      exact hsplit.symm
    | cons d rest =>
      right
      have hd : d = '.' := by
        have := List.head_dropWhile_not (· != '.') (l := cs.reverse) (by simp [hrest])
        simpa [hrest] using this
      rw [hrest, hd, List.reverse_cons, List.append_assoc] at hsplit
      exact ⟨rest.reverse, hsplit⟩

/-- The last part of the name of a callee is the segment after its last dot. -/
lemma lastPart_eq (callee : Callee) :
    Term.lastPart (String.ofList callee.chars) = String.ofList (lastSegment callee.chars) := by
  obtain ⟨hplain, hsplit⟩ := exists_lastSegment callee.chars
  have hends : callee.toWord.EndsWith (String.ofList (lastSegment callee.chars)) := by
    rw [Word.EndsWith, String.toList_ofList]
    exact hsplit.imp_left Eq.symm
  refine hends.lastPart ?_
  intro c hc
  rw [String.toList_ofList] at hc
  have hmem := (List.takeWhile_sublist _).subset (List.mem_reverse.1 hc)
  have hjoins := callee.joins c (List.mem_reverse.1 hmem)
  simpa [joinsName, hplain c hc] using hjoins

/-! ### The two ways of counting -/

mutual

/-- The lines of a term are those of the first and the last character of its expression. -/
theorem Written.term_eq_termAt :
    (w : Written) → w.IsPlain → ∀ {lineOf : Nat → Nat} {start line : Nat},
    Counts lineOf start line w.lexemes → w.term line = w.termAt lineOf start
  | .literal text h, hplain, lineOf, start, line, hcounts => by
    have hspan := hcounts.spanAt_eq (Written.literal text h).solid
    obtain ⟨body, rfl, hplain⟩ := hplain
    have hbody : ((quoted body).drop 1).dropLast = body := by simp [quoted]
    have hlines : newlines (Written.literal _ h).lexemes = 0 := newlines_literal h
    rw [Written.term, literalValue?_quoted hplain, Written.termAt, hbody, hspan,
      hlines, Nat.add_zero]
  | .word w, hplain, lineOf, start, line, hcounts => by
    have hspan := hcounts.spanAt_eq (Written.word w).solid
    rw [Written.lexemes, w.newlines_eq, Nat.add_zero] at hspan
    rw [Written.term, if_pos (show w.isName = true from hplain), Written.termAt, hspan]
  | .array items, hplain, lineOf, start, line, hcounts => by
    have hspan := hcounts.spanAt_eq (Written.array items).solid
    have hlines : newlines (Written.array items).lexemes = newlines items.lexemes :=
      newlines_enclosed (by decide) (by decide) items.lexemes
    have hitems := items.items_eq_itemsAt hplain (hcounts.tail (by decide)).left
    rw [Written.term, Written.termAt, hspan, hlines, hitems]
  | .call callee gap arguments, hplain, lineOf, start, line, hcounts => by
    have hspan := hcounts.spanAt_eq (Written.call callee gap arguments).solid
    have hlines : newlines (Written.call callee gap arguments).lexemes =
        newlines gap.lexemes + newlines arguments.lexemes :=
      newlines_call callee.joins gap arguments
    have hcallee : (textOf callee.lexemes).length = callee.chars.length := by
      rw [Word.lexemes, textOf_codes]
    have hafter := hcounts.right.tail (by decide)
    rw [textOf_append, List.length_append, newlines_append, callee.newlines_eq, Nat.zero_add,
      hcallee, ← Nat.add_assoc] at hafter
    have hitems := arguments.items_eq_itemsAt hplain hafter.left
    rw [Written.term, Written.termAt, hspan, hlines, hitems, lastPart_eq, ← Nat.add_assoc]

/-- The lines of an item are those of the first and the last character of its value. -/
theorem Entry.item_eq_itemAt {labelled : Bool} : (e : Entry labelled) → e.IsPlain →
    ∀ {lineOf : Nat → Nat} {start line : Nat}, Counts lineOf start line e.lexemes →
      e.item line = e.itemAt lineOf start
  | .mk before label value after h, hplain, lineOf, start, line, hcounts => by
    have hvalue := value.term_eq_termAt hplain hcounts.left.right
    rw [textOf_append, List.length_append, newlines_append, ← Nat.add_assoc,
      ← Nat.add_assoc] at hvalue
    rw [Entry.item, Entry.itemAt, hvalue]

/-- The lines of the items of a row are those of the first and the last character of each value. -/
theorem Row.items_eq_itemsAt {labelled : Bool} : (r : Row labelled) → r.IsPlain →
    ∀ {lineOf : Nat → Nat} {start line : Nat}, Counts lineOf start line r.lexemes →
      r.items line = r.itemsAt lineOf start
  | .empty gap, _, lineOf, start, line, _ => rfl
  | .last entry, hplain, lineOf, start, line, hcounts => by
    rw [Row.items, Row.itemsAt, entry.item_eq_itemAt hplain hcounts]
  | .more entry rest, hplain, lineOf, start, line, hcounts => by
    rw [Row.items, Row.itemsAt, entry.item_eq_itemAt hplain.1 hcounts.left,
      rest.items_eq_itemsAt hplain.2 (hcounts.right.tail (by decide))]

end

end SwiftDependencies
