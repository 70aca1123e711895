import Mathlib.Tactic.Common
import SwiftDependencies.Proofs.Source.Cleaning

/-!
# Where comments and literals stand

Every offset of a text belongs to one of its lexemes (`exists_split`), and what a view shows there
is what it shows of that lexeme (`getElem?_flatMap`).  So the facts about a view, offset by offset,
are facts about the three kinds of lexemes.

The extents of comments and literals follow one another without meeting (`pairwise_extentsFrom`),
and an extent is that of a lexeme that stands between others (`mem_extents`).
-/

namespace SwiftDependencies.Source

/-! ### Extents -/

instance : Membership Nat Extent :=
  ⟨fun e i => e.start ≤ i ∧ i < e.stop⟩

/-- An offset is in an extent if it is not before its start and before its stop. -/
lemma Extent.mem_iff {e : Extent} {i : Nat} : i ∈ e ↔ e.start ≤ i ∧ i < e.stop := Iff.rfl

/-- No two extents meet if they follow one another. -/
lemma Extent.eq_of_mem {es : List Extent} (h : es.Pairwise fun d e => d.stop ≤ e.start)
    {d e : Extent} (hd : d ∈ es) (he : e ∈ es) {i : Nat} (hi : i ∈ d) (hi' : i ∈ e) :
    d = e := by
  obtain ⟨m, hm, rfl⟩ := List.getElem_of_mem hd
  obtain ⟨n, hn, rfl⟩ := List.getElem_of_mem he
  rw [mem_iff] at hi hi'
  rcases Nat.lt_trichotomy m n with hlt | rfl | hlt
  · have hapart := List.pairwise_iff_getElem.1 h m n hm hn hlt
    omega
  · rfl
  · have hapart := List.pairwise_iff_getElem.1 h n m hn hm hlt
    omega

namespace Lexeme

/-- Whether a lexeme is a string literal. -/
def isLiteral : Lexeme → Bool
  | .literal _ _ => true
  | _ => false

/-- Whether a lexeme is more than a character of code. -/
def isCover (x : Lexeme) : Bool :=
  x.isComment || x.isLiteral

end Lexeme

/-- The extents of the lexemes that pass a test, among some that begin at an offset. -/
def extentsFrom (p : Lexeme → Bool) (offset : Nat) : List Lexeme → List Extent
  | [] => []
  | x :: xs =>
    let rest := extentsFrom p (offset + x.text.length) xs
    if p x then ⟨offset, offset + x.text.length⟩ :: rest else rest

/-- The extents of the lexemes of a text that pass a test, in order. -/
def extents (p : Lexeme → Bool) (cs : List Char) : List Extent :=
  extentsFrom p 0 (lexemes cs)

/-- The extents of the comments of a text, in order. -/
def comments (cs : List Char) : List Extent :=
  extents Lexeme.isComment cs

/-- The extents of the comments and the literals of a text, in order. -/
def covers (cs : List Char) : List Extent :=
  extents Lexeme.isCover cs

/-- The literals of a text are the extents of its literal lexemes. -/
lemma literals_eq_extents (cs : List Char) : literals cs = extents Lexeme.isLiteral cs := by
  have h : ∀ xs offset, literalsFrom offset xs = extentsFrom Lexeme.isLiteral offset xs := by
    intro xs
    induction xs with
    | nil =>
      intro offset
      rfl
    | cons x xs ih =>
      intro offset
      cases x <;> simp [literalsFrom, extentsFrom, Lexeme.isLiteral, Lexeme.text, ih]
  exact h (lexemes cs) 0

variable {p : Lexeme → Bool} {e : Extent}

/-- The extents are those of the lexemes that pass, each behind the text of the lexemes in front of
it. -/
lemma mem_extentsFrom {offset : Nat} {xs : List Lexeme} :
    e ∈ extentsFrom p offset xs ↔
      ∃ before x after, xs = before ++ x :: after ∧ p x = true ∧
      e = ⟨offset + (textOf before).length,
        offset + (textOf before).length + x.text.length⟩ := by
  induction xs generalizing offset with
  | nil => simp [extentsFrom]
  | cons y ys ih =>
    have hrest : e ∈ extentsFrom p (offset + y.text.length) ys ↔
        ∃ before x after, y :: ys = (y :: before) ++ x :: after ∧ p x = true ∧
          e = ⟨offset + (textOf (y :: before)).length,
            offset + (textOf (y :: before)).length + x.text.length⟩ := by
      simp only [ih, List.cons_append, List.cons.injEq, true_and, textOf_cons, List.length_append,
        Nat.add_assoc]
    have hcons : e ∈ extentsFrom p offset (y :: ys) ↔
        (p y = true ∧ e = ⟨offset, offset + y.text.length⟩) ∨
          e ∈ extentsFrom p (offset + y.text.length) ys := by
      rw [extentsFrom]
      split <;> simp [*]
    rw [hcons, hrest]
    constructor
    · rintro (⟨hy, rfl⟩ | ⟨before, x, after, hsplit, hx, rfl⟩)
      · exact ⟨[], y, ys, rfl, hy, rfl⟩
      · exact ⟨y :: before, x, after, hsplit, hx, rfl⟩
    · rintro ⟨before, x, after, hsplit, hx, rfl⟩
      cases before with
      | nil =>
        obtain ⟨rfl, rfl⟩ := List.cons.inj hsplit
        exact .inl ⟨hx, rfl⟩
      | cons z before =>
        obtain ⟨rfl, -⟩ := List.cons.inj hsplit
        exact .inr ⟨before, x, after, hsplit, hx, rfl⟩

/-- The extents of the lexemes of a kind begin where the lexemes before them end. -/
lemma mem_extents {cs : List Char} :
    e ∈ extents p cs ↔ ∃ before x after, lexemes cs = before ++ x :: after ∧ p x = true ∧
      e = ⟨(textOf before).length, (textOf before).length + x.text.length⟩ := by
  simp only [extents, mem_extentsFrom, Nat.zero_add]

/-- An extent ends before the next one begins. -/
lemma pairwise_extentsFrom (p : Lexeme → Bool) (offset : Nat) (xs : List Lexeme) :
    (extentsFrom p offset xs).Pairwise fun d e => d.stop ≤ e.start := by
  induction xs generalizing offset with
  | nil => exact .nil
  | cons x xs ih =>
    rw [extentsFrom]
    split
    · refine List.pairwise_cons.2 ⟨?_, ih _⟩
      intro e he
      obtain ⟨before, y, after, -, -, rfl⟩ := mem_extentsFrom.1 he
      exact Nat.le_add_right _ _
    · exact ih _

/-- An extent is not empty and stays within the text. -/
lemma bounds_of_mem_extents {cs : List Char} (h : e ∈ extents p cs) :
    e.start < e.stop ∧ e.stop ≤ cs.length := by
  obtain ⟨before, x, after, hsplit, -, rfl⟩ := mem_extents.1 h
  have hmem : x ∈ lexemes cs := by simp [hsplit]
  have hne : x.text ≠ [] := text_ne_nil_of_mem_lexemes hmem
  have hlength : cs.length = (textOf (before ++ x :: after)).length := by
    rw [← hsplit]
    exact congrArg List.length (text_lexemes cs).symm
  have hpos := List.length_pos_iff.2 hne
  simp only [textOf_append, textOf_cons, List.length_append] at hlength
  constructor <;> dsimp only <;> omega

/-! ### Views, offset by offset -/

/-- Every offset belongs to a lexeme. -/
lemma exists_split (xs : List Lexeme) {i : Nat} (h : i < (textOf xs).length) :
    ∃ before x after k, xs = before ++ x :: after ∧ k < x.text.length ∧
      i = (textOf before).length + k := by
  induction xs generalizing i with
  | nil => simp at h
  | cons y ys ih =>
    by_cases hi : i < y.text.length
    · exact ⟨[], y, ys, i, rfl, hi, by simp⟩
    · rw [textOf_cons, List.length_append] at h
      obtain ⟨before, x, after, k, rfl, hk, hik⟩ := ih (i := i - y.text.length) (by omega)
      refine ⟨y :: before, x, after, k, rfl, hk, ?_⟩
      rw [textOf_cons, List.length_append]
      omega

/-- What a view that moves nothing shows at an offset is what it shows of the lexeme there. -/
lemma getElem?_flatMap {view : Lexeme → List Char}
    (hview : ∀ x, (view x).length = x.text.length) (before after : List Lexeme) (x : Lexeme)
    {k : Nat} (hk : k < x.text.length) :
    ((before ++ x :: after).flatMap view)[(textOf before).length + k]? = (view x)[k]? := by
  have hbefore : (before.flatMap view).length = (textOf before).length := by
    simp [textOf, List.length_flatMap, hview]
  rw [List.flatMap_append, List.flatMap_cons, List.getElem?_append_right (by omega), hbefore,
    Nat.add_sub_cancel_left, List.getElem?_append_left (by rw [hview]; exact hk)]

section At

variable {cs : List Char} {before after : List Lexeme} {x : Lexeme} {k : Nat}

/-- The characters of a lexeme are those of the text from where it begins. -/
lemma getElem?_text (h : lexemes cs = before ++ x :: after) (hk : k < x.text.length) :
    cs[(textOf before).length + k]? = x.text[k]? := by
  conv => lhs; rw [← text_lexemes cs, h]
  exact getElem?_flatMap (fun _ => rfl) before after x hk

/-- What a lexeme leaves in the clean text stands there where the lexeme begins. -/
lemma getElem?_clean (h : lexemes cs = before ++ x :: after) (hk : k < x.text.length) :
    (clean cs)[(textOf before).length + k]? = x.clean[k]? := by
  rw [clean, h]
  exact getElem?_flatMap Lexeme.length_clean before after x hk

/-- What a lexeme shows stands in the skeleton where the lexeme begins. -/
lemma getElem?_skeleton (h : lexemes cs = before ++ x :: after) (hk : k < x.text.length) :
    (skeleton cs)[(textOf before).length + k]? = x.skeleton[k]? := by
  rw [skeleton, h]
  exact getElem?_flatMap Lexeme.length_skeleton before after x hk

/-- An offset is within the extent of its lexeme. -/
lemma mem_of_split (hk : k < x.text.length) :
    (textOf before).length + k ∈
      (⟨(textOf before).length, (textOf before).length + x.text.length⟩ : Extent) :=
  Extent.mem_iff.2 ⟨Nat.le_add_right _ _, Nat.add_lt_add_left hk _⟩

end At

/-- An offset within an extent is one of its lexeme. -/
lemma exists_of_mem_extents {cs : List Char} (he : e ∈ extents p cs) {i : Nat} (hi : i ∈ e) :
    ∃ before x after k, lexemes cs = before ++ x :: after ∧ p x = true ∧ k < x.text.length ∧
      i = (textOf before).length + k ∧
      e = ⟨(textOf before).length, (textOf before).length + x.text.length⟩ := by
  obtain ⟨before, x, after, hsplit, hx, rfl⟩ := mem_extents.1 he
  obtain ⟨hle, hlt⟩ := Extent.mem_iff.1 hi
  obtain ⟨k, rfl⟩ := Nat.exists_eq_add_of_le hle
  exact ⟨before, x, after, k, hsplit, hx, Nat.lt_of_add_lt_add_left hlt, rfl, rfl⟩

/-- Two views agree wherever they agree on the lexemes that do not pass a test. -/
lemma getElem?_eq_of_not_mem {view view' : Lexeme → List Char}
    (hview : ∀ x, (view x).length = x.text.length)
    (hview' : ∀ x, (view' x).length = x.text.length)
    (hsame : ∀ x, p x = false → view x = view' x) {cs : List Char} {i : Nat}
    (hi : ∀ e ∈ extents p cs, i ∉ e) :
    ((lexemes cs).flatMap view)[i]? = ((lexemes cs).flatMap view')[i]? := by
  by_cases hlt : i < (textOf (lexemes cs)).length
  · obtain ⟨before, x, after, k, hsplit, hk, rfl⟩ := exists_split _ hlt
    have hx : p x = false := by
      rw [← Bool.not_eq_true]
      intro hx
      exact hi _ (mem_extents.2 ⟨before, x, after, hsplit, hx, rfl⟩) (mem_of_split hk)
    rw [hsplit, getElem?_flatMap hview _ _ _ hk, getElem?_flatMap hview' _ _ _ hk, hsame x hx]
  · have hlength : ∀ v : Lexeme → List Char, (∀ x, (v x).length = x.text.length) →
        ((lexemes cs).flatMap v)[i]? = none := by
      intro v hv
      rw [List.getElem?_eq_none_iff]
      simpa [textOf, List.length_flatMap, hv] using hlt
    rw [hlength view hview, hlength view' hview']

/-! ### Blanks -/

/-- A space or a line feed, which is all that is left of a character that is blanked. -/
def IsBlanked (c : Char) : Prop :=
  c = ' ' ∨ c = '\n'

/-- A blanked character is a space or a line feed. -/
lemma isBlanked_blanked (c : Char) : IsBlanked (blanked c) := by
  unfold blanked
  split
  · exact .inr rfl
  · exact .inl rfl

/-- In a comment every view but the text is blank. -/
lemma isBlanked_of_mem_comments {cs : List Char} (h : e ∈ comments cs) {i : Nat} (hi : i ∈ e) :
    ∃ c, IsBlanked c ∧ (clean cs)[i]? = some c ∧ (skeleton cs)[i]? = some c := by
  obtain ⟨before, x, after, k, hsplit, hx, hk, rfl, rfl⟩ := exists_of_mem_extents h hi
  rw [getElem?_clean hsplit hk, getElem?_skeleton hsplit hk]
  cases x with
  | code c => simp [Lexeme.isComment] at hx
  | literal text closed => simp [Lexeme.isComment] at hx
  | comment text closed =>
    have hk : k < text.length := hk
    refine ⟨blanked text[k], isBlanked_blanked _, ?_, ?_⟩ <;>
      simp [Lexeme.clean, Lexeme.skeleton, hk]

/-! ### Line feeds -/

/-- To blank the inside of a literal keeps the places of line feeds. -/
lemma map_blankInside (cs : List Char) :
    (blankInside cs).map (· == '\n') = cs.map (· == '\n') := by
  have hblanked : ∀ c, (blanked c == '\n') = (c == '\n') := by
    intro c
    rw [Bool.eq_iff_iff, beq_iff_eq, beq_iff_eq]
    exact blanked_eq_newline_iff
  match cs with
  | [] => rfl
  | [_] => rfl
  | c :: d :: cs =>
    have hlast : (d :: cs).dropLast ++ [(d :: cs).getLast (by simp)] = d :: cs :=
      List.dropLast_concat_getLast (by simp)
    conv => rhs; rw [← hlast]
    simp only [blankInside, List.map_cons, List.map_append, List.map_map, Function.comp_def,
      hblanked, List.map_nil]

/-- A view has the line feeds of the text, if it has those of each lexeme. -/
lemma newline_iff_of_view {view : Lexeme → List Char}
    (hview : ∀ x, (view x).map (· == '\n') = x.text.map (· == '\n')) (cs : List Char)
    (i : Nat) :
    ((lexemes cs).flatMap view)[i]? = some '\n' ↔ cs[i]? = some '\n' := by
  have hnewline : ∀ l : List Char, l[i]? = some '\n' ↔
      (l.map (· == '\n'))[i]? = some true := by
    intro l
    simp [List.getElem?_map, Option.map_eq_some_iff]
  have hmap : ((lexemes cs).flatMap view).map (· == '\n') = cs.map (· == '\n') := by
    conv => rhs; rw [← text_lexemes cs]
    simp only [List.map_flatMap, hview]
  rw [hnewline, hmap, ← hnewline]

/-- The skeleton of a lexeme has its line feeds where the lexeme has them. -/
lemma map_skeleton (x : Lexeme) : x.skeleton.map (· == '\n') = x.text.map (· == '\n') := by
  cases x with
  | literal text closed => exact map_blankInside text
  | comment text closed => exact map_clean (.comment text closed)
  | code c => rfl

/-- No line starts before the text does. -/
lemma countP_lineStartsFrom_eq_zero (cs : List Char) {first offset : Nat} (h : offset ≤ first) :
    (lineStartsFrom first cs).countP (· ≤ offset) = 0 := by
  induction cs generalizing first with
  | nil => rfl
  | cons c cs ih =>
    rw [lineStartsFrom]
    split
    · rw [List.countP_cons_of_neg (by simp; omega), ih (by omega)]
    · exact ih (by omega)

/-- There are as many line starts after the first, up to an offset, as there are line feeds before
it. -/
lemma countP_lineStartsFrom (cs : List Char) (first n : Nat) :
    (lineStartsFrom first cs).countP (· ≤ first + n) = (cs.take n).count '\n' := by
  induction cs generalizing first n with
  | nil => simp [lineStartsFrom]
  | cons c cs ih =>
    cases n with
    | zero => simpa using countP_lineStartsFrom_eq_zero (c :: cs) (Nat.le_refl first)
    | succ n =>
      have hrest := ih (first + 1) n
      rw [Nat.add_assoc, Nat.add_comm 1 n] at hrest
      rw [lineStartsFrom, List.take_succ_cons, List.count_cons]
      split
      · rw [List.countP_cons_of_pos (by simp), hrest]
      · rw [hrest, Nat.add_zero]

/-- The number of a line is one more than the number of line feeds before it. -/
lemma lineAt_eq (cs : List Char) (offset : Nat) :
    lineAt cs offset = (cs.take offset).count '\n' + 1 := by
  rw [lineAt, lineStarts, List.countP_cons_of_pos (by simp),
    ← countP_lineStartsFrom cs 0 offset, Nat.zero_add]

/-! ### The views of any text -/

/-- Whatever the text: its comments and literals follow one another, each of them not empty and
within the text; the clean view and the skeleton have the length and the line feeds of the text; the
clean view is blank in the comments and the text elsewhere, and the skeleton is the clean view
outside the literals; and lines are counted by line feeds. -/
theorem views_of_text (cs : List Char) :
    (∀ e, e ∈ covers cs ↔ e ∈ comments cs ∨ e ∈ literals cs) ∧
    (∀ e ∈ covers cs, e.start < e.stop ∧ e.stop ≤ cs.length) ∧
    ((covers cs).Pairwise fun d e => d.stop ≤ e.start) ∧
    ((clean cs).length = cs.length ∧ (skeleton cs).length = cs.length) ∧
    (∀ i : Nat, ((clean cs)[i]? = some '\n' ↔ cs[i]? = some '\n') ∧
      ((skeleton cs)[i]? = some '\n' ↔ cs[i]? = some '\n')) ∧
    (∀ i, (∀ e ∈ comments cs, i ∉ e) → (clean cs)[i]? = cs[i]?) ∧
    (∀ e ∈ comments cs, ∀ i ∈ e, ∃ c, IsBlanked c ∧ (clean cs)[i]? = some c) ∧
    (∀ i, (∀ e ∈ literals cs, i ∉ e) → (skeleton cs)[i]? = (clean cs)[i]?) ∧
    (∀ offset ≤ cs.length, lineAt cs offset = (cs.take offset).count '\n' + 1) := by
  refine ⟨?kinds, fun e he => bounds_of_mem_extents he, pairwise_extentsFrom _ _ _,
    ⟨length_clean cs, length_skeleton cs⟩,
    fun i => ⟨newline_iff_of_view map_clean cs i, newline_iff_of_view map_skeleton cs i⟩,
    ?clean, ?blank, ?skeleton, fun offset _ => lineAt_eq cs offset⟩
  case kinds =>
    intro e
    rw [literals_eq_extents, covers, comments, mem_extents, mem_extents, mem_extents]
    simp only [Lexeme.isCover, Bool.or_eq_true, or_and_right, and_or_left, exists_or]
  case clean =>
    intro i hi
    have h : ((lexemes cs).flatMap Lexeme.clean)[i]? = ((lexemes cs).flatMap Lexeme.text)[i]? :=
      getElem?_eq_of_not_mem Lexeme.length_clean (fun _ => rfl)
        (fun x hx => Lexeme.clean_eq_text hx) hi
    rwa [text_lexemes] at h
  case blank =>
    intro e he i hi
    obtain ⟨c, hc, hclean, -⟩ := isBlanked_of_mem_comments he hi
    exact ⟨c, hc, hclean⟩
  case skeleton =>
    intro i hi
    rw [literals_eq_extents] at hi
    refine getElem?_eq_of_not_mem Lexeme.length_skeleton Lexeme.length_clean ?_ hi
    intro x hx
    cases x with
    | literal text closed => simp [Lexeme.isLiteral] at hx
    | _ => rfl

end SwiftDependencies.Source
