import Mathlib.Tactic.Common
import SwiftDependencies.Proofs.Source.Depths
import SwiftDependencies.Proofs.Source.Extents
import SwiftDependencies.Proofs.Source.Offsets

/-!
# Views of a text by offset

A reader by offsets has the views of a text before it: the clean view, the skeleton, the depth
before each character, the extents of the literals and the offsets at which lines start.  It knows
nothing of glyphs.

`Views.glyph?` looks up in all of them what a glyph collects, and finds the glyph of the text at
that offset (`glyph?_of`).  So whatever an extent of the glyphs holds can be looked up as a whole
(`fragment?_of`), and the line of an offset and the end of a literal are those that the glyph there
knows.
-/

namespace SwiftDependencies.Source

/-- What is known of a text before it is read. -/
structure Views where
  clean : List Char
  skeleton : List Char
  /-- The depth before each character of the skeleton, and after the last one. -/
  depths : List Nat
  /-- The extents of the string literals, in order. -/
  literals : List Extent
  /-- The offsets at which lines start, in order. -/
  lineStarts : List Nat
  deriving DecidableEq, Repr

namespace Views

/-- The views of a text. -/
def of (cs : List Char) : Views where
  clean := Source.clean cs
  skeleton := Source.skeleton cs
  depths := Source.depths (Source.skeleton cs)
  literals := Source.literals cs
  lineStarts := Source.lineStarts cs

/-- The number of the line that contains an offset. -/
def lineOf (v : Views) (i : Nat) : Nat :=
  v.lineStarts.countP (· ≤ i)

/-- The offset after the literal that starts at an offset. -/
def literalStop? (v : Views) (i : Nat) : Option Nat :=
  (v.literals.find? (·.start == i)).map (·.stop)

/-- The glyph at an offset, from what all views say of it. -/
def glyph? (v : Views) (i : Nat) : Option Glyph := do
  let c ← v.clean[i]?
  let s ← v.skeleton[i]?
  let depth ← v.depths[i]?
  some ⟨c, s, v.lineOf i, depth, ((v.literalStop? i).map (· - i)).getD 0⟩

/-- The glyphs of an extent. -/
def fragment? (v : Views) (e : Extent) : Option Fragment :=
  (List.range' e.start (e.stop - e.start)).mapM v.glyph?

end Views

/-! ### What a glyph knows of its place -/

/-- The line and the depth of a glyph of one lexeme follow from the characters before it. -/
lemma getElem?_glyphsOf {cs ss : List Char} {line depth n i : Nat} {g : Glyph}
    (h : (glyphsOf line depth n cs ss)[i]? = some g) :
    g.line = (ss.take i).foldl lineAfter line ∧ g.depth = (ss.take i).foldl depthAfter depth ∧
      g.literalLength = if i = 0 then n else 0 := by
  induction ss generalizing cs line depth n i with
  | nil => cases cs <;> simp [glyphsOf] at h
  | cons s ss ih =>
    cases cs with
    | nil => simp [glyphsOf] at h
    | cons c cs =>
      rw [glyphsOf] at h
      cases i with
      | zero =>
        obtain rfl := Option.some.inj h
        exact ⟨rfl, rfl, rfl⟩
      | succ i =>
        rw [List.getElem?_cons_succ] at h
        obtain ⟨hline, hdepth, hlength⟩ := ih h
        refine ⟨hline, hdepth, ?_⟩
        rw [hlength]
        split <;> simp

/-- The length of the literal that starts at an offset, or zero. -/
def lengthAt (es : List Extent) (i : Nat) : Nat :=
  (((es.find? (·.start == i)).map (·.stop)).map (· - i)).getD 0

/-- The length of the extent that begins at an offset is that of the first one that does. -/
lemma lengthAt_cons (e : Extent) (es : List Extent) (i : Nat) :
    lengthAt (e :: es) i = if e.start = i then e.stop - i else lengthAt es i := by
  rw [lengthAt, List.find?_cons]
  by_cases h : e.start = i
  · simp [h]
  · rw [if_neg h, show (e.start == i) = false from beq_eq_false_iff_ne.2 h]
    rfl

/-- No literal starts before the first lexeme. -/
lemma lengthAt_literalsFrom_of_lt {offset i : Nat} (hi : i < offset) (xs : List Lexeme) :
    lengthAt (literalsFrom offset xs) i = 0 := by
  induction xs generalizing offset with
  | nil => rfl
  | cons x xs ih =>
    have hrest := ih (Nat.lt_of_lt_of_le hi (Nat.le_add_right offset x.text.length))
    cases x with
    | code c => exact hrest
    | comment text closed => exact hrest
    | literal text closed =>
      rw [literalsFrom, lengthAt_cons, if_neg (Nat.ne_of_gt hi)]
      exact hrest

/-- A glyph knows its line and its depth, and how long the literal is that begins with it. -/
lemma getElem?_glyphsFrom {xs : List Lexeme} (hxs : ∀ x ∈ xs, x.text ≠ []) (offset : Nat)
    {line depth i : Nat} {g : Glyph} (h : (glyphsFrom line depth xs)[i]? = some g) :
    g.line = ((skeletonOf xs).take i).foldl lineAfter line ∧
      g.depth = ((skeletonOf xs).take i).foldl depthAfter depth ∧
      g.literalLength = lengthAt (literalsFrom offset xs) (offset + i) := by
  induction xs generalizing line depth offset i with
  | nil => simp at h
  | cons x xs ih =>
    have hlength : (glyphsOf line depth x.literalLength x.clean x.skeleton).length =
        x.text.length := by
      rw [← List.length_map (f := (·.skeleton)), map_skeleton_glyphsOf (by simp),
        x.length_skeleton]
    have hpos := List.length_pos_iff.2 (hxs x List.mem_cons_self)
    rw [glyphsFrom] at h
    rw [skeletonOf_cons]
    by_cases hi : i < x.text.length
    · rw [List.getElem?_append_left (by rwa [hlength])] at h
      obtain ⟨hline, hdepth, hliteral⟩ := getElem?_glyphsOf h
      rw [List.take_append_of_le_length (by rw [x.length_skeleton]; omega)]
      refine ⟨hline, hdepth, hliteral.trans ?_⟩
      have hrest : lengthAt (literalsFrom (offset + x.text.length) xs) (offset + i) = 0 :=
        lengthAt_literalsFrom_of_lt (by omega) xs
      cases x with
      | code c => simpa [literalsFrom, Lexeme.literalLength] using hrest.symm
      | comment text closed => simpa [literalsFrom, Lexeme.literalLength] using hrest.symm
      | literal text closed =>
        rw [literalsFrom, lengthAt_cons]
        by_cases hzero : i = 0
        · simp [hzero, Lexeme.literalLength]
        · rw [if_neg hzero, if_neg (by dsimp only; omega)]
          exact hrest.symm
    · rw [List.getElem?_append_right (by omega), hlength] at h
      obtain ⟨hline, hdepth, hliteral⟩ := ih (fun y hy => hxs y (List.mem_cons_of_mem _ hy))
        (offset + x.text.length) h
      rw [List.take_append, List.take_of_length_le (by rw [x.length_skeleton]; omega),
        x.length_skeleton, List.foldl_append, List.foldl_append]
      refine ⟨hline, hdepth, hliteral.trans ?_⟩
      have hoffset : offset + x.text.length + (i - x.text.length) = offset + i := by omega
      rw [hoffset]
      cases x with
      | code c => rfl
      | comment text closed => rfl
      | literal text closed =>
        have hne : ¬offset = offset + i := by
          intro heq
          have : text.length ≤ i := Nat.le_of_not_lt hi
          have : 0 < text.length := hpos
          omega
        rw [literalsFrom, lengthAt_cons, if_neg hne]

/-- The skeleton has the line feeds of the text, so that lines can be counted in it. -/
lemma lineAt_eq_foldl (cs : List Char) (i : Nat) :
    lineAt cs i = ((skeleton cs).take i).foldl lineAfter 1 := by
  have hcount : ∀ l : List Char, l.count '\n' = (l.map (· == '\n')).count true := by
    intro l
    rw [List.count_eq_countP, List.count_eq_countP, List.countP_map]
    congr 1
    funext c
    simp
  have hmap : (skeleton cs).map (· == '\n') = cs.map (· == '\n') := by
    conv => rhs; rw [← text_lexemes cs]
    simp only [skeleton, List.map_flatMap, map_skeleton]
  rw [lineAt_eq, foldl_lineAfter, hcount, hcount, List.map_take, List.map_take, hmap, Nat.add_comm]

/-! ### Looking up glyphs -/

namespace Views

variable {cs : List Char} {i j : Nat} {g : Glyph} {f : Fragment} {e : Extent}

/-- The skeleton of a text is as long as the text. -/
@[simp] lemma length_skeleton_of (cs : List Char) : (of cs).skeleton.length = cs.length :=
  Source.length_skeleton cs

/-- The skeleton of a text is what its glyphs show. -/
lemma skeleton_of (cs : List Char) : (of cs).skeleton = Fragment.chars (glyphs cs) :=
  (Fragment.chars_glyphsFrom 1 0 (lexemes cs)).symm

/-- The clean text is what its glyphs keep. -/
lemma clean_of (cs : List Char) : (of cs).clean = Fragment.cleanText (glyphs cs) :=
  (Fragment.cleanText_glyphsFrom 1 0 (lexemes cs)).symm

/-- A text has as many glyphs as characters. -/
lemma length_glyphs (cs : List Char) : (glyphs cs).length = cs.length := by
  rw [← Fragment.length_chars, ← skeleton_of, length_skeleton_of]

/-- The depth at an offset, the last one included. -/
lemma depths_of (hi : i ≤ cs.length) :
    (of cs).depths[i]? = some (((of cs).skeleton.take i).foldl depthAfter 0) :=
  getElem?_depthsFrom (by rwa [Source.length_skeleton]) 0

/-- The line of an offset is counted in the skeleton before it. -/
lemma lineOf_of (cs : List Char) (i : Nat) :
    (of cs).lineOf i = ((of cs).skeleton.take i).foldl lineAfter 1 :=
  lineAt_eq_foldl cs i

section At

variable (h : (glyphs cs)[i]? = some g)

include h

/-- A glyph at an offset is within the text. -/
lemma lt_length_of_getElem? : i < cs.length := by
  rw [← length_glyphs cs]
  exact (List.getElem?_eq_some_iff.1 h).1

/-- A glyph at an offset knows the line, the depth and the literal there. -/
lemma known_of_getElem? :
    g.line = (of cs).lineOf i ∧ g.depth = ((of cs).skeleton.take i).foldl depthAfter 0 ∧
      g.literalLength = (((of cs).literalStop? i).map (· - i)).getD 0 := by
  obtain ⟨hline, hdepth, hliteral⟩ :=
    getElem?_glyphsFrom (fun x hx => text_ne_nil_of_mem_lexemes hx) 0 h
  rw [Nat.zero_add] at hliteral
  exact ⟨hline.trans (lineOf_of cs i).symm, hdepth, hliteral⟩

/-- The character of a glyph is looked up in the skeleton. -/
lemma getElem?_skeleton_of : (of cs).skeleton[i]? = some g.skeleton := by
  rw [skeleton_of]
  exact getElem?_chars h

/-- The depth of a glyph is looked up among the depths. -/
lemma getElem?_depths_of : (of cs).depths[i]? = some g.depth := by
  rw [depths_of (Nat.le_of_lt (lt_length_of_getElem? h)), (known_of_getElem? h).2.1]

/-- The glyph at an offset is made of what is known there. -/
lemma glyph?_of : (of cs).glyph? i = some g := by
  have hclean : (of cs).clean[i]? = some g.clean := by
    rw [clean_of, Fragment.cleanText, List.getElem?_map, h, Option.map_some]
  obtain ⟨hline, -, hliteral⟩ := known_of_getElem? h
  simp only [glyph?, hclean, getElem?_skeleton_of h, getElem?_depths_of h, ← hline, ← hliteral,
    Option.bind_eq_bind, Option.bind_some]

end At

/-- What an extent of the glyphs holds can be looked up. -/
lemma fragment?_of (h : e.Holds (glyphs cs) f) : (of cs).fragment? e = some f := by
  obtain ⟨start, stop⟩ := e
  have hstop : stop - start = f.length := by
    have := h.stop_eq
    omega
  rw [fragment?, hstop]
  clear hstop
  induction f generalizing start with
  | nil => rfl
  | cons g f ih =>
    obtain ⟨hg, hf⟩ := Extent.Holds.cons_iff.1 h
    rw [List.length_cons, List.range'_succ, List.mapM_cons, glyph?_of hg, ih _ hf]
    rfl

/-- A literal covers what an extent holds exactly if it starts and ends with the extent. -/
lemma literalStop?_of (h : Extent.Holds ⟨i, j⟩ (glyphs cs) (g :: f)) :
    (of cs).literalStop? i = some j ↔ g.literalLength = (g :: f).length := by
  have hg := (Extent.Holds.cons_iff.1 h).1
  have hj := h.stop_eq
  rw [(known_of_getElem? hg).2.2]
  cases hfind : (of cs).literals.find? (·.start == i) with
  | none =>
    have hnone : (of cs).literalStop? i = none := by rw [literalStop?, hfind, Option.map_none]
    rw [hnone]
    simp
  | some e =>
    have hsome : (of cs).literalStop? i = some e.stop := by
      rw [literalStop?, hfind, Option.map_some]
    have hstart : e.start = i := by simpa using List.find?_some hfind
    have hmem : e ∈ extents Lexeme.isLiteral cs := by
      rw [← literals_eq_extents]
      exact List.mem_of_find?_eq_some hfind
    have hbounds := bounds_of_mem_extents hmem
    rw [hsome]
    simp only [Option.some.injEq, Option.map_some, Option.getD_some]
    omega

end Views

end SwiftDependencies.Source
