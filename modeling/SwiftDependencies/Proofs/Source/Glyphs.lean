import Mathlib.Tactic.Common
import SwiftDependencies.Manifest.Fragment
import SwiftDependencies.Proofs.Source.Balance
import SwiftDependencies.Proofs.Source.Scanning

/-!
# The glyphs of lexemes

The glyphs of a row of lexemes are those of its parts, each begun on the line and at the depth that
the parts before it lead to (`glyphsFrom_append`).  Balanced lexemes leave the depth as it was, so
only their line feeds need to be counted.

The second half collects what the character classes of the skeleton have to do with each other.
-/

namespace SwiftDependencies.Source

/-! ### Views of lexemes -/

/-- The skeleton of some lexemes. -/
def skeletonOf (xs : List Lexeme) : List Char :=
  xs.flatMap Lexeme.skeleton

/-- The clean view of some lexemes. -/
def cleanOf (xs : List Lexeme) : List Char :=
  xs.flatMap Lexeme.clean

variable {xs ys : List Lexeme}

@[simp] lemma skeletonOf_nil : skeletonOf [] = [] := rfl

@[simp] lemma skeletonOf_cons (x : Lexeme) (xs : List Lexeme) :
    skeletonOf (x :: xs) = x.skeleton ++ skeletonOf xs :=
  List.flatMap_cons

@[simp] lemma skeletonOf_append (xs ys : List Lexeme) :
    skeletonOf (xs ++ ys) = skeletonOf xs ++ skeletonOf ys :=
  List.flatMap_append

/-- All of code shows. -/
@[simp] lemma skeletonOf_codes (cs : List Char) : skeletonOf (cs.map .code) = cs := by
  induction cs with
  | nil => rfl
  | cons c cs ih => simp [Lexeme.skeleton, ih]

@[simp] lemma cleanOf_nil : cleanOf [] = [] := rfl

@[simp] lemma cleanOf_cons (x : Lexeme) (xs : List Lexeme) :
    cleanOf (x :: xs) = x.clean ++ cleanOf xs :=
  List.flatMap_cons

/-- All of code is clean. -/
@[simp] lemma cleanOf_codes (cs : List Char) : cleanOf (cs.map .code) = cs := by
  induction cs with
  | nil => rfl
  | cons c cs ih => simp [Lexeme.clean, ih]

/-- The skeleton of lexemes is as long as their text. -/
@[simp] lemma length_skeletonOf (xs : List Lexeme) :
    (skeletonOf xs).length = (textOf xs).length := by
  simp [skeletonOf, textOf, List.length_flatMap]

/-- The number of lines that some lexemes end. -/
def newlines (xs : List Lexeme) : Nat :=
  (skeletonOf xs).count '\n'

@[simp] lemma newlines_nil : newlines [] = 0 := rfl

/-- The line feeds of two rows of lexemes are those of each. -/
@[simp] lemma newlines_append (xs ys : List Lexeme) :
    newlines (xs ++ ys) = newlines xs + newlines ys := by
  simp [newlines]

/-- The line feeds of lexemes are those of the first and of the rest. -/
lemma newlines_cons (x : Lexeme) (xs : List Lexeme) :
    newlines (x :: xs) = x.skeleton.count '\n' + newlines xs := by
  simp [newlines]

/-- A character that is no line feed does not count as one. -/
lemma newlines_code {c : Char} (h : c ≠ '\n') (xs : List Lexeme) :
    newlines (.code c :: xs) = newlines xs := by
  simp [newlines, Lexeme.skeleton, h]

/-- Code without line feeds has none. -/
lemma newlines_codes {cs : List Char} (h : '\n' ∉ cs) : newlines (cs.map .code) = 0 := by
  simpa [newlines, List.count_eq_zero] using h

/-- The line after a text is as many lines further as the text has line feeds. -/
lemma foldl_lineAfter (line : Nat) (cs : List Char) :
    cs.foldl lineAfter line = line + cs.count '\n' := by
  induction cs generalizing line with
  | nil => simp
  | cons c cs ih =>
    rw [List.foldl_cons, ih, lineAfter, List.count_cons]
    split <;> omega

/-- The depth after a balanced text is the depth before it. -/
lemma foldl_depthAfter {p : Char → Prop} {cs : List Char} (h : Balanced p cs) (depth : Nat) :
    cs.foldl depthAfter depth = depth := by
  induction h generalizing depth with
  | nil => rfl
  | plain opens closes _ _ ih => simp [depthAfter, opens, closes, ih]
  | group opens closes _ _ ihin ih =>
    simp [depthAfter, opens, closes, isOpener_of_isCloser closes, ihin, ih]

/-! ### Glyphs -/

/-- The glyphs of two rows of lexemes are those of the first, and those of the second from the line
and the depth that the first leads to. -/
lemma glyphsFrom_append (line depth : Nat) (xs ys : List Lexeme) :
    glyphsFrom line depth (xs ++ ys) =
      glyphsFrom line depth xs ++
        glyphsFrom (line + newlines xs) ((skeletonOf xs).foldl depthAfter depth) ys := by
  induction xs generalizing line depth with
  | nil => rfl
  | cons x xs ih =>
    simp only [List.cons_append, glyphsFrom, ih, List.append_assoc, skeletonOf_cons,
      List.foldl_append, newlines_cons, foldl_lineAfter, Nat.add_assoc]

/-- Balanced lexemes leave the depth as it was. -/
lemma glyphsFrom_append_of_balanced {p : Char → Prop} (h : Balanced p (skeletonOf xs))
    (line depth : Nat) (ys : List Lexeme) :
    glyphsFrom line depth (xs ++ ys) =
      glyphsFrom line depth xs ++ glyphsFrom (line + newlines xs) depth ys := by
  rw [glyphsFrom_append, foldl_depthAfter h]

/-- Behind balanced lexemes the depth is what it was, so only the line may be another one. -/
lemma exists_glyphsFrom_append {p : Char → Prop} (h : Balanced p (skeletonOf xs))
    (line depth : Nat) (ys : List Lexeme) :
    ∃ l, glyphsFrom line depth (xs ++ ys) = glyphsFrom line depth xs ++ glyphsFrom l depth ys :=
  ⟨_, glyphsFrom_append_of_balanced h line depth ys⟩

@[simp] lemma glyphsFrom_nil (line depth : Nat) : glyphsFrom line depth [] = [] := rfl

/-- The first glyph of code is its first character. -/
lemma glyphsFrom_code (line depth : Nat) (c : Char) (xs : List Lexeme) :
    glyphsFrom line depth (.code c :: xs) =
      ⟨c, c, line, depth, 0⟩ :: glyphsFrom (lineAfter line c) (depthAfter depth c) xs := rfl

/-- Glyphs show the skeleton that they are made from. -/
lemma map_skeleton_glyphsOf {cs ss : List Char} (h : cs.length = ss.length) (line depth n : Nat) :
    (glyphsOf line depth n cs ss).map (·.skeleton) = ss := by
  induction ss generalizing cs line depth n with
  | nil => cases cs <;> rfl
  | cons s ss ih =>
    cases cs with
    | nil => simp at h
    | cons c cs => simp [glyphsOf, ih (Nat.succ.inj h)]

/-- Glyphs keep the clean text that they are made from. -/
lemma map_clean_glyphsOf {cs ss : List Char} (h : cs.length = ss.length) (line depth n : Nat) :
    (glyphsOf line depth n cs ss).map (·.clean) = cs := by
  induction ss generalizing cs line depth n with
  | nil => simp_all [glyphsOf]
  | cons s ss ih =>
    cases cs with
    | nil => simp at h
    | cons c cs => simp [glyphsOf, ih (Nat.succ.inj h)]

namespace Fragment

@[simp] lemma chars_append (f rest : Fragment) : chars (f ++ rest) = chars f ++ chars rest :=
  List.map_append

@[simp] lemma length_chars (f : Fragment) : (chars f).length = f.length :=
  List.length_map _

/-- The glyphs of lexemes show their skeleton. -/
@[simp] lemma chars_glyphsFrom (line depth : Nat) (xs : List Lexeme) :
    chars (glyphsFrom line depth xs) = skeletonOf xs := by
  induction xs generalizing line depth with
  | nil => rfl
  | cons x xs ih =>
    rw [glyphsFrom, chars_append, ih, skeletonOf_cons, chars, map_skeleton_glyphsOf (by simp)]

/-- The glyphs of lexemes keep their clean text. -/
@[simp] lemma cleanText_glyphsFrom (line depth : Nat) (xs : List Lexeme) :
    cleanText (glyphsFrom line depth xs) = cleanOf xs := by
  induction xs generalizing line depth with
  | nil => rfl
  | cons x xs ih =>
    have ih (line depth : Nat) : (glyphsFrom line depth xs).map Glyph.clean = cleanOf xs :=
      ih line depth
    rw [cleanText, glyphsFrom, List.map_append, ih, cleanOf_cons, map_clean_glyphsOf (by simp)]

end Fragment

/-- There are as many glyphs as characters. -/
@[simp] lemma length_glyphsFrom (line depth : Nat) (xs : List Lexeme) :
    (glyphsFrom line depth xs).length = (textOf xs).length := by
  rw [← Fragment.length_chars, Fragment.chars_glyphsFrom, length_skeletonOf]

/-- The first glyph of lexemes of which the first is not empty. -/
lemma head?_glyphsFrom (line depth : Nat) {x : Lexeme} (h : x.text ≠ []) (xs : List Lexeme) :
    ∃ c s, (glyphsFrom line depth (x :: xs)).head? =
      some ⟨c, s, line, depth, x.literalLength⟩ := by
  have hc : x.clean ≠ [] := by
    rw [← List.length_pos_iff, x.length_clean]
    exact List.length_pos_iff.2 h
  have hs : x.skeleton ≠ [] := by
    rw [← List.length_pos_iff, x.length_skeleton]
    exact List.length_pos_iff.2 h
  obtain ⟨c, cs, hcs⟩ := List.exists_cons_of_ne_nil hc
  obtain ⟨s, ss, hss⟩ := List.exists_cons_of_ne_nil hs
  exact ⟨c, s, by simp [glyphsFrom, hcs, hss, glyphsOf]⟩

/-- Without brackets all glyphs have the same depth. -/
lemma depth_of_mem_glyphsOf {cs ss : List Char}
    (h : ∀ c ∈ ss, isOpener c = false ∧ isCloser c = false) (line depth n : Nat) {g : Glyph}
    (hg : g ∈ glyphsOf line depth n cs ss) : g.depth = depth := by
  induction ss generalizing cs line n with
  | nil => cases cs <;> simp [glyphsOf] at hg
  | cons s ss ih =>
    cases cs with
    | nil => simp [glyphsOf] at hg
    | cons c cs =>
      have hs := h s List.mem_cons_self
      have hdepth : depthAfter depth s = depth := by simp [depthAfter, hs]
      rw [glyphsOf, hdepth] at hg
      rcases List.mem_cons.1 hg with rfl | hg
      · rfl
      · exact ih (fun c hc => h c (List.mem_cons_of_mem _ hc)) _ _ hg

/-- Without brackets the depth stays as it is. -/
lemma depth_of_mem_glyphsFrom {xs : List Lexeme}
    (h : ∀ c ∈ skeletonOf xs, isOpener c = false ∧ isCloser c = false) (line depth : Nat)
    {g : Glyph} (hg : g ∈ glyphsFrom line depth xs) : g.depth = depth := by
  induction xs generalizing line with
  | nil => simp at hg
  | cons x xs ih =>
    rw [skeletonOf_cons] at h
    have hx : ∀ c ∈ x.skeleton, isOpener c = false ∧ isCloser c = false :=
      fun c hc => h c (List.mem_append_left _ hc)
    have hdepth : x.skeleton.foldl depthAfter depth = depth :=
      foldl_depthAfter (.of_forall fun c hc => ⟨(hx c hc).1, (hx c hc).2, trivial⟩ :
        Balanced (fun _ => True) x.skeleton) depth
    rw [glyphsFrom, hdepth] at hg
    rcases List.mem_append.1 hg with hg | hg
    · exact depth_of_mem_glyphsOf hx _ _ _ hg
    · exact ih (fun c hc => h c (List.mem_append_right _ hc)) _ hg

/-- The line after the last glyph is as many lines further as there are line feeds. -/
lemma getLast?_glyphsOf {cs ss : List Char} (h : cs.length = ss.length) (line depth n : Nat)
    {g : Glyph} (hg : g ∈ (glyphsOf line depth n cs ss).getLast?) :
    lineAfter g.line g.skeleton = line + ss.count '\n' := by
  induction ss generalizing cs line depth n with
  | nil => cases cs <;> simp [glyphsOf] at hg
  | cons s ss ih =>
    cases cs with
    | nil => simp at h
    | cons c cs =>
      simp only [glyphsOf] at hg
      cases htail : glyphsOf (lineAfter line s) (depthAfter depth s) 0 cs ss with
      | nil =>
        have hss : ss = [] := by
          rw [← map_skeleton_glyphsOf (Nat.succ.inj h) (lineAfter line s) (depthAfter depth s) 0,
            htail]
          rfl
        rw [htail] at hg
        obtain rfl := Option.some.inj hg
        simp [hss, lineAfter, List.count_singleton]
        split <;> simp
      | cons e es =>
        rw [htail, List.getLast?_cons_cons, ← htail] at hg
        rw [ih (Nat.succ.inj h) _ _ _ hg, lineAfter, List.count_cons]
        split <;> omega

/-- The line after the last glyph of some lexemes. -/
lemma getLast?_glyphsFrom (line depth : Nat) (xs : List Lexeme) {g : Glyph}
    (hg : g ∈ (glyphsFrom line depth xs).getLast?) :
    lineAfter g.line g.skeleton = line + newlines xs := by
  induction xs generalizing line depth with
  | nil => simp at hg
  | cons x xs ih =>
    rw [glyphsFrom] at hg
    rw [newlines_cons]
    cases htail : glyphsFrom (x.skeleton.foldl lineAfter line)
      (x.skeleton.foldl depthAfter depth) xs with
    | nil =>
      have hxs : newlines xs = 0 := by
        rw [newlines, ← Fragment.chars_glyphsFrom, htail]
        rfl
      rw [htail, List.append_nil] at hg
      rw [getLast?_glyphsOf (by simp) _ _ _ hg, hxs]
      omega
    | cons e es =>
      have hne : glyphsFrom (x.skeleton.foldl lineAfter line) (x.skeleton.foldl depthAfter depth) xs
          ≠ [] := by simp [htail]
      have hlast : g ∈ (glyphsFrom (x.skeleton.foldl lineAfter line)
          (x.skeleton.foldl depthAfter depth) xs).getLast? := by
        rwa [List.getLast?_append, Option.or_of_isSome (List.getLast?_isSome.2 hne)] at hg
      rw [ih _ _ hlast, foldl_lineAfter]
      omega

end SwiftDependencies.Source
