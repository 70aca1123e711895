import Mathlib.Tactic.Common
import SwiftDependencies.Manifest.Reader
import SwiftDependencies.Proofs.Source.Glyphs
import SwiftDependencies.Proofs.Source.Steps

/-!
# Comments leave no trace

The clean view of a text has blanks in place of comments.  Read as a text of its own it has the same
literals, and a character of code for each blank (`lexemes_clean`), so that all its views are those
of the original text, and a manifest that is read by its sections describes the same package.

What has to be ruled out is that a blank changes how the characters before it are read: a slash, a
row of number signs or a quote could be the beginning of something longer.  A comment begins with a
slash, and no step of the reader waits for a slash except to begin a comment.  So the reader takes
the same characters off two texts that are the same up to a comment in the first, where the second
has a blank (`SameUpToComment`), whatever comes after that.
-/

namespace SwiftDependencies.Source

/-! ### Texts that are the same up to a comment -/

/-- The first text may go on with a slash where the second one has a space. -/
inductive SameUpToComment : List Char → List Char → Prop
  | nil : SameUpToComment [] []
  | comment (cs ds : List Char) : SameUpToComment ('/' :: cs) (' ' :: ds)
  | cons (c : Char) {cs ds : List Char} (rest : SameUpToComment cs ds) :
      SameUpToComment (c :: cs) (c :: ds)

namespace SameUpToComment

variable {cs ds : List Char}

/-- Texts that are the same up to a comment stay so behind the same text. -/
lemma append (us : List Char) (h : SameUpToComment cs ds) :
    SameUpToComment (us ++ cs) (us ++ ds) := by
  induction us with
  | nil => exact h
  | cons u us ih => exact .cons u ih

/-- The texts begin with the same marks. -/
lemma isPrefixOf_eq (h : SameUpToComment cs ds) {marks : List Char}
    (hm : ∀ c ∈ marks, IsMark c) :
    marks.isPrefixOf ds = marks.isPrefixOf cs := by
  induction h generalizing marks with
  | nil => rfl
  | comment cs ds =>
    cases marks with
    | nil => rfl
    | cons m marks =>
      rcases hm m List.mem_cons_self with rfl | rfl <;> rfl
  | cons c _ ih =>
    cases marks with
    | nil => rfl
    | cons m marks =>
      simp only [List.isPrefixOf_cons_cons, ih fun d hd => hm d (List.mem_cons_of_mem _ hd)]

/-- A character other than the two at which the texts may part begins both or none. -/
lemma head?_eq_some (h : SameUpToComment cs ds) {c : Char} (hslash : c ≠ '/')
    (hspace : c ≠ ' ') :
    ds.head? = some c ↔ cs.head? = some c := by
  cases h with
  | nil => rfl
  | comment => simp [hslash.symm, hspace.symm]
  | cons => simp

/-- A slash begins the second text only if it begins the first. -/
lemma head?_of_slash (h : SameUpToComment cs ds) (hd : ds.head? = some '/') :
    cs.head? = some '/' := by
  cases h with
  | nil => exact hd
  | comment => rfl
  | cons => simpa using hd

/-- A literal starts with both texts or with neither. -/
lemma startsLiteral_eq (h : SameUpToComment cs ds) : startsLiteral ds = startsLiteral cs := by
  unfold startsLiteral
  induction h with
  | nil => rfl
  | comment => rfl
  | cons c _ ih =>
    simp only [List.dropWhile_cons]
    split
    · exact ih
    · rfl

end SameUpToComment

/-! ### Steps of the reader -/

/-- A literal opens with three quotes or with one. -/
lemma opening_eq (hashes : Nat) (cs : List Char) :
    opening hashes cs =
      if ['"', '"', '"'].isPrefixOf cs then
        (['"', '"', '"'], .literal (['"', '"', '"'] ++ List.replicate hashes '#')
          (hashes != 0) false)
      else (['"'], .literal (['"'] ++ List.replicate hashes '#') (hashes != 0) true) := by
  unfold opening
  split
  · simp
  · rename_i hnot
    rw [if_neg]
    intro hprefix
    obtain ⟨rest, rfl⟩ := List.isPrefixOf_iff_prefix.1 hprefix
    exact hnot rest rfl

/-- A frame that closes with quotes and number signs. -/
def Frame.HasMarks : Frame → Prop
  | .literal closing _ _ => ∀ c ∈ closing, IsMark c
  | .interpolation _ => True

/-- The opening of a literal is followed by its marks. -/
lemma hasMarks_opening (hashes : Nat) (cs : List Char) : (opening hashes cs).2.HasMarks := by
  rw [opening_eq]
  split <;> simp +contextual [Frame.HasMarks, IsMark, List.mem_replicate, or_imp]

/-- Both texts open the same literal. -/
lemma opening_same {cs ds : List Char} (h : SameUpToComment cs ds) (hashes : Nat) :
    opening hashes ds = opening hashes cs := by
  rw [opening_eq, opening_eq, h.isPrefixOf_eq (by simp [IsMark])]

/-- A step depends only on what the texts have in common. -/
lemma step_same {frames : List Frame} (hf : ∀ f ∈ frames, f.HasMarks) {cs ds : List Char}
    (h : SameUpToComment cs ds) (c : Char) : step frames c ds = step frames c cs := by
  match frames with
  | [] => rfl
  | .literal closing raw short :: outer =>
    have hclosing : ∀ d ∈ closing, IsMark d := hf _ List.mem_cons_self
    have hopen : (ds.head? == some '(') = (cs.head? == some '(') := by
      rw [Bool.eq_iff_iff, beq_iff_eq, beq_iff_eq]
      exact h.head?_eq_some (by decide) (by decide)
    simp only [step, literalStep, hopen, (SameUpToComment.cons c h).isPrefixOf_eq hclosing]
  | .interpolation parentheses :: outer =>
    simp only [step, interpolationStep, opening_same (.cons c h)]

/-- The frames that a step leaves open close with marks if those before did. -/
lemma hasMarks_of_step {frames frames' : List Frame} {c : Char} {cs : List Char} {extra : Nat}
    (hf : ∀ f ∈ frames, f.HasMarks) (h : step frames c cs = .more extra frames') :
    ∀ f ∈ frames', f.HasMarks :=
  forall_of_step hasMarks_opening (fun _ => trivial) hf h

/-! ### Literals -/

/-- Nothing is the same as nothing only. -/
lemma SameUpToComment.eq_nil {ds : List Char} (h : SameUpToComment [] ds) : ds = [] := by
  cases h
  rfl

/-- As many characters can be taken again if others are put behind them. -/
lemma take_drop_take_append {n : Nat} {cs ds : List Char} (h : SameUpToComment (cs.drop n) ds) :
    (cs.take n ++ ds).take n = cs.take n ∧ (cs.take n ++ ds).drop n = ds := by
  by_cases hn : n ≤ cs.length
  · have hlength : (cs.take n).length = n := by simp [hn]
    exact ⟨List.take_left' hlength, List.drop_left' hlength⟩
  · have htake : cs.take n = cs := List.take_of_length_le (by omega)
    have hdrop : cs.drop n = [] := List.drop_eq_nil_of_le (by omega)
    rw [hdrop] at h
    simp [h.eq_nil, htake, hdrop]

/-- The rest of a literal is read in the same way before a text that is the same up to a comment. -/
lemma literalRest_same {frames : List Frame} (hf : ∀ f ∈ frames, f.HasMarks) {cs ds : List Char}
    (h : SameUpToComment (literalRest frames cs).rest ds) :
    literalRest frames ((literalRest frames cs).text ++ ds) =
      ⟨(literalRest frames cs).text, (literalRest frames cs).closed, ds⟩ := by
  fun_induction literalRest frames cs with
  | case1 frames =>
    cases h
    rw [List.append_nil, literalRest]
  | case2 frames c cs extra frames' hstep ih =>
    simp only [Taken.rest_prepend] at h
    have hbehind : SameUpToComment (cs.drop extra)
        ((literalRest frames' (cs.drop extra)).text ++ ds) := by
      conv => lhs; rw [← literalRest_append frames' (cs.drop extra)]
      exact h.append _
    have hsame := hbehind.append (cs.take extra)
    rw [List.take_append_drop] at hsame
    obtain ⟨htake, hdrop⟩ := take_drop_take_append hbehind
    rw [Taken.text_prepend, List.cons_append, List.cons_append, List.append_assoc, literalRest,
      step_same hf hsame, hstep]
    simp only [htake, hdrop, ih (hasMarks_of_step hf hstep) h]
    rfl
  | case3 frames c cs extra hstep =>
    have hsame := h.append (cs.take extra)
    rw [List.take_append_drop] at hsame
    obtain ⟨htake, hdrop⟩ := take_drop_take_append h
    rw [List.cons_append, literalRest, step_same hf hsame, hstep]
    simp only [htake, hdrop]
  | case4 frames c cs hstep =>
    -- What comes behind is a line feed, so the second text begins with it too.
    rw [List.nil_append]
    cases h with
    | comment cs ds =>
      obtain rfl | h := eq_newline_of_step hstep
      · rw [literalRest]
        rfl
      · exact absurd h (by decide)
    | cons c hrest => rw [literalRest, step_same hf hrest, hstep]

/-- A literal consists of its number signs, its opening and the rest. -/
lemma takeLiteral_eq {hashes body : List Char} (hh : ∀ c ∈ hashes, (c == '#') = true)
    (hb : body.head? = some '"') :
    takeLiteral (hashes ++ body) =
      (literalRest [(opening hashes.length body).2]
        (body.drop (opening hashes.length body).1.length)).prepend
          (hashes ++ body.take (opening hashes.length body).1.length) := by
  obtain ⟨rest, rfl⟩ := List.head?_eq_some_iff.1 hb
  have hsigns : (hashes ++ '"' :: rest).takeWhile (· == '#') = hashes := by
    rw [List.takeWhile_append_of_pos hh]
    simp
  have hbody : (hashes ++ '"' :: rest).dropWhile (· == '#') = '"' :: rest := by
    rw [List.dropWhile_append_of_pos hh]
    simp
  simp only [takeLiteral, hsigns, hbody]

/-- A literal is read in the same way before a text that is the same up to a comment. -/
lemma takeLiteral_same {cs ds : List Char} (hstart : startsLiteral cs = true)
    (h : SameUpToComment (takeLiteral cs).rest ds) :
    takeLiteral ((takeLiteral cs).text ++ ds) =
      ⟨(takeLiteral cs).text, (takeLiteral cs).closed, ds⟩ := by
  obtain ⟨hashes, body, hh, hb, rfl⟩ :
      ∃ hashes body, (∀ c ∈ hashes, (c == '#') = true) ∧
      body.head? = some '"' ∧ cs = hashes ++ body :=
    ⟨_, _, List.all_eq_true.1 List.all_takeWhile, beq_iff_eq.1 hstart,
      List.takeWhile_append_dropWhile.symm⟩
  rw [takeLiteral_eq hh hb] at h ⊢
  generalize ho : opening hashes.length body = o at h ⊢
  have hmarks : ∀ f ∈ [o.2], f.HasMarks := by
    simpa [← ho] using hasMarks_opening hashes.length body
  have hrest := literalRest_same hmarks h
  set t := literalRest [o.2] (body.drop o.1.length) with ht
  have hbehind : SameUpToComment (body.drop o.1.length) (t.text ++ ds) := by
    conv => lhs; rw [← literalRest_append [o.2] (body.drop o.1.length)]
    exact h.append _
  have hsame := hbehind.append (body.take o.1.length)
  rw [List.take_append_drop] at hsame
  have hb' := (hsame.head?_eq_some (by decide) (by decide)).2 hb
  obtain ⟨htake, hdrop⟩ := take_drop_take_append hbehind
  rw [Taken.text_prepend, List.append_assoc, List.append_assoc, takeLiteral_eq hh hb',
    opening_same hsame, ho, htake, hdrop, hrest]
  rfl

/-! ### Lexemes -/

/-- Whether a lexeme is a comment. -/
def Lexeme.isComment : Lexeme → Bool
  | .comment _ _ => true
  | _ => false

/-- The lexemes that a lexeme leaves in the clean view. -/
def Lexeme.cleaned : Lexeme → List Lexeme
  | .comment text _ => (text.map blanked).map .code
  | x => [x]

/-- What is no comment is clean. -/
lemma Lexeme.clean_eq_text {x : Lexeme} (h : x.isComment = false) : x.clean = x.text := by
  cases x <;> simp_all [isComment, clean, text]

/-- What is no comment is one lexeme of the clean text. -/
lemma Lexeme.cleaned_eq_self {x : Lexeme} (h : x.isComment = false) : x.cleaned = [x] := by
  cases x <;> simp_all [isComment, cleaned]

/-- A comment begins with a slash. -/
lemma eq_comment_of_first {c : Char} {cs : List Char} (h : (first c cs).1.isComment = true) :
    ∃ text closed, c = '/' ∧ (first c cs).1 = .comment ('/' :: text) closed := by
  unfold first at h ⊢
  split
  · simp_all
  split
  · simp_all
  split <;> simp_all [Lexeme.isComment]

/-- Where a literal starts, it is the first lexeme. -/
lemma first_of_startsLiteral {c : Char} {cs : List Char} (h : startsLiteral (c :: cs) = true) :
    first c cs =
      (.literal (takeLiteral (c :: cs)).text (takeLiteral (c :: cs)).closed,
        (takeLiteral (c :: cs)).rest) := by
  have hslash : c ≠ '/' := by
    rintro rfl
    simp [startsLiteral] at h
  simp [first, hslash, h]

/-- Where neither a comment nor a literal starts, the first lexeme is a character of code. -/
lemma first_of_not {c : Char} {cs : List Char} (hline : ¬(c = '/' ∧ cs.head? = some '/'))
    (hblock : ¬(c = '/' ∧ cs.head? = some '*')) (hstart : startsLiteral (c :: cs) = false) :
    first c cs = (.code c, cs) := by
  simp [first, hline, hblock, hstart]

/-- What is no comment does not begin like one. -/
lemma not_slash_of_first {c : Char} {cs : List Char} (hx : (first c cs).1.isComment = false) :
    ¬(c = '/' ∧ cs.head? = some '/') ∧ ¬(c = '/' ∧ cs.head? = some '*') := by
  constructor
  · rintro ⟨rfl, h⟩
    simp [first, h, Lexeme.isComment] at hx
  · rintro ⟨rfl, h⟩
    simp [first, h, Lexeme.isComment] at hx

/-- A lexeme other than a comment is read in the same way before a text that is the same up to a
comment. -/
lemma lexemes_same {c : Char} {cs ds : List Char} (hx : (first c cs).1.isComment = false)
    (h : SameUpToComment (first c cs).2 ds) :
    lexemes ((first c cs).1.text ++ ds) = (first c cs).1 :: lexemes ds := by
  cases hstart : startsLiteral (c :: cs) with
  | true =>
    rw [first_of_startsLiteral hstart] at h ⊢
    have hsame := h.append (takeLiteral (c :: cs)).text
    rw [takeLiteral_append] at hsame
    have htake := takeLiteral_same hstart h
    have hstart' := hsame.startsLiteral_eq.trans hstart
    simp only [Lexeme.text]
    cases htext : (takeLiteral (c :: cs)).text ++ ds with
    | nil => simp [htext, startsLiteral] at hstart'
    | cons d rest =>
      rw [htext] at hstart' htake
      rw [lexemes_cons_of_first (first_of_startsLiteral hstart'), htake]
  | false =>
    obtain ⟨hline, hblock⟩ := not_slash_of_first hx
    rw [first_of_not hline hblock hstart] at h ⊢
    have hstart' := (SameUpToComment.cons c h).startsLiteral_eq.trans hstart
    have hfirst : first c ds = (.code c, ds) :=
      first_of_not (fun hd => hline ⟨hd.1, h.head?_of_slash hd.2⟩)
        (fun hd => hblock ⟨hd.1, (h.head?_eq_some (by decide) (by decide)).1 hd.2⟩) hstart'
    exact lexemes_cons_of_first hfirst

/-- The clean text is that of the first lexeme and of the rest. -/
lemma clean_cons (c : Char) (cs : List Char) :
    clean (c :: cs) = (first c cs).1.clean ++ clean (first c cs).2 := by
  rw [clean, lexemes, List.flatMap_cons]
  rfl

/-- The clean view is the text up to its first comment. -/
lemma sameUpToComment_clean (cs : List Char) : SameUpToComment cs (clean cs) := by
  fun_induction lexemes cs with
  | case1 =>
    rw [clean, lexemes]
    exact .nil
  | case2 c cs ih =>
    rw [clean_cons]
    cases hx : (first c cs).1.isComment with
    | true =>
      obtain ⟨text, closed, rfl, hx⟩ := eq_comment_of_first hx
      rw [hx]
      exact .comment _ _
    | false =>
      conv => lhs; rw [← text_first_append c cs]
      rw [Lexeme.clean_eq_text hx]
      exact ih.append _

/-- The blanks that are left of a comment are code. -/
lemma lexemes_blanked (text ds : List Char) :
    lexemes (text.map blanked ++ ds) = (text.map blanked).map .code ++ lexemes ds := by
  have hcode : ∀ c ∈ text.map blanked, IsCode c := by
    intro c hc
    obtain ⟨d, -, rfl⟩ := List.mem_map.1 hc
    unfold blanked
    split <;> decide
  have h := scans_codes hcode ds
  rwa [textOf_codes] at h

/-- The clean view has the lexemes of the text, but for the comments, of which the blanks are
left. -/
lemma lexemes_clean (cs : List Char) :
    lexemes (clean cs) = (lexemes cs).flatMap Lexeme.cleaned := by
  fun_induction lexemes cs with
  | case1 => rw [clean, lexemes, List.flatMap_nil, List.flatMap_nil, lexemes]
  | case2 c cs ih =>
    rw [clean_cons, List.flatMap_cons]
    cases hx : (first c cs).1.isComment with
    | true =>
      obtain ⟨text, closed, -, hcomment⟩ := eq_comment_of_first hx
      rw [hcomment, ← ih]
      exact lexemes_blanked _ _
    | false =>
      rw [Lexeme.clean_eq_text hx, Lexeme.cleaned_eq_self hx,
        lexemes_same hx (sameUpToComment_clean _), ih]
      rfl

/-! ### Views of the clean text -/

/-- No comment is left in the clean view. -/
lemma isComment_of_mem_lexemes_clean {x : Lexeme} {cs : List Char} (h : x ∈ lexemes (clean cs)) :
    x.isComment = false := by
  rw [lexemes_clean] at h
  obtain ⟨y, -, hy⟩ := List.mem_flatMap.1 h
  cases y with
  | code c => simp_all [Lexeme.cleaned, Lexeme.isComment]
  | comment text closed =>
    obtain ⟨c, -, rfl⟩ := List.mem_map.1 hy
    rfl
  | literal text closed => simp_all [Lexeme.cleaned, Lexeme.isComment]

/-- What a lexeme leaves in the clean text is clean. -/
lemma cleanOf_cleaned (x : Lexeme) : cleanOf x.cleaned = x.clean := by
  cases x with
  | comment text closed => exact cleanOf_codes _
  | _ => simp [Lexeme.cleaned]

/-- What a lexeme leaves in the clean text shows as the lexeme does. -/
lemma skeletonOf_cleaned (x : Lexeme) : skeletonOf x.cleaned = x.skeleton := by
  cases x with
  | comment text closed => exact skeletonOf_codes _
  | _ => simp [Lexeme.cleaned]

/-- A clean text is clean. -/
lemma clean_clean (cs : List Char) : clean (clean cs) = clean cs := by
  conv => lhs; rw [clean, lexemes_clean, List.flatMap_assoc]
  exact congrArg (List.flatMap · (lexemes cs)) (funext cleanOf_cleaned)

/-- The skeleton of the clean text is that of the text. -/
lemma skeleton_clean (cs : List Char) : skeleton (clean cs) = skeleton cs := by
  rw [skeleton, lexemes_clean, List.flatMap_assoc]
  exact congrArg (List.flatMap · (lexemes cs)) (funext skeletonOf_cleaned)

/-- There are no literals in code. -/
lemma literalsFrom_codes (offset : Nat) (cs : List Char) (xs : List Lexeme) :
    literalsFrom offset (cs.map .code ++ xs) = literalsFrom (offset + cs.length) xs := by
  induction cs generalizing offset with
  | nil => rfl
  | cons c cs ih =>
    simp only [List.map_cons, List.cons_append, literalsFrom, ih, Lexeme.text, List.length_cons,
      List.length_nil]
    congr 1
    omega

/-- The lexemes of the clean text have the same literals. -/
lemma literalsFrom_cleaned (offset : Nat) (xs : List Lexeme) :
    literalsFrom offset (xs.flatMap Lexeme.cleaned) = literalsFrom offset xs := by
  induction xs generalizing offset with
  | nil => rfl
  | cons x xs ih =>
    rw [List.flatMap_cons]
    cases x with
    | code c => simp [Lexeme.cleaned, literalsFrom, ih]
    | comment text closed =>
      rw [Lexeme.cleaned, literalsFrom_codes, ih, List.length_map]
      rfl
    | literal text closed => simp [Lexeme.cleaned, literalsFrom, ih]

/-- The literals of the clean text are those of the text. -/
lemma literals_clean (cs : List Char) : literals (clean cs) = literals cs := by
  rw [literals, lexemes_clean, literalsFrom_cleaned, literals]

/-- The glyphs of code are its characters. -/
lemma glyphsFrom_codes (line depth : Nat) (cs : List Char) :
    glyphsFrom line depth (cs.map .code) = glyphsOf line depth 0 cs cs := by
  induction cs generalizing line depth with
  | nil => rfl
  | cons c cs ih => rw [List.map_cons, glyphsFrom_code, ih, glyphsOf]

/-- The lexemes of the clean text have the same glyphs. -/
lemma glyphsFrom_cleaned (line depth : Nat) (xs : List Lexeme) :
    glyphsFrom line depth (xs.flatMap Lexeme.cleaned) = glyphsFrom line depth xs := by
  induction xs generalizing line depth with
  | nil => rfl
  | cons x xs ih =>
    have hx : ∀ l d, glyphsFrom l d x.cleaned = glyphsFrom l d [x] := by
      intro l d
      cases x with
      | comment text closed =>
        rw [Lexeme.cleaned, glyphsFrom_codes]
        simp [glyphsFrom, Lexeme.literalLength, Lexeme.clean, Lexeme.skeleton]
      | _ => rfl
    have hskeleton : skeletonOf x.cleaned = skeletonOf [x] := by simp [skeletonOf_cleaned]
    rw [List.flatMap_cons, glyphsFrom_append, ← List.singleton_append, glyphsFrom_append, hx, ih,
      newlines, newlines, hskeleton]

/-- The glyphs of the clean text are those of the text. -/
lemma glyphs_clean (cs : List Char) : glyphs (clean cs) = glyphs cs := by
  rw [glyphs, lexemes_clean, glyphsFrom_cleaned, glyphs]

/-- Where lines start depends on the places of line feeds only. -/
lemma lineStartsFrom_congr {cs ds : List Char} (offset : Nat)
    (h : cs.map (· == '\n') = ds.map (· == '\n')) :
    lineStartsFrom offset cs = lineStartsFrom offset ds := by
  induction cs generalizing ds offset with
  | nil => rw [List.map_eq_nil_iff.1 h.symm]
  | cons c cs ih =>
    cases ds with
    | nil => simp at h
    | cons d ds =>
      obtain ⟨hc, hcs⟩ := List.cons.inj h
      simp only [lineStartsFrom, ih (offset + 1) hcs]
      simp only [hc]

/-- A line feed stays one, and nothing else becomes one. -/
lemma blanked_eq_newline_iff {c : Char} : blanked c = '\n' ↔ c = '\n' := by
  unfold blanked
  split <;> simp_all

/-- The clean view of a lexeme has its line feeds. -/
lemma map_clean (x : Lexeme) : x.clean.map (· == '\n') = x.text.map (· == '\n') := by
  cases x with
  | comment text closed =>
    rw [Lexeme.clean, Lexeme.text, List.map_map]
    refine List.map_congr_left ?_
    intro c _
    rw [Function.comp_apply, Bool.eq_iff_iff, beq_iff_eq, beq_iff_eq]
    exact blanked_eq_newline_iff
  | _ => rfl

/-- The clean view of a text has its line feeds. -/
lemma map_newline_clean (cs : List Char) : (clean cs).map (· == '\n') = cs.map (· == '\n') := by
  conv => rhs; rw [← text_lexemes cs]
  simp only [clean, List.map_flatMap, map_clean]

/-- The lines of the clean view are those of the text. -/
lemma lineStarts_clean (cs : List Char) : lineStarts (clean cs) = lineStarts cs := by
  rw [lineStarts, lineStartsFrom_congr 0 (map_newline_clean cs), lineStarts]

end SwiftDependencies.Source

namespace SwiftDependencies

open Source

/-- A manifest without its comments describes the same package, or fails in the same way, and all
views of the text without comments are those of the text. -/
theorem Reader.bySections_clean (text : List Char) (root : Path) :
    Reader.bySections (clean text) root = Reader.bySections text root ∧
      (∀ x ∈ lexemes (clean text), x.isComment = false) ∧
      clean (clean text) = clean text ∧ skeleton (clean text) = skeleton text ∧
      literals (clean text) = literals text ∧
      depths (skeleton (clean text)) = depths (skeleton text) ∧
      lineStarts (clean text) = lineStarts text := by
  have hmanifest : Manifest.ofSections (clean text) = Manifest.ofSections text := by
    rw [Manifest.ofSections, glyphs_clean, clean_clean, Manifest.ofSections]
  refine ⟨?_, fun x hx => isComment_of_mem_lexemes_clean hx, clean_clean text,
    skeleton_clean text, literals_clean text, ?_, lineStarts_clean text⟩
  · rw [Reader.bySections, hmanifest, Reader.bySections]
  · rw [skeleton_clean]

end SwiftDependencies
