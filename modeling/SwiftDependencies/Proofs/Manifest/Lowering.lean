import Mathlib.Tactic.Common
import SwiftDependencies.Proofs.Manifest.Fragments

/-!
# Reading back the term of an expression

The fragment of an expression reads as the term of the expression (`Written.term_glyphsFrom`),
wherever it stands and whatever space is between its tokens.  The induction is on the expression
together with its rows: the items of a row are its entries (`Row.items_glyphsFrom`), and an entry
reads as its label and the term of its value.
-/

namespace SwiftDependencies

open Source Source.Fragment

variable {labelled : Bool}

/-! ### First and last characters -/

/-- The characters at the ends of literals are not blank. -/
lemma Source.IsMark.isBlank {c : Char} (h : IsMark c) : Text.isBlank c = false := by
  rcases h with rfl | rfl <;> rfl

/-- A word has a first character, which goes on with a name. -/
lemma Word.exists_cons (w : Word) : ∃ c cs, w.chars = c :: cs ∧ joinsName c = true := by
  obtain ⟨c, cs, h⟩ := List.exists_cons_of_ne_nil w.ne_nil
  exact ⟨c, cs, h, w.joins c (by simp [h])⟩

/-- A character that an expression may begin with. -/
def IsFirst (c : Char) : Prop :=
  joinsName c = true ∨ IsMark c ∨ c = '['

/-- No expression begins with a blank. -/
lemma IsFirst.isBlank {c : Char} (h : IsFirst c) : Text.isBlank c = false := by
  rcases h with h | h | rfl
  · exact isBlank_of_joinsName h
  · exact h.isBlank
  · rfl

/-- No expression begins with most signs. -/
lemma not_isFirst {c : Char} (h : c ∈ signs) (hm : ¬IsMark c) (hb : c ≠ '[') :
    ¬IsFirst c := by
  rintro (hj | hj | hj)
  · exact not_mem_signs hj h
  · exact hm hj
  · exact hb hj

/-- How the skeleton of an expression begins, unless it is an array. -/
lemma Written.array_or_first (w : Written) :
    (∃ items, w = .array items) ∨
      ∃ c ∈ (skeletonOf w.lexemes).head?, joinsName c = true ∨ IsMark c := by
  cases w with
  | literal text h =>
    obtain ⟨c, d, n, hc, -, heq⟩ := h.blankInside
    exact .inr ⟨c, by simp [Written.lexemes, Lexeme.skeleton, heq], .inr hc⟩
  | word v =>
    obtain ⟨c, cs, h, hc⟩ := v.exists_cons
    exact .inr ⟨c, by simp [Written.lexemes, h], .inl hc⟩
  | array items => exact .inl ⟨items, rfl⟩
  | call callee gap arguments =>
    obtain ⟨c, cs, h, hc⟩ := callee.exists_cons
    exact .inr ⟨c, by simp [Written.lexemes, h], .inl hc⟩

/-- How the skeleton of an expression begins. -/
lemma Written.first (w : Written) : ∃ c ∈ (skeletonOf w.lexemes).head?, IsFirst c := by
  rcases w.array_or_first with ⟨items, rfl⟩ | ⟨c, hc, hfirst⟩
  · exact ⟨'[', by simp [Written.lexemes, Lexeme.skeleton], .inr (.inr rfl)⟩
  · exact ⟨c, hc, hfirst.imp_right .inl⟩

/-- An expression has no margins. -/
lemma Written.solid (w : Written) : Solid (skeletonOf w.lexemes) := by
  obtain ⟨c, hc, hfirst⟩ := w.first
  refine ⟨⟨c, hc, hfirst.isBlank⟩, ?_⟩
  cases w with
  | literal text h =>
    obtain ⟨c, d, n, -, hd, heq⟩ := h.blankInside
    refine ⟨d, ?_, hd.isBlank⟩
    simp [Written.lexemes, Lexeme.skeleton, heq, List.getLast?_cons]
  | word v =>
    refine ⟨v.chars.getLast v.ne_nil, ?_, isBlank_of_joinsName (v.joins _ (List.getLast_mem _))⟩
    simp [Written.lexemes, List.getLast?_eq_some_getLast v.ne_nil]
  | array items =>
    refine ⟨']', ?_, rfl⟩
    simp [Written.lexemes, Lexeme.skeleton, List.getLast?_cons]
  | call callee gap arguments =>
    refine ⟨')', ?_, rfl⟩
    simp [Written.lexemes, Lexeme.skeleton, List.getLast?_cons]

/-! ### Spans -/

/-- The lines of solid lexemes. -/
lemma spanOf_glyphsFrom (line depth : Nat) {x : Lexeme} {xs : List Lexeme} (hx : x.text ≠ [])
    (h : Solid (skeletonOf (x :: xs))) :
    spanOf (glyphsFrom line depth (x :: xs)) = ⟨line, line + newlines (x :: xs)⟩ := by
  obtain ⟨-, d, hd, hdb⟩ := h
  obtain ⟨c, s, hhead⟩ := head?_glyphsFrom line depth hx xs
  obtain ⟨tail, htail⟩ := List.head?_eq_some_iff.1 hhead
  have hlast := getLast?_glyphsFrom line depth (x :: xs)
    (g := tail.getLastD ⟨c, s, line, depth, _⟩)
    (by rw [htail, List.getLast?_cons, List.getLastD_eq_getLast?]; rfl)
  have hskeleton : (tail.getLastD ⟨c, s, line, depth, x.literalLength⟩).skeleton = d := by
    rw [← chars_glyphsFrom line depth, htail, chars, List.getLast?_map, List.getLast?_cons] at hd
    simpa [List.getLastD_eq_getLast?] using hd
  have hne : d ≠ '\n' := by
    rintro rfl
    exact absurd hdb (by decide)
  rw [htail, spanOf, span]
  rw [hskeleton, lineAfter] at hlast
  simpa [hne] using hlast

/-- There is no line feed in a literal. -/
lemma newlines_literal {text : List Char} (h : LiteralText text) :
    newlines [.literal text true] = 0 := by
  obtain ⟨c, d, n, hc, hd, heq⟩ := h.blankInside
  have hnot (e : Char) (he : IsMark e) : e ≠ '\n' := by
    rintro rfl
    exact absurd he.isBlank (by decide)
  rw [newlines, List.count_eq_zero]
  simp only [skeletonOf_cons, Lexeme.skeleton, heq, skeletonOf_nil, List.append_nil, List.mem_cons,
    List.mem_append, List.mem_replicate, List.not_mem_nil, or_false, not_or]
  exact ⟨(hnot c hc).symm, fun h => absurd h.2 (by decide), (hnot d hd).symm⟩

/-- There is no line feed in a word. -/
lemma Word.newlines_eq (w : Word) : newlines w.lexemes = 0 :=
  newlines_codes fun h => not_mem_signs (w.joins _ h) (by decide)

/-- The number of lines of a row in brackets. -/
lemma newlines_enclosed {c d : Char} (hc : c ≠ '\n') (hd : d ≠ '\n') (xs : List Lexeme) :
    newlines (.code c :: (xs ++ [.code d])) = newlines xs := by
  rw [newlines_code hc, newlines_append, newlines_code hd, newlines_nil, Nat.add_zero]

/-- The number of lines of a call. -/
lemma newlines_call {callee : List Char} (h : ∀ c ∈ callee, joinsName c = true) (gap : Gap)
    (arguments : Row true) :
    newlines (callee.map .code ++ gap.lexemes ++ .code '(' :: (arguments.lexemes ++ [.code ')'])) =
      newlines gap.lexemes + newlines arguments.lexemes := by
  rw [newlines_append, newlines_append, newlines_codes fun hn => not_mem_signs (h _ hn) (by decide),
    newlines_enclosed (by decide) (by decide), Nat.zero_add]

/-! ### Items of a row -/

/-- What may follow an item of a row: a comma, or the end of the row. -/
def EndsEntry (f : Fragment) : Prop :=
  ∃ c ∈ first? f, c = ',' ∨ c = ')' ∨ c = ']'

/-- Where an item ends, a sign is shown. -/
lemma EndsEntry.first {f : Fragment} (h : EndsEntry f) :
    ∃ c ∈ first? f, c ∈ signs ∧ c ≠ '@' ∧ Text.isBlank c = false := by
  obtain ⟨c, hc, hsign⟩ := h
  refine ⟨c, hc, ?_⟩
  rcases hsign with rfl | rfl | rfl <;> decide

/-- Words stop where an item ends. -/
lemma EndsEntry.stops {f : Fragment} (h : EndsEntry f) : Stops f := by
  obtain ⟨c, hc, hsign, -, hblank⟩ := h.first
  exact stops_of_sign hc hsign hblank

/-! ### Labels of expressions -/

/-- A gap is blank. -/
lemma allBlank_gap (line depth : Nat) (gap : Gap) :
    AllBlank (glyphsFrom line depth gap.lexemes) := by
  rw [AllBlank, chars_glyphsFrom]
  exact gap.isBlank_of_mem

/-- A gap that is not empty has characters. -/
lemma Gap.glyphsFrom_ne_nil (gap : Gap) (h : gap ≠ []) (line depth : Nat) :
    glyphsFrom line depth gap.lexemes ≠ [] := by
  intro hnil
  obtain ⟨s, tail, rfl⟩ := List.exists_cons_of_ne_nil h
  have hlen := length_glyphsFrom line depth (Gap.lexemes (s :: tail))
  rw [hnil, Gap.lexemes_cons, textOf_append] at hlen
  cases s <;> simp [Space.lexemes, Lexeme.text] at hlen

/-- A gap is balanced. -/
lemma balanced_gap (gap : Gap) : Balanced (fun _ => True) (skeletonOf gap.lexemes) :=
  gap.balanced fun _ _ => trivial

/-- A word is balanced. -/
lemma balanced_word (w : Word) : Balanced (fun _ => True) (skeletonOf w.lexemes) := by
  rw [Word.skeletonOf_lexemes]
  exact balanced_of_inline w.isInline fun _ _ => trivial

/-- The glyphs of a call. -/
lemma glyphsFrom_call (line depth : Nat) (callee : Callee) (gap : Gap) (arguments : Row true) :
    glyphsFrom line depth (Written.lexemes (.call callee gap arguments)) =
      glyphsFrom line depth callee.lexemes ++ glyphsFrom line depth gap.lexemes ++
        ⟨'(', '(', line + newlines gap.lexemes, depth, 0⟩ ::
          (glyphsFrom (line + newlines gap.lexemes) (depth + 1) arguments.lexemes ++
            [⟨')', ')', line + newlines gap.lexemes + newlines arguments.lexemes,
              depth + 1, 0⟩]) := by
  rw [Written.lexemes, List.append_assoc, glyphsFrom_append_of_balanced (balanced_word _),
    glyphsFrom_append_of_balanced (balanced_gap gap), glyphsFrom_code,
    glyphsFrom_append_of_balanced arguments.balanced, glyphsFrom_code, glyphsFrom_nil,
    callee.newlines_eq, List.append_assoc]
  rfl

/-- The glyphs of an array. -/
lemma glyphsFrom_array (line depth : Nat) (items : Row false) :
    glyphsFrom line depth (Written.lexemes (.array items)) =
      ⟨'[', '[', line, depth, 0⟩ :: (glyphsFrom line (depth + 1) items.lexemes ++
        [⟨']', ']', line + newlines items.lexemes, depth + 1, 0⟩]) := by
  rw [Written.lexemes, glyphsFrom_code, glyphsFrom_append_of_balanced items.balanced,
    glyphsFrom_code, glyphsFrom_nil]
  rfl

/-- The glyphs of an item. -/
lemma glyphsFrom_entry (line depth : Nat) (before : Gap) (label : Option Label) (value : Written)
    (after : Gap) (h : label.isSome = true → labelled = true) :
    glyphsFrom line depth (Entry.mk before label value after h).lexemes =
      glyphsFrom line depth before.lexemes ++
        glyphsFrom (line + newlines before.lexemes) depth (Label.lexemes label) ++
        glyphsFrom (line + newlines before.lexemes + newlines (Label.lexemes label)) depth
          value.lexemes ++
        glyphsFrom (line + newlines before.lexemes + newlines (Label.lexemes label) +
          newlines value.lexemes) depth after.lexemes := by
  rw [Entry.lexemes, List.append_assoc, List.append_assoc,
    glyphsFrom_append_of_balanced (balanced_gap before),
    glyphsFrom_append_of_balanced (Label.balanced label),
    glyphsFrom_append_of_balanced value.balanced, List.append_assoc, List.append_assoc]

/-- The glyphs of a row with more than one item, or with a comma at its end. -/
lemma glyphsFrom_more (line depth : Nat) (entry : Entry labelled) (rest : Row labelled) :
    glyphsFrom line depth (Row.more entry rest).lexemes =
      glyphsFrom line depth entry.lexemes ++
        ⟨',', ',', line + newlines entry.lexemes, depth, 0⟩ ::
          glyphsFrom (line + newlines entry.lexemes) depth rest.lexemes := by
  rw [Row.lexemes, glyphsFrom_append_of_balanced entry.balanced, glyphsFrom_code]
  rfl

/-- The glyphs of a label. -/
lemma glyphsFrom_label (line depth : Nat) (l : Label) :
    glyphsFrom line depth (Label.lexemes (some l)) =
      glyphsFrom line depth l.name.toWord.lexemes ++ glyphsFrom line depth l.before.lexemes ++
        ⟨':', ':', line + newlines l.before.lexemes, depth, 0⟩ ::
          glyphsFrom (line + newlines l.before.lexemes) depth l.after.lexemes := by
  rw [Label.lexemes, List.append_assoc, glyphsFrom_append_of_balanced (balanced_word _),
    glyphsFrom_append_of_balanced (balanced_gap _), glyphsFrom_code, l.name.toWord.newlines_eq,
    List.append_assoc]
  rfl

/-- An expression begins with no blank and no colon. -/
lemma Written.first?_append (w : Written) (line depth : Nat) (rest : Fragment) :
    ∃ c ∈ first? (glyphsFrom line depth w.lexemes ++ rest), IsFirst c := by
  obtain ⟨c, hc, hfirst⟩ := w.first
  refine ⟨c, ?_, hfirst⟩
  rw [first?_eq, chars_append, chars_glyphsFrom, List.head?_append, Option.mem_def.1 hc]
  rfl

/-- Nothing is skipped in front of an expression. -/
lemma Written.skipBlanks_append (w : Written) (line depth : Nat) (rest : Fragment) :
    skipBlanks (glyphsFrom line depth w.lexemes ++ rest) =
      glyphsFrom line depth w.lexemes ++ rest := by
  obtain ⟨c, hc, hfirst⟩ := w.first?_append line depth rest
  exact skipBlanks_of_first hc hfirst.isBlank

/-- Such a sign does not follow the space before an expression. -/
lemma Written.avoids (w : Written) {sign : Char} (hs : ¬IsFirst sign)
    (hb : Text.isBlank sign = false) {gap : Fragment} (hg : AllBlank gap) (line depth : Nat)
    (rest : Fragment) : Avoids sign (gap ++ (glyphsFrom line depth w.lexemes ++ rest)) := by
  intro d hd
  cases gap with
  | nil =>
    obtain ⟨c, hc, hfirst⟩ := w.first?_append line depth rest
    obtain rfl := Option.mem_unique hc hd
    rintro rfl
    exact hs hfirst
  | cons g gap =>
    obtain rfl : g.skeleton = d := by simpa [first?] using hd
    have hblank : Text.isBlank g.skeleton = true := hg.isBlank g List.mem_cons_self
    intro hsign
    rw [hsign, hb] at hblank
    exact Bool.false_ne_true hblank

/-- No expression begins with a colon. -/
lemma not_isFirst_colon : ¬IsFirst ':' :=
  not_isFirst (by decide) (by rintro (h | h) <;> exact absurd h (by decide)) (by decide)

/-- No expression begins with an equals sign. -/
lemma not_isFirst_equals : ¬IsFirst '=' :=
  not_isFirst (by decide) (by rintro (h | h) <;> exact absurd h (by decide)) (by decide)

/-- A label and a value have no margins. -/
lemma Written.solid_label (w : Written) (l : Label) :
    Solid (skeletonOf (Label.lexemes (some l)) ++ skeletonOf w.lexemes) := by
  obtain ⟨d, ds, hd, hjoin⟩ := l.name.toWord.exists_cons
  obtain ⟨e, he, heb⟩ := w.solid.2
  refine ⟨⟨d, by simp [Label.lexemes, hd], isBlank_of_joinsName hjoin⟩, e, ?_, heb⟩
  rw [List.getLast?_append, Option.mem_def.1 he]
  rfl

/-- Outside its brackets an item has no comma. -/
lemma ne_comma_of_entry (c : Char) (h : IsInline c ∨ c = ':') : c ≠ ',' := by
  rcases h with h | rfl
  · exact h.ne (by decide) rfl (by decide) (by decide)
  · decide

/-- An expression has no label of its own. -/
lemma Written.label?_glyphsFrom (w : Written) (line depth : Nat) :
    label? (glyphsFrom line depth w.lexemes) = none := by
  have hfirst (c : Char) (h : (skeletonOf w.lexemes).head? = some c)
      (hc : Text.isNameStart c = false) : label? (glyphsFrom line depth w.lexemes) = none := by
    refine label?_of_first (c := c) ?_ hc
    rw [first?_eq, chars_glyphsFrom, h]
  cases w with
  | literal text h =>
    obtain ⟨c, d, n, hc, -, heq⟩ := h.blankInside
    refine hfirst c (by simp [Written.lexemes, Lexeme.skeleton, heq]) ?_
    rcases hc with rfl | rfl <;> rfl
  | word v =>
    have hjoins : ∀ c ∈ chars (glyphsFrom line depth v.lexemes), joinsName c = true := by
      simpa using v.joins
    have hnil : Avoids ':' (skipBlanks []) := by simp [Avoids, skipBlanks, first?]
    have := label?_of_name hjoins stops_nil hnil
    simpa [Written.lexemes] using this
  | array items => exact hfirst '[' (by simp [Written.lexemes, Lexeme.skeleton]) rfl
  | call callee gap arguments =>
    rw [glyphsFrom_call, List.append_assoc]
    refine label?_of_name (by simpa using callee.joins)
      (.append (allBlank_gap _ _ gap) (stops_of_sign (c := '(') rfl (by decide) rfl)) ?_
    rw [Fragment.skipBlanks_append (allBlank_gap _ _ gap)]
    simp [Avoids, skipBlanks, first?, Glyph.isBlank, Text.isBlank]

/-! ### Arguments -/

section Arguments

variable {labelled : Bool} (before : Gap) (value : Written) (after : Gap) (line depth : Nat)

/-- Something of an item shows. -/
lemma Entry.isBlank_glyphsFrom (e : Entry labelled) :
    Fragment.isBlank (glyphsFrom line depth e.lexemes) = false := by
  obtain ⟨before, label, value, after, h⟩ := e
  obtain ⟨c, hc, hfirst⟩ := value.first
  refine isBlank_of_mem_chars (c := c) ?_ hfirst.isBlank
  rw [chars_glyphsFrom, Entry.lexemes]
  simp [List.mem_of_mem_head? hc]

/-- An expression neither begins nor ends with a blank. -/
lemma Written.solid_glyphsFrom : Solid (chars (glyphsFrom line depth value.lexemes)) := by
  rw [chars_glyphsFrom]
  exact value.solid

/-- The glyphs of an item without a label. -/
lemma glyphsFrom_unlabelled (h : (none : Option Label).isSome = true → labelled = true) :
    glyphsFrom line depth (Entry.mk before none value after h).lexemes =
      glyphsFrom line depth before.lexemes ++
        glyphsFrom (line + newlines before.lexemes) depth value.lexemes ++
        glyphsFrom (line + newlines before.lexemes + newlines value.lexemes)
          depth after.lexemes := by
  simpa [Label.lexemes] using glyphsFrom_entry line depth before none value after h

/-- An item without a label is an argument without one. -/
lemma Entry.argument_unlabelled (h : (none : Option Label).isSome = true → labelled = true) :
    argument (glyphsFrom line depth (Entry.mk before none value after h).lexemes) =
      (none, glyphsFrom line depth (Entry.mk before none value after h).lexemes) := by
  rw [argument, glyphsFrom_unlabelled,
    trimmed_append (allBlank_gap _ _ _) (value.solid_glyphsFrom _ _) (allBlank_gap _ _ _),
    value.label?_glyphsFrom]

/-- The label of an item is that of the argument, and the value is what is behind it. -/
lemma Entry.argument_labelled (l : Label) (h : (some l).isSome = true → labelled = true) :
    argument (glyphsFrom line depth (Entry.mk before (some l) value after h).lexemes) =
      (some (String.ofList l.name.chars),
        glyphsFrom (line + newlines before.lexemes + newlines l.before.lexemes)
          depth l.after.lexemes ++
          glyphsFrom (line + newlines before.lexemes + newlines (Label.lexemes (some l))) depth
            value.lexemes) := by
  set start := line + newlines before.lexemes with hstart
  set stop := start + newlines (Label.lexemes (some l)) with hstop
  have hlabel : label? (glyphsFrom start depth (Label.lexemes (some l)) ++
      glyphsFrom stop depth value.lexemes) = some (String.ofList l.name.chars,
        glyphsFrom (start + newlines l.before.lexemes) depth l.after.lexemes ++
          glyphsFrom stop depth value.lexemes) := by
    rw [glyphsFrom_label, List.append_assoc, List.append_assoc, List.cons_append, label?_eq]
    · simp [Identifier.toWord]
    · simpa [Identifier.toWord] using l.name.starts
    · simpa [Identifier.toWord] using l.name.word
    · exact allBlank_gap _ _ _
    · rfl
    · simpa using value.avoids not_isFirst_colon rfl
        (allBlank_gap (start + newlines l.before.lexemes) depth l.after) stop depth []
  have hsolid : Solid (chars (glyphsFrom start depth (Label.lexemes (some l)) ++
      glyphsFrom stop depth value.lexemes)) := by
    rw [chars_append, chars_glyphsFrom, chars_glyphsFrom]
    exact value.solid_label l
  rw [argument, glyphsFrom_entry, List.append_assoc (glyphsFrom line depth before.lexemes),
    trimmed_append (allBlank_gap line depth before) hsolid (allBlank_gap _ _ after), hlabel]

end Arguments

/-! ### Terms -/

mutual

/-- The fragment of an expression reads as its term. -/
theorem Written.term_glyphsFrom :
    (w : Written) → ∀ line depth : Nat,
      Fragment.term (glyphsFrom line depth w.lexemes) = w.term line
  | .literal text h, line, depth => by
    have hsolid := (Written.literal text h).solid
    have hne : text ≠ [] := by
      obtain ⟨c, d, n, -, -, heq⟩ := h.blankInside
      rintro rfl
      simp [blankInside] at heq
    obtain ⟨c, s, hhead⟩ := head?_glyphsFrom line depth (x := .literal text true) hne []
    have hspan := spanOf_glyphsFrom line depth (x := .literal text true) hne hsolid
    rw [newlines_literal h] at hspan
    rw [term_eq, trimmed_of_solid (by rwa [chars_glyphsFrom]), Written.lexemes,
      termOf_literal (by rintro hnil; simp [hnil] at hhead), hspan]
    · rw [cleanText_glyphsFrom, cleanOf_cons, cleanOf_nil, List.append_nil]
      rfl
    · rw [hhead]
      simp [Lexeme.literalLength, Lexeme.text]
  | .word v, line, depth => by
    have hsolid := (Written.word v).solid
    obtain ⟨c, cs, hc, -⟩ := v.exists_cons
    have hlex : (Written.word v).lexemes = .code c :: cs.map .code := by
      simp [Written.lexemes, Word.lexemes, hc]
    have hcode : Solid (skeletonOf (.code c :: cs.map .code)) := hlex ▸ hsolid
    have hspan := spanOf_glyphsFrom line depth (by simp [Lexeme.text]) hcode
    rw [← hlex, Written.lexemes, v.newlines_eq] at hspan
    have hclean : cleanOf v.lexemes = v.chars := cleanOf_codes v.chars
    rw [term_eq, trimmed_of_solid (by rwa [chars_glyphsFrom]), Written.lexemes, termOf_word, hspan]
    · simp [Written.term, Word.isName, hclean]
    · simp [Word.lexemes, hc, glyphsFrom_code]
    · simp [BeginsCode, Word.lexemes, hc, glyphsFrom_code]
    · simpa using v.joins
  | .array items, line, depth => by
    have hsolid := (Written.array items).solid
    have hspan := spanOf_glyphsFrom line depth (x := .code '[') (by simp [Lexeme.text]) hsolid
    rw [← Written.lexemes, glyphsFrom_array] at hspan
    rw [term_eq, trimmed_of_solid (by rwa [chars_glyphsFrom]), glyphsFrom_array,
      termOf_array rfl rfl rfl (by rw [chars_glyphsFrom]; exact items.balanced),
      (items.items_glyphsFrom line (depth + 1)).2 rfl, hspan]
    simp [Written.term, newlines_code, Written.lexemes]
  | .call callee gap arguments, line, depth => by
    have hsolid := (Written.call callee gap arguments).solid
    obtain ⟨c, cs, hc, -⟩ := callee.exists_cons
    have hlex : (Written.call callee gap arguments).lexemes =
        .code c :: (cs.map .code ++ gap.lexemes ++
        .code '(' :: (arguments.lexemes ++ [.code ')'])) := by
      simp [Written.lexemes, Word.lexemes, hc]
    rw [hlex] at hsolid
    have hspan := spanOf_glyphsFrom line depth (by simp [Lexeme.text]) hsolid
    rw [← hlex] at hsolid hspan
    have hlines : newlines (Written.call callee gap arguments).lexemes =
        newlines gap.lexemes + newlines arguments.lexemes := by
      simp [Written.lexemes, newlines_code, callee.newlines_eq]
    rw [glyphsFrom_call, hlines, ← Nat.add_assoc] at hspan
    rw [term_eq, trimmed_of_solid (by rwa [chars_glyphsFrom]), glyphsFrom_call,
      termOf_call (by simpa using callee.joins) (by simpa [unmarked] using callee.named)
        (allBlank_gap _ _ gap) rfl rfl (by simp [BeginsCode, Word.lexemes, hc, glyphsFrom_code])
        (by rw [chars_glyphsFrom]; exact arguments.balanced),
      (arguments.items_glyphsFrom _ (depth + 1)).1, hspan]
    simp [Written.term]

/-- The fragment of an entry reads as its label and the term of its value. -/
theorem Entry.item_glyphsFrom {labelled : Bool} :
    (e : Entry labelled) → ∀ line depth : Nat,
      Fragment.isBlank (glyphsFrom line depth e.lexemes) = false ∧
      ((argument (glyphsFrom line depth e.lexemes)).1,
        Fragment.term (argument (glyphsFrom line depth e.lexemes)).2) = e.item line ∧
      (labelled = false →
        Fragment.term (glyphsFrom line depth e.lexemes) = (e.item line).2)
  | .mk before label value after h, line, depth => by
    refine ⟨Entry.isBlank_glyphsFrom line depth _, ?_⟩
    cases label with
    | none =>
      have hterm :
          Fragment.term (glyphsFrom line depth (Entry.mk before none value after h).lexemes) =
          value.term (line + newlines before.lexemes) := by
        rw [glyphsFrom_unlabelled, term_margins (allBlank_gap _ _ _) (value.solid_glyphsFrom _ _)
          (allBlank_gap _ _ _), value.term_glyphsFrom]
      rw [Entry.argument_unlabelled, hterm]
      simp [Entry.item, Label.lexemes]
    | some l =>
      have hterm := term_margins
        (allBlank_gap (line + newlines before.lexemes + newlines l.before.lexemes) depth l.after)
        (value.solid_glyphsFrom
          (line + newlines before.lexemes + newlines (Label.lexemes (some l))) depth)
        allBlank_nil
      rw [List.append_nil, value.term_glyphsFrom] at hterm
      rw [Entry.argument_labelled]
      refine ⟨by rw [hterm]; rfl, ?_⟩
      rintro rfl
      exact absurd (h rfl) (by decide)

/-- The items of the fragment of a row are its entries. -/
theorem Row.items_glyphsFrom {labelled : Bool} :
    (r : Row labelled) → ∀ line depth : Nat,
      (Fragment.items (glyphsFrom line depth r.lexemes)).map
        (fun item => (item.argument.1, item.argument.2.term)) = r.items line ∧
      (labelled = false →
        (Fragment.items (glyphsFrom line depth r.lexemes)).map Fragment.term =
          (r.items line).map (·.2))
  | .empty gap, line, depth => by
    have hitems : Fragment.items (glyphsFrom line depth (Row.empty gap : Row labelled).lexemes) =
        [] := by
      rw [items_of_balanced (p := fun c => Text.isBlank c = true)
        (by rw [chars_glyphsFrom]; exact gap.balanced fun _ h => h)
          (by rintro c h rfl; exact absurd h (by decide)),
        itemOf, if_pos]
      exact isBlank_of_allBlank (allBlank_gap line depth gap)
    rw [hitems]
    exact ⟨rfl, fun _ => rfl⟩
  | .last entry, line, depth => by
    obtain ⟨hblank, hitem, hterm⟩ := entry.item_glyphsFrom line depth
    have hitems : Fragment.items (glyphsFrom line depth (Row.last entry).lexemes) =
        [glyphsFrom line depth entry.lexemes] := by
      rw [Row.lexemes, items_of_balanced (by rw [chars_glyphsFrom]; exact entry.balanced)
        ne_comma_of_entry, itemOf, hblank]
      rfl
    simp only [hitems, Row.items, List.map_cons, List.map_nil, hitem]
    exact ⟨trivial, fun h => by rw [hterm h]⟩
  | .more entry rest, line, depth => by
    obtain ⟨hblank, hitem, hterm⟩ := entry.item_glyphsFrom line depth
    obtain ⟨hrest, hterms⟩ := rest.items_glyphsFrom (line + newlines entry.lexemes) depth
    have hitems : Fragment.items (glyphsFrom line depth (Row.more entry rest).lexemes) =
        glyphsFrom line depth entry.lexemes ::
          Fragment.items (glyphsFrom (line + newlines entry.lexemes) depth rest.lexemes) := by
      rw [glyphsFrom_more,
        items_append_comma (by rw [chars_glyphsFrom]; exact entry.balanced) ne_comma_of_entry rfl,
        itemOf, hblank]
      rfl
    simp only [hitems, Row.items, List.map_cons, hitem, hrest]
    exact ⟨trivial, fun h => by rw [hterm h, hterms h]⟩

end

end SwiftDependencies
