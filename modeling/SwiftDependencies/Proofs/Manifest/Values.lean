import Mathlib.Tactic.Common
import SwiftDependencies.Proofs.Manifest.Preambles

/-!
# Values of assignments

What is read of a preamble that starts a line and of the value after it, when nothing but space
follows or another preamble starts a line (`ResumesWith`): they are the first constant that is
found, and the search goes on behind the value (`Preamble.constants_append`).

A value may be any word, so one that begins a declaration too.  Such a word on a line of its own is
read as the beginning of the declaration after it, or of nothing (`declaration?_word_append`), and
either way the search goes on as behind the value (`Written.constants_resumes`).
-/

namespace SwiftDependencies

open Source Source.Fragment

/-! ### Values -/

/-- Space does not change the depth. -/
lemma depth_of_blank {xs : List Lexeme} (h : ∀ c ∈ skeletonOf xs, Text.isBlank c = true)
    (line depth : Nat) {g : Glyph} (hg : g ∈ glyphsFrom line depth xs) : g.depth = depth := by
  refine depth_of_mem_glyphsFrom ?_ line depth hg
  intro c hc
  exact ⟨isOpener_of_isBlank (h c hc), isCloser_of_isBlank (h c hc)⟩

namespace Written

/-- Outside brackets a value has no line feed and no semicolon. -/
lemma balanced_value {w : Written}
    (hjoined : ∀ callee gap arguments, w = .call callee gap arguments →
      newlines gap.lexemes = 0) :
    Balanced (fun c => c ≠ ';' ∧ c ≠ '\n') (skeletonOf w.lexemes) := by
  have hword (w : Word) : Balanced (fun c => c ≠ ';' ∧ c ≠ '\n') w.chars := by
    refine balanced_of_inline w.isInline fun c hc => ⟨?_, ?_⟩ <;> rintro rfl <;>
      exact w.not_mem (by decide) hc
  cases w with
  | literal text h =>
    rw [Written.lexemes, skeletonOf_cons, skeletonOf_nil, List.append_nil]
    refine balanced_of_inline h.isInline fun c hc => ?_
    rcases h.of_mem hc with rfl | rfl | rfl <;> decide
  | word w =>
    rw [Written.lexemes, Word.skeletonOf_lexemes]
    exact hword w
  | array items =>
    rw [Written.lexemes, skeletonOf_cons, skeletonOf_append]
    exact .enclosed rfl rfl items.balanced
  | call callee gap arguments =>
    have hgap : Balanced (fun c => c ≠ ';' ∧ c ≠ '\n') (skeletonOf gap.lexemes) := by
      refine balanced_of_inline (fun c hc => .inl (gap.isBlank_of_mem c hc))
        fun c hc => ⟨?_, ?_⟩
      · rintro rfl
        exact gap.not_mem rfl hc
      · rintro rfl
        exact List.count_eq_zero.1 (hjoined callee gap arguments rfl) hc
    rw [Written.lexemes, skeletonOf_append, skeletonOf_append, Word.skeletonOf_lexemes,
      skeletonOf_cons, skeletonOf_append]
    exact ((hword callee.toWord).append hgap).append (.enclosed rfl rfl arguments.balanced)

/-- The value that is read is the value and blanks around it. -/
lemma term_value {w : Written}
    (hjoined : ∀ callee gap arguments, w = .call callee gap arguments →
      newlines gap.lexemes = 0)
    (afterSign : Gap) (line vline : Nat) {gap rest : Fragment} (hg : AllBlank gap)
    (hend : rest = [] ∨ '\n' ∈ gap.chars ∧
      ∀ c ∈ first? (skipBlanks rest), continuesValue c = false) :
    Fragment.term (Fragment.value 0 false (glyphsFrom line 0 afterSign.lexemes ++
      (glyphsFrom vline 0 w.lexemes ++ (gap ++ rest)))) = w.term vline := by
  have hsolid : Solid (chars (glyphsFrom vline 0 w.lexemes)) := by
    rw [chars_glyphsFrom]
    exact w.solid
  have hbegin (f : Fragment) : Fragment.value 0 false (glyphsFrom vline 0 w.lexemes ++ f) =
      Fragment.value 0 true (glyphsFrom vline 0 w.lexemes ++ f) := by
    obtain ⟨c, hc, hblank⟩ := hsolid.1
    cases hw : glyphsFrom vline 0 w.lexemes with
    | nil => simp [hw, chars] at hc
    | cons g tail =>
      rw [hw] at hc
      obtain rfl : g.skeleton = c := Option.some.inj hc
      exact value_begin hblank _
  have hvalue := value_of_balanced (balanced_value hjoined) (Int.le_refl 0) (fun _ _ hp => hp)
    (chars_glyphsFrom vline 0 w.lexemes) (gap ++ rest)
  rw [value_gap (allBlank_gap _ _ _), hbegin, hvalue, ← List.append_assoc,
    term_margins (allBlank_gap _ _ _) hsolid (value_end hg hend), w.term_glyphsFrom]

/-- The search for declarations passes over a value that no declaration begins with. -/
lemma constants_value {w : Written} (afterSign : Gap) (line vline : Nat) {rest : Fragment}
    (hnone : Fragment.declaration? (glyphsFrom vline 0 w.lexemes ++ rest) = none) :
    Fragment.constants false (glyphsFrom line 0 afterSign.lexemes ++
      (glyphsFrom vline 0 w.lexemes ++ rest)) = Fragment.constants false rest := by
  obtain ⟨atStart, hatStart⟩ := constants_gap (allBlank_gap line 0 afterSign) hnone false
  rw [hatStart]
  by_cases hword : ∃ v, w = .word v
  · obtain ⟨v, rfl⟩ := hword
    refine constants_line (v.glyphsFrom_ne_nil vline 0) ?_ atStart fun _ => hnone
    rw [chars_glyphsFrom, Word.skeletonOf_lexemes]
    exact v.not_mem (by decide)
  · exact w.constants_append vline 0 atStart fun v hv => absurd ⟨v, hv⟩ hword

end Written

/-! ### A word in front of a preamble -/

namespace Source.Fragment

variable {name gap next : Fragment}

/-- Neither a type nor an equals sign begins with a word. -/
lemma afterEquals?_of_word (hg : AllBlank gap) (h : ∃ c ∈ first? next, Text.isWord c = true) :
    afterEquals? (gap ++ next) = none := by
  obtain ⟨c, hc, hword⟩ := h
  have hskip : skipBlanks (gap ++ next) = next := by
    rw [skipBlanks_append hg,
      skipBlanks_of_first hc (isBlank_of_joinsName (joinsName_of_isWord hword))]
  have hne {d : Char} (hd : d ∈ signs) : (first? next == some d) = false := by
    rw [beq_eq_false_iff_ne]
    intro hfirst
    obtain rfl := Option.mem_unique hc hfirst
    rw [isWord_of_mem_signs hd] at hword
    exact absurd hword (by decide)
  simp [afterEquals?, hskip, afterSign?, hne (show ':' ∈ signs by decide),
    hne (show '=' ∈ signs by decide)]

/-- After an introducer a name is read, and no equals sign after that. -/
lemma declaration?_introducer_append (hi : IsIntroducer name.chars) (hg : AllBlank gap)
    (hgap : gap ≠ []) (hnext : StartsPreamble next) :
    declaration? (name ++ (gap ++ next)) = none := by
  have hhead : afterAccessLevel (name ++ (gap ++ next)) = name ++ (gap ++ next) :=
    afterAccessLevel_of_ne hi.joins (hg.not_word hgap next) hi.ne_accessLevel
  rw [declaration?, afterAttributes_name hi.ne_nil hi.joins, hhead, afterWords?_eq hi hg hgap,
    skipBlanks_of_beginsOne hnext.first]
  cases hnext with
  | mark first => simp [identifierLength, first, show Text.isNameStart '@' = false by decide]
  | @word word gap' next' begins blank separates follows =>
    obtain ⟨⟨c, tail, hcs, hstarts⟩, hwords⟩ := begins.exists_cons
    have hlen := identifierLength_append (by simpa [hcs] using hstarts) hwords
      (blank.not_word separates next')
    simp only [Option.bind_some, hlen, List.drop_left, afterEquals?_of_word blank follows]
    simp

/-- After an access level the declaration begins, unless another access level or an attribute
follows. -/
lemma declaration?_accessLevel_append {level : String} (hlevel : level ∈ accessLevels)
    (hname : name.chars = level.toList) (hne : name ≠ []) (hg : AllBlank gap) (hgap : gap ≠ [])
    (hnext : StartsPreamble next) :
    declaration? (name ++ (gap ++ next)) = none ∨
      declaration? (name ++ (gap ++ next)) = declaration? next := by
  have hjoins : ∀ c ∈ name.chars, joinsName c = true := fun c hc =>
    joinsName_of_isWord ((isKeyword_accessLevels level hlevel).word c (hname ▸ hc))
  rw [declaration?, afterAttributes_name hne hjoins, afterAccessLevel_eq hname hlevel hg hgap,
    skipBlanks_of_beginsOne hnext.first]
  cases hnext with
  | mark first =>
    left
    rw [afterWords?_of_first]
    · rfl
    · intro c hc
      obtain rfl := Option.mem_unique first hc
      exact isWord_of_mem_signs (by decide)
  | @word word gap' next' begins blank separates follows =>
    have hwords : ∀ c ∈ word.chars, joinsName c = true := fun c hc =>
      joinsName_of_isWord (begins.exists_cons.2 c hc)
    have hr := blank.not_word separates next'
    by_cases hi : IsIntroducer word.chars
    · right
      rw [declaration?, afterAttributes_name hi.ne_nil hwords,
        afterAccessLevel_of_ne hwords hr hi.ne_accessLevel]
    · left
      rw [afterWords?_of_ne hwords hr hi]
      rfl

/-- A word in front of a preamble begins the same declaration, or none. -/
lemma declaration?_word_append (hne : name ≠ []) (hn : ∀ c ∈ name.chars, joinsName c = true)
    (hg : AllBlank gap) (hgap : gap ≠ []) (hnext : StartsPreamble next) :
    declaration? (name ++ (gap ++ next)) = none ∨
      declaration? (name ++ (gap ++ next)) = declaration? next := by
  by_cases hb : BeginsDeclaration name.chars
  · rcases hb with hi | ⟨level, hlevel, hname⟩
    · exact .inl (declaration?_introducer_append hi hg hgap hnext)
    · exact declaration?_accessLevel_append hlevel hname hne hg hgap hnext
  · exact .inl (declaration?_of_ne hne hn (hg.not_word hgap next) hb)

end Source.Fragment

/-! ### What follows a value -/

/-- Whether there is nothing but some space, or a preamble starts a line after it. -/
structure ResumesWith (gap next : Fragment) : Prop where
  allBlank : AllBlank gap
  outside : ∀ g ∈ gap, g.depth = 0
  startsLine : next = [] ∨
    StartsLine false (chars gap) ∧ StartsPreamble next ∧ ∀ g ∈ next.head?, g.depth = 0

namespace ResumesWith

variable {gap next : Fragment}

/-- What resumes after a value does so behind a line feed. -/
lemma mem_newline (h : ResumesWith gap next) : next = [] ∨ '\n' ∈ chars gap := by
  refine h.startsLine.imp_right ?_
  rintro ⟨⟨hfirst, -⟩ | ⟨a, b, hsplit, -⟩, -⟩
  · exact absurd hfirst (by decide)
  · rw [hsplit]
    exact List.mem_append_right _ List.mem_cons_self

/-- No word goes on with what resumes after a value. -/
lemma not_word (h : ResumesWith gap next) :
    ∀ c ∈ first? (gap ++ next), Text.isWord c = false := by
  by_cases hgap : gap = []
  · rcases h.mem_newline with rfl | hline
    · simp [hgap, first?]
    · simp [hgap, chars] at hline
  · exact h.allBlank.not_word hgap next

/-- What comes after the space begins a preamble. -/
lemma beginsOne (h : ResumesWith gap next) : ∀ c ∈ first? (skipBlanks next), BeginsOne c := by
  rcases h.startsLine with rfl | ⟨-, hstarts, -⟩
  · simp [skipBlanks, first?]
  · obtain ⟨c, hc, hbegins⟩ := hstarts.first
    intro d hd
    rw [skipBlanks_of_beginsOne hstarts.first] at hd
    obtain rfl := Option.mem_unique hc hd
    exact hbegins

/-- No call goes on. -/
lemma endsName (h : ResumesWith gap next) : EndsName (gap ++ next) := by
  refine ⟨h.not_word, ?_⟩
  rw [skipBlanks_append h.allBlank]
  rintro c hc rfl
  rcases h.beginsOne _ hc with hword | hat
  · rw [isWord_of_mem_signs (by decide)] at hword
    exact absurd hword (by decide)
  · exact absurd hat (by decide)

/-- No value goes on. -/
lemma endsValue (h : ResumesWith gap next) :
    next = [] ∨ '\n' ∈ chars gap ∧
    ∀ c ∈ first? (skipBlanks next), continuesValue c = false :=
  h.mem_newline.imp_right fun hline => ⟨hline, fun c hc => (h.beginsOne c hc).continuesValue⟩

/-- A word in front of a preamble that begins a declaration begins that of the preamble. -/
lemma constants_of_declaration {name : Fragment} {d : Declaration} (h : ResumesWith gap next)
    (hne : name ≠ []) (hn : ∀ c ∈ name.chars, joinsName c = true)
    (hd : declaration? (name ++ (gap ++ next)) = some d) :
    Fragment.constants false (gap ++ next) =
      ⟨d.name, Fragment.term (Fragment.value 0 false d.rest), d.typeText.bind elementType?⟩ ::
        Fragment.constants false d.rest := by
  rcases h.startsLine with rfl | ⟨hline, hstarts, hdepth⟩
  · have hstops : Stops (gap ++ []) := .append h.allBlank stops_nil
    rw [declaration?_name hne hn hstops] at hd
    exact absurd hd (by simp)
  · have hgap : gap ≠ [] := by
      rintro rfl
      rcases hline with ⟨hfirst, -⟩ | ⟨b, e, hsplit, -⟩
      · exact absurd hfirst (by decide)
      · simp [chars] at hsplit
    rcases declaration?_word_append hne hn h.allBlank hgap hstarts with hnone | heq
    · rw [hnone] at hd
      exact absurd hd (by simp)
    · exact constants_startsLine h.allBlank hline (heq.symm.trans hd) h.outside hdepth

end ResumesWith

/-! ### The reading by sections -/

/-- The search for declarations passes over a value. -/
lemma Written.constants_resumes (w : Written) (afterSign : Gap) (line vline : Nat)
    {gap next : Fragment} (h : ResumesWith gap next) :
    Fragment.constants false (glyphsFrom line 0 afterSign.lexemes ++
      (glyphsFrom vline 0 w.lexemes ++ (gap ++ next))) =
        Fragment.constants false (gap ++ next) := by
  cases hd : Fragment.declaration? (glyphsFrom vline 0 w.lexemes ++ (gap ++ next)) with
  | none => exact Written.constants_value afterSign line vline hd
  | some d =>
    -- only a word in front of another preamble begins a declaration, so the value is one
    obtain ⟨v, rfl⟩ : ∃ v, w = .word v := by
      by_contra hword
      rw [w.declaration?_append vline 0 fun v hv => absurd ⟨v, hv⟩ hword] at hd
      exact absurd hd (by simp)
    rw [Written.lexemes] at hd ⊢
    have hpass : Fragment.constants false (glyphsFrom vline 0 v.lexemes ++ (gap ++ next)) =
        Fragment.constants false (gap ++ next) := v.constants_append vline 0 (by simp)
    have hfound := h.constants_of_declaration (v.glyphsFrom_ne_nil vline 0)
      (by simpa using v.joins) hd
    have hhead : ∀ g ∈ (glyphsFrom vline 0 v.lexemes ++ (gap ++ next)).head?, g.depth = 0 := by
      obtain ⟨c, cs, hc⟩ := List.exists_cons_of_ne_nil v.ne_nil
      rw [Word.lexemes, hc, List.map_cons, glyphsFrom_code]
      rintro g ⟨⟩
      rfl
    rw [constants_gap_of_found (allBlank_gap _ _ _)
      (fun g hg => depth_of_blank afterSign.isBlank_of_mem line 0 hg)
        hhead hd (hpass.trans hfound) false,
      hpass]

namespace Preamble

variable (p : Preamble)

/-- The first glyph of a preamble is outside brackets. -/
lemma head?_depth (line : Nat) (rest : Fragment) :
    ∀ g ∈ (glyphsFrom line 0 p.lexemes ++ rest).head?, g.depth = 0 := by
  obtain ⟨c, xs, hcs, -⟩ := p.exists_cons
  rw [hcs, glyphsFrom_code]
  rintro g ⟨⟩
  rfl

/-- Space that starts a line is what a preamble resumes with. -/
lemma resumesWith {before : Gap} (starts : StartsLine false (skeletonOf before.lexemes))
    (line pline : Nat) (rest : Fragment) :
    ResumesWith (glyphsFrom line 0 before.lexemes) (glyphsFrom pline 0 p.lexemes ++ rest) where
  allBlank := allBlank_gap _ _ _
  outside _ hg := depth_of_blank before.isBlank_of_mem line 0 hg
  startsLine := .inr ⟨by rwa [chars_glyphsFrom], p.startsPreamble pline rest,
    p.head?_depth pline rest⟩

/-- A preamble that starts a line and the value after it are the first constant that is found. -/
lemma constants_append {first : Bool} {before : Gap}
    (starts : StartsLine first (skeletonOf before.lexemes)) (afterSign : Gap) {w : Written}
    (hjoined : ∀ callee gap arguments, w = .call callee gap arguments →
      newlines gap.lexemes = 0)
    (line pline gline vline : Nat) {gap next : Fragment} (h : ResumesWith gap next) :
    Fragment.constants first (glyphsFrom line 0 before.lexemes ++ (glyphsFrom pline 0 p.lexemes ++
        (glyphsFrom gline 0 afterSign.lexemes ++
          (glyphsFrom vline 0 w.lexemes ++ (gap ++ next))))) =
      ⟨String.ofList p.name.chars, w.term vline, p.type.bind fun t => t.element.recorded?⟩ ::
        Fragment.constants false (gap ++ next) := by
  have hequals := w.avoids not_isFirst_equals rfl (allBlank_gap gline 0 afterSign)
    vline 0 (gap ++ next)
  obtain ⟨typeText, hdeclaration, htype⟩ := p.declaration?_append pline hequals
  rw [constants_startsLine (allBlank_gap _ _ _) (by rwa [chars_glyphsFrom]) hdeclaration
      (fun g hg => depth_of_blank before.isBlank_of_mem line 0 hg) (p.head?_depth _ _),
    Written.term_value hjoined _ _ _ h.allBlank h.endsValue, w.constants_resumes _ _ _ h, htype]

end Preamble

/-! ### The text -/

/-- A text begins with no quote if none of its parts does. -/
lemma head?_textOf_append_ne {xs ys : List Lexeme} (hxs : (textOf xs).head? ≠ some '"')
    (hys : (textOf ys).head? ≠ some '"') : (textOf (xs ++ ys)).head? ≠ some '"' := by
  rw [textOf_append, List.head?_append]
  cases h : (textOf xs).head? with
  | none => simpa using hys
  | some c => simpa [h] using hxs

namespace Preamble

variable (p : Preamble)

/-- A preamble begins with no quote, and no space in front of it does. -/
lemma head?_textOf_ne (before : Gap) (ys : List Lexeme) :
    (textOf (before.lexemes ++ (p.lexemes ++ ys))).head? ≠ some '"' := by
  refine head?_textOf_append_ne before.head?_textOf_ne ?_
  obtain ⟨c, xs, hcs, hc⟩ := p.exists_cons
  have hquote : c ≠ '"' := by
    rintro rfl
    rcases hc with hc | hc
    · rw [isWord_of_mem_signs (by decide)] at hc
      exact absurd hc (by decide)
    · exact absurd hc (by decide)
  rw [hcs]
  simpa [Lexeme.text] using hquote

/-- A preamble and its value are recovered from their text, with what follows. -/
lemma lexemes_textOf_append (before afterSign : Gap) (w : Written) {ys : List Lexeme}
    (hys : Source.lexemes (textOf ys) = ys) (hquote : (textOf ys).head? ≠ some '"') :
    Source.lexemes (textOf (before.lexemes ++
      (p.lexemes ++ (afterSign.lexemes ++ (w.lexemes ++ ys))))) =
      before.lexemes ++ (p.lexemes ++ (afterSign.lexemes ++ (w.lexemes ++ ys))) := by
  have hvalue := w.scansBefore.lexemes_append hys hquote
  have hassignment := p.scans.lexemes_append (afterSign.scans.lexemes_append hvalue)
  exact before.scans.lexemes_append hassignment

end Preamble

/-! ### The end of a manifest -/

/-- The end of a manifest: space, and perhaps a line comment without a line feed after it. -/
structure Ending where
  gap : Gap
  comment : Option (List Char)
  onLine : ∀ text ∈ comment, '\n' ∉ text

/-- The lexemes of the end of a manifest. -/
def Ending.lexemes (e : Ending) : List Lexeme :=
  e.gap.lexemes ++ e.comment.toList.map fun text => .comment ('/' :: '/' :: text) true

namespace Ending

variable (e : Ending)

/-- The end of a manifest is recovered from its text. -/
lemma lexemes_textOf : Source.lexemes (textOf e.lexemes) = e.lexemes := by
  refine e.gap.scans.lexemes_append ?_
  cases hcomment : e.comment with
  | none => simp [Source.lexemes]
  | some text => simpa [Lexeme.text] using lexemes_lineComment (e.onLine text hcomment)

/-- No ending begins with a quote. -/
lemma head?_textOf_ne : (textOf e.lexemes).head? ≠ some '"' := by
  refine head?_textOf_append_ne e.gap.head?_textOf_ne ?_
  cases e.comment <;> simp [Lexeme.text]

/-- The end of a manifest shows nothing. -/
lemma isBlank_of_mem : ∀ c ∈ skeletonOf e.lexemes, Text.isBlank c = true := by
  intro c hc
  rw [lexemes, skeletonOf_append] at hc
  rcases List.mem_append.1 hc with hc | hc
  · exact e.gap.isBlank_of_mem c hc
  · cases hcomment : e.comment with
    | none => simp [hcomment] at hc
    | some text =>
      have hskeleton : skeletonOf [Lexeme.comment ('/' :: '/' :: text) true] =
          ('/' :: '/' :: text).map blanked := by
        rw [skeletonOf_cons, skeletonOf_nil, List.append_nil, Lexeme.skeleton]
      rw [hcomment, Option.toList_some, List.map_cons, List.map_nil, hskeleton] at hc
      obtain ⟨d, -, rfl⟩ := List.mem_map.1 hc
      exact isBlank_blanked d

/-- An ending is blank. -/
lemma allBlank (line : Nat) : AllBlank (glyphsFrom line 0 e.lexemes) := by
  intro c hc
  rw [chars_glyphsFrom] at hc
  exact e.isBlank_of_mem c hc

/-- Nothing resumes after the end of a manifest. -/
lemma resumesWith (line : Nat) : ResumesWith (glyphsFrom line 0 e.lexemes) [] where
  allBlank := e.allBlank line
  outside _ hg := depth_of_blank e.isBlank_of_mem line 0 hg
  startsLine := .inl rfl

/-- Nothing is declared at the end of a manifest. -/
lemma constants_glyphsFrom (first : Bool) (line : Nat) :
    Fragment.constants first (glyphsFrom line 0 e.lexemes) = [] := by
  obtain ⟨atStart, hafter⟩ := constants_gap (e.allBlank line) declaration?_nil first
  rw [← List.append_nil (glyphsFrom _ _ _), hafter, constants_nil]

end Ending

end SwiftDependencies
