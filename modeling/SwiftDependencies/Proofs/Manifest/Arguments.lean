import Mathlib.Tactic.Common
import SwiftDependencies.Manifest.Sections
import SwiftDependencies.Proofs.Manifest.Lowering

/-!
# Finding an argument by its label

The search for a label runs over the characters of a row of arguments and stops at the first place
outside brackets where the label and a colon stand.  In a row as it is written that place is the
first argument with the label, so the search finds the value that `Term.argument?` finds among the
terms of the row (`Row.section?_glyphsFrom`).  The search passes over everything else: over brackets
because it is not at level zero in them (`section?_balanced`), and over names because no colon
follows them.
-/

namespace SwiftDependencies

open Source Source.Fragment

namespace Source.Fragment

open Text (isWord)

variable {label : String} {f a rest : Fragment}

/-! ### Places without a label -/

/-- No label begins where no word does. -/
lemma afterLabel?_of_first (hl : IsKeyword label) (h : ∀ c ∈ first? f, isWord c = false) :
    afterLabel? label f = none := by
  simp [afterLabel?, startsWith_of_first hl h]

/-- A label that is found is a whole name, and a colon follows it. -/
lemma eq_of_afterLabel? {name value : Fragment} (hl : IsKeyword label)
    (hn : ∀ c ∈ name.chars, joinsName c = true) (hr : ∀ c ∈ first? rest, isWord c = false)
    (h : afterLabel? label (name ++ rest) = some value) :
    name.chars = label.toList ∧ first? (skipBlanks rest) = some ':' := by
  simp only [afterLabel?] at h
  split at h
  · rename_i hc
    simp only [Bool.and_eq_true, beq_iff_eq] at hc
    obtain ⟨⟨hstart, hcolon⟩, -⟩ := hc
    have hname := eq_of_startsWith hl hn hr hstart fun c hc' => by
      rcases Bool.eq_false_or_eq_true (Text.isBlank c) with hb | hb
      · exact joinsName_of_isBlank hb
      · rw [skipBlanks_of_first hc' hb] at hcolon
        obtain rfl := Option.mem_unique hc' hcolon
        exact joinsName_of_mem_signs (by decide)
    refine ⟨hname, ?_⟩
    have hlen : label.length = name.length := by
      rw [← length_chars, hname, String.length_toList]
    rwa [hlen, List.drop_left] at hcolon
  · simp at h

/-- A name that no colon follows is not the label. -/
lemma afterLabel?_of_name {name : Fragment} (hl : IsKeyword label)
    (hn : ∀ c ∈ name.chars, joinsName c = true) (hs : Stops rest)
    (hr : Avoids ':' (skipBlanks rest)) : afterLabel? label (name ++ rest) = none := by
  rw [Option.eq_none_iff_forall_ne_some]
  intro value h
  exact hr ':' (eq_of_afterLabel? hl hn hs.not_word h).2 rfl

/-- Another name is not the label, even if a colon follows. -/
lemma afterLabel?_of_ne {name : Fragment} (hl : IsKeyword label)
    (hn : ∀ c ∈ name.chars, joinsName c = true) (hs : Stops rest)
    (hne : name.chars ≠ label.toList) : afterLabel? label (name ++ rest) = none := by
  rw [Option.eq_none_iff_forall_ne_some]
  intro value h
  exact hne (eq_of_afterLabel? hl hn hs.not_word h).1

/-- The label and its colon. -/
lemma afterLabel?_eq {name gap : Fragment} {c : Glyph} {value : Fragment}
    (hn : name.chars = label.toList) (hg : AllBlank gap) (hc : c.skeleton = ':')
    (hv : Avoids ':' value) :
    afterLabel? label (name ++ gap ++ c :: value) = some (skipBlanks value) := by
  have hlen : label.length = name.length := by
    rw [← length_chars, hn, String.length_toList]
  have hstart : startsWith label.toList (name ++ gap ++ c :: value) = true := by
    rw [startsWith, List.isPrefixOf_iff_prefix, List.append_assoc, chars_append, hn]
    exact List.prefix_append _ _
  have hdrop : skipBlanks ((name ++ gap ++ c :: value).drop label.length) = c :: value := by
    rw [hlen, List.append_assoc, List.drop_left, skipBlanks_append hg]
    exact skipBlanks_of_first (c := ':') (by simp [first?, hc]) (by decide)
  have hnext : (first? value != some ':') = true := by
    rw [bne_iff_ne]
    exact fun h => hv _ h rfl
  simp only [afterLabel?, hstart, hdrop, List.drop_succ_cons, List.drop_zero, hnext]
  simp [first?, hc]

/-! ### The search -/

/-- The search goes on where the label does not stand. -/
lemma section?_cons {joined : Bool} {level : Int} (g : Glyph)
    (h : joined = false → level = 0 → afterLabel? label (g :: f) = none) :
    Fragment.section? label joined level (g :: f) =
      Fragment.section? label (joinsName g.skeleton) (levelAfter level g.skeleton) f := by
  have hnone : (if joined || level != 0 then none else afterLabel? label (g :: f)) = none := by
    cases joined with
    | true => rfl
    | false =>
      by_cases hz : level = 0
      · simp [hz, h rfl hz]
      · simp [hz]
  rw [section?, hnone]

/-- Where a label begins, the section is the value behind it. -/
lemma section?_of_label {value : Fragment} (h : afterLabel? label f = some value) (hf : f ≠ []) :
    Fragment.section? label false 0 f = some value.argumentValue := by
  cases f with
  | nil => exact absurd rfl hf
  | cons g f => simp [section?, h]

/-- The search passes over what stands in brackets. -/
lemma section?_balanced (label : String) {p : Char → Prop} {cs : List Char} (h : Balanced p cs)
    {level : Int} (hl : 1 ≤ level) (joined : Bool) {a : Fragment} (ha : a.chars = cs)
    (rest : Fragment) :
    ∃ joined', section? label joined level (a ++ rest) = section? label joined' level rest := by
  induction h generalizing level joined a rest with
  | nil =>
    obtain rfl := List.map_eq_nil_iff.1 ha
    exact ⟨joined, rfl⟩
  | plain opens closes _ _ ih =>
    obtain ⟨g, gs, rfl, rfl, hgs⟩ := List.map_eq_cons_iff.1 ha
    obtain ⟨j, hj⟩ := ih hl (joinsName g.skeleton) hgs rest
    refine ⟨j, ?_⟩
    rw [List.cons_append, section?_cons g (by omega), levelAfter_plain _ opens closes, hj]
  | group opens closes _ _ ihin ih =>
    obtain ⟨g, gs, rfl, rfl, hgs⟩ := List.map_eq_cons_iff.1 ha
    obtain ⟨inner, tail, rfl, hinner, htail⟩ := List.map_eq_append_iff.1 hgs
    obtain ⟨e, es, rfl, rfl, hes⟩ := List.map_eq_cons_iff.1 htail
    have hup : 1 ≤ level + 1 := by omega
    obtain ⟨j, hj⟩ := ihin hup (joinsName g.skeleton) hinner
      (e :: (es ++ rest))
    obtain ⟨k, hk⟩ := ih hl (joinsName e.skeleton) hes rest
    refine ⟨k, ?_⟩
    rw [List.cons_append, List.append_assoc, List.cons_append, section?_cons g (by omega),
      levelAfter_opener _ opens, hj, section?_cons e (by omega), levelAfter_closer _ closes,
      Int.add_sub_cancel, hk]

/-- The search passes over brackets and what stands in them. -/
lemma section?_enclosed {p : Char → Prop} {o c : Glyph} {inner : Fragment} (hl : IsKeyword label)
    (opens : isOpener o.skeleton = true) (closes : isCloser c.skeleton = true)
    (h : Balanced p inner.chars) (joined : Bool) (rest : Fragment) :
    ∃ joined', section? label joined 0 (o :: (inner ++ c :: rest)) =
      Fragment.section? label joined' 0 rest := by
  have hword : isWord o.skeleton = false := by
    rw [← Bool.not_eq_true]
    intro hw
    have := isOpener_of_joinsName (joinsName_of_isWord hw)
    simp [opens] at this
  obtain ⟨j, hj⟩ := section?_balanced label h Int.le_rfl (joinsName o.skeleton) rfl (c :: rest)
  refine ⟨joinsName c.skeleton, ?_⟩
  rw [section?_cons o fun _ _ => afterLabel?_of_first hl (by simpa [first?] using hword),
    levelAfter_opener _ opens, Int.zero_add, hj, section?_cons c (by omega),
    levelAfter_closer _ closes, Int.sub_self]

/-- A blank is neither a word nor a bracket. -/
lemma AllBlank.signs (h : AllBlank a) :
    ∀ c ∈ a.chars, isWord c = false ∧ isOpener c = false ∧ isCloser c = false :=
  fun c hc => ⟨isWord_of_isBlank (h c hc), isOpener_of_isBlank (h c hc),
    isCloser_of_isBlank (h c hc)⟩

/-- The search passes over what is neither a word nor a bracket. -/
lemma section?_signs (hl : IsKeyword label) (joined : Bool)
    (h : ∀ c ∈ a.chars, isWord c = false ∧ isOpener c = false ∧ isCloser c = false)
    (rest : Fragment) :
    ∃ joined', section? label joined 0 (a ++ rest) = section? label joined' 0 rest := by
  induction a generalizing joined with
  | nil => exact ⟨joined, rfl⟩
  | cons g a ih =>
    obtain ⟨hw, opens, closes⟩ := h g.skeleton (by simp [chars])
    obtain ⟨j, hj⟩ := ih (joinsName g.skeleton) fun c hc => h c (List.mem_cons_of_mem _ hc)
    refine ⟨j, ?_⟩
    rw [List.cons_append, section?_cons g fun _ _ => afterLabel?_of_first hl
      (by simpa [first?] using hw), levelAfter_plain _ opens closes, hj]

/-- After a sign the search begins anew. -/
lemma section?_sign (hl : IsKeyword label) (joined : Bool) (g : Glyph)
    (hg : joinsName g.skeleton = false) (opens : isOpener g.skeleton = false)
    (closes : isCloser g.skeleton = false) :
    Fragment.section? label joined 0 (g :: f) = section? label false 0 f := by
  have hw := isWord_of_joinsName hg
  rw [section?_cons g fun _ _ => afterLabel?_of_first hl (by simpa [first?] using hw), hg,
    levelAfter_plain _ opens closes]

/-- Blanks do not join. -/
lemma section?_gap {gap : Fragment} (hl : IsKeyword label) (hg : AllBlank gap) (rest : Fragment) :
    Fragment.section? label false 0 (gap ++ rest) = section? label false 0 rest := by
  induction gap with
  | nil => rfl
  | cons g gap ih =>
    have hblank : Text.isBlank g.skeleton = true := hg.isBlank g List.mem_cons_self
    rw [List.cons_append, section?_sign hl false g (joinsName_of_isBlank hblank)
      (isOpener_of_isBlank hblank) (isCloser_of_isBlank hblank),
      ih fun c hc => hg c (List.mem_cons_of_mem _ hc)]

/-- The search passes over a name that is not the label. -/
lemma section?_name {name : Fragment} (hne : name ≠ [])
    (hn : ∀ c ∈ name.chars, joinsName c = true) (joined : Bool)
    (h : joined = false → afterLabel? label (name ++ rest) = none) :
    Fragment.section? label joined 0 (name ++ rest) = section? label true 0 rest := by
  induction name generalizing joined with
  | nil => exact absurd rfl hne
  | cons g name ih =>
    have hjoin := hn g.skeleton (by simp [chars])
    rw [List.cons_append] at h ⊢
    rw [section?_cons g fun hj _ => h hj, hjoin,
      levelAfter_plain _ (isOpener_of_joinsName hjoin) (isCloser_of_joinsName hjoin)]
    cases name with
    | nil => rfl
    | cons e name =>
      exact ih (by simp) (fun c hc => hn c (List.mem_cons_of_mem _ hc)) true (by simp)

/-- The search passes over a call. -/
lemma section?_call {name gap inner : Fragment} {o c : Glyph} {p : Char → Prop}
    (hl : IsKeyword label) (hne : name ≠ []) (hn : ∀ c ∈ name.chars, joinsName c = true)
    (hg : AllBlank gap) (ho : o.skeleton = '(') (hc : c.skeleton = ')') (h : Balanced p inner.chars)
    (rest : Fragment) :
    ∃ joined, section? label false 0 (name ++ gap ++ o :: (inner ++ [c]) ++ rest) =
      Fragment.section? label joined 0 rest := by
  have hparen : first? (skipBlanks (gap ++ o :: (inner ++ c :: rest))) = some '(' := by
    rw [skipBlanks_append hg, skipBlanks_of_first (c := '(') (by simp [first?, ho]) (by decide)]
    simp [first?, ho]
  have hlabel : afterLabel? label (name ++ (gap ++ o :: (inner ++ c :: rest))) = none := by
    refine afterLabel?_of_name hl hn (fun d hd => ?_) fun d hd => ?_
    all_goals obtain rfl := Option.mem_unique hparen hd
    · exact isWord_of_mem_signs (by decide)
    · decide
  obtain ⟨j, hj⟩ := section?_signs (a := gap) hl true hg.signs (o :: (inner ++ c :: rest))
  obtain ⟨k, hk⟩ := section?_enclosed (o := o) (c := c) hl (by simp [ho, isOpener])
    (by simp [hc, isCloser]) h j rest
  refine ⟨k, ?_⟩
  have hassoc : name ++ gap ++ o :: (inner ++ [c]) ++ rest =
      name ++ (gap ++ o :: (inner ++ c :: rest)) := by simp
  rw [hassoc, section?_name hne hn false fun _ => hlabel, hj, hk]

/-- What may follow an argument: the end of the row, or a comma. -/
def EndsItem (f : Fragment) : Prop :=
  ∀ c ∈ first? f, c = ','

/-- What ends an item begins with no blank. -/
lemma EndsItem.skipBlanks (h : EndsItem f) : skipBlanks f = f := by
  cases f with
  | nil => rfl
  | cons g f =>
    exact skipBlanks_of_first (c := ',') (by simp [first?, h g.skeleton rfl]) (by decide)

/-- A word does not go on where an item ends, be there blanks before the end. -/
lemma EndsItem.stops {gap : Fragment} (hg : AllBlank gap) (h : EndsItem rest) :
    Stops (gap ++ rest) := by
  refine Stops.append hg fun c hc => ?_
  rw [h.skipBlanks] at hc
  rw [h c hc]
  exact isWord_of_mem_signs (by decide)

/-- No colon follows an item, so it is not taken for a label. -/
lemma EndsItem.avoids {gap : Fragment} (hg : AllBlank gap) (h : EndsItem rest) :
    Avoids ':' (Fragment.skipBlanks (gap ++ rest)) := by
  rw [skipBlanks_append hg, h.skipBlanks]
  intro c hc
  rw [h c hc]
  decide

/-- The search for the end of a value stops right after an item. -/
lemma untilSeparator_item {p : Char → Prop} (hf : Balanced p f.chars)
    (hp : ∀ c, p c → c ≠ ',') (hr : EndsItem rest) :
    untilSeparator (·.skeleton) (· == ',') 0 (f ++ rest) = f := by
  rw [untilSeparator_append hf (by omega) (fun _ c hc => by simpa using hp c hc) rfl]
  cases rest with
  | nil => simp [untilSeparator]
  | cons g rest =>
    have hg : g.skeleton = ',' := hr g.skeleton rfl
    simp [untilSeparator, hg, isOpener, isCloser]

end Source.Fragment

variable {label : String}

/-! ### Rows of arguments -/

/-- A word is not empty. -/
lemma Word.glyphsFrom_ne_nil (w : Word) (line depth : Nat) :
    glyphsFrom line depth w.lexemes ≠ [] := by
  rintro hnil
  have hchars := chars_glyphsFrom line depth w.lexemes
  rw [hnil, Word.skeletonOf_lexemes] at hchars
  exact w.ne_nil hchars.symm

/-- The search passes over an expression that no colon follows. -/
lemma Written.section?_append (hl : IsKeyword label) (w : Written) (line depth : Nat)
    {rest : Fragment} (hs : Stops rest) (hr : Avoids ':' (skipBlanks rest)) :
    ∃ joined, section? label false 0 (glyphsFrom line depth w.lexemes ++ rest) =
      Fragment.section? label joined 0 rest := by
  cases w with
  | literal text h =>
    refine section?_signs hl false ?_ rest
    rw [chars_glyphsFrom]
    intro c hc
    obtain ⟨d, e, n, hd, he, heq⟩ := h.blankInside
    have hmark (c : Char) (h : IsMark c) :
        Text.isWord c = false ∧ isOpener c = false ∧ isCloser c = false := by
      rcases h with rfl | rfl <;> exact ⟨isWord_of_mem_signs (by decide), rfl, rfl⟩
    simp only [Written.lexemes, skeletonOf_cons, Lexeme.skeleton, heq, skeletonOf_nil,
      List.append_nil, List.mem_cons, List.mem_append, List.mem_replicate, List.not_mem_nil,
      or_false] at hc
    rcases hc with rfl | ⟨-, rfl⟩ | rfl
    · exact hmark _ hd
    · exact ⟨isWord_of_isBlank (by decide), rfl, rfl⟩
    · exact hmark _ he
  | word v =>
    have hjoins : ∀ c ∈ chars (glyphsFrom line depth v.lexemes), joinsName c = true := by
      simpa using v.joins
    have hlabel := afterLabel?_of_name hl hjoins hs hr
    exact ⟨true, section?_name (v.glyphsFrom_ne_nil line depth) hjoins false fun _ => hlabel⟩
  | array items =>
    rw [glyphsFrom_array, List.cons_append, List.append_assoc]
    exact section?_enclosed hl rfl rfl (by rw [chars_glyphsFrom]; exact items.balanced) false rest
  | call callee gap arguments =>
    rw [glyphsFrom_call]
    exact section?_call hl (callee.glyphsFrom_ne_nil line depth) (by simpa using callee.joins)
      (allBlank_gap _ _ _) rfl rfl (by rw [chars_glyphsFrom]; exact arguments.balanced) rest

/-- The value of an argument reads as its term. -/
lemma Written.term_argumentValue (w : Written) (line depth : Nat) {after rest : Fragment}
    (ha : AllBlank after) (hr : EndsItem rest) :
    Fragment.term (argumentValue (glyphsFrom line depth w.lexemes ++ after ++ rest)) =
      w.term line := by
  have huntil : untilSeparator (·.skeleton) (· == ',') 0
      (glyphsFrom line depth w.lexemes ++ after ++ rest) =
        glyphsFrom line depth w.lexemes ++ after := by
    have hbalanced : Balanced IsInline (chars (glyphsFrom line depth w.lexemes ++ after)) := by
      rw [chars_append, chars_glyphsFrom]
      exact w.balanced.append (balanced_of_inline (fun c hc => .inl (ha c hc)) fun c hc =>
        .inl (ha c hc))
    exact untilSeparator_item hbalanced
      (fun c hc => hc.ne (by decide) rfl (by decide) (by decide)) hr
  have hterm := term_margins (a := []) (b := after) allBlank_nil
    (by rw [chars_glyphsFrom]; exact w.solid) ha (f := glyphsFrom line depth w.lexemes)
  rw [List.nil_append, w.term_glyphsFrom] at hterm
  rcases w.array_or_first with ⟨items, rfl⟩ | ⟨c, hc, hfirst⟩
  · have hclosing :
        closing? (chars (glyphsFrom line depth (Written.array items).lexemes ++ after ++ rest))
        = some ((skeletonOf items.lexemes).length + 1) := by
      have := closing?_enclosed (o := '[')
        (c := ']') rfl rfl items.balanced (after.chars ++ rest.chars)
      simpa [Written.lexemes, Lexeme.skeleton] using this
    have htake : (glyphsFrom line depth (Written.array items).lexemes ++ after ++ rest).take
        ((skeletonOf items.lexemes).length + 1 + 1) =
          glyphsFrom line depth (Written.array items).lexemes := by
      have hlen : (skeletonOf items.lexemes).length + 1 + 1 =
          (glyphsFrom line depth (Written.array items).lexemes).length := by
        simp [Written.lexemes, Lexeme.text]
      rw [hlen, List.append_assoc, List.take_left]
    have hfirst : first? (glyphsFrom line depth (Written.array items).lexemes ++ after ++ rest) =
        some '[' := by
      rw [glyphsFrom_array]
      rfl
    rw [argumentValue, hfirst, if_pos (by decide), hclosing]
    simp only [htake]
    exact Written.term_glyphsFrom _ line depth
  · have hbracket : c ≠ '[' ∧ c ≠ '(' := by
      refine ⟨?_, ?_⟩ <;> rintro rfl <;> rcases hfirst with h | h | h
      all_goals first | exact not_mem_signs h (by decide) | exact absurd h (by decide)
    have hfirst : first? (glyphsFrom line depth w.lexemes ++ after ++ rest) = some c := by
      rw [first?_eq, List.append_assoc, chars_append, chars_glyphsFrom, List.head?_append,
        Option.mem_def.1 hc]
      rfl
    rw [argumentValue, hfirst, if_neg (by simp [hbracket]), huntil, hterm]

/-- The search passes over an expression with the space after it. -/
lemma Written.section?_append_gap (hl : IsKeyword label) (w : Written) (line depth : Nat)
    {after rest : Fragment} (ha : AllBlank after) (hr : EndsItem rest) :
    ∃ joined, section? label false 0 (glyphsFrom line depth w.lexemes ++ after ++ rest) =
      Fragment.section? label joined 0 rest := by
  obtain ⟨j, hj⟩ := w.section?_append hl line depth (hr.stops ha) (hr.avoids ha)
  obtain ⟨k, hk⟩ := section?_signs hl j ha.signs rest
  exact ⟨k, by rw [List.append_assoc, hj, hk]⟩

/-- The search finds the expression behind the label. -/
lemma Label.section?_eq (l : Label) (hname : l.name.chars = label.toList) (w : Written)
    (line wline depth : Nat) (rest : Fragment) :
    Fragment.section? label false 0 (glyphsFrom line depth (Label.lexemes (some l)) ++
        (glyphsFrom wline depth w.lexemes ++ rest)) =
      some (argumentValue (glyphsFrom wline depth w.lexemes ++ rest)) := by
  have hspace := allBlank_gap (line + newlines l.before.lexemes) depth l.after
  have hcolon := w.avoids not_isFirst_colon rfl hspace wline depth rest
  have hchars : chars (glyphsFrom line depth l.name.toWord.lexemes) = label.toList := by
    simpa [Identifier.toWord] using hname
  have hfound := afterLabel?_eq (c := ⟨':', ':', line + newlines l.before.lexemes,
    depth, 0⟩) hchars
    (allBlank_gap line depth l.before) rfl hcolon
  rw [glyphsFrom_label, List.append_assoc _ (_ :: _), List.cons_append,
    Fragment.section?_of_label hfound (by simp), skipBlanks_append hspace, w.skipBlanks_append]

/-- The search passes over another label. -/
lemma Label.section?_append (hl : IsKeyword label) (l : Label) (hne : l.name.chars ≠ label.toList)
    (line depth : Nat) (rest : Fragment) :
    Fragment.section? label false 0 (glyphsFrom line depth (Label.lexemes (some l)) ++ rest) =
      Fragment.section? label false 0 rest := by
  have hgap := allBlank_gap line depth l.before
  have hjoins : ∀ c ∈ chars (glyphsFrom line depth l.name.toWord.lexemes),
      joinsName c = true := by
    simpa using l.name.toWord.joins
  have hchars : chars (glyphsFrom line depth l.name.toWord.lexemes) ≠ label.toList := by
    simpa [Identifier.toWord] using hne
  have hcolon : joinsName ':' = false := joinsName_of_mem_signs (by decide)
  set colon : Glyph := ⟨':', ':', line + newlines l.before.lexemes, depth, 0⟩
  set after := glyphsFrom (line + newlines l.before.lexemes) depth l.after.lexemes
  have hstops : Stops (glyphsFrom line depth l.before.lexemes ++ colon :: (after ++ rest)) :=
    .append hgap (stops_of_sign (c := ':') rfl (by decide) rfl)
  obtain ⟨j, hj⟩ := section?_signs hl true hgap.signs (colon :: (after ++ rest))
  rw [glyphsFrom_label, List.append_assoc, List.append_assoc, List.cons_append,
    Fragment.section?_name (l.name.toWord.glyphsFrom_ne_nil line depth) hjoins false
      (fun _ => afterLabel?_of_ne hl hjoins hstops hchars), hj,
    Fragment.section?_sign hl j colon hcolon rfl rfl,
    Fragment.section?_gap hl (allBlank_gap _ _ _)]

/-- The search finds the value of an argument with the label, and passes over any other. -/
lemma Entry.section?_append (hl : IsKeyword label) (e : Entry true) (line depth : Nat)
    {rest : Fragment} (hr : EndsItem rest) :
    if (e.item line).1 = some label then
      (section? label false 0 (glyphsFrom line depth e.lexemes ++ rest)).map Fragment.term =
        some (e.item line).2
    else
      ∃ joined, section? label false 0 (glyphsFrom line depth e.lexemes ++ rest) =
        Fragment.section? label joined 0 rest := by
  obtain ⟨before, label', value, after, h⟩ := e
  have hafter := allBlank_gap (line + newlines before.lexemes + newlines (Label.lexemes label') +
    newlines value.lexemes) depth after
  have hvalue := value.section?_append_gap hl
    (line + newlines before.lexemes + newlines (Label.lexemes label')) depth hafter hr
  rw [List.append_assoc] at hvalue
  rw [glyphsFrom_entry, List.append_assoc, List.append_assoc, List.append_assoc,
    Fragment.section?_gap hl (allBlank_gap line depth before)]
  cases label' with
  | none =>
    rw [if_neg (by simp [Entry.item])]
    simpa [Label.lexemes] using hvalue
  | some l =>
    have hitem : (Entry.item line (.mk before (some l) value after h)).1 = some label ↔
        l.name.chars = label.toList := by
      rw [Entry.item, Option.map_some, Option.some.injEq, ← String.toList_inj,
        String.toList_ofList]
    by_cases hlabel : l.name.chars = label.toList
    · rw [if_pos (hitem.2 hlabel), l.section?_eq hlabel, Option.map_some, ← List.append_assoc,
        value.term_argumentValue _ depth hafter hr]
      rfl
    · rw [if_neg fun heq => hlabel (hitem.1 heq), l.section?_append hl hlabel]
      exact hvalue

/-- The search finds the first argument with the label. -/
theorem Row.section?_glyphsFrom (hl : IsKeyword label) : (r : Row true) → ∀ line depth : Nat,
    (section? label false 0 (glyphsFrom line depth r.lexemes)).map Fragment.term =
      Term.argument? (r.items line) label
  | .empty gap, line, depth => by
    have := section?_gap hl (allBlank_gap line depth gap) []
    rw [List.append_nil] at this
    rw [Row.lexemes, this]
    rfl
  | .last entry, line, depth => by
    have hend : EndsItem [] := by simp [EndsItem, first?]
    have hentry := entry.section?_append hl line depth hend
    rw [List.append_nil] at hentry
    rw [Row.lexemes, Row.items, Term.argument?]
    by_cases h : (entry.item line).1 = some label
    · rw [if_pos h] at hentry
      simp [hentry, h]
    · rw [if_neg h] at hentry
      obtain ⟨j, hj⟩ := hentry
      simp [hj, section?, h]
  | .more entry rest, line, depth => by
    have hrest := rest.section?_glyphsFrom hl (line + newlines entry.lexemes) depth
    rw [glyphsFrom_more, Row.items, Term.argument?]
    have hend : EndsItem (⟨',', ',', line + newlines entry.lexemes, depth, 0⟩ ::
        glyphsFrom (line + newlines entry.lexemes) depth rest.lexemes) := by
      rintro c ⟨⟩
      rfl
    have hentry := entry.section?_append hl line depth hend
    by_cases h : (entry.item line).1 = some label
    · rw [if_pos h] at hentry
      simpa [h] using hentry
    · rw [if_neg h] at hentry
      obtain ⟨j, hj⟩ := hentry
      have hjoin : joinsName ',' = false := joinsName_of_mem_signs (by decide)
      have hcomma := section?_sign
        (f := glyphsFrom (line + newlines entry.lexemes) depth rest.lexemes) hl j
        ⟨',', ',', line + newlines entry.lexemes, depth, 0⟩ hjoin rfl rfl
      rw [List.find?_cons_of_neg (by simpa using h), ← Term.argument?, ← hrest,
        ← hcomma, ← hj]

end SwiftDependencies
