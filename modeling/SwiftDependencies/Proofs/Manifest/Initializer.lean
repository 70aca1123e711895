import Mathlib.Tactic.Common
import SwiftDependencies.Proofs.Manifest.Arguments

/-!
# Finding the constructed package

The search for the constructed package passes over names and signs until it meets the name `Package`
with an opening parenthesis.  What it then reads of the arguments is, label by label, what the terms
of the arguments say (`argument?_sections`).
-/

namespace SwiftDependencies

open Source Source.Fragment

namespace Source.Fragment

variable {f a rest : Fragment}

/-! ### The arguments that are read -/

/-- The labels of sections are keywords. -/
lemma isKeyword_sectionLabels : ∀ label ∈ sectionLabels, IsKeyword label := by
  decide

/-- The arguments that are read of a fragment are the sections with their labels. -/
lemma argument?_sections (f : Fragment) {label : String} (h : label ∈ sectionLabels) :
    Term.argument? (sections f) label = (section? label false 0 f).map term := by
  have hfind (labels : List String) (hl : label ∈ labels) :
      Term.argument? (labels.filterMap fun l =>
        (section? l false 0 f).map fun value => (some l, value.term)) label =
          (section? label false 0 f).map term := by
    induction labels with
    | nil => simp at hl
    | cons l labels ih =>
      by_cases heq : l = label
      · subst heq
        cases hs : section? l false 0 f with
        | some value => simp [Term.argument?, hs]
        | none =>
          by_cases hmem : l ∈ labels
          · have ih := ih hmem
            rw [hs] at ih
            simpa [hs] using ih
          · have hnone : (labels.filterMap fun l' => (section? l' false 0 f).map
                fun value => (some l', value.term)).find? (fun a => a.1 == some l) = none := by
              rw [List.find?_eq_none]
              intro x hx
              obtain ⟨l', hl', hx⟩ := List.mem_filterMap.1 hx
              obtain ⟨value, -, rfl⟩ := Option.map_eq_some_iff.1 hx
              simp only [beq_iff_eq, Option.some.injEq]
              rintro rfl
              exact hmem hl'
            simp [Term.argument?, hs, hnone]
      · have ih := ih ((List.mem_cons.1 hl).resolve_left (Ne.symm heq))
        cases hs : section? l false 0 f with
        | some value => simpa [Term.argument?, hs, heq] using ih
        | none => simpa [hs] using ih
  exact hfind sectionLabels h

/-! ### The search -/

/-- The name of the constructor is a keyword. -/
lemma isKeyword_package : IsKeyword "Package" := by decide

/-- Where no construction begins, the search goes on behind the next character. -/
lemma package?_cons {joined : Bool} (g : Glyph)
    (h : joined = false → afterPackage? (g :: f) = none) :
    package? joined (g :: f) = package? (joinsName g.skeleton) f := by
  have hnone : (if joined then none else afterPackage? (g :: f)) = none := by
    cases joined with
    | true => rfl
    | false => simp [h rfl]
  rw [package?, hnone]

/-- No construction begins where no word does. -/
lemma afterPackage?_of_first (h : ∀ c ∈ first? f, Text.isWord c = false) :
    afterPackage? f = none := by
  simp only [afterPackage?, startsWith_of_first isKeyword_package h, Bool.false_and,
    Bool.false_eq_true, if_false]

/-- After a sign the search begins anew. -/
lemma package?_sign (joined : Bool) (g : Glyph) (hg : joinsName g.skeleton = false) :
    package? joined (g :: f) = package? false f := by
  have hw := isWord_of_joinsName hg
  rw [package?_cons g fun _ => afterPackage?_of_first (by simpa [first?] using hw), hg]

/-- The search passes over what is part of no name. -/
lemma package?_signs (h : ∀ c ∈ a.chars, joinsName c = false) (joined : Bool)
    (rest : Fragment) :
    package? joined (a ++ rest) = package? (joined && a.isEmpty) rest := by
  induction a generalizing joined with
  | nil => simp
  | cons g a ih =>
    rw [List.cons_append, package?_sign joined g (h _ (by simp [chars])),
      ih (fun c hc => h c (List.mem_cons_of_mem _ hc)) false]
    simp

/-- The search passes over a gap. -/
lemma package?_gap {gap : Fragment} (hg : AllBlank gap) (joined : Bool) (rest : Fragment) :
    package? joined (gap ++ rest) = package? (joined && gap.isEmpty) rest :=
  package?_signs (fun c hc => joinsName_of_isBlank (hg c hc)) joined rest

/-- The search passes over a name that does not construct a package. -/
lemma package?_name {name : Fragment} (hne : name ≠ [])
    (hn : ∀ c ∈ name.chars, joinsName c = true) (joined : Bool)
    (h : joined = false → afterPackage? (name ++ rest) = none) :
    package? joined (name ++ rest) = package? true rest := by
  induction name generalizing joined with
  | nil => exact absurd rfl hne
  | cons g name ih =>
    have hjoin := hn g.skeleton (by simp [chars])
    rw [List.cons_append] at h ⊢
    rw [package?_cons g h, hjoin]
    cases name with
    | nil => rfl
    | cons e name =>
      exact ih (by simp) (fun c hc => hn c (List.mem_cons_of_mem _ hc)) true (by simp)

/-- The arguments of a package are what follows its name and a parenthesis. -/
lemma afterPackage?_eq_some_iff {body : Fragment} :
    afterPackage? f = some body ↔
      f.startsWith "Package".toList = true ∧
        ∃ o : Glyph, o.skeleton = '(' ∧ skipBlanks (f.drop 7) = o :: body := by
  rw [afterPackage?]
  cases hrest : skipBlanks (f.drop 7) with
  | nil => simp [first?]
  | cons o rest => simp [first?, and_assoc]

/-- What constructs a package is called `Package`, and a parenthesis follows it. -/
lemma eq_of_afterPackage? {name body : Fragment} (hn : ∀ c ∈ name.chars, joinsName c = true)
    (hr : ∀ c ∈ first? rest, Text.isWord c = false)
    (h : afterPackage? (name ++ rest) = some body) :
    name.chars = "Package".toList ∧ first? (skipBlanks rest) = some '(' := by
  obtain ⟨hstart, o, ho, hrest⟩ := afterPackage?_eq_some_iff.1 h
  have hparen : first? (skipBlanks ((name ++ rest).drop "Package".length)) = some '(' := by
    rw [show "Package".length = 7 from rfl, hrest, first?, List.head?_cons, Option.map_some, ho]
  have hname := eq_of_startsWith isKeyword_package hn hr hstart fun c hc => by
    rcases Bool.eq_false_or_eq_true (Text.isBlank c) with hb | hb
    · exact joinsName_of_isBlank hb
    · rw [skipBlanks_of_first hc hb] at hparen
      obtain rfl := Option.mem_unique hc hparen
      exact joinsName_of_mem_signs (by decide)
  refine ⟨hname, ?_⟩
  have hlen : name.length = "Package".length := by
    rw [← length_chars, hname]
    rfl
  rwa [← hlen, List.drop_left] at hparen

/-- No construction begins with another name. -/
lemma afterPackage?_of_ne {name : Fragment} (hn : ∀ c ∈ name.chars, joinsName c = true)
    (hr : ∀ c ∈ first? rest, Text.isWord c = false) (hne : name.chars ≠ "Package".toList) :
    afterPackage? (name ++ rest) = none := by
  rw [Option.eq_none_iff_forall_ne_some]
  intro body h
  exact hne (eq_of_afterPackage? hn hr h).1

/-- Whether neither a word nor a call goes on with a fragment. -/
structure EndsName (f : Fragment) : Prop where
  not_word : ∀ c ∈ first? f, Text.isWord c = false
  avoids : Avoids '(' (skipBlanks f)

/-- No construction begins with a name that no parenthesis follows. -/
lemma afterPackage?_of_ends {name : Fragment} (hn : ∀ c ∈ name.chars, joinsName c = true)
    (hr : EndsName rest) : afterPackage? (name ++ rest) = none := by
  rw [Option.eq_none_iff_forall_ne_some]
  intro body h
  exact hr.avoids '(' (eq_of_afterPackage? hn hr.not_word h).2 rfl

/-- Neither a word nor a call goes on with the end. -/
lemma endsName_nil : EndsName [] := by
  refine ⟨?_, ?_⟩ <;> rintro c ⟨⟩

/-- If neither a word nor a call goes on with a fragment, neither does with blanks in
front of it. -/
lemma EndsName.append {gap : Fragment} (hg : AllBlank gap) (h : EndsName f) :
    EndsName (gap ++ f) := by
  refine ⟨fun c hc => ?_, ?_⟩
  · cases gap with
    | nil => exact h.not_word c hc
    | cons g gap => exact hg.not_word (by simp) f c hc
  · rw [skipBlanks_append hg]
    exact h.avoids

/-- Neither a word nor a call goes on with a sign, apart from the opening parenthesis. -/
lemma endsName_of_sign {c : Char} (h : first? f = some c) (hc : c ∈ signs)
    (hb : Text.isBlank c = false) (hp : c ≠ '(') : EndsName f := by
  refine ⟨(stops_of_sign h hc hb).not_word, ?_⟩
  rw [skipBlanks_of_first h hb]
  intro d hd
  obtain rfl := Option.mem_unique h hd
  exact hp

/-- Where no parenthesis is in sight, none is next. -/
lemma avoids_of_not_mem {g : Glyph} {sign : Char} (hf : sign ∉ f.chars)
    (hb : Text.isBlank g.skeleton = false) (hne : g.skeleton ≠ sign) :
    Avoids sign (skipBlanks (f ++ g :: rest)) := by
  induction f with
  | nil =>
    rw [List.nil_append, skipBlanks_of_first (c := g.skeleton) rfl hb]
    rintro c ⟨⟩
    exact hne
  | cons e f ih =>
    rw [List.cons_append]
    rcases Bool.eq_false_or_eq_true (Text.isBlank e.skeleton) with hblank | hblank
    · rw [skipBlanks, List.dropWhile_cons_of_pos (p := Glyph.isBlank) hblank]
      exact ih fun h => hf (List.mem_cons_of_mem _ h)
    · rw [skipBlanks_of_first (c := e.skeleton) rfl hblank]
      rintro c ⟨⟩ rfl
      exact hf List.mem_cons_self

/-- Where no parenthesis is in sight, no package is constructed. -/
lemma afterPackage?_of_not_mem {g : Glyph} (hf : '(' ∉ f.chars) (hg : g.skeleton ∈ signs)
    (hb : Text.isBlank g.skeleton = false) (hp : g.skeleton ≠ '(') :
    afterPackage? (f ++ g :: rest) = none := by
  rw [Option.eq_none_iff_forall_ne_some]
  intro body h
  obtain ⟨hstart, o, ho, hrest⟩ := afterPackage?_eq_some_iff.1 h
  -- the name ends before the sign, which is part of no word
  have hlen : 7 ≤ f.length := by
    rw [startsWith, List.isPrefixOf_iff_prefix] at hstart
    by_contra hshort
    have hget : "Package".toList[f.length]? = some g.skeleton := by
      obtain ⟨t, ht⟩ := hstart
      have hprefix : ("Package".toList ++ t)[f.length]? = "Package".toList[f.length]? :=
        List.getElem?_append_left (by simp; omega)
      rw [← hprefix, ht, chars_append,
        List.getElem?_append_right (by simp), length_chars, Nat.sub_self]
      rfl
    have hword := isKeyword_package.word _ (List.mem_of_getElem? hget)
    rw [isWord_of_mem_signs hg] at hword
    exact absurd hword (by decide)
  rw [List.drop_append_of_le_length hlen] at hrest
  have hmem : '(' ∉ chars (f.drop 7) :=
    fun h => hf (List.mem_of_mem_drop (by rwa [chars, List.map_drop] at h))
  have hparen : '(' ∈ first? (skipBlanks (f.drop 7 ++ g :: rest)) := by simp [hrest, first?, ho]
  exact avoids_of_not_mem hmem hb hp '(' hparen rfl

/-- The search passes over what has no parenthesis, up to a sign. -/
lemma package?_upTo {g : Glyph} (hf : '(' ∉ f.chars) (hg : g.skeleton ∈ signs)
    (hb : Text.isBlank g.skeleton = false) (hp : g.skeleton ≠ '(') (joined : Bool)
    (rest : Fragment) :
    package? joined (f ++ g :: rest) = package? false rest := by
  induction f generalizing joined with
  | nil => exact package?_sign joined g (joinsName_of_mem_signs hg)
  | cons e f ih =>
    have hnone : afterPackage? (e :: f ++ g :: rest) = none := afterPackage?_of_not_mem hf hg hb hp
    rw [List.cons_append] at hnone ⊢
    rw [package?_cons e fun _ => hnone, ih fun h => hf (List.mem_cons_of_mem _ h)]

/-- The constructed package. -/
lemma package?_call {name gap inner : Fragment} {o c : Glyph} {p : Char → Prop}
    (hn : name.chars = "Package".toList) (hg : AllBlank gap) (ho : o.skeleton = '(')
    (hc : isCloser c.skeleton = true) (hin : Balanced p inner.chars) (rest : Fragment) :
    ∃ span, package? false (name ++ gap ++ o :: (inner ++ [c]) ++ rest) =
      some ⟨sections inner, span⟩ := by
  have hassoc : name ++ gap ++ o :: (inner ++ [c]) ++ rest =
      name ++ (gap ++ o :: (inner ++ c :: rest)) := by simp
  have hlen : name.length = 7 := by
    rw [← length_chars, hn]
    rfl
  have hbody : afterPackage? (name ++ (gap ++ o :: (inner ++ c :: rest))) =
      some (inner ++ c :: rest) := by
    have hstart : startsWith "Package".toList (name ++ (gap ++ o :: (inner ++ c :: rest))) =
        true := by
      rw [startsWith, List.isPrefixOf_iff_prefix, chars_append, hn]
      exact List.prefix_append _ _
    have hdrop : skipBlanks ((name ++ (gap ++ o :: (inner ++ c :: rest))).drop 7) =
        o :: (inner ++ c :: rest) := by
      rw [← hlen, List.drop_left, skipBlanks_append hg]
      exact skipBlanks_of_first (c := '(') (by simp [first?, ho]) (by decide)
    exact afterPackage?_eq_some_iff.2 ⟨hstart, o, ho, hdrop⟩
  have hclosing : closingFrom? 1 (chars (inner ++ c :: rest)) = some inner.length := by
    rw [chars_append, closingFrom?_append hin (by omega)]
    simp [chars, closingFrom?, hc, levelAfter_closer 1 hc]
  cases name with
  | nil => simp at hlen
  | cons g name =>
    rw [hassoc]
    simp only [List.cons_append] at hbody ⊢
    rw [package?]
    simp only [Bool.false_eq_true, if_false, hbody, hclosing, List.take_left]
    exact ⟨_, rfl⟩

end Source.Fragment

/-! ### The search in an expression -/

/-- Whether the search for the constructed package finds, at the start of a fragment, the sections
of some arguments, if there are any, and otherwise comes to the rest. -/
def FindsSections (found : Option (Nat × Row true)) (f rest : Fragment) : Prop :=
  match found with
  | some (line, arguments) => ∃ depth span,
    Fragment.package? false (f ++ rest) =
      some ⟨sections (glyphsFrom line depth arguments.lexemes), span⟩
  | none => ∃ joined, Fragment.package? false (f ++ rest) = Fragment.package? joined rest

/-- Neither a word nor a call goes on where an item ends. -/
lemma EndsEntry.endsName {f : Fragment} (h : EndsEntry f) : EndsName f := by
  obtain ⟨c, hc, hsign⟩ := h
  rcases hsign with rfl | rfl | rfl <;> exact endsName_of_sign hc (by decide) rfl (by decide)

/-- What comes before an expression, and is passed over, may be left out of a search. -/
lemma FindsSections.of_passed {found : Option (Nat × Row true)} {a f rest : Fragment}
    (ha : Fragment.package? false (a ++ (f ++ rest)) = Fragment.package? false (f ++ rest))
    (h : FindsSections found f rest) : FindsSections found (a ++ f) rest := by
  unfold FindsSections at h ⊢
  rw [List.append_assoc, ha]
  exact h

/-- What comes after an expression, and is passed over, may be added to a search. -/
lemma FindsSections.append {found : Option (Nat × Row true)} {f after rest : Fragment}
    (h : FindsSections found f (after ++ rest))
    (hpass : ∀ joined, ∃ joined',
      Fragment.package? joined (after ++ rest) = Fragment.package? joined' rest) :
    FindsSections found (f ++ after) rest := by
  unfold FindsSections at h ⊢
  rw [List.append_assoc]
  cases found with
  | some found => exact h
  | none =>
    obtain ⟨joined, hjoined⟩ := h
    obtain ⟨joined', hjoined'⟩ := hpass joined
    exact ⟨joined', hjoined.trans hjoined'⟩

/-- The search passes over a sign. -/
lemma package?_pass_sign {g : Glyph} (hg : joinsName g.skeleton = false) (joined : Bool)
    (rest : Fragment) :
    ∃ joined', Fragment.package? joined ([g] ++ rest) = Fragment.package? joined' rest :=
  ⟨false, package?_sign joined g hg⟩

/-- The search passes over a gap, whether or not a name could go on. -/
lemma package?_pass_gap {gap : Fragment} (hg : AllBlank gap) (joined : Bool) (rest : Fragment) :
    ∃ joined', Fragment.package? joined (gap ++ rest) = Fragment.package? joined' rest :=
  ⟨_, package?_gap hg joined rest⟩

/-- The search passes over a label. -/
lemma Label.package?_append (label : Option Label) (line depth : Nat) (rest : Fragment) :
    Fragment.package? false (glyphsFrom line depth (Label.lexemes label) ++ rest) =
      Fragment.package? false rest := by
  cases label with
  | none => rfl
  | some l =>
    have hname : '(' ∉ chars (glyphsFrom line depth l.name.toWord.lexemes ++
        glyphsFrom line depth l.before.lexemes) := by
      rw [chars_append, chars_glyphsFrom, chars_glyphsFrom, Word.skeletonOf_lexemes,
        List.mem_append, not_or]
      exact ⟨l.name.toWord.not_mem (by decide), l.before.not_mem rfl⟩
    rw [glyphsFrom_label, List.append_assoc, List.cons_append,
      package?_upTo (g := ⟨':', ':', line + newlines l.before.lexemes, depth, 0⟩) hname
        (show ':' ∈ signs by decide) rfl (show ':' ≠ '(' by decide),
      package?_gap (allBlank_gap _ _ _), Bool.false_and]

mutual

/-- The search finds the first call of `Package` in an expression, or passes over it. -/
theorem Written.findsSections : (w : Written) → ∀ (line depth : Nat) {rest : Fragment},
    EndsName rest → FindsSections (w.package? line) (glyphsFrom line depth w.lexemes) rest
  | .literal text h, line, depth, rest, hr => by
    refine ⟨_, package?_signs (fun c hc => ?_) false rest⟩
    rw [chars_glyphsFrom, Written.lexemes, skeletonOf_cons, skeletonOf_nil, List.append_nil] at hc
    rcases h.of_mem hc with rfl | rfl | rfl
    · exact joinsName_of_isBlank (by decide)
    · exact joinsName_of_mem_signs (by decide)
    · exact joinsName_of_mem_signs (by decide)
  | .word w, line, depth, rest, hr => by
    have hjoins : ∀ c ∈ chars (glyphsFrom line depth w.lexemes), joinsName c = true := by
      simpa using w.joins
    exact ⟨true, package?_name (w.glyphsFrom_ne_nil _ _) hjoins false
      fun _ => afterPackage?_of_ends hjoins hr⟩
  | .array items, line, depth, rest, hr => by
    have hopen : joinsName '[' = false := joinsName_of_mem_signs (by decide)
    have hclose : joinsName ']' = false := joinsName_of_mem_signs (by decide)
    have hend : EndsEntry (⟨']', ']', line + newlines items.lexemes, depth + 1, 0⟩ :: rest) :=
      ⟨']', rfl, .inr (.inr rfl)⟩
    have hitems := (items.findsSections line (depth + 1) hend).append
      (package?_pass_sign (g := ⟨']', ']', line + newlines items.lexemes, depth + 1, 0⟩)
        hclose · rest)
    rw [glyphsFrom_array, Written.package?]
    exact hitems.of_passed (a := [⟨'[', '[', line, depth, 0⟩])
      (package?_sign false ⟨'[', '[', line, depth, 0⟩ hopen)
  | .call callee gap arguments, line, depth, rest, hr => by
    have hjoins : ∀ c ∈ chars (glyphsFrom line depth callee.lexemes), joinsName c = true := by
      simpa using callee.joins
    rw [glyphsFrom_call, Written.package?]
    split <;> rename_i hcallee
    · have hinner : Balanced (fun c => IsInline c ∨ c = ':' ∨ c = ',')
          (chars (glyphsFrom (line + newlines gap.lexemes) (depth + 1) arguments.lexemes)) := by
        rw [chars_glyphsFrom]
        exact arguments.balanced
      have hname : chars (glyphsFrom line depth callee.lexemes) = "Package".toList := by
        rw [chars_glyphsFrom, Word.skeletonOf_lexemes, hcallee]
      obtain ⟨span, hspan⟩ :=
        package?_call (o := ⟨'(', '(', line + newlines gap.lexemes, depth, 0⟩)
        (c := ⟨')', ')', line + newlines gap.lexemes + newlines arguments.lexemes,
          depth + 1, 0⟩)
        hname (allBlank_gap line depth gap) rfl rfl hinner rest
      exact ⟨depth + 1, span, hspan⟩
    · have hopen : joinsName '(' = false := joinsName_of_mem_signs (by decide)
      have hclose : joinsName ')' = false := joinsName_of_mem_signs (by decide)
      have hend : EndsEntry (⟨')', ')', line + newlines gap.lexemes + newlines arguments.lexemes,
          depth + 1, 0⟩ :: rest) := ⟨')', rfl, .inr (.inl rfl)⟩
      have harguments :=
        (arguments.findsSections (line + newlines gap.lexemes) (depth + 1) hend).append
          (package?_pass_sign
            (g := ⟨')', ')', line + newlines gap.lexemes + newlines arguments.lexemes,
              depth + 1, 0⟩) hclose · rest)
      have hstop (f : Fragment) : ∀ c ∈ first? (glyphsFrom line depth gap.lexemes ++
          ⟨'(', '(', line + newlines gap.lexemes, depth, 0⟩ :: f), Text.isWord c = false :=
        (Stops.append (allBlank_gap _ _ _) (stops_of_sign (c := '(') rfl (by decide) rfl)).not_word
      have hname : chars (glyphsFrom line depth callee.lexemes) ≠ "Package".toList := by
        rwa [chars_glyphsFrom, Word.skeletonOf_lexemes]
      rw [← List.singleton_append, ← List.append_assoc]
      refine .of_passed ?_ harguments
      rw [List.append_assoc, List.append_assoc, List.append_assoc, List.singleton_append,
        package?_name (callee.glyphsFrom_ne_nil _ _) hjoins false
          fun _ => afterPackage?_of_ne hjoins (hstop _) hname,
        package?_gap (allBlank_gap _ _ _),
        package?_sign _ ⟨'(', '(', line + newlines gap.lexemes, depth, 0⟩ hopen]

/-- The search finds what is constructed in an item. -/
theorem Entry.findsSections {labelled : Bool} : (e : Entry labelled) → ∀ (line depth : Nat)
    {rest : Fragment}, EndsEntry rest →
    FindsSections (e.package? line) (glyphsFrom line depth e.lexemes) rest
  | .mk before label value after h, line, depth, rest, hr => by
    have hafter := allBlank_gap (line + newlines before.lexemes + newlines (Label.lexemes label) +
      newlines value.lexemes) depth after
    have hvalue :=
      (value.findsSections (line + newlines before.lexemes + newlines (Label.lexemes label))
      depth (.append hafter hr.endsName)).append (package?_pass_gap hafter · rest)
    rw [glyphsFrom_entry, List.append_assoc, Entry.package?]
    refine .of_passed ?_ hvalue
    rw [List.append_assoc, package?_gap (allBlank_gap _ _ _), Bool.false_and, Label.package?_append]

/-- The search finds what is constructed first in a row. -/
theorem Row.findsSections {labelled : Bool} : (r : Row labelled) → ∀ (line depth : Nat)
    {rest : Fragment}, EndsEntry rest →
    FindsSections (r.package? line) (glyphsFrom line depth r.lexemes) rest
  | .empty gap, line, depth, rest, _ => package?_pass_gap (allBlank_gap line depth gap) false rest
  | .last entry, line, depth, rest, hr => entry.findsSections line depth hr
  | .more entry tail, line, depth, rest, hr => by
    have hcomma : joinsName ',' = false := joinsName_of_mem_signs (by decide)
    have hend : EndsEntry (⟨',', ',', line + newlines entry.lexemes, depth, 0⟩ ::
        (glyphsFrom (line + newlines entry.lexemes) depth tail.lexemes ++ rest)) :=
      ⟨',', rfl, .inl rfl⟩
    have hentry := entry.findsSections line depth hend
    have htail := tail.findsSections (line + newlines entry.lexemes) depth hr
    rw [glyphsFrom_more, Row.package?]
    cases hfound : entry.package? line with
    | some found =>
      rw [hfound] at hentry
      obtain ⟨d, span, hspan⟩ := hentry
      exact ⟨d, span, by rw [List.append_assoc]; exact hspan⟩
    | none =>
      rw [hfound] at hentry
      obtain ⟨joined, hjoined⟩ := hentry
      rw [Option.none_or, ← List.singleton_append, ← List.append_assoc]
      refine .of_passed ?_ htail
      rw [List.append_assoc, List.singleton_append, hjoined,
        package?_sign _ ⟨',', ',', line + newlines entry.lexemes, depth, 0⟩ hcomma]

end

end SwiftDependencies
