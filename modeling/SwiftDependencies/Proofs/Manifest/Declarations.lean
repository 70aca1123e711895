import Mathlib.Tactic.Common
import SwiftDependencies.Proofs.Manifest.Arguments

/-!
# Finding the declared constants

A declaration is looked for at the start of every line.  Inside an expression none is found, because
a name in an expression is followed by a sign and not by another name (`declaration?_name`), so the
search passes over an expression as over a single line (`Written.constants_append`).  Space between
declarations is passed over as well (`constants_gap`).
-/

namespace SwiftDependencies

open Source Source.Fragment

namespace Source.Fragment

variable {f a name rest : Fragment}

/-! ### Places without a declaration -/

/-- No keyword begins where no word does. -/
lemma afterWord?_of_first {word : String} (hk : IsKeyword word)
    (h : ∀ c ∈ first? f, Text.isWord c = false) : afterWord? word f = none := by
  simp only [afterWord?, startsWith_of_first hk h, Bool.false_and, Bool.false_eq_true, if_false]

/-- A word before a blank is a whole name. -/
lemma eq_of_afterWord? {word : String} {body : Fragment} (hk : IsKeyword word)
    (hn : ∀ c ∈ name.chars, joinsName c = true)
    (hr : ∀ c ∈ first? rest, Text.isWord c = false)
    (h : afterWord? word (name ++ rest) = some body) :
    name.chars = word.toList ∧ body = skipBlanks rest := by
  simp only [afterWord?] at h
  split at h
  · rename_i hc
    simp only [Bool.and_eq_true] at hc
    obtain ⟨hstart, hblank⟩ := hc
    have hname := eq_of_startsWith hk hn hr hstart fun c hc' => by
      obtain ⟨g, hg, rfl⟩ := Option.map_eq_some_iff.1 hc'
      rw [hg] at hblank
      exact joinsName_of_isBlank hblank
    have hlen : word.length = name.length := by
      rw [← length_chars, hname, String.length_toList]
    rw [hlen, List.drop_left] at h
    exact ⟨hname, (Option.some.inj h).symm⟩
  · simp at h

/-- The access levels are keywords. -/
lemma isKeyword_accessLevels : ∀ word ∈ accessLevels, IsKeyword word := by decide

/-- The word for constants is a keyword. -/
lemma isKeyword_let : IsKeyword "let" := by decide

/-- The word for variables is a keyword. -/
lemma isKeyword_var : IsKeyword "var" := by decide

/-- There is no access level where no word begins. -/
lemma afterAccessLevel_of_first (h : ∀ c ∈ first? f, Text.isWord c = false) :
    afterAccessLevel f = f := by
  have hnone : (accessLevels.findSome? fun word => afterWord? word f) = none :=
    List.findSome?_eq_none_iff.2 fun word hw =>
      afterWord?_of_first (isKeyword_accessLevels word hw) h
  rw [afterAccessLevel, hnone]
  rfl

/-- Where no word begins, no word is passed over. -/
lemma afterWords?_of_first (h : ∀ c ∈ first? f, Text.isWord c = false) :
    (afterWord? "let" f).or (afterWord? "var" f) = none := by
  rw [afterWord?_of_first isKeyword_let h, afterWord?_of_first isKeyword_var h]
  rfl

/-- An access level is a whole name. -/
lemma afterAccessLevel_name (hn : ∀ c ∈ name.chars, joinsName c = true)
    (hr : ∀ c ∈ first? rest, Text.isWord c = false) :
    afterAccessLevel (name ++ rest) = name ++ rest ∨
      afterAccessLevel (name ++ rest) = skipBlanks rest := by
  rw [afterAccessLevel]
  cases h : accessLevels.findSome? fun word => afterWord? word (name ++ rest) with
  | none => exact .inl rfl
  | some body =>
    obtain ⟨word, hw, hbody⟩ := List.exists_of_findSome?_eq_some h
    exact .inr (eq_of_afterWord? (isKeyword_accessLevels word hw) hn hr hbody).2

/-- There are no attributes where their sign does not stand. -/
lemma afterAttributes_of_first (h : first? f ≠ some '@') : afterAttributes f = f := by
  have hnone : afterAttribute? f = none := by
    simp [afterAttribute?, h]
  rw [afterAttributes]
  split
  · rename_i heq
    simp [hnone] at heq
  · rfl

/-- A space or a tab. -/
def IsIndent (c : Char) : Prop :=
  c = ' ' ∨ c = '\t'

/-- Where no space or tab stands, none is passed over. -/
lemma afterIndent_of_first (h : ∀ c ∈ first? f, ¬IsIndent c) : afterIndent f = f := by
  cases f with
  | nil => rfl
  | cons g f =>
    have hg : ¬IsIndent g.skeleton := h g.skeleton rfl
    rw [IsIndent, not_or] at hg
    simp [afterIndent, hg]

/-- Spaces and tabs in front are passed over. -/
lemma afterIndent_append (h : ∀ c ∈ a.chars, IsIndent c) :
    afterIndent (a ++ f) = afterIndent f := by
  refine List.dropWhile_append_of_pos fun g hg => ?_
  simpa [IsIndent] using h _ (List.mem_map_of_mem hg)

/-- Whether a character cannot begin a declaration. -/
def BeginsNone (c : Char) : Prop :=
  Text.isWord c = false ∧ c ≠ '@'

/-- No declaration begins with a blank. -/
lemma beginsNone_of_isBlank {c : Char} (h : Text.isBlank c = true) : BeginsNone c := by
  refine ⟨isWord_of_isBlank h, ?_⟩
  rintro rfl
  exact absurd h (by decide)

/-- No declaration begins with such a character. -/
lemma declaration?_of_afterIndent (h : ∀ c ∈ first? (afterIndent f), BeginsNone c) :
    declaration? f = none := by
  have hattributes : afterAttributes (afterIndent f) = afterIndent f :=
    afterAttributes_of_first fun hc => (h '@' hc).2 rfl
  have hlevel : afterAccessLevel (afterIndent f) = afterIndent f :=
    afterAccessLevel_of_first fun c hc => (h c hc).1
  rw [declaration?, hattributes, hlevel, afterWords?_of_first fun c hc => (h c hc).1]
  rfl

/-- There is no declaration at the end. -/
lemma declaration?_nil : declaration? [] = none :=
  declaration?_of_afterIndent (by simp [afterIndent, first?])

/-- No declaration begins with such a character. -/
lemma declaration?_of_first {c : Char} (h : first? f = some c) (hi : ¬IsIndent c)
    (hc : BeginsNone c) : declaration? f = none := by
  refine declaration?_of_afterIndent fun d hd => ?_
  rw [afterIndent_of_first fun e he => by rwa [← Option.mem_unique h he]] at hd
  rwa [← Option.mem_unique h hd]

/-- What goes on with a name is no space or tab. -/
lemma not_isIndent_of_joinsName {c : Char} (h : joinsName c = true) : ¬IsIndent c := by
  have hblank := isBlank_of_joinsName h
  rintro (rfl | rfl) <;> exact absurd hblank (by decide)

/-- No declaration begins with a sign other than that of attributes. -/
lemma declaration?_sign (g : Glyph) (hg : g.skeleton ∈ signs) (hat : g.skeleton ≠ '@') :
    declaration? (g :: f) = none := by
  refine declaration?_of_first (c := g.skeleton) rfl ?_ ⟨isWord_of_mem_signs hg, hat⟩
  rintro (h | h) <;> rw [h] at hg <;> exact absurd hg (by decide)

/-- In front of a name there is nothing to pass over. -/
lemma afterAttributes_of_joins {c : Char} (hc : first? f = some c) (hjoin : joinsName c = true) :
    afterAttributes (afterIndent f) = f := by
  have hindent : afterIndent f = f := by
    refine afterIndent_of_first ?_
    intro d hd
    obtain rfl := Option.mem_unique hc hd
    exact not_isIndent_of_joinsName hjoin
  rw [hindent]
  refine afterAttributes_of_first ?_
  intro hat
  obtain rfl := Option.mem_unique hc hat
  exact not_mem_signs hjoin (by decide)

/-- A name is no attribute. -/
lemma afterAttributes_name (hne : name ≠ []) (hn : ∀ c ∈ name.chars, joinsName c = true)
    (rest : Fragment) : afterAttributes (afterIndent (name ++ rest)) = name ++ rest := by
  cases name with
  | nil => exact absurd rfl hne
  | cons g name => exact afterAttributes_of_joins (c := g.skeleton) rfl (hn _ (by simp [chars]))

/-- A name that no other name follows declares nothing. -/
lemma declaration?_name (hne : name ≠ []) (hn : ∀ c ∈ name.chars, joinsName c = true)
    (hs : Stops rest) : declaration? (name ++ rest) = none := by
  have hnumber : identifierLength (skipBlanks rest) = 0 := by
    rw [identifierLength]
    split
    · rename_i hstart
      obtain ⟨d, hd, hname⟩ := (Option.any_eq_true _ _).1 hstart
      have := Text.isWord_of_isNameStart hname
      simp [hs d hd] at this
    · rfl
  have hword {word : String} (hk : IsKeyword word) {body : Fragment}
      (hbody : afterWord? word (name ++ rest) = some body) : body = skipBlanks rest :=
    (eq_of_afterWord? hk hn hs.not_word hbody).2
  rw [declaration?, afterAttributes_name hne hn]
  rcases afterAccessLevel_name hn hs.not_word with hlevel | hlevel
  · rw [hlevel]
    cases hor : (afterWord? "let" (name ++ rest)).or (afterWord? "var" (name ++ rest)) with
    | none => rfl
    | some body =>
      have hbody : body = skipBlanks rest := by
        rcases Option.or_eq_some_iff.1 hor with h | ⟨-, h⟩
        · exact hword isKeyword_let h
        · exact hword isKeyword_var h
      simp [hbody, hnumber]
  · rw [hlevel, afterWords?_of_first hs]
    rfl

/-- A declaration may be indented. -/
lemma declaration?_indent (h : ∀ c ∈ a.chars, IsIndent c) :
    declaration? (a ++ rest) = declaration? rest := by
  rw [declaration?, declaration?, afterIndent_append h]

/-- Blanks hide what is declared after them, unless they indent it. -/
lemma declaration?_gap_or {gap : Fragment} (hg : AllBlank gap) (rest : Fragment) :
    declaration? (gap ++ rest) = declaration? rest ∨ declaration? (gap ++ rest) = none := by
  by_cases hall : ∀ c ∈ gap.chars, IsIndent c
  · exact .inl (declaration?_indent hall)
  · refine .inr (declaration?_of_afterIndent fun c hc => ?_)
    refine beginsNone_of_isBlank ?_
    induction gap with
    | nil => simp [chars] at hall
    | cons g gap ih =>
      have hblank : Text.isBlank g.skeleton = true := hg.isBlank g List.mem_cons_self
      by_cases hgi : IsIndent g.skeleton
      · have hrest : ¬∀ c ∈ chars gap, IsIndent c := by
          intro h
          refine hall fun c hc => ?_
          rcases List.mem_cons.1 hc with rfl | hc
          · exact hgi
          · exact h c hc
        have hdrop : afterIndent (g :: gap ++ rest) = afterIndent (gap ++ rest) :=
          afterIndent_append (a := [g]) (by simpa [chars] using hgi)
        rw [hdrop] at hc
        exact ih (fun c hc => hg c (List.mem_cons_of_mem _ hc)) hrest hc
      · rw [List.cons_append, afterIndent_of_first (by rintro d ⟨⟩; exact hgi)] at hc
        obtain rfl : g.skeleton = c := by simpa [first?] using hc
        exact hblank

/-- Blanks before a place without a declaration are such a place. -/
lemma declaration?_gap {gap : Fragment} (hg : AllBlank gap) (h : declaration? rest = none) :
    declaration? (gap ++ rest) = none := by
  rcases declaration?_gap_or hg rest with heq | hnone
  · rw [heq, h]
  · exact hnone

/-! ### Declarations -/

/-- A word is found where it stands with a gap behind it. -/
lemma afterWord?_eq {word : String} {gap : Fragment} (hn : name.chars = word.toList)
    (hg : AllBlank gap) (hne : gap ≠ []) :
    afterWord? word (name ++ (gap ++ rest)) = some (skipBlanks rest) := by
  have hlen : word.length = name.length := by
    rw [← length_chars, hn, String.length_toList]
  have hstart : startsWith word.toList (name ++ (gap ++ rest)) = true := by
    rw [startsWith, List.isPrefixOf_iff_prefix, chars_append, hn]
    exact List.prefix_append _ _
  have hblank : ((gap ++ rest).head?.any Glyph.isBlank) = true := by
    cases gap with
    | nil => exact absurd rfl hne
    | cons g gap => exact hg.isBlank g List.mem_cons_self
  simp only [afterWord?, hlen, List.drop_left, hstart, hblank, Bool.true_and, if_true,
    skipBlanks_append hg]

/-- A name that is no access level is not passed over as one. -/
lemma afterAccessLevel_of_ne (hn : ∀ c ∈ name.chars, joinsName c = true)
    (hr : ∀ c ∈ first? rest, Text.isWord c = false)
    (hne : ∀ word ∈ accessLevels, name.chars ≠ word.toList) :
    afterAccessLevel (name ++ rest) = name ++ rest := by
  have hnone : (accessLevels.findSome? fun word => afterWord? word (name ++ rest)) = none := by
    rw [List.findSome?_eq_none_iff]
    intro word hw
    rw [Option.eq_none_iff_forall_ne_some]
    intro body hbody
    exact hne word hw (eq_of_afterWord? (isKeyword_accessLevels word hw) hn hr hbody).1
  rw [afterAccessLevel, hnone]
  rfl

/-- An access level is passed over. -/
lemma afterAccessLevel_eq {word : String} {gap : Fragment} (hn : name.chars = word.toList)
    (hw : word ∈ accessLevels) (hg : AllBlank gap) (hne : gap ≠ []) :
    afterAccessLevel (name ++ (gap ++ rest)) = skipBlanks rest := by
  have hjoins : ∀ c ∈ name.chars, joinsName c = true := fun c hc =>
    joinsName_of_isWord ((isKeyword_accessLevels word hw).word c (hn ▸ hc))
  rw [afterAccessLevel]
  cases hfind : accessLevels.findSome? fun word => afterWord? word (name ++ (gap ++ rest)) with
  | none =>
    have hnone := List.findSome?_eq_none_iff.1 hfind word hw
    rw [afterWord?_eq hn hg hne] at hnone
    exact absurd hnone (by simp)
  | some body =>
    obtain ⟨found, hfound, hbody⟩ := List.exists_of_findSome?_eq_some hfind
    obtain ⟨-, hrest⟩ := eq_of_afterWord? (isKeyword_accessLevels found hfound) hjoins
      (hg.not_word hne rest) hbody
    rw [hrest, skipBlanks_append hg]
    rfl

/-- The words that begin a declaration. -/
def IsIntroducer (cs : List Char) : Prop :=
  cs = "let".toList ∨ cs = "var".toList

/-- The words that begin a declaration are no access levels. -/
lemma IsIntroducer.ne_accessLevel {cs : List Char} (h : IsIntroducer cs) :
    ∀ word ∈ accessLevels, cs ≠ word.toList := by
  rcases h with rfl | rfl <;> decide

/-- The words that begin a declaration go on with names. -/
lemma IsIntroducer.joins {cs : List Char} (h : IsIntroducer cs) :
    ∀ c ∈ cs, joinsName c = true := by
  rw [← List.all_eq_true]
  rcases h with rfl | rfl <;> decide

/-- Another word is not passed over. -/
lemma afterWords?_of_ne (hn : ∀ c ∈ name.chars, joinsName c = true)
    (hr : ∀ c ∈ first? rest, Text.isWord c = false) (hi : ¬IsIntroducer name.chars) :
    (afterWord? "let" (name ++ rest)).or (afterWord? "var" (name ++ rest)) = none := by
  rw [IsIntroducer, not_or] at hi
  have hword {word : String} (hk : IsKeyword word) (hw : name.chars ≠ word.toList) :
      afterWord? word (name ++ rest) = none := by
    rw [Option.eq_none_iff_forall_ne_some]
    intro body h
    exact hw (eq_of_afterWord? hk hn hr h).1
  rw [hword isKeyword_let hi.1, hword isKeyword_var hi.2]
  rfl

/-- The word that begins a declaration is passed over. -/
lemma afterWords?_eq {gap : Fragment} (hi : IsIntroducer name.chars) (hg : AllBlank gap)
    (hne : gap ≠ []) :
    (afterWord? "let" (name ++ (gap ++ rest))).or (afterWord? "var" (name ++ (gap ++ rest))) =
      some (skipBlanks rest) := by
  rcases hi with hi | hi
  · rw [afterWord?_eq hi hg hne]
    rfl
  · have hlet : afterWord? "let" (name ++ (gap ++ rest)) = none := by
      rw [Option.eq_none_iff_forall_ne_some]
      intro body hbody
      have heq :=
        (eq_of_afterWord? isKeyword_let (IsIntroducer.joins (.inr hi)) (hg.not_word hne _) hbody).1
      rw [hi] at heq
      exact absurd heq (by decide)
    rw [hlet, afterWord?_eq hi hg hne]
    rfl

/-- Whether a declaration may begin with a word. -/
def BeginsDeclaration (cs : List Char) : Prop :=
  IsIntroducer cs ∨ ∃ word ∈ accessLevels, cs = word.toList

/-- A name that begins no declaration declares nothing. -/
lemma declaration?_of_ne (hne : name ≠ []) (hn : ∀ c ∈ name.chars, joinsName c = true)
    (hr : ∀ c ∈ first? rest, Text.isWord c = false) (hb : ¬BeginsDeclaration name.chars) :
    declaration? (name ++ rest) = none := by
  rw [BeginsDeclaration, not_or] at hb
  rw [declaration?, afterAttributes_name hne hn,
    afterAccessLevel_of_ne hn hr fun word hw heq => hb.2 ⟨word, hw, heq⟩,
      afterWords?_of_ne hn hr hb.1]
  rfl

/-- The head of a declaration, from the word that begins it to its name. -/
lemma declaration?_eq {introducer gap : Fragment}
    (hhead : afterAccessLevel (afterAttributes (afterIndent f)) = introducer ++
      (gap ++ (name ++ rest)))
    (hi : IsIntroducer introducer.chars) (hg : AllBlank gap) (hne : gap ≠ [])
    (hs : (name.chars.head?.any Text.isNameStart) = true)
    (hw : ∀ c ∈ name.chars, Text.isWord c = true)
    (hr : ∀ c ∈ first? rest, Text.isWord c = false) :
    declaration? f = (afterEquals? rest).map fun x => ⟨String.ofList name.chars, x.1, x.2⟩ := by
  have hskip : skipBlanks (name ++ rest) = name ++ rest := by
    cases name with
    | nil => simp [chars] at hs
    | cons g name =>
      exact skipBlanks_of_first rfl
        (isBlank_of_joinsName (joinsName_of_isWord (hw _ (by simp [chars]))))
  have hlen := identifierLength_append hs hw hr
  have hpos : name.length ≠ 0 := by
    intro h
    obtain rfl := List.length_eq_zero_iff.1 h
    simp [chars] at hs
  rw [declaration?, hhead, afterWords?_eq hi hg hne, hskip]
  simp only [Option.bind_some, hlen, hpos, if_false, List.drop_left, List.take_left]

/-- An equals sign without a type annotation. -/
lemma afterEquals?_eq {gap : Fragment} {sign : Glyph} (hg : AllBlank gap)
    (hsign : sign.skeleton = '=') (hr : Avoids '=' rest) :
    afterEquals? (gap ++ sign :: rest) = some (none, rest) := by
  have hskip : skipBlanks (gap ++ sign :: rest) = sign :: rest := by
    rw [skipBlanks_append hg]
    exact skipBlanks_of_first (c := '=') (by simp [first?, hsign]) (by decide)
  have hnext : (first? rest != some '=') = true := by
    rw [bne_iff_ne]
    exact fun h => hr _ h rfl
  have hfirst : first? (sign :: rest) = some '=' := by simp [first?, hsign]
  simp only [afterEquals?, hskip, hfirst, afterSign?, List.drop_succ_cons, List.drop_zero, hnext]
  rfl

/-- An equals sign after a type annotation. -/
lemma afterEquals?_type {before text gap : Fragment} {colon sign : Glyph} (hb : AllBlank before)
    (hcolon : colon.skeleton = ':') (htext : '=' ∉ text.chars) (hg : AllBlank gap)
    (htype : isTypeText (text.chars ++ gap.chars) = true) (hsign : sign.skeleton = '=')
    (hr : Avoids '=' rest) :
    afterEquals? (before ++ colon :: (text ++ (gap ++ sign :: rest))) =
      some (some (String.ofList (text.chars ++ gap.chars)), rest) := by
  have hskip : skipBlanks (before ++ colon :: (text ++ (gap ++ sign :: rest))) =
      colon :: (text ++ (gap ++ sign :: rest)) := by
    rw [skipBlanks_append hb]
    exact skipBlanks_of_first (c := ':') (by simp [first?, hcolon]) rfl
  have hnot : ∀ c ∈ text.chars ++ gap.chars, (c != '=') = true := by
    intro c hc
    rw [bne_iff_ne]
    rintro rfl
    rcases List.mem_append.1 hc with hc | hc
    · exact htext hc
    · exact absurd (hg '=' hc) (by decide)
  have hchars : (chars (colon :: (text ++ (gap ++ sign :: rest)))).drop 1 =
      text.chars ++ gap.chars ++ '=' :: rest.chars := by
    simp [chars, hsign]
  have htake : ((chars (colon :: (text ++ (gap ++ sign :: rest)))).drop 1).takeWhile (· != '=') =
      text.chars ++ gap.chars := by
    rw [hchars, List.takeWhile_append_of_pos hnot]
    simp
  have hlen : (text.chars ++ gap.chars).length + 1 = (colon :: (text ++ gap)).length := by simp
  have hdrop : (colon :: (text ++ (gap ++ sign :: rest))).drop
      ((text.chars ++ gap.chars).length + 1) =
      sign :: rest := by
    rw [hlen, List.length_cons, List.drop_succ_cons, ← List.append_assoc, List.drop_left]
  have hnext : (first? rest != some '=') = true := by
    rw [bne_iff_ne]
    exact fun h => hr _ h rfl
  have hfirst : first? (colon :: (text ++ (gap ++ sign :: rest))) = some ':' := by
    simp [first?, hcolon]
  have hequals : first? (sign :: rest) = some '=' := by simp [first?, hsign]
  simp only [afterEquals?, hskip, hfirst, htake, htype, hdrop, afterSign?, hequals,
    List.drop_succ_cons, List.drop_zero, hnext]
  rfl

/-! ### The search -/

/-- There are no constants at the end. -/
lemma constants_nil (atStart : Bool) : constants atStart [] = [] := by
  rw [constants]

/-- Where no declaration begins, the search goes on behind the next character. -/
lemma constants_cons {atStart : Bool} (g : Glyph)
    (h : atStart = true → declaration? (g :: f) = none) :
    constants atStart (g :: f) = constants (g.skeleton == '\n') f := by
  have hnone : (if atStart then declaration? (g :: f) else none) = none := by
    cases atStart with
    | true => exact h rfl
    | false => rfl
  rw [constants]
  split
  · rfl
  · rename_i heq
    simp [hnone] at heq

/-- What a declaration contributes. -/
lemma constants_of_declaration {g : Glyph} {d : Declaration} (h : declaration? (g :: f) = some d) :
    constants true (g :: f) =
      (if g.depth = 0 then [⟨d.name, term (value 0 false d.rest), d.typeText.bind elementType?⟩]
        else []) ++ constants false d.rest := by
  rw [constants]
  split
  · rename_i heq
    simp [h] at heq
  · rename_i d' heq
    obtain rfl : d = d' := by simpa [h] using heq
    split <;> rfl

/-- The search goes on after a text on one line. -/
lemma constants_line (hne : a ≠ []) (ha : '\n' ∉ a.chars) (atStart : Bool)
    (h : atStart = true → declaration? (a ++ rest) = none) :
    constants atStart (a ++ rest) = constants false rest := by
  induction a generalizing atStart with
  | nil => exact absurd rfl hne
  | cons g a ih =>
    have hg : (g.skeleton == '\n') = false := by
      rw [beq_eq_false_iff_ne]
      rintro heq
      exact ha (by simp [chars, heq])
    rw [List.cons_append] at h ⊢
    rw [constants_cons g h, hg]
    cases a with
    | nil => rfl
    | cons e a =>
      exact ih (by simp) (fun hn => ha (List.mem_cons_of_mem _ hn)) false (by simp)

/-- A declaration after space is found, or nothing is. -/
lemma mem_constants_gap {gap : Fragment} {d : Declaration} (hg : AllBlank gap)
    (hd : declaration? rest = some d) (hbody : constants false d.rest = [])
    (hnone : constants false rest = []) {atStart : Bool} {c : Constant}
    (hc : c ∈ constants atStart (gap ++ rest)) :
    c.name = d.name ∧ c.elementType = d.typeText.bind elementType? := by
  have hdeclared {g : Glyph} {f : Fragment} (h : declaration? (g :: f) = some d)
      (hc : c ∈ constants true (g :: f)) :
      c.name = d.name ∧ c.elementType = d.typeText.bind elementType? := by
    rw [constants_of_declaration h, hbody, List.append_nil] at hc
    split at hc
    · obtain rfl := List.mem_singleton.1 hc
      exact ⟨rfl, rfl⟩
    · simp at hc
  induction gap generalizing atStart with
  | nil =>
    rw [List.nil_append] at hc
    cases atStart with
    | false => simp [hnone] at hc
    | true =>
      cases rest with
      | nil => simp [constants_nil] at hc
      | cons g f => exact hdeclared hd hc
  | cons g gap ih =>
    have hor := declaration?_gap_or hg rest
    rw [List.cons_append] at hc hor
    rcases hor with heq | heq
    · cases atStart with
      | true => exact hdeclared (heq.trans hd) hc
      | false =>
        rw [constants_cons g (by simp)] at hc
        exact ih (fun c hc => hg c (List.mem_cons_of_mem _ hc)) hc
    · rw [constants_cons g fun _ => heq] at hc
      exact ih (fun c hc => hg c (List.mem_cons_of_mem _ hc)) hc

/-- The search passes over space. -/
lemma constants_gap {gap : Fragment} (hg : AllBlank gap) (h : declaration? rest = none)
    (atStart : Bool) :
    ∃ atStart', constants atStart (gap ++ rest) = constants atStart' rest := by
  induction gap generalizing atStart with
  | nil => exact ⟨atStart, rfl⟩
  | cons g gap ih =>
    have htail : AllBlank gap := fun c hc => hg c (List.mem_cons_of_mem _ hc)
    obtain ⟨b, hb⟩ := ih htail (g.skeleton == '\n')
    refine ⟨b, ?_⟩
    have hnone : declaration? (g :: (gap ++ rest)) = none := by
      have hgap := declaration?_gap hg h
      exact hgap
    rw [List.cons_append, constants_cons g fun _ => hnone, hb]

/-- The search passes over space in front of a declaration that is found behind its place too. -/
lemma constants_gap_of_found {gap : Fragment} {d : Declaration} (hg : AllBlank gap)
    (hgap : ∀ g ∈ gap, g.depth = 0) (hrest : ∀ g ∈ rest.head?, g.depth = 0)
    (hd : declaration? rest = some d) (hfound : constants false rest =
      ⟨d.name, term (value 0 false d.rest), d.typeText.bind elementType?⟩ ::
        constants false d.rest)
    (atStart : Bool) : constants atStart (gap ++ rest) = constants false rest := by
  have hhere {g : Glyph} {f : Fragment} (h : declaration? (g :: f) = some d)
      (hdepth : g.depth = 0) :
      constants true (g :: f) = constants false rest := by
    rw [constants_of_declaration h, if_pos hdepth, hfound]
    rfl
  induction gap generalizing atStart with
  | nil =>
    cases atStart with
    | false => rfl
    | true =>
      cases rest with
      | nil => simp [declaration?_nil] at hd
      | cons g f => exact hhere hd (hrest g rfl)
  | cons g gap ih =>
    have hpass := ih (fun c hc => hg c (List.mem_cons_of_mem _ hc)) fun e he =>
      hgap e (List.mem_cons_of_mem _ he)
    have hor := declaration?_gap_or hg rest
    rw [List.cons_append] at hor ⊢
    rcases hor with heq | heq
    · cases atStart with
      | true => exact hhere (heq.trans hd) (hgap g List.mem_cons_self)
      | false => rw [constants_cons g (by simp), hpass]
    · rw [constants_cons g fun _ => heq, hpass]

/-- The search passes over a sign. -/
lemma constants_sign (g : Glyph) (hg : g.skeleton ∈ signs) (hat : g.skeleton ≠ '@')
    (hline : g.skeleton ≠ '\n') (atStart : Bool) :
    constants atStart (g :: f) = constants false f := by
  have hne : (g.skeleton == '\n') = false := by simpa using hline
  rw [constants_cons g fun _ => declaration?_sign g hg hat, hne]

/-- The search goes on at the start of the next line. -/
lemma constants_nextLine {gap : Fragment} {g : Glyph} (hg : AllBlank gap)
    (hline : g.skeleton = '\n') (atStart : Bool) (rest : Fragment) :
    constants atStart (gap ++ g :: rest) = constants true rest := by
  have hnone : declaration? (g :: rest) = none :=
    declaration?_sign g (by rw [hline]; decide) (by rw [hline]; decide)
  induction gap generalizing atStart with
  | nil =>
    rw [List.nil_append, constants_cons g fun _ => hnone, hline]
    rfl
  | cons e gap ih =>
    have hgap := declaration?_gap hg hnone
    rw [List.cons_append] at hgap ⊢
    rw [constants_cons e fun _ => hgap, ih fun c hc => hg c (List.mem_cons_of_mem _ hc)]

/-- A declaration is found behind the spaces and tabs that indent it. -/
lemma constants_indent {indent : Fragment} {d : Declaration}
    (hi : ∀ c ∈ indent.chars, IsIndent c) (hd : declaration? rest = some d)
    (hdepth : ∀ g ∈ (indent ++ rest).head?, g.depth = 0) :
    constants true (indent ++ rest) =
      ⟨d.name, term (value 0 false d.rest), d.typeText.bind elementType?⟩ ::
        constants false d.rest := by
  have hfound : declaration? (indent ++ rest) = some d := by rw [declaration?_indent hi, hd]
  cases hf : indent ++ rest with
  | nil =>
    rw [hf, declaration?_nil] at hfound
    exact absurd hfound (by simp)
  | cons g f =>
    rw [hf] at hfound hdepth
    rw [constants_of_declaration hfound, if_pos (hdepth g rfl)]
    rfl

/-- Whether what is in front of something lets it start a line, the text itself starting a line or
not. -/
def StartsLine (atStart : Bool) (cs : List Char) : Prop :=
  (atStart = true ∧ ∀ c ∈ cs, IsIndent c) ∨
    ∃ a b, cs = a ++ '\n' :: b ∧ ∀ c ∈ b, IsIndent c

/-- A declaration that starts a line is found. -/
lemma constants_startsLine {gap : Fragment} {d : Declaration} {atStart : Bool} (hg : AllBlank gap)
    (hs : StartsLine atStart gap.chars) (hd : declaration? rest = some d)
    (hgap : ∀ g ∈ gap, g.depth = 0) (hrest : ∀ g ∈ rest.head?, g.depth = 0) :
    constants atStart (gap ++ rest) =
      ⟨d.name, term (value 0 false d.rest), d.typeText.bind elementType?⟩ ::
        constants false d.rest := by
  have hhead (indent : Fragment) (hindent : ∀ g ∈ indent, g.depth = 0) :
      ∀ g ∈ (indent ++ rest).head?, g.depth = 0 := by
    cases indent with
    | nil => exact hrest
    | cons g indent =>
      rintro e ⟨⟩
      exact hindent _ List.mem_cons_self
  rcases hs with ⟨rfl, hi⟩ | ⟨a, b, hsplit, hi⟩
  · exact constants_indent hi hd (hhead gap hgap)
  · obtain ⟨front, tail, rfl, rfl, htail⟩ := List.map_eq_append_iff.1 hsplit
    obtain ⟨g, indent, rfl, hline, rfl⟩ := List.map_eq_cons_iff.1 htail
    have hfront : AllBlank front := fun c hc => hg c (by
      rw [chars_append]
      exact List.mem_append_left _ hc)
    rw [List.append_assoc, List.cons_append, constants_nextLine hfront hline]
    exact constants_indent hi hd (hhead indent fun e he =>
      hgap e (List.mem_append_right _ (List.mem_cons_of_mem _ he)))

/-! ### The value of a declaration -/

/-- Once the value has begun, it goes on over whatever is balanced. Outside brackets there must be
no line feed and no semicolon. -/
lemma value_of_balanced {p : Char → Prop} {cs : List Char} (h : Balanced p cs) {level : Int}
    (hlevel : 0 ≤ level) (hp : level = 0 → ∀ c, p c → c ≠ ';' ∧ c ≠ '\n')
    (ha : a.chars = cs) (rest : Fragment) :
    value level true (a ++ rest) = a ++ value level true rest := by
  induction h generalizing level a rest with
  | nil =>
    obtain rfl := List.map_eq_nil_iff.1 ha
    rfl
  | @plain p c cs opens closes holds _ ih =>
    obtain ⟨g, a, rfl, rfl, htail⟩ := List.map_eq_cons_iff.1 ha
    have hsemicolon : (level == 0 && g.skeleton == ';') = false := by
      by_cases hzero : level = 0 <;> simp [hzero, (hp · _ holds)]
    have hline : (level == 0 && g.skeleton == '\n') = false := by
      by_cases hzero : level = 0 <;> simp [hzero, (hp · _ holds)]
    have hafter : levelAfter level g.skeleton = level := levelAfter_plain level opens closes
    rw [List.cons_append, value]
    simp only [closes, hsemicolon, hline, hafter, Bool.false_and, Bool.true_or, Bool.false_eq_true,
      if_false, ih hlevel hp htail, List.cons_append]
  | @group p o c inner cs opens closes _ _ ihinside ih =>
    obtain ⟨g, tail, rfl, rfl, htail⟩ := List.map_eq_cons_iff.1 ha
    obtain ⟨b, tail, rfl, hb, htail⟩ := List.map_eq_append_iff.1 htail
    obtain ⟨e, a, rfl, rfl, hlast⟩ := List.map_eq_cons_iff.1 htail
    have hopen : isCloser g.skeleton = false := isCloser_of_isOpener opens
    have hne : g.skeleton ≠ ';' ∧ g.skeleton ≠ '\n' := by
      refine ⟨?_, ?_⟩ <;> intro heq <;> rw [heq] at opens <;> exact absurd opens (by decide)
    have hback : levelAfter (level + 1) e.skeleton = level := by
      rw [levelAfter_closer _ closes]
      omega
    have hnonzero : (level + 1 == 0) = false := by
      rw [beq_eq_false_iff_ne]
      omega
    have hinside := ihinside (show 0 ≤ level + 1 by omega) (by omega) hb (e :: (a ++ rest))
    have hclose : value (level + 1) true (e :: (a ++ rest)) =
        e :: value level true (a ++ rest) := by
      rw [value]
      simp [hback, hnonzero, closes, Int.not_lt.2 hlevel]
    have hstart : value level true (g :: (b ++ e :: (a ++ rest))) =
        g :: value (level + 1) true (b ++ e :: (a ++ rest)) := by
      rw [value]
      simp [hopen, hne.1, hne.2, levelAfter_opener level opens]
    rw [List.cons_append, List.append_assoc, List.cons_append, hstart, hinside, hclose,
      ih hlevel hp hlast, List.cons_append, List.append_assoc, List.cons_append]

/-- A blank is no semicolon. -/
lemma ne_semicolon_of_isBlank {c : Char} (h : Text.isBlank c = true) : c ≠ ';' := by
  rintro rfl
  exact absurd h (by decide)

/-- Before the value has begun, blanks are passed over. -/
lemma value_gap {gap : Fragment} (hg : AllBlank gap) (rest : Fragment) :
    value 0 false (gap ++ rest) = gap ++ value 0 false rest := by
  induction gap with
  | nil => rfl
  | cons g gap ih =>
    have hblank : Text.isBlank g.skeleton = true := hg.isBlank g List.mem_cons_self
    have hsemicolon := ne_semicolon_of_isBlank hblank
    rw [List.cons_append, value]
    simp [isCloser_of_isBlank hblank, hsemicolon, Glyph.isBlank, hblank,
      levelAfter_plain 0 (isOpener_of_isBlank hblank) (isCloser_of_isBlank hblank),
      ih fun c hc => hg c (List.mem_cons_of_mem _ hc)]

/-- What is not blank begins the value. -/
lemma value_begin {g : Glyph} (hg : g.isBlank = false) (rest : Fragment) :
    value 0 false (g :: rest) = value 0 true (g :: rest) := by
  have hline : g.skeleton ≠ '\n' := by
    intro heq
    rw [Glyph.isBlank, heq] at hg
    exact absurd hg (by decide)
  rw [value, value]
  simp [hg, hline]

/-- The value ends with its line, if the next line does not go on with it. -/
lemma value_end {gap : Fragment} (hg : AllBlank gap)
    (hline : rest = [] ∨ '\n' ∈ gap.chars ∧
      ∀ c ∈ first? (skipBlanks rest), continuesValue c = false) :
    AllBlank (value 0 true (gap ++ rest)) := by
  induction gap with
  | nil =>
    obtain rfl : rest = [] := by simpa [chars] using hline
    exact allBlank_nil
  | cons g gap ih =>
    have htail : AllBlank gap := fun c hc => hg c (List.mem_cons_of_mem _ hc)
    have hblank : Text.isBlank g.skeleton = true := hg.isBlank g List.mem_cons_self
    have hsemicolon := ne_semicolon_of_isBlank hblank
    have hplain := levelAfter_plain 0 (isOpener_of_isBlank hblank) (isCloser_of_isBlank hblank)
    rw [List.cons_append, value]
    simp only [isCloser_of_isBlank hblank, hplain, Bool.false_and, Bool.false_eq_true, if_false,
      beq_self_eq_true, Bool.true_and, Bool.true_or, Bool.and_true, beq_iff_eq, hsemicolon]
    split <;> rename_i hnewline
    · exact allBlank_nil
    · have hrest : AllBlank (value 0 true (gap ++ rest)) := by
        refine ih htail (hline.imp_right fun hends => ⟨?_, hends.2⟩)
        refine (List.mem_cons.1 hends.1).resolve_left fun heq => hnewline ?_
        have hskip : skipBlanks (gap ++ rest) = skipBlanks rest := skipBlanks_append htail
        have hstop : (first? (skipBlanks rest)).any continuesValue = false := by
          cases hfirst : first? (skipBlanks rest) with
          | none => rfl
          | some c => exact hends.2 c hfirst
        have hnewline : g.skeleton = '\n' := heq.symm
        rw [hskip, hstop, hnewline]
        rfl
      intro c hc
      rcases List.mem_cons.1 hc with rfl | hc
      · exact hblank
      · exact hrest c hc

end Source.Fragment

/-! ### Expressions -/

/-- No declaration begins where an item ends. -/
lemma EndsEntry.declaration? {f : Fragment} (h : EndsEntry f) : declaration? f = none := by
  obtain ⟨c, hc, hsign, hat, hblank⟩ := h.first
  refine declaration?_of_first hc ?_ ⟨isWord_of_mem_signs hsign, hat⟩
  rintro (rfl | rfl) <;> exact absurd hblank (by decide)

variable {labelled : Bool}

/-- No declaration begins with an expression, unless the expression is a word and another word
follows. -/
lemma Written.declaration?_append (w : Written) (line depth : Nat) {rest : Fragment}
    (hs : ∀ v, w = .word v → Stops rest) :
    declaration? (glyphsFrom line depth w.lexemes ++ rest) = none := by
  have hsign {c : Char} (h : c ∈ (skeletonOf w.lexemes).head?) (hc : c ∈ signs)
      (hat : c ≠ '@')
      (hb : Text.isBlank c = false) :
      declaration? (glyphsFrom line depth w.lexemes ++ rest) = none := by
    refine declaration?_of_first (c := c) ?_ ?_ ⟨isWord_of_mem_signs hc, hat⟩
    · rw [first?_eq, chars_append, chars_glyphsFrom, List.head?_append, Option.mem_def.1 h]
      rfl
    · rintro (rfl | rfl) <;> exact absurd hb (by decide)
  cases w with
  | literal text h =>
    obtain ⟨c, d, n, hc, -, heq⟩ := h.blankInside
    refine hsign (c := c) (by simp [Written.lexemes, Lexeme.skeleton, heq]) ?_ ?_ hc.isBlank
    all_goals rcases hc with rfl | rfl <;> decide
  | word v =>
    exact declaration?_name (v.glyphsFrom_ne_nil line depth)
      (by simpa [Written.lexemes] using v.joins) (hs v rfl)
  | array items =>
    exact hsign (c := '[') (by simp [Written.lexemes, Lexeme.skeleton]) (by decide) (by decide) rfl
  | call callee gap arguments =>
    rw [glyphsFrom_call, List.append_assoc, List.append_assoc]
    refine declaration?_name (callee.glyphsFrom_ne_nil line depth) (by simpa using callee.joins) ?_
    exact .append (allBlank_gap _ _ _) (stops_of_sign (c := '(') rfl (by decide) rfl)

/-- There are no constants in a word. -/
lemma Word.constants_append (w : Word) (line depth : Nat) {rest : Fragment} {atStart : Bool}
    (hs : atStart = true → Stops rest) :
    constants atStart (glyphsFrom line depth w.lexemes ++ rest) = constants false rest := by
  refine constants_line (w.glyphsFrom_ne_nil line depth) ?_ atStart fun hstart => ?_
  · rw [chars_glyphsFrom, Word.skeletonOf_lexemes]
    exact fun h => not_mem_signs (w.joins _ h) (by decide)
  · exact declaration?_name (w.glyphsFrom_ne_nil line depth) (by simpa using w.joins) (hs hstart)

/-- A label declares nothing. -/
lemma Label.declaration?_append (l : Label) (line depth : Nat) (rest : Fragment) :
    declaration? (glyphsFrom line depth (Label.lexemes (some l)) ++ rest) = none := by
  rw [glyphsFrom_label, List.append_assoc, List.append_assoc]
  exact declaration?_name (l.name.toWord.glyphsFrom_ne_nil line depth)
    (by simpa using l.name.toWord.joins)
    (.append (allBlank_gap _ _ _) (stops_of_sign (c := ':') rfl (by decide) rfl))

/-- There are no constants in a label. -/
lemma Label.constants_append (l : Label) (line depth : Nat) (atStart : Bool) {rest : Fragment}
    (hr : declaration? rest = none) :
    ∃ atStart', constants atStart (glyphsFrom line depth (Label.lexemes (some l)) ++ rest) =
      constants atStart' rest := by
  obtain ⟨b, hb⟩ := constants_gap (allBlank_gap line depth l.before)
    (declaration?_sign
      (f := glyphsFrom (line + newlines l.before.lexemes) depth l.after.lexemes ++ rest)
      ⟨':', ':', line + newlines l.before.lexemes, depth, 0⟩ (by simp [signs]) (by simp)) false
  obtain ⟨c, hc⟩ :=
    constants_gap (allBlank_gap (line + newlines l.before.lexemes) depth l.after) hr false
  refine ⟨c, ?_⟩
  rw [glyphsFrom_label, List.append_assoc, List.append_assoc,
    Word.constants_append _ _ _ fun _ =>
      .append (allBlank_gap _ _ _) (stops_of_sign (c := ':') rfl (by decide) rfl),
    List.cons_append, hb, constants_sign _ (by simp [signs]) (by simp) (by simp), hc]

mutual

/-- The search for declarations passes over an expression. -/
theorem Written.constants_append : (w : Written) → ∀ (line depth : Nat) (atStart : Bool)
    {rest : Fragment}, (∀ v, w = .word v → atStart = true → Stops rest) →
    constants atStart (glyphsFrom line depth w.lexemes ++ rest) = constants false rest
  | .literal text h, line, depth, atStart, rest, hs => by
    refine constants_line ?_ ?_ atStart fun _ =>
      (Written.literal text h).declaration?_append line depth (by simp)
    · obtain ⟨c, hc, -⟩ := (Written.literal text h).first
      intro hnil
      rw [← chars_glyphsFrom line depth, hnil] at hc
      simp [chars] at hc
    · rw [chars_glyphsFrom]
      exact List.count_eq_zero.1 (newlines_literal h)
  | .word w, line, depth, atStart, rest, hs => w.constants_append line depth (hs w rfl)
  | .array items, line, depth, atStart, rest, hs => by
    have hend : EndsEntry (⟨']', ']', line + newlines items.lexemes, depth + 1, 0⟩ :: rest) :=
      ⟨']', rfl, .inr (.inr rfl)⟩
    obtain ⟨b, hb⟩ := items.constants_append line (depth + 1) false hend
    rw [glyphsFrom_array, List.cons_append, List.append_assoc, constants_sign _ (by simp [signs])
      (by simp) (by simp), List.singleton_append, hb,
      constants_sign _ (by simp [signs]) (by simp) (by simp)]
  | .call callee gap arguments, line, depth, atStart, rest, hs => by
    have hend : EndsEntry (⟨')', ')', line + newlines gap.lexemes + newlines arguments.lexemes,
        depth + 1, 0⟩ :: rest) := ⟨')', rfl, .inr (.inl rfl)⟩
    obtain ⟨b, hb⟩ := arguments.constants_append (line + newlines gap.lexemes)
      (depth + 1) false hend
    rw [glyphsFrom_call, List.append_assoc, List.append_assoc,
      Word.constants_append _ _ _ fun _ =>
        .append (allBlank_gap _ _ _) (stops_of_sign (c := '(') rfl (by decide) rfl)]
    obtain ⟨c, hc⟩ := constants_gap (allBlank_gap line depth gap)
      (declaration?_sign
        (f := glyphsFrom (line + newlines gap.lexemes) (depth + 1) arguments.lexemes ++
          [⟨')', ')', line + newlines gap.lexemes + newlines arguments.lexemes, depth + 1, 0⟩] ++
          rest)
        ⟨'(', '(', line + newlines gap.lexemes, depth, 0⟩ (by simp [signs]) (by simp)) false
    rw [List.cons_append, hc, List.append_assoc, constants_sign _ (by simp [signs]) (by simp)
      (by simp), List.singleton_append, hb, constants_sign _ (by simp [signs]) (by simp) (by simp)]

/-- There are no constants in an item, whose value is an expression. -/
theorem Entry.constants_append {labelled : Bool} : (e : Entry labelled) → ∀ (line depth : Nat)
    (atStart : Bool) {rest : Fragment}, EndsEntry rest →
    ∃ atStart', constants atStart (glyphsFrom line depth e.lexemes ++ rest) =
      constants atStart' rest
  | .mk before label value after h, line, depth, atStart, rest, hr => by
    have hafter := allBlank_gap (line + newlines before.lexemes + newlines (Label.lexemes label) +
      newlines value.lexemes) depth after
    have hvalue {b : Bool} := value.constants_append
      (line + newlines before.lexemes + newlines (Label.lexemes label)) depth b
      fun _ _ _ => .append hafter hr.stops
    have hnone := value.declaration?_append
      (line + newlines before.lexemes + newlines (Label.lexemes label)) depth
      fun _ _ => .append hafter hr.stops
    obtain ⟨last, hlast⟩ := constants_gap hafter hr.declaration? false
    refine ⟨last, ?_⟩
    rw [glyphsFrom_entry, List.append_assoc, List.append_assoc, List.append_assoc]
    cases label with
    | none =>
      simp only [Label.lexemes, newlines_nil, Nat.add_zero, glyphsFrom_nil, List.nil_append]
        at hvalue hnone hlast ⊢
      obtain ⟨b, hb⟩ := constants_gap (allBlank_gap line depth before) hnone atStart
      rw [hb, hvalue, hlast]
    | some l =>
      have hlabel {b : Bool} := l.constants_append (line + newlines before.lexemes) depth b hnone
      obtain ⟨b, hb⟩ := constants_gap (allBlank_gap line depth before)
        (l.declaration?_append (line + newlines before.lexemes) depth _) atStart
      rw [hb]
      obtain ⟨c, hc⟩ := hlabel
      rw [hc, hvalue, hlast]

/-- There are no constants in a row. -/
theorem Row.constants_append {labelled : Bool} : (r : Row labelled) → ∀ (line depth : Nat)
    (atStart : Bool) {rest : Fragment}, EndsEntry rest →
    ∃ atStart', constants atStart (glyphsFrom line depth r.lexemes ++ rest) =
      constants atStart' rest
  | .empty gap, line, depth, atStart, rest, hr =>
    constants_gap (allBlank_gap line depth gap) hr.declaration? atStart
  | .last entry, line, depth, atStart, rest, hr => entry.constants_append line depth atStart hr
  | .more entry tail, line, depth, atStart, rest, hr => by
    have hend : EndsEntry (⟨',', ',', line + newlines entry.lexemes, depth, 0⟩ ::
        (glyphsFrom (line + newlines entry.lexemes) depth tail.lexemes ++ rest)) :=
      ⟨',', rfl, .inl rfl⟩
    obtain ⟨b, hb⟩ := entry.constants_append line depth atStart hend
    obtain ⟨c, hc⟩ := tail.constants_append (line + newlines entry.lexemes) depth false hr
    refine ⟨c, ?_⟩
    rw [glyphsFrom_more, List.append_assoc, List.cons_append, hb,
      constants_sign _ (by simp [signs]) (by simp) (by simp), hc]

end

end SwiftDependencies
