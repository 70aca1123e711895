import Mathlib.Tactic.Common
import SwiftDependencies.Proofs.Manifest.Headings

/-!
# Preambles of assignments

An assignment may begin with attributes, and there may be comments in the type that it is declared
with. So a `Preamble` is more than a `Heading`: any attributes without arguments, and as its type
any array with its brackets on one line.

What is recorded of the type is what the elements are called, without blanks and without the module
of manifest types; of elements whose type is no name nothing is recorded (`ElementType.recorded?`).
A preamble is read as a declaration of its name and this (`Preamble.declaration?_append`).
-/

namespace SwiftDependencies

open Source Source.Fragment

/-! ### Attributes -/

/-- An attribute without arguments, and the space after it. -/
structure Attribute where
  name : List Char
  after : Gap
  ne_nil : name ≠ []
  word : ∀ c ∈ name, Text.isWord c = true
  separates : after ≠ []

/-- The lexemes of an attribute. -/
def Attribute.lexemes (a : Attribute) : List Lexeme :=
  .code '@' :: (a.name.map .code ++ a.after.lexemes)

/-! ### Types of elements -/

/-- Something in the type of elements: space, or a character that shows. -/
inductive TypePart where
  | space (s : Space)
  | char (c : Char) (code : IsCode c) (solid : Text.isBlank c = false) (ne : c ≠ '=')

/-- The lexemes of a part of a type. -/
def TypePart.lexemes : TypePart → List Lexeme
  | .space s => s.lexemes
  | .char c _ _ _ => [.code c]

/-- The character that shows, if there is one. -/
def TypePart.char? : TypePart → Option Char
  | .space _ => none
  | .char c _ _ _ => some c

/-- The type of the elements of an array. -/
structure ElementType where
  parts : List TypePart
  balanced : Balanced (fun _ => True) (skeletonOf (parts.flatMap TypePart.lexemes))

/-- A name without the module of manifest types in front of it. -/
def unqualified (cs : List Char) : List Char :=
  if manifestModule.isPrefixOf cs && isDottedName (cs.drop manifestModule.length) then
    cs.drop manifestModule.length
  else cs

namespace ElementType

variable (e : ElementType)

/-- The lexemes of the type of elements. -/
def lexemes : List Lexeme :=
  e.parts.flatMap TypePart.lexemes

/-- The characters of the type, without the space between them. -/
def chars : List Char :=
  e.parts.filterMap TypePart.char?

/-- What is recorded of the type of elements: a name without its module, and nothing else. -/
def recorded? : Option String :=
  if isDottedName e.chars then some (String.ofList (unqualified e.chars)) else none

end ElementType

/-- The clause of a type: a colon and an array of elements, with the space in front of each. The
brackets are on one line. -/
structure TypeClause where
  before : Gap
  after : Gap
  element : ElementType
  onLine : newlines element.lexemes = 0

namespace TypeClause

/-- The array after the colon, with the space in front of it. -/
def array (t : TypeClause) : List Lexeme :=
  t.after.lexemes ++ .code '[' :: (t.element.lexemes ++ [.code ']'])

/-- The lexemes of a clause, if there is one. -/
def lexemes : Option TypeClause → List Lexeme
  | none => []
  | some t => t.before.lexemes ++ .code ':' :: t.array

end TypeClause

/-! ### Preambles -/

/-- What is in front of the value of an assignment, up to the equals sign. -/
structure Preamble where
  attributes : List Attribute
  access : Option Access
  introducer : Word
  afterIntroducer : Gap
  name : Identifier
  type : Option TypeClause
  beforeSign : Gap
  introduces : IsIntroducer introducer.chars
  separates : afterIntroducer ≠ []

namespace Preamble

/-- The lexemes of a preamble, but for the sign at its end. -/
def front (p : Preamble) : List Lexeme :=
  p.attributes.flatMap Attribute.lexemes ++ (Access.lexemes p.access ++ (p.introducer.lexemes ++
    (p.afterIntroducer.lexemes ++ (p.name.toWord.lexemes ++
      (TypeClause.lexemes p.type ++ p.beforeSign.lexemes)))))

/-- The lexemes of a preamble. -/
def lexemes (p : Preamble) : List Lexeme :=
  p.front ++ [.code '=']

end Preamble

/-! ### What types are made of -/

/-- A text without its blanks. -/
def shown (cs : List Char) : List Char :=
  cs.filter fun c => !Text.isBlank c

/-- What shows of two texts is what shows of each. -/
@[simp] lemma shown_append (cs ds : List Char) : shown (cs ++ ds) = shown cs ++ shown ds :=
  List.filter_append cs ds

/-- A character that is not blank shows. -/
lemma shown_cons {c : Char} (hc : Text.isBlank c = false) (cs : List Char) :
    shown (c :: cs) = c :: shown cs :=
  List.filter_cons_of_pos (by simp [hc])

/-- Nothing shows of blanks. -/
lemma shown_of_blank {cs : List Char} (h : ∀ c ∈ cs, Text.isBlank c = true) :
    shown cs = [] := by
  rw [shown, List.filter_eq_nil_iff]
  intro c hc
  simp [h c hc]

/-- Two dotted names in a row are one. -/
lemma isDottedName_append {cs ds : List Char} (hcs : isDottedName cs = true)
    (hds : isDottedName ds = true) :
    isDottedName (cs ++ ds) = true := by
  cases cs with
  | nil => exact hds
  | cons c cs =>
    cases ds with
    | nil => rwa [List.append_nil]
    | cons d ds =>
      rw [isDottedName, Bool.and_eq_true] at hcs hds
      rw [List.cons_append, isDottedName, List.all_append, List.all_cons, hcs.1, hcs.2, hds.2,
        Text.isWord_of_isNameStart hds.1]
      rfl

/-- What is recorded of a text between square brackets. -/
lemma elementType?_of_shown {cs inner : List Char}
    (h : (shown cs).dropWhile (· == ':') = '[' :: (inner ++ [']'])) :
    elementType? (String.ofList cs) =
      if (manifestModule.isPrefixOf inner &&
          isDottedName (inner.drop manifestModule.length)) = true then
        some (String.ofList (inner.drop manifestModule.length))
      else if isDottedName inner = true then some (String.ofList inner) else none := by
  have hcompact :
      ((String.ofList cs).toList.filter fun c => !Text.isBlank c).dropWhile (· == ':') =
      '[' :: (inner ++ [']']) := by
    rw [String.toList_ofList]
    exact h
  have hinner : (('[' :: (inner ++ [']'])).drop 1).dropLast = inner := by simp
  have hbrackets : (['['].isPrefixOf ('[' :: (inner ++ [']'])) &&
      [']'].isSuffixOf ('[' :: (inner ++ [']']))) = true := by
    simp [List.isSuffixOf]
  rw [elementType?, hcompact]
  simp only [hinner, hbrackets, Bool.not_true, Bool.false_eq_true, if_false]

namespace ElementType

variable (e : ElementType)

/-- The type of elements is recovered from its text. -/
lemma scans : Scans e.lexemes := by
  rw [lexemes]
  induction e.parts with
  | nil => exact .nil
  | cons part parts ih =>
    refine Scans.append ?_ ih
    cases part with
    | space s =>
      have hspace := Gap.scans [s]
      rwa [Gap.lexemes_cons, Gap.lexemes, List.flatMap_nil, List.append_nil] at hspace
    | char c code solid ne => exact scans_code code

/-- What shows of a type. -/
lemma shown_lexemes : shown (skeletonOf e.lexemes) = e.chars := by
  rw [lexemes, chars]
  induction e.parts with
  | nil => rfl
  | cons part parts ih =>
    rw [List.flatMap_cons, skeletonOf_append, shown_append, ih]
    cases part with
    | space s =>
      have hspace := shown_of_blank (Gap.isBlank_of_mem [s])
      rw [Gap.lexemes_cons, Gap.lexemes, List.flatMap_nil, List.append_nil] at hspace
      rw [TypePart.lexemes, hspace]
      rfl
    | char c code solid ne =>
      rw [TypePart.lexemes, skeletonOf_cons, skeletonOf_nil, List.append_nil, Lexeme.skeleton,
        shown_cons solid]
      rfl

/-- There is no equals sign in a type. -/
lemma not_mem_equals : '=' ∉ skeletonOf e.lexemes := by
  intro hmem
  have hshown : '=' ∈ shown (skeletonOf e.lexemes) := List.mem_filter.2 ⟨hmem, by decide⟩
  rw [shown_lexemes, chars, List.mem_filterMap] at hshown
  obtain ⟨part, -, hpart⟩ := hshown
  cases part with
  | space s => exact absurd hpart (by simp [TypePart.char?])
  | char c code solid ne => exact ne (Option.some.inj hpart)

/-- What is recorded of a type in brackets. -/
lemma elementType?_eq {cs : List Char}
    (h : (shown cs).dropWhile (· == ':') = '[' :: (e.chars ++ [']'])) :
    elementType? (String.ofList cs) = e.recorded? := by
  rw [elementType?_of_shown h, recorded?, unqualified]
  by_cases hmodule : (manifestModule.isPrefixOf e.chars &&
      isDottedName (e.chars.drop manifestModule.length)) = true
  · have hname : isDottedName e.chars = true := by
      obtain ⟨hfront, hrest⟩ := Bool.and_eq_true_iff.1 hmodule
      obtain ⟨tail, htail⟩ := List.isPrefixOf_iff_prefix.1 hfront
      rw [← htail, List.drop_left] at hrest
      rw [← htail]
      exact isDottedName_append (by decide +kernel) hrest
    rw [if_pos hmodule, if_pos hmodule, if_pos hname]
  · rw [if_neg hmodule, if_neg hmodule]

end ElementType

/-! ### Attributes in front of a declaration -/

namespace Source.Fragment

variable {name gap rest : Fragment}

/-- An attribute is passed over with the space after it. -/
lemma afterAttributes_eq {mark : Glyph} (hmark : mark.skeleton = '@') (hne : name ≠ [])
    (hw : ∀ c ∈ name.chars, Text.isWord c = true) (hg : AllBlank gap) (hgap : gap ≠ []) :
    afterAttributes (mark :: (name ++ (gap ++ rest))) = afterAttributes (skipBlanks rest) := by
  have hdrop : (name ++ (gap ++ rest)).dropWhile (fun g => Text.isWord g.skeleton) =
      gap ++ rest := by
    rw [List.dropWhile_append_of_pos fun g hg => hw _ (List.mem_map_of_mem hg)]
    cases gap with
    | nil => exact absurd rfl hgap
    | cons g gap =>
      have hblank : Text.isWord g.skeleton = false :=
        isWord_of_isBlank (hg.isBlank g List.mem_cons_self)
      rw [List.cons_append, List.dropWhile_cons_of_neg (by simp [hblank])]
  have hshorter : (gap ++ rest).length < (name ++ (gap ++ rest)).length := by
    have := List.length_pos_iff.2 hne
    rw [@List.length_append _ name]
    omega
  have hblank : ((gap ++ rest).head?.any Glyph.isBlank) = true := by
    cases gap with
    | nil => exact absurd rfl hgap
    | cons g gap => exact hg.isBlank g List.mem_cons_self
  have hattribute : afterAttribute? (mark :: (name ++ (gap ++ rest))) = some (skipBlanks rest) := by
    simp only [afterAttribute?, List.drop_succ_cons, List.drop_zero, hdrop, hblank, hshorter]
    simp [first?, hmark, skipBlanks_append hg]
  rw [afterAttributes]
  split
  · rename_i heq
    rw [hattribute] at heq
    rw [Option.some.inj heq]
  · rename_i heq
    simp [hattribute] at heq

/-- Whether a declaration may begin with a character: that of a word, or of an attribute. -/
def BeginsOne (c : Char) : Prop :=
  Text.isWord c = true ∨ c = '@'

/-- No declaration begins with a blank. -/
lemma BeginsOne.isBlank {c : Char} (h : BeginsOne c) : Text.isBlank c = false := by
  rcases h with h | rfl
  · exact isBlank_of_joinsName (joinsName_of_isWord h)
  · rfl

/-- No preamble goes on with a value. -/
lemma BeginsOne.continuesValue {c : Char} (h : BeginsOne c) :
    Fragment.continuesValue c = false := by
  rcases h with h | rfl
  · have hne {d : Char} (hd : Text.isWord d = false) : (c == d) = false := by
      rw [beq_eq_false_iff_ne]
      rintro rfl
      rw [hd] at h
      exact absurd h (by decide)
    simp [Fragment.continuesValue, hne isWord_dot,
      hne (isWord_of_mem_signs (show '+' ∈ signs by decide)),
      hne (isWord_of_mem_signs (show '?' ∈ signs by decide)),
      hne (isWord_of_mem_signs (show ':' ∈ signs by decide))]
  · rfl

/-- Nothing is skipped in front of a declaration. -/
lemma skipBlanks_of_beginsOne (h : ∃ c ∈ first? rest, BeginsOne c) :
    skipBlanks rest = rest := by
  obtain ⟨c, hc, hbegins⟩ := h
  exact skipBlanks_of_first hc hbegins.isBlank

/-- No indentation is left in front of a declaration. -/
lemma afterIndent_of_beginsOne (h : ∃ c ∈ first? rest, BeginsOne c) :
    afterIndent rest = rest := by
  obtain ⟨c, hc, hbegins⟩ := h
  refine afterIndent_of_first ?_
  intro d hd hindent
  obtain rfl := Option.mem_unique hc hd
  have hblank := hbegins.isBlank
  rcases hindent with rfl | rfl <;> exact absurd hblank (by decide)

end Source.Fragment

/-- The glyphs of an attribute. -/
lemma Attribute.glyphsFrom_lexemes (a : Attribute) (line : Nat) (xs : List Lexeme) :
    ∃ l l', glyphsFrom line 0 (a.lexemes ++ xs) =
      ⟨'@', '@', line, 0, 0⟩ :: (glyphsFrom line 0 (a.name.map .code) ++
        (glyphsFrom l 0 a.after.lexemes ++ glyphsFrom l' 0 xs)) := by
  have hword : Balanced (fun _ => True) (skeletonOf (a.name.map .code)) := by
    rw [skeletonOf_codes]
    refine .of_forall ?_
    intro c hc
    have hjoins := joinsName_of_isWord (a.word c hc)
    exact ⟨isOpener_of_joinsName hjoins, isCloser_of_joinsName hjoins, trivial⟩
  refine ⟨line + newlines (a.name.map .code),
    line + newlines (a.name.map .code) + newlines a.after.lexemes, ?_⟩
  rw [Attribute.lexemes, List.cons_append, glyphsFrom_code, List.append_assoc,
    show depthAfter 0 '@' = 0 from rfl, show lineAfter line '@' = line from rfl,
    glyphsFrom_append_of_balanced hword, glyphsFrom_append_of_balanced (balanced_gap a.after)]

/-- Attributes are passed over. -/
lemma Attribute.afterAttributes_append (attributes : List Attribute) (line : Nat) (xs : List Lexeme)
    {rest : Fragment}
    (hrest : ∀ l, ∃ c ∈ first? (glyphsFrom l 0 xs ++ rest), Text.isWord c = true) :
    ∃ l, afterAttributes (afterIndent
        (glyphsFrom line 0 (attributes.flatMap Attribute.lexemes ++ xs) ++ rest)) =
      glyphsFrom l 0 xs ++ rest := by
  have hbegins (as : List Attribute) (l : Nat) :
      ∃ c ∈ first? (glyphsFrom l 0 (as.flatMap Attribute.lexemes ++ xs) ++ rest),
        BeginsOne c := by
    cases as with
    | nil =>
      obtain ⟨c, hc, hword⟩ := hrest l
      exact ⟨c, hc, .inl hword⟩
    | cons a as => exact ⟨'@', rfl, .inr rfl⟩
  rw [afterIndent_of_beginsOne (hbegins attributes line)]
  induction attributes generalizing line with
  | nil =>
    refine ⟨line, afterAttributes_of_first ?_⟩
    intro hat
    obtain ⟨c, hc, hword⟩ := hrest line
    obtain rfl := Option.mem_unique hc hat
    rw [isWord_of_mem_signs (by decide)] at hword
    exact absurd hword (by decide)
  | cons a as ih =>
    obtain ⟨l, l', hglyphs⟩ := a.glyphsFrom_lexemes line (as.flatMap Attribute.lexemes ++ xs)
    have hname : glyphsFrom line 0 (a.name.map .code) ≠ [] := by
      intro hnil
      have hlength := length_glyphsFrom line 0 (a.name.map .code)
      rw [hnil, textOf_codes] at hlength
      exact a.ne_nil (List.length_eq_zero_iff.1 hlength.symm)
    have hword : ∀ c ∈ chars (glyphsFrom line 0 (a.name.map .code)), Text.isWord c = true := by
      rw [chars_glyphsFrom, skeletonOf_codes]
      exact a.word
    rw [List.flatMap_cons, List.append_assoc, hglyphs, List.cons_append, List.append_assoc,
      List.append_assoc, afterAttributes_eq rfl hname hword (allBlank_gap _ _ _)
        (a.after.glyphsFrom_ne_nil a.separates _ _),
      skipBlanks_of_beginsOne (hbegins as l')]
    exact ih l'

/-! ### Reading a preamble -/

namespace TypeClause

variable (t : TypeClause)

/-- An array shows as the type of its elements between brackets. -/
lemma skeletonOf_array : skeletonOf t.array =
    skeletonOf t.after.lexemes ++ '[' :: (skeletonOf t.element.lexemes ++ [']']) := by
  simp [array, Lexeme.skeleton]

/-- An array is balanced. -/
lemma balanced_array : Balanced (fun _ => True) (skeletonOf t.array) := by
  rw [skeletonOf_array]
  exact (balanced_gap t.after).append (.enclosed rfl rfl t.element.balanced)

/-- There is no equals sign in an array. -/
lemma not_mem_array : '=' ∉ skeletonOf t.array := by
  rw [skeletonOf_array]
  simp [t.after.not_mem (c := '=') rfl, t.element.not_mem_equals]

/-- An array is a type, as its brackets are on one line. -/
lemma isTypeText_array {gap : List Char} (hgap : ∀ c ∈ gap, Text.isBlank c = true) :
    isTypeText (skeletonOf t.array ++ gap) = true := by
  have hlast : ('[' :: (skeletonOf t.element.lexemes ++ [']'])).getLast? = some ']' := by
    rw [← List.cons_append, List.getLast?_concat]
  have hline : (('[' :: (skeletonOf t.element.lexemes ++ [']'])).contains '\n') = false := by
    have hnot := List.count_eq_zero.1 t.onLine
    rw [List.contains_eq_mem, decide_eq_false_iff_not]
    simp [hnot]
  rw [isTypeText, skeletonOf_array,
    Text.dropMargins_append t.after.isBlank_of_mem ⟨'[', rfl, rfl⟩
      ⟨']', hlast, rfl⟩ hgap, hline]
  rfl

/-- What is recorded of an array. -/
lemma elementType?_array {gap : List Char} (hgap : ∀ c ∈ gap, Text.isBlank c = true) :
    elementType? (String.ofList (skeletonOf t.array ++ gap)) = t.element.recorded? := by
  refine t.element.elementType?_eq ?_
  rw [shown_append, shown_of_blank hgap, skeletonOf_array, shown_append,
    shown_of_blank t.after.isBlank_of_mem, List.nil_append, shown_cons (by decide), shown_append,
    t.element.shown_lexemes, shown_cons (by decide),
    List.append_nil]
  rfl

/-- A clause is recovered from its text, be it missing. -/
lemma scans (type : Option TypeClause) : Scans (lexemes type) := by
  have hcolon : Scans [.code ':'] := scans_code (by decide)
  have hopen : Scans [.code '['] := scans_code (by decide)
  have hclose : Scans [.code ']'] := scans_code (by decide)
  cases type with
  | none => exact .nil
  | some t =>
    exact t.before.scans.append (hcolon.append (t.after.scans.append
      (hopen.append (t.element.scans.append hclose))))

/-- A clause is balanced, be it missing. -/
lemma balanced (type : Option TypeClause) :
    Balanced (fun _ => True) (skeletonOf (lexemes type)) := by
  cases type with
  | none => exact .nil
  | some t =>
    rw [lexemes, skeletonOf_append, skeletonOf_cons]
    exact (balanced_gap t.before).append (.plain rfl rfl trivial t.balanced_array)

end TypeClause

/-- Attributes are balanced. -/
lemma Attribute.balanced_flatMap (attributes : List Attribute) :
    Balanced (fun _ => True) (skeletonOf (attributes.flatMap Attribute.lexemes)) := by
  induction attributes with
  | nil => exact .nil
  | cons a as ih =>
    have hname : Balanced (fun _ => True) a.name := by
      refine .of_forall ?_
      intro c hc
      have hjoins := joinsName_of_isWord (a.word c hc)
      exact ⟨isOpener_of_joinsName hjoins, isCloser_of_joinsName hjoins, trivial⟩
    have hattribute : Balanced (fun _ => True) (skeletonOf a.lexemes) := by
      have hall : Balanced (fun _ => True) ('@' :: (a.name ++ skeletonOf a.after.lexemes)) :=
        .plain rfl rfl trivial (hname.append (balanced_gap a.after))
      simpa [Attribute.lexemes, Lexeme.skeleton] using hall
    rw [List.flatMap_cons, skeletonOf_append]
    exact hattribute.append ih

namespace Preamble

variable (p : Preamble)

/-- What comes before the sign of a preamble is balanced. -/
lemma balanced_front : Balanced (fun _ => True) (skeletonOf p.front) := by
  rw [front, skeletonOf_append, skeletonOf_append, skeletonOf_append, skeletonOf_append,
    skeletonOf_append, skeletonOf_append]
  exact (Attribute.balanced_flatMap _).append ((Access.balanced _).append ((balanced_word _).append
    ((balanced_gap _).append
      ((balanced_word _).append ((TypeClause.balanced _).append (balanced_gap _))))))

/-- A preamble is balanced. -/
lemma balanced : Balanced (fun _ => True) (skeletonOf p.lexemes) := by
  rw [lexemes, skeletonOf_append]
  exact p.balanced_front.append (.plain rfl rfl trivial .nil)

/-- A preamble is recovered from its text. -/
lemma scans : Scans p.lexemes := by
  have hattributes (as : List Attribute) : Scans (as.flatMap Attribute.lexemes) := by
    induction as with
    | nil => exact .nil
    | cons a as ih =>
      have hmark : Scans [.code '@'] := scans_code (by decide)
      have hname : Scans (a.name.map .code) := by
        refine scans_codes ?_
        intro c hc
        exact isCode_of_joinsName (joinsName_of_isWord (a.word c hc))
      exact (hmark.append (hname.append a.after.scans)).append ih
  have haccess : Scans (Access.lexemes p.access) := by
    cases p.access with
    | none => exact .nil
    | some a => exact a.level.scans.append a.after.scans
  have hsign : Scans [.code '='] := scans_code (by decide)
  exact ((hattributes _).append
    (haccess.append (p.introducer.scans.append (p.afterIntroducer.scans.append
    (p.name.toWord.scans.append ((TypeClause.scans _).append p.beforeSign.scans)))))).append hsign

/-- What is recorded of the type in front of the equals sign. -/
lemma afterEquals?_append (line : Nat) {sign : Glyph} {rest : Fragment}
    (hsign : sign.skeleton = '=') (hr : Avoids '=' rest) :
    ∃ typeText,
      afterEquals? (glyphsFrom line 0 (TypeClause.lexemes p.type ++ p.beforeSign.lexemes) ++
        sign :: rest) = some (typeText, rest) ∧
      typeText.bind elementType? = p.type.bind fun t => t.element.recorded? := by
  cases p.type with
  | none => exact ⟨none, afterEquals?_eq (allBlank_gap _ _ _) hsign hr, rfl⟩
  | some t =>
    obtain ⟨l, hl⟩ := exists_glyphsFrom_append t.balanced_array
      (line + newlines t.before.lexemes) 0
      p.beforeSign.lexemes
    have hglyphs : glyphsFrom line 0 (TypeClause.lexemes (some t) ++ p.beforeSign.lexemes) ++
        sign :: rest =
        glyphsFrom line 0 t.before.lexemes ++
          ⟨':', ':', line + newlines t.before.lexemes, 0, 0⟩ ::
          (glyphsFrom (line + newlines t.before.lexemes) 0 t.array ++
            (glyphsFrom l 0 p.beforeSign.lexemes ++ sign :: rest)) := by
      rw [TypeClause.lexemes, List.append_assoc, glyphsFrom_append_of_balanced (balanced_gap _),
        List.cons_append, glyphsFrom_code, List.append_assoc, List.cons_append]
      rw [show depthAfter 0 ':' = 0 from rfl,
        show lineAfter (line + newlines t.before.lexemes) ':' =
          line + newlines t.before.lexemes from rfl, hl,
        List.append_assoc]
    have hgap := allBlank_gap l 0 p.beforeSign
    have hchars := chars_glyphsFrom (line + newlines t.before.lexemes) 0 t.array
    have hnot := t.not_mem_array
    have htype := t.isTypeText_array hgap
    rw [← hchars] at hnot htype
    have hequals := afterEquals?_type (allBlank_gap line 0 t.before)
      (show Glyph.skeleton ⟨':', ':', line + newlines t.before.lexemes, 0, 0⟩ = ':' from rfl)
        hnot hgap htype
      hsign hr
    rw [← hglyphs, hchars] at hequals
    refine ⟨_, hequals, ?_⟩
    rw [Option.bind_some, Option.bind_some, t.elementType?_array hgap]

/-- The name ends in front of a type and of the equals sign. -/
lemma stops_type (line : Nat) {sign : Glyph} (hsign : sign.skeleton = '=') (rest : Fragment) :
    Stops (glyphsFrom line 0 (TypeClause.lexemes p.type ++ p.beforeSign.lexemes) ++
      sign :: rest) := by
  cases p.type with
  | none =>
    exact .append (allBlank_gap _ _ _)
      (stops_of_sign (c := '=') (by simp [first?, hsign]) (by decide) rfl)
  | some t =>
    rw [TypeClause.lexemes, List.append_assoc, glyphsFrom_append_of_balanced (balanced_gap _),
      List.append_assoc]
    exact .append (allBlank_gap _ _ _) (stops_of_sign (c := ':') rfl (by decide) rfl)

/-- What follows the attributes of a preamble. -/
def afterAttributes : List Lexeme :=
  Access.lexemes p.access ++ (p.introducer.lexemes ++ (p.afterIntroducer.lexemes ++
    (p.name.toWord.lexemes ++ (TypeClause.lexemes p.type ++ p.beforeSign.lexemes ++ [.code '=']))))

/-- A preamble is its attributes and what follows them. -/
lemma lexemes_eq : p.lexemes = p.attributes.flatMap Attribute.lexemes ++ p.afterAttributes := by
  rw [lexemes, front, afterAttributes]
  simp only [List.append_assoc]

/-- What follows the attributes begins with a word. -/
lemma afterAttributes_exists_cons :
    ∃ c xs, p.afterAttributes = .code c :: xs ∧ Text.isWord c = true :=
  Access.exists_cons p.access p.introduces _

/-- The first character of a preamble. -/
lemma exists_cons : ∃ c xs, p.lexemes = .code c :: xs ∧ BeginsOne c := by
  rw [lexemes_eq]
  cases p.attributes with
  | nil =>
    obtain ⟨c, xs, hcs, hc⟩ := p.afterAttributes_exists_cons
    exact ⟨c, xs, hcs, .inl hc⟩
  | cons a as => exact ⟨'@', _, rfl, .inr rfl⟩

/-- What a preamble declares. -/
lemma declaration?_append (line : Nat) {rest : Fragment} (hr : Avoids '=' rest) :
    ∃ typeText, declaration? (glyphsFrom line 0 p.lexemes ++ rest) =
        some ⟨String.ofList p.name.chars, typeText, rest⟩ ∧
      typeText.bind elementType? = p.type.bind fun t => t.element.recorded? := by
  have hbegins (l : Nat) :
      ∃ c ∈ first? (glyphsFrom l 0 p.afterAttributes ++ rest), Text.isWord c = true := by
    obtain ⟨c, xs, hcs, hc⟩ := p.afterAttributes_exists_cons
    exact ⟨c, by rw [hcs, glyphsFrom_code]; rfl, hc⟩
  have htype : Balanced (fun _ => True)
      (skeletonOf (TypeClause.lexemes p.type ++ p.beforeSign.lexemes)) := by
    rw [skeletonOf_append]
    exact (TypeClause.balanced _).append (balanced_gap _)
  have hsign (l : Nat) : ∃ sign : Glyph, sign.skeleton = '=' ∧
      glyphsFrom l 0 (TypeClause.lexemes p.type ++ p.beforeSign.lexemes ++ [.code '=']) ++ rest =
        glyphsFrom l 0 (TypeClause.lexemes p.type ++ p.beforeSign.lexemes) ++ sign :: rest := by
    refine ⟨⟨'=', '=', l + newlines (TypeClause.lexemes p.type ++ p.beforeSign.lexemes),
      0, 0⟩, rfl, ?_⟩
    rw [glyphsFrom_append_of_balanced htype, List.append_assoc]
    rfl
  obtain ⟨l, hl⟩ := Attribute.afterAttributes_append p.attributes line p.afterAttributes hbegins
  rw [← lexemes_eq] at hl
  obtain ⟨l', hdeclaration⟩ := Access.declaration?_append p.access p.name p.introduces
    p.separates hl
    (by
      intro l
      obtain ⟨sign, hsign, hglyphs⟩ := hsign l
      rw [hglyphs]
      exact p.stops_type l hsign rest)
  obtain ⟨sign, hsign, hglyphs⟩ := hsign l'
  obtain ⟨typeText, hequals, hrecorded⟩ := p.afterEquals?_append l' hsign hr
  refine ⟨typeText, ?_, hrecorded⟩
  rw [hdeclaration, hglyphs, hequals]
  rfl

end Preamble

/-! ### The beginning of a preamble -/

namespace Source.Fragment

variable {f : Fragment}

/-- How a preamble begins: with an attribute, or with one of its words and another word. -/
inductive StartsPreamble : Fragment → Prop where
  | mark {f : Fragment} (first : first? f = some '@') : StartsPreamble f
  | word {word gap next : Fragment} (begins : BeginsDeclaration word.chars) (blank : AllBlank gap)
      (separates : gap ≠ []) (follows : ∃ c ∈ first? next, Text.isWord c = true) :
      StartsPreamble (word ++ (gap ++ next))

/-- The words that a preamble begins with. -/
lemma BeginsDeclaration.exists_cons {cs : List Char} (h : BeginsDeclaration cs) :
    (∃ c tail, cs = c :: tail ∧ Text.isNameStart c = true) ∧
    ∀ c ∈ cs, Text.isWord c = true := by
  have hall : ∀ word ∈ "let" :: "var" :: accessLevels,
      (word.toList.head?.any Text.isNameStart && word.toList.all Text.isWord) = true := by
    decide +kernel
  have hmem : ∃ word ∈ "let" :: "var" :: accessLevels, cs = word.toList := by
    rcases h with (rfl | rfl) | ⟨word, hword, rfl⟩
    · exact ⟨"let", by simp, rfl⟩
    · exact ⟨"var", by simp, rfl⟩
    · exact ⟨word, by simp [hword], rfl⟩
  obtain ⟨word, hword, rfl⟩ := hmem
  obtain ⟨hstarts, hwords⟩ := Bool.and_eq_true_iff.1 (hall word hword)
  refine ⟨?_, List.all_eq_true.1 hwords⟩
  cases hcs : word.toList with
  | nil => simp [hcs] at hstarts
  | cons c tail => exact ⟨c, tail, rfl, by simpa [hcs] using hstarts⟩

/-- A preamble begins with a character that declarations begin with. -/
lemma StartsPreamble.first (h : StartsPreamble f) : ∃ c ∈ first? f, BeginsOne c := by
  cases h with
  | mark first => exact ⟨'@', first, .inr rfl⟩
  | @word word gap next begins blank separates follows =>
    obtain ⟨⟨c, tail, hcs, hstarts⟩, -⟩ := begins.exists_cons
    refine ⟨c, ?_, .inl (Text.isWord_of_isNameStart hstarts)⟩
    rw [first?_eq, chars_append, hcs]
    rfl

end Source.Fragment

/-- A word that begins a declaration, and space in front of another word. -/
lemma Word.startsPreamble {w : Word} (hw : BeginsDeclaration w.chars) {gap : Gap} (hs : gap ≠ [])
    (line : Nat) {zs : List Lexeme} (hzs : ∃ c xs, zs = .code c :: xs ∧ Text.isWord c = true)
    (rest : Fragment) :
    StartsPreamble (glyphsFrom line 0 (w.lexemes ++ (gap.lexemes ++ zs)) ++ rest) := by
  obtain ⟨c, xs, rfl, hc⟩ := hzs
  rw [glyphsFrom_append_of_balanced (balanced_word w),
    glyphsFrom_append_of_balanced (balanced_gap gap), List.append_assoc, List.append_assoc]
  refine .word ?_ (allBlank_gap _ _ _) (gap.glyphsFrom_ne_nil hs _ _) ⟨c, ?_, hc⟩
  · rwa [chars_glyphsFrom, Word.skeletonOf_lexemes]
  · rw [glyphsFrom_code]
    rfl

/-- A preamble begins as preambles do. -/
lemma Preamble.startsPreamble (p : Preamble) (line : Nat) (rest : Fragment) :
    StartsPreamble (glyphsFrom line 0 p.lexemes ++ rest) := by
  rw [p.lexemes_eq]
  cases p.attributes with
  | cons a as =>
    refine .mark ?_
    rw [List.flatMap_cons, Attribute.lexemes, List.cons_append, List.cons_append, glyphsFrom_code]
    rfl
  | nil =>
    rw [List.flatMap_nil, List.nil_append, afterAttributes]
    cases p.access with
    | none =>
      have hname (zs : List Lexeme) :
          ∃ c xs, p.name.toWord.lexemes ++ zs = .code c :: xs ∧ Text.isWord c = true := by
        obtain ⟨c, cs, hc⟩ := List.exists_cons_of_ne_nil p.name.toWord.ne_nil
        have hword : ∀ c ∈ p.name.toWord.chars, Text.isWord c = true := p.name.word
        exact ⟨c, cs.map .code ++ zs, by rw [Word.lexemes, hc]; rfl,
          hword c (hc ▸ List.mem_cons_self)⟩
      exact Word.startsPreamble (.inl p.introduces) p.separates line (hname _) rest
    | some a =>
      rw [Access.lexemes, List.append_assoc]
      exact a.level.startsPreamble (.inr a.isLevel)
        a.separates line (Access.exists_cons none p.introduces _) rest

/-! ### Headings are preambles -/

/-- A gap of blanks has these for its lexemes. -/
lemma Gap.lexemes_pmap {cs : List Char} (h : ∀ c ∈ cs, Text.isBlank c = true) :
    Gap.lexemes (cs.pmap Space.blank h) = cs.map .code := by
  induction cs with
  | nil => rfl
  | cons c cs ih =>
    rw [List.pmap_cons, Gap.lexemes_cons, ih]
    rfl

namespace ArrayType

variable (t : ArrayType)

/-- A character of the type of elements as a part of it. -/
def part (c : { c // c ∈ t.element }) : TypePart :=
  if h : Text.isBlank c.1 = true then .space (.blank c.1 h)
  else
    .char c.1 (t.isCode (by simp [chars, core, c.2])) (by simpa using h)
      (t.ne_of_mem_element c.2 (by decide) (by decide))

/-- A character of a type is the only lexeme of its part. -/
lemma lexemes_part (c : { c // c ∈ t.element }) : (t.part c).lexemes = [.code c.1] := by
  unfold part
  split <;> rfl

/-- A type without comments has its characters for its lexemes. -/
lemma flatMap_part :
    (t.element.attach.map t.part).flatMap TypePart.lexemes = t.element.map .code := by
  have hsingle : (fun c => (t.part c).lexemes) = fun c => [Lexeme.code c.1] := funext t.lexemes_part
  rw [List.flatMap_map, hsingle, ← List.map_eq_flatMap, List.attach_map_val]

/-- A type without comments as a clause. -/
def toClause : TypeClause where
  before := t.before
  after := t.blanks.pmap Space.blank t.isBlank
  element := ⟨t.element.attach.map t.part, by
    rw [t.flatMap_part, skeletonOf_codes]
    exact t.balanced⟩
  onLine := by
    rw [ElementType.lexemes, t.flatMap_part, newlines, skeletonOf_codes, List.count_eq_zero]
    exact fun hmem => t.ne_of_mem_element hmem (by decide) (by decide) rfl

/-- A type has the same lexemes as a clause. -/
lemma lexemes_toClause (type : Option ArrayType) :
    TypeClause.lexemes (type.map toClause) = ArrayType.lexemes type := by
  cases type with
  | none => rfl
  | some t =>
    have hafter : Gap.lexemes t.toClause.after = t.blanks.map .code := Gap.lexemes_pmap t.isBlank
    have helement : t.toClause.element.lexemes = t.element.map .code := t.flatMap_part
    rw [Option.map_some, TypeClause.lexemes, TypeClause.array, hafter, helement,
      lexemes, chars, core]
    simp [toClause]

/-- A clause shows the characters of the type. -/
lemma chars_toClause : t.toClause.element.chars = shown t.element := by
  rw [← ElementType.shown_lexemes, show t.toClause.element.lexemes = _ from t.flatMap_part,
    skeletonOf_codes]

/-- What is recorded of a clause is the element type. -/
lemma recorded?_toClause : t.toClause.element.recorded? = t.elementType? := by
  rw [elementType?, ElementType.elementType?_eq]
  rw [chars_toClause, chars, core, shown_cons (by decide), shown_append, shown_of_blank t.isBlank,
    List.nil_append, shown_cons (by decide), shown_append]
  rfl

end ArrayType

namespace Heading

variable (h : Heading)

/-- A heading as a preamble. -/
def toPreamble : Preamble where
  attributes := []
  access := h.access
  introducer := h.introducer
  afterIntroducer := h.afterIntroducer
  name := h.name
  type := h.type.map ArrayType.toClause
  beforeSign := h.beforeSign
  introduces := h.introduces
  separates := h.separates

/-- A heading has the same lexemes as a preamble. -/
lemma lexemes_toPreamble : h.toPreamble.lexemes = h.lexemes := by
  rw [Preamble.lexemes, Preamble.front, toPreamble, lexemes, front, ArrayType.lexemes_toClause]
  rfl

/-- What is recorded of the type of a heading. -/
lemma recorded?_toPreamble :
    (h.toPreamble.type.bind fun t => t.element.recorded?) = h.type.bind ArrayType.elementType? := by
  rw [toPreamble]
  cases h.type with
  | none => rfl
  | some t => exact t.recorded?_toClause

/-- A heading is recovered from its text. -/
lemma scans : Scans h.lexemes := by
  rw [← h.lexemes_toPreamble]
  exact h.toPreamble.scans

/-- What a heading declares. -/
lemma declaration?_append (line : Nat) {rest : Fragment} (hr : Avoids '=' rest) :
    ∃ typeText, declaration? (glyphsFrom line 0 h.lexemes ++ rest) =
        some ⟨String.ofList h.name.chars, typeText, rest⟩ ∧
      typeText.bind SwiftDependencies.elementType? = h.type.bind ArrayType.elementType? := by
  obtain ⟨typeText, hdeclaration, htype⟩ := h.toPreamble.declaration?_append line hr
  rw [h.lexemes_toPreamble] at hdeclaration
  exact ⟨typeText, hdeclaration, htype.trans h.recorded?_toPreamble⟩

end Heading

end SwiftDependencies
