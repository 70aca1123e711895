import Mathlib.Tactic.Common
import SwiftDependencies.Proofs.Manifest.Declarations
import SwiftDependencies.Proofs.Manifest.Initializer

/-!
# Headings of bindings

A binding begins with an access level, if it has one, the word `let` or `var`, a name, the type of
an array, if it is written, and an equals sign.  `Heading` is this with all the space between the
tokens.

An access level, an introducer and a name declare that name (`Access.declaration?_append`).  The
search for the constructed package passes over a heading (`Heading.package?_append`).
-/

namespace SwiftDependencies

open Source Source.Fragment

/-! ### Types of arrays -/

/-- The signs in the types of elements. -/
def typeSigns : List Char :=
  [' ', '\t', '[', ']', ':', ',', '?', '!', '<', '>', '&']

/-- The type of an array, with what is in front of it and of its colon, and without comments. -/
structure ArrayType where
  before : Gap
  blanks : List Char
  element : List Char
  isBlank : ∀ c ∈ blanks, Text.isBlank c = true
  isType : ∀ c ∈ element, joinsName c = true ∨ c ∈ typeSigns
  balanced : Balanced (fun _ => True) element

namespace ArrayType

/-- The type in its brackets. -/
def core (t : ArrayType) : List Char :=
  '[' :: (t.element ++ [']'])

/-- The type and its colon. -/
def chars (t : ArrayType) : List Char :=
  ':' :: (t.blanks ++ t.core)

/-- The lexemes of a type, if there is one. -/
def lexemes : Option ArrayType → List Lexeme
  | none => []
  | some t => t.before.lexemes ++ t.chars.map .code

/-- The type of the elements, if one is written. -/
def elementType? (t : ArrayType) : Option String :=
  SwiftDependencies.elementType? (String.ofList t.chars)

end ArrayType

/-! ### Headings -/

/-- An access level and the space after it. -/
structure Access where
  level : Word
  after : Gap
  isLevel : ∃ word ∈ accessLevels, level.chars = word.toList
  separates : after ≠ []

/-- The lexemes of an access level, if there is one. -/
def Access.lexemes : Option Access → List Lexeme
  | none => []
  | some a => a.level.lexemes ++ a.after.lexemes

/-- What is in front of the value of a binding, up to the equals sign. -/
structure Heading where
  access : Option Access
  introducer : Word
  afterIntroducer : Gap
  name : Identifier
  type : Option ArrayType
  beforeSign : Gap
  introduces : IsIntroducer introducer.chars
  separates : afterIntroducer ≠ []

/-- The lexemes of a heading, but for the sign at its end. -/
def Heading.front (h : Heading) : List Lexeme :=
  Access.lexemes h.access ++ (h.introducer.lexemes ++ (h.afterIntroducer.lexemes ++
    (h.name.toWord.lexemes ++ (ArrayType.lexemes h.type ++ h.beforeSign.lexemes))))

/-- The lexemes of a heading. -/
def Heading.lexemes (h : Heading) : List Lexeme :=
  h.front ++ [.code '=']

/-! ### Characters of types -/

namespace ArrayType

variable (t : ArrayType)

/-- The name of an element type contains no signs but its own. -/
lemma ne_of_mem_element {c d : Char} (hc : c ∈ t.element) (hd : d ∈ signs)
    (hne : d ∉ typeSigns) :
    c ≠ d := by
  rintro rfl
  rcases t.isType c hc with h | h
  · exact not_mem_signs h hd
  · exact hne h

/-- A type contains no signs but its own. -/
lemma not_mem_chars {d : Char} (hd : d ∈ signs) (hb : Text.isBlank d = false)
    (hne : d ∉ typeSigns) :
    d ∉ t.chars := by
  have hopen : d ≠ '[' := by
    rintro rfl
    exact hne (by decide)
  have hclose : d ≠ ']' := by
    rintro rfl
    exact hne (by decide)
  have hcolon : d ≠ ':' := by
    rintro rfl
    exact hne (by decide)
  simp only [chars, core, List.mem_cons, List.mem_append, List.not_mem_nil, or_false, not_or]
  refine ⟨hcolon, fun h => ?_, hopen, fun h => t.ne_of_mem_element h hd hne rfl, hclose⟩
  rw [t.isBlank d h] at hb
  exact absurd hb (by decide)

/-- A type is code. -/
lemma isCode {c : Char} (hc : c ∈ t.chars) : IsCode c := by
  have hmark {d : Char} (hd : d ∈ signs) (hb : Text.isBlank d = false)
      (hne : d ∉ typeSigns) : c ≠ d := by
    rintro rfl
    exact t.not_mem_chars hd hb hne hc
  exact ⟨hmark (by decide) rfl (by decide), hmark (by decide) rfl (by decide),
    hmark (by decide) rfl (by decide)⟩

/-- A type without its gaps is balanced. -/
lemma balanced_core : Balanced (fun _ => True) t.core :=
  .enclosed rfl rfl t.balanced

/-- A type is balanced. -/
lemma balanced_chars : Balanced (fun _ => True) t.chars :=
  .plain rfl rfl trivial
    ((balanced_of_inline (fun c hc => .inl (t.isBlank c hc)) fun _ _ => trivial).append
    t.balanced_core)

end ArrayType

/-! ### The glyphs of a heading -/

/-- An access level is balanced. -/
lemma Access.balanced (access : Option Access) :
    Balanced (fun _ => True) (skeletonOf (Access.lexemes access)) := by
  cases access with
  | none => exact .nil
  | some a =>
    rw [Access.lexemes, skeletonOf_append]
    exact (balanced_word _).append (balanced_gap _)

/-- The words that begin a declaration are not empty. -/
lemma Source.Fragment.IsIntroducer.ne_nil {introducer : Fragment}
    (h : IsIntroducer introducer.chars) :
    introducer ≠ [] := by
  rintro rfl
  rcases h with h | h <;> exact absurd h (by decide)

/-- An access level is passed over, if there is one. -/
lemma Access.afterAccessLevel_append (access : Option Access) (line : Nat)
    {introducer rest : Fragment} (hi : IsIntroducer introducer.chars)
    (hr : ∀ c ∈ first? rest, Text.isWord c = false) :
    afterAccessLevel (glyphsFrom line 0 (Access.lexemes access) ++ (introducer ++ rest)) =
      introducer ++ rest := by
  cases access with
  | none =>
    rw [Access.lexemes, glyphsFrom_nil, List.nil_append,
      afterAccessLevel_of_ne hi.joins hr hi.ne_accessLevel]
  | some a =>
    obtain ⟨word, hword, hlevel⟩ := a.isLevel
    have hskip : skipBlanks (introducer ++ rest) = introducer ++ rest := by
      cases introducer with
      | nil => exact absurd rfl hi.ne_nil
      | cons g introducer =>
        exact skipBlanks_of_first rfl (isBlank_of_joinsName (hi.joins _ List.mem_cons_self))
    rw [Access.lexemes, glyphsFrom_append_of_balanced (balanced_word _), List.append_assoc,
      afterAccessLevel_eq (by rw [chars_glyphsFrom, Word.skeletonOf_lexemes, hlevel]) hword
        (allBlank_gap _ _ _) (a.after.glyphsFrom_ne_nil a.separates _ _), hskip]

/-- An access level, or the introducer without one, begins with a word. -/
lemma Access.exists_cons (access : Option Access) {introducer : Word}
    (hi : IsIntroducer introducer.chars) (zs : List Lexeme) :
    ∃ c xs, Access.lexemes access ++ (introducer.lexemes ++ zs) = .code c :: xs ∧
      Text.isWord c = true := by
  have hword {w : Word} {word : String} (hw : w.chars = word.toList) (hk : IsKeyword word) :
      ∃ c cs, w.lexemes = .code c :: cs ∧ Text.isWord c = true := by
    obtain ⟨c, cs, hc⟩ := List.exists_cons_of_ne_nil hk.ne_nil
    exact ⟨c, cs.map .code, by rw [Word.lexemes, hw, hc]; rfl,
      hk.word c (hc ▸ List.mem_cons_self)⟩
  cases access with
  | none =>
    obtain ⟨c, cs, hcs, hc⟩ : ∃ c cs, introducer.lexemes = .code c :: cs ∧
        Text.isWord c = true := by
      rcases hi with hi | hi
      · exact hword hi isKeyword_let
      · exact hword hi isKeyword_var
    exact ⟨c, _, by rw [hcs]; rfl, hc⟩
  | some a =>
    obtain ⟨word, hmem, hlevel⟩ := a.isLevel
    obtain ⟨c, cs, hcs, hc⟩ := hword hlevel (isKeyword_accessLevels word hmem)
    exact ⟨c, _, by rw [Access.lexemes, hcs]; rfl, hc⟩

/-- What is declared by an access level, an introducer, and a name, with what follows them. -/
lemma Access.declaration?_append (access : Option Access) {introducer : Word} (name : Identifier)
    {afterIntroducer : Gap} (hi : IsIntroducer introducer.chars) (hs : afterIntroducer ≠ [])
    {f rest : Fragment} {zs : List Lexeme} {line : Nat}
    (hf : afterAttributes (afterIndent f) =
      glyphsFrom line 0 (Access.lexemes access ++ (introducer.lexemes ++
      (afterIntroducer.lexemes ++ (name.toWord.lexemes ++ zs)))) ++ rest)
    (hstops : ∀ l, Stops (glyphsFrom l 0 zs ++ rest)) :
    ∃ l, declaration? f =
      (afterEquals? (glyphsFrom l 0 zs ++ rest)).map fun x =>
        ⟨String.ofList name.chars, x.1, x.2⟩ := by
  obtain ⟨l₁, h₁⟩ := exists_glyphsFrom_append (Access.balanced access)
    line 0 (introducer.lexemes ++ (afterIntroducer.lexemes ++ (name.toWord.lexemes ++ zs)))
  obtain ⟨l₂, h₂⟩ := exists_glyphsFrom_append (balanced_word introducer)
    l₁ 0 (afterIntroducer.lexemes ++ (name.toWord.lexemes ++ zs))
  obtain ⟨l₃, h₃⟩ :=
    exists_glyphsFrom_append (balanced_gap afterIntroducer) l₂ 0 (name.toWord.lexemes ++ zs)
  obtain ⟨l₄, h₄⟩ := exists_glyphsFrom_append (balanced_word name.toWord) l₃ 0 zs
  have hintroducer : IsIntroducer (chars (glyphsFrom l₁ 0 introducer.lexemes)) := by
    rw [chars_glyphsFrom, Word.skeletonOf_lexemes]
    exact hi
  have hgap := allBlank_gap l₂ 0 afterIntroducer
  have hne := afterIntroducer.glyphsFrom_ne_nil hs l₂ 0
  have hname : chars (glyphsFrom l₃ 0 name.toWord.lexemes) = name.chars := by
    rw [chars_glyphsFrom, Word.skeletonOf_lexemes]
    rfl
  have hlevel := Access.afterAccessLevel_append access line hintroducer (hgap.not_word hne
    (glyphsFrom l₃ 0 name.toWord.lexemes ++ (glyphsFrom l₄ 0 zs ++ rest)))
  rw [h₁, h₂, h₃, h₄, List.append_assoc, List.append_assoc, List.append_assoc,
    List.append_assoc] at hf
  rw [← hf] at hlevel
  refine ⟨l₄, ?_⟩
  rw [declaration?_eq hlevel hintroducer hgap hne (by rw [hname]; exact name.starts)
    (by rw [hname]; exact name.word) (hstops l₄).not_word, hname]

/-- What a type is written with is balanced, be it missing. -/
lemma ArrayType.balanced_lexemes (type : Option ArrayType) :
    Balanced (fun _ => True) (skeletonOf (ArrayType.lexemes type)) := by
  cases type with
  | none => exact .nil
  | some t =>
    rw [ArrayType.lexemes, skeletonOf_append, skeletonOf_codes]
    exact (balanced_gap _).append t.balanced_chars

namespace Heading

variable (h : Heading)

/-- What comes before the name of a binding is balanced. -/
lemma balanced_front : Balanced (fun _ => True) (skeletonOf h.front) := by
  rw [front, skeletonOf_append, skeletonOf_append, skeletonOf_append, skeletonOf_append,
    skeletonOf_append]
  exact (Access.balanced _).append ((balanced_word _).append ((balanced_gap _).append
    ((balanced_word _).append ((ArrayType.balanced_lexemes _).append (balanced_gap _)))))

/-- The heading of a binding is balanced. -/
lemma balanced : Balanced (fun _ => True) (skeletonOf h.lexemes) := by
  rw [lexemes, skeletonOf_append]
  exact h.balanced_front.append (.plain rfl rfl trivial .nil)

/-- The signs that do not stand in a heading. -/
lemma not_mem_front {d : Char} (hd : d ∈ signs) (hb : Text.isBlank d = false)
    (hne : d ∉ typeSigns) :
    d ∉ skeletonOf h.front := by
  have haccess : d ∉ skeletonOf (Access.lexemes h.access) := by
    cases h.access with
    | none => simp [Access.lexemes]
    | some a =>
      rw [Access.lexemes, skeletonOf_append, Word.skeletonOf_lexemes, List.mem_append, not_or]
      exact ⟨a.level.not_mem hd, a.after.not_mem hb⟩
  have htype : d ∉ skeletonOf (ArrayType.lexemes h.type) := by
    cases h.type with
    | none => simp [ArrayType.lexemes]
    | some t =>
      rw [ArrayType.lexemes, skeletonOf_append, skeletonOf_codes, List.mem_append, not_or]
      exact ⟨t.before.not_mem hb, t.not_mem_chars hd hb hne⟩
  simp only [front, skeletonOf_append, Word.skeletonOf_lexemes, List.mem_append, not_or]
  exact ⟨haccess, h.introducer.not_mem hd, h.afterIntroducer.not_mem hb, h.name.toWord.not_mem hd,
    htype, h.beforeSign.not_mem hb⟩

/-- The glyphs of a heading. -/
lemma glyphsFrom_lexemes (line : Nat) :
    glyphsFrom line 0 h.lexemes =
      glyphsFrom line 0 h.front ++ [⟨'=', '=', line + newlines h.front, 0, 0⟩] := by
  rw [lexemes, glyphsFrom_append_of_balanced h.balanced_front]
  rfl

/-- The search for the constructed package passes over a heading. -/
lemma package?_append (line : Nat) (joined : Bool) (rest : Fragment) :
    Fragment.package? joined (glyphsFrom line 0 h.lexemes ++ rest) =
      Fragment.package? false rest := by
  have hfront : '(' ∉ chars (glyphsFrom line 0 h.front) := by
    rw [chars_glyphsFrom]
    exact h.not_mem_front (by decide) rfl (by decide)
  rw [glyphsFrom_lexemes, List.append_assoc, List.singleton_append,
    package?_upTo (g := ⟨'=', '=', line + newlines h.front, 0, 0⟩)
      hfront (show '=' ∈ signs by decide) rfl
      (show '=' ≠ '(' by decide)]

end Heading

end SwiftDependencies
