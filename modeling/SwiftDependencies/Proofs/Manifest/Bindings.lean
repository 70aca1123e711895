import Mathlib.Tactic.Common
import SwiftDependencies.Proofs.Manifest.Values

/-!
# Rows of bindings

The manifests that consist of bindings, each of which starts a line: `Bindings` is such a manifest
with all the space in it.  What its sections are read as is known from the expressions alone: the
constants are the bindings with the terms of their values (`Bindings.constants_glyphsFrom`), and the
constructed package has the arguments of the first call of `Package`
(`Bindings.package?_glyphsFrom`).
-/

namespace SwiftDependencies

open Source Source.Fragment

/-! ### Bindings -/

/-- A binding of a value. Between the callee of a value and its parenthesis there is no line
feed. -/
structure Binding where
  heading : Heading
  afterSign : Gap
  value : Written
  joined : ∀ callee gap arguments, value = .call callee gap arguments → newlines gap.lexemes = 0

namespace Binding

variable (b : Binding)

/-- The lexemes of a binding. -/
def lexemes : List Lexeme :=
  b.heading.lexemes ++ (b.afterSign.lexemes ++ b.value.lexemes)

/-- The line that the value begins on, when the binding begins on a line. -/
def valueLine (line : Nat) : Nat :=
  line + newlines b.heading.lexemes + newlines b.afterSign.lexemes

/-- The constant that is bound, when the binding begins on a line. -/
def constant (line : Nat) : Constant :=
  ⟨String.ofList b.heading.name.chars, b.value.term (b.valueLine line),
    b.heading.type.bind ArrayType.elementType?⟩

end Binding

/-- The bindings of a manifest from some place on, which starts the manifest or not. -/
inductive Bindings : Bool → Type where
  | none {first : Bool} (ending : Ending) : Bindings first
  | more {first : Bool} (before : Gap) (starts : StartsLine first (skeletonOf before.lexemes))
      (binding : Binding) (rest : Bindings false) : Bindings first

namespace Bindings

/-- The lexemes of some bindings. -/
def lexemes {first : Bool} : Bindings first → List Lexeme
  | .none ending => ending.lexemes
  | .more before _ binding rest => before.lexemes ++ (binding.lexemes ++ rest.lexemes)

/-- The text of some bindings. -/
def text {first : Bool} (bs : Bindings first) : List Char :=
  textOf bs.lexemes

/-- The constants that are bound, when the bindings begin on a line. -/
def constants {first : Bool} (line : Nat) : Bindings first → Constants
  | .none _ => []
  | .more before _ binding rest =>
    binding.constant (line + newlines before.lexemes) ::
      rest.constants (line + newlines before.lexemes + newlines binding.lexemes)

/-- The arguments of the first call of `Package`, and the line that they begin on, when the bindings
begin on a line. -/
def package? {first : Bool} (line : Nat) : Bindings first → Option (Nat × Row true)
  | .none _ => Option.none
  | .more before _ binding rest =>
    (binding.value.package? (binding.valueLine (line + newlines before.lexemes))).or
      (rest.package? (line + newlines before.lexemes + newlines binding.lexemes))

end Bindings

/-! ### The glyphs of a binding -/

namespace Binding

variable (b : Binding)

/-- The glyphs of a binding, part by part. -/
lemma glyphsFrom_append (line : Nat) (ys : List Lexeme) :
    glyphsFrom line 0 (b.lexemes ++ ys) = glyphsFrom line 0 b.heading.lexemes ++
      (glyphsFrom (line + newlines b.heading.lexemes) 0 b.afterSign.lexemes ++
        (glyphsFrom (b.valueLine line) 0 b.value.lexemes ++
          glyphsFrom (line + newlines b.lexemes) 0 ys)) := by
  have hlines : b.valueLine line + newlines b.value.lexemes = line + newlines b.lexemes := by
    rw [valueLine, lexemes, newlines_append, newlines_append]
    omega
  rw [lexemes, List.append_assoc, List.append_assoc,
    glyphsFrom_append_of_balanced b.heading.balanced,
    glyphsFrom_append_of_balanced (balanced_gap _), glyphsFrom_append_of_balanced b.value.balanced,
    ← lexemes, ← hlines, valueLine]

end Binding

namespace Bindings

/-- After a binding there is nothing but space, or another one starts a line. -/
lemma resumes (rest : Bindings false) (line : Nat) :
    ∃ gap next, glyphsFrom line 0 rest.lexemes = gap ++ next ∧ ResumesWith gap next := by
  cases rest with
  | none ending => exact ⟨_, [], (List.append_nil _).symm, ending.resumesWith line⟩
  | more before starts b rest =>
    refine ⟨_, _, glyphsFrom_append_of_balanced (balanced_gap before) line 0 _, ?_⟩
    rw [b.glyphsFrom_append, ← b.heading.lexemes_toPreamble]
    exact b.heading.toPreamble.resumesWith starts _ _ _

/-! ### The text of some bindings -/

/-- The text of some bindings begins with no quote. -/
lemma head?_textOf_ne {first : Bool} (bs : Bindings first) :
    (textOf bs.lexemes).head? ≠ some '"' := by
  cases bs with
  | none ending => exact ending.head?_textOf_ne
  | more before starts b rest =>
    rw [lexemes, Binding.lexemes, List.append_assoc, ← b.heading.lexemes_toPreamble]
    exact b.heading.toPreamble.head?_textOf_ne before _

/-- Some bindings are recovered from their text. -/
lemma lexemes_textOf {first : Bool} (bs : Bindings first) :
    Source.lexemes (textOf bs.lexemes) = bs.lexemes := by
  induction bs with
  | none ending => exact ending.lexemes_textOf
  | more before starts b rest ih =>
    rw [lexemes, Binding.lexemes, List.append_assoc, List.append_assoc,
      ← b.heading.lexemes_toPreamble]
    exact b.heading.toPreamble.lexemes_textOf_append before b.afterSign b.value ih
      rest.head?_textOf_ne

/-- The text of bindings is scanned as what they are written with. -/
lemma glyphs_text {first : Bool} (bs : Bindings first) :
    glyphs bs.text = glyphsFrom 1 0 bs.lexemes := by
  rw [glyphs, text, bs.lexemes_textOf]

/-! ### The reading by sections -/

/-- The constants that are found are the bindings with the terms of their values. -/
theorem constants_glyphsFrom {first : Bool} (bs : Bindings first) (line : Nat) :
    Fragment.constants first (glyphsFrom line 0 bs.lexemes) = bs.constants line := by
  induction bs generalizing line with
  | none ending => exact ending.constants_glyphsFrom _ line
  | more before starts b rest ih =>
    obtain ⟨gap, next, hrest, hresumes⟩ :=
      rest.resumes (line + newlines before.lexemes + newlines b.lexemes)
    rw [lexemes, glyphsFrom_append_of_balanced (balanced_gap before), b.glyphsFrom_append, hrest,
      ← b.heading.lexemes_toPreamble,
      b.heading.toPreamble.constants_append starts b.afterSign b.joined _ _ _ _ hresumes,
      b.heading.recorded?_toPreamble, ← hrest, ih]
    rfl

/-- The constructed package has the arguments of the first call of `Package`. -/
theorem package?_glyphsFrom {first : Bool} (bs : Bindings first) (line : Nat) (joined : Bool)
    {found : Nat × Row true} (h : bs.package? line = some found) :
    ∃ depth span, Fragment.package? joined (glyphsFrom line 0 bs.lexemes) =
      some ⟨sections (glyphsFrom found.1 depth found.2.lexemes), span⟩ := by
  induction bs generalizing line joined with
  | none ending => simp [package?] at h
  | more before starts b rest ih =>
    obtain ⟨gap, next, hrest, hresumes⟩ :=
      rest.resumes (line + newlines before.lexemes + newlines b.lexemes)
    have hends := hresumes.endsName
    rw [← hrest] at hends
    have hvalue := b.value.findsSections (b.valueLine (line + newlines before.lexemes)) 0 hends
    rw [lexemes, glyphsFrom_append_of_balanced (balanced_gap before), b.glyphsFrom_append,
      package?_gap (allBlank_gap _ _ _), Heading.package?_append, package?_gap (allBlank_gap _ _ _),
      Bool.false_and]
    rw [package?] at h
    unfold FindsSections at hvalue
    cases hfound : b.value.package? (b.valueLine (line + newlines before.lexemes)) with
    | some _ =>
      rw [hfound] at h hvalue
      obtain rfl := Option.some.inj h
      exact hvalue
    | none =>
      rw [hfound] at h hvalue
      obtain ⟨joined', hjoined⟩ := hvalue
      rw [hjoined]
      exact ih _ _ h

end Bindings

end SwiftDependencies
