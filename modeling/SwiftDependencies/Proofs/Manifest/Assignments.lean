import Mathlib.Tactic.Common
import SwiftDependencies.Proofs.Manifest.Places
import SwiftDependencies.Proofs.Manifest.Values

/-!
# Rows of assignments

`Assignments` is a manifest that consists of assignments of plain expressions, each of which starts
a line, with all the space in it.  Reading it by sections gives back what is written: the
assignments in their order, with the types of their elements, and with terms that span the lines of
the first and the last character of their expressions (`Assignments.constants_text`).
-/

namespace SwiftDependencies

open Source Source.Fragment

/-! ### Assignments -/

/-- An assignment of a plain expression. Between the callee of a value and its parenthesis there is
no line feed. -/
structure Assignment where
  preamble : Preamble
  afterSign : Gap
  value : Written
  plain : value.IsPlain
  joined : ∀ callee gap arguments, value = .call callee gap arguments → newlines gap.lexemes = 0

namespace Assignment

variable (a : Assignment)

/-- The lexemes of an assignment. -/
def lexemes : List Lexeme :=
  a.preamble.lexemes ++ (a.afterSign.lexemes ++ a.value.lexemes)

/-- The constant that is assigned, when the assignment begins at an offset. -/
def constantAt (lineOf : Nat → Nat) (start : Nat) : Constant :=
  ⟨String.ofList a.preamble.name.chars,
    a.value.termAt lineOf
      (start + (textOf a.preamble.lexemes).length + (textOf a.afterSign.lexemes).length),
    a.preamble.type.bind fun t => t.element.recorded?⟩

end Assignment

/-- The assignments of a manifest from some place on, which starts the manifest or not. -/
inductive Assignments : Bool → Type where
  | done {first : Bool} (ending : Ending) : Assignments first
  | more {first : Bool} (before : Gap) (starts : StartsLine first (skeletonOf before.lexemes))
      (assignment : Assignment) (rest : Assignments false) : Assignments first

namespace Assignments

/-- The lexemes of some assignments. -/
def lexemes {first : Bool} : Assignments first → List Lexeme
  | .done ending => ending.lexemes
  | .more before _ a rest => before.lexemes ++ (a.lexemes ++ rest.lexemes)

/-- The text of some assignments. -/
def text {first : Bool} (as : Assignments first) : List Char :=
  textOf as.lexemes

/-- The constants that are assigned, when the assignments begin at an offset. -/
def constantsAt {first : Bool} (lineOf : Nat → Nat) (start : Nat) :
    Assignments first → Constants
  | .done _ => []
  | .more before _ a rest =>
    a.constantAt lineOf (start + (textOf before.lexemes).length) ::
      rest.constantsAt lineOf (start + (textOf before.lexemes).length + (textOf a.lexemes).length)

end Assignments

/-! ### The text of some assignments -/

namespace Assignments

/-- The text of some assignments begins with no quote. -/
lemma head?_textOf_ne {first : Bool} (as : Assignments first) :
    (textOf as.lexemes).head? ≠ some '"' := by
  cases as with
  | done ending => exact ending.head?_textOf_ne
  | more before starts a rest =>
    rw [lexemes, Assignment.lexemes, List.append_assoc]
    exact a.preamble.head?_textOf_ne before _

/-- Some assignments are recovered from their text. -/
lemma lexemes_textOf {first : Bool} (as : Assignments first) :
    Source.lexemes (textOf as.lexemes) = as.lexemes := by
  induction as with
  | done ending => exact ending.lexemes_textOf
  | more before starts a rest ih =>
    rw [lexemes, Assignment.lexemes, List.append_assoc, List.append_assoc]
    exact a.preamble.lexemes_textOf_append before a.afterSign a.value ih rest.head?_textOf_ne

/-- The text of assignments is scanned as what they are written with. -/
lemma glyphs_text {first : Bool} (as : Assignments first) :
    glyphs as.text = glyphsFrom 1 0 as.lexemes := by
  rw [glyphs, text, as.lexemes_textOf]

end Assignments

/-! ### The reading by sections -/

namespace Assignment

variable (a : Assignment)

/-- The glyphs of an assignment, part by part. -/
lemma glyphsFrom_append (line : Nat) (ys : List Lexeme) :
    glyphsFrom line 0 (a.lexemes ++ ys) = glyphsFrom line 0 a.preamble.lexemes ++
      (glyphsFrom (line + newlines a.preamble.lexemes) 0 a.afterSign.lexemes ++
        (glyphsFrom (line + newlines a.preamble.lexemes + newlines a.afterSign.lexemes)
          0 a.value.lexemes ++ glyphsFrom (line + newlines a.lexemes) 0 ys)) := by
  have hlines : line + newlines a.preamble.lexemes + newlines a.afterSign.lexemes +
      newlines a.value.lexemes = line + newlines a.lexemes := by
    rw [lexemes, newlines_append, newlines_append]
    omega
  rw [lexemes, List.append_assoc, List.append_assoc,
    glyphsFrom_append_of_balanced a.preamble.balanced,
    glyphsFrom_append_of_balanced (balanced_gap _), glyphsFrom_append_of_balanced a.value.balanced,
    ← lexemes, hlines]

/-- An assignment that starts a line is the first constant that is found. -/
lemma constants_append {first : Bool} {before : Gap}
    (starts : StartsLine first (skeletonOf before.lexemes)) {lineOf : Nat → Nat}
    {start line : Nat}
    (hlines : Counts lineOf (start + (textOf before.lexemes).length)
      (line + newlines before.lexemes) a.lexemes) (ys : List Lexeme) {gap next : Fragment}
    (hrest : glyphsFrom (line + newlines before.lexemes + newlines a.lexemes) 0 ys = gap ++ next)
    (h : ResumesWith gap next) :
    Fragment.constants first (glyphsFrom line 0 (before.lexemes ++ (a.lexemes ++ ys))) =
      a.constantAt lineOf (start + (textOf before.lexemes).length) ::
        Fragment.constants false (gap ++ next) := by
  have hvalue := a.value.term_eq_termAt a.plain hlines.right.right
  rw [glyphsFrom_append_of_balanced (balanced_gap before), a.glyphsFrom_append, hrest,
    a.preamble.constants_append starts a.afterSign a.joined _ _ _ _ h, hvalue]
  rfl

end Assignment

namespace Assignments

/-- After an assignment there is nothing but space, or another one starts a line. -/
lemma resumes (rest : Assignments false) (line : Nat) :
    ∃ gap next, glyphsFrom line 0 rest.lexemes = gap ++ next ∧ ResumesWith gap next := by
  cases rest with
  | done ending => exact ⟨_, [], (List.append_nil _).symm, ending.resumesWith line⟩
  | more before starts a rest =>
    refine ⟨_, _, glyphsFrom_append_of_balanced (balanced_gap before) line 0 _, ?_⟩
    rw [a.glyphsFrom_append]
    exact a.preamble.resumesWith starts _ _ _

/-- The constants that are found are the assignments, with terms that span the lines of their
characters. -/
theorem constants_glyphsFrom {first : Bool} (as : Assignments first) {lineOf : Nat → Nat}
    {start line : Nat} (h : Counts lineOf start line as.lexemes) :
    Fragment.constants first (glyphsFrom line 0 as.lexemes) = as.constantsAt lineOf start := by
  induction as generalizing start line with
  | done ending => exact ending.constants_glyphsFrom _ line
  | more before starts a rest ih =>
    obtain ⟨gap, next, hrest, hresumes⟩ :=
      rest.resumes (line + newlines before.lexemes + newlines a.lexemes)
    rw [lexemes, a.constants_append starts h.right.left rest.lexemes hrest hresumes, ← hrest,
      ih h.right.right, constantsAt]

/-- Reading a manifest of assignments by its sections gives back what is written. -/
theorem constants_text (as : Assignments true) :
    (Manifest.ofSections as.text).constants = as.constantsAt (countedLine as.text) 0 := by
  rw [Manifest.ofSections, as.glyphs_text]
  exact as.constants_glyphsFrom (counts_countedLine as.lexemes)

/-- What is written otherwise is not given back. An attribute with arguments, an access level with
arguments, a type over several lines, and a blank that is neither a space nor a tab hide an
assignment; of the type of elements only a name is recorded, without blanks and without its module;
and a call is not read when there is a blank in its dotted callee. -/
theorem constants_of_other_layouts :
    (Manifest.ofSections "@available(swift, introduced: 5.5) let x = \"a\"\n".toList).constants =
      [] ∧
      (Manifest.ofSections "private(set) var x = \"a\"\n".toList).constants = [] ∧
      (Manifest.ofSections "let x: [\n  Target\n] = []\n".toList).constants = [] ∧
      (Manifest.ofSections "\x0clet x = \"a\"\n".toList).constants = [] ∧
      (Manifest.ofSections "let x: [[Target]] = []\n".toList).constants.map (·.elementType) =
        [none] ∧
      (Manifest.ofSections "let x: [any Target] = []\n".toList).constants.map (·.elementType) =
        [some "anyTarget"] ∧
      (Manifest.ofSections "let x: [PackageDescription.Target] = []\n".toList).constants.map
        (·.elementType) =
        [some "Target"] ∧
      (Manifest.ofSections "let x = Target .target(name: \"A\")\n".toList).constants.map
        (fun c => c.value matches .unknown _ _) = [true] := by
  decide +kernel

end Assignments

end SwiftDependencies
