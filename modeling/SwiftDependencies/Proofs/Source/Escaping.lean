import Mathlib.Data.List.Infix
import Mathlib.Tactic.Common
import SwiftDependencies.Proofs.Source.Scanning
import SwiftDependencies.Source.StringLiteral

/-!
# Escaped literals

Every text can be written as the body of a literal on one line: a backslash, a quote, a line feed, a
tab, a carriage return and a NUL as escapes, all else as it is.  Escapes are taken two characters at
a time, from left to right, when a literal is looked for, so that the literal is found whole
whatever it says (`literals_quoted_escape`).

The value of the literal is the text again (`unescape_escape`), with one exception.  An
interpolation is looked for at every character of the body, and the escape of a backslash before a
parenthesis shows one at its second character (`interpolates_escape`).  Such a literal is refused as
if it did interpolate.
-/

namespace SwiftDependencies.Source

/-! ### Escapes -/

/-- The characters that are written as escapes, each with the character behind the backslash. -/
def escapes : List (Char × Char) :=
  [('\\', '\\'), ('"', '"'), ('\n', 'n'), ('\t', 't'), ('\r', 'r'), (Char.ofNat 0, '0')]

/-- A character as it is written in the body of a literal. -/
def escapeChar (c : Char) : List Char :=
  match escapes.lookup c with
  | some d => ['\\', d]
  | none => [c]

/-- A text as it is written in the body of a literal. -/
def escape (cs : List Char) : List Char :=
  cs.flatMap escapeChar

/-- Texts are escaped character by character. -/
@[simp] lemma escape_cons (c : Char) (cs : List Char) :
    escape (c :: cs) = escapeChar c ++ escape cs :=
  List.flatMap_cons

/-- What a character is written as: an escape that stands for it, or itself if it needs none. -/
lemma escapeChar_cases (c : Char) :
    (∃ d, escapeChar c = ['\\', d] ∧ escapeValue d = c ∧ d ≠ '(' ∧ d ≠ '\n' ∧
      (d = '\\' ↔ c = '\\')) ∨
      escapeChar c = [c] ∧ c ≠ '\\' ∧ c ≠ '"' ∧ c ≠ '\n' := by
  have htable : ∀ x ∈ escapes,
      escapeValue x.2 = x.1 ∧ x.2 ≠ '(' ∧ x.2 ≠ '\n' ∧ (x.2 = '\\' ↔ x.1 = '\\') := by
    decide
  unfold escapeChar
  cases h : escapes.lookup c with
  | some d =>
    obtain ⟨before, after, hmem, -⟩ := List.lookup_eq_some_iff.1 h
    exact .inl ⟨d, rfl, htable (c, d) (by simp [hmem])⟩
  | none =>
    refine .inr ⟨rfl, ?_, ?_, ?_⟩ <;>
    · rintro rfl
      exact absurd h (by decide)

/-- The body of a literal that is written with escapes is one that can be found. -/
lemma literalBody_escape (cs : List Char) : LiteralBody (escape cs) := by
  induction cs with
  | nil => exact .nil
  | cons c cs ih =>
    rw [escape_cons]
    rcases escapeChar_cases c with ⟨d, hd, -, hopen, hline, -⟩ | ⟨hc, hslash, hquote, hline⟩
    · rw [hd]
      exact .escape hopen hline ih
    · rw [hc]
      exact .char hquote hslash hline ih

/-- Escapes are undone one by one. -/
lemma unescape_escape (cs : List Char) : unescape (escape cs) = cs := by
  induction cs with
  | nil => rfl
  | cons c cs ih =>
    rw [escape_cons]
    rcases escapeChar_cases c with ⟨d, hd, hvalue, -, hline, -⟩ | ⟨hc, hslash, -, -⟩
    · have hstep : unescape ('\\' :: d :: escape cs) = escapeValue d :: unescape (escape cs) := by
        simp [unescape, hline]
      rw [hd, List.cons_append, List.singleton_append, hstep, hvalue, ih]
    · have hstep : unescape (c :: escape cs) = c :: unescape (escape cs) := by
        rw [unescape]
        · rintro rfl
          exact absurd rfl hslash
        · rintro d ds rfl
          exact absurd rfl hslash
      rw [hc, List.singleton_append, hstep, ih]

/-! ### Interpolations -/

/-- The beginning of an interpolation. -/
def interpolationMark : List Char := ['\\', '(']

/-- A text interpolates if it begins so or the rest does. -/
lemma interpolates_cons (c : Char) (cs : List Char) :
    interpolates (c :: cs) = true ↔
      c = '\\' ∧ cs.head? = some '(' ∨ interpolates cs = true := by
  rw [interpolates.eq_def]
  split
  · rename_i rest heq
    obtain ⟨rfl, rfl⟩ := List.cons.inj heq
    simp
  · rename_i d ds hnot heq
    obtain ⟨rfl, rfl⟩ := List.cons.inj heq
    constructor
    · exact .inr
    · rintro (⟨rfl, hhead⟩ | h)
      · obtain ⟨rest, rfl⟩ := List.head?_eq_some_iff.1 hhead
        exact (hnot rest rfl rfl).elim
      · exact h
  · rename_i heq
    simp at heq

/-- An escaped text begins with a parenthesis if the text does. -/
lemma head?_escape_eq_iff (cs : List Char) :
    (escape cs).head? = some '(' ↔ cs.head? = some '(' := by
  cases cs with
  | nil => rfl
  | cons c cs =>
    rw [escape_cons]
    rcases escapeChar_cases c with ⟨d, hd, hvalue, hopen, -, -⟩ | ⟨hc, -, -, -⟩
    · have hne : c ≠ '(' := by
        rintro rfl
        have hself : escapeChar '(' = ['('] := by decide
        rw [hself] at hd
        cases hd
      simp [hd, hne]
    · simp [hc]

/-- An escaped text shows an interpolation where the text has a backslash before a parenthesis. -/
lemma interpolates_escape (cs : List Char) :
    interpolates (escape cs) = true ↔ interpolationMark <:+: cs := by
  induction cs with
  | nil => simp [escape, interpolates, interpolationMark]
  | cons c cs ih =>
    have hmark : interpolationMark <+: c :: cs ↔ c = '\\' ∧ cs.head? = some '(' := by
      cases cs <;> simp [interpolationMark, List.cons_prefix_cons, eq_comm]
    rw [escape_cons, List.infix_cons_iff, hmark, ← ih, ← head?_escape_eq_iff cs]
    rcases escapeChar_cases c with ⟨d, hd, -, hopen, -, hslash⟩ | ⟨hc, hslash, -, -⟩
    · -- the backslash of the escape is followed by no parenthesis, but its second character may be
      rw [hd, List.cons_append, List.singleton_append, interpolates_cons, interpolates_cons, hslash]
      simp [hopen]
    · rw [hc, List.singleton_append, interpolates_cons]

/-! ### Values -/

/-- The value of a literal with a body that begins with no quote. -/
lemma literalValue?_quoted_eq {body : List Char} (h : body.head? ≠ some '"') :
    literalValue? (quoted body) = if interpolates body then none else some (unescape body) := by
  have hmargins : Text.dropMargins Text.isBlank (quoted body) = quoted body := by
    rw [Text.dropMargins, Text.dropStart, quoted,
      List.dropWhile_cons_of_neg (by decide), Text.dropEnd]
    simp [Text.isBlank]
  have hsigns : (quoted body).takeWhile (· == '#') = [] := by simp [quoted]
  have hends : dropBothEnds 0 (quoted body) = quoted body := by simp [dropBothEnds]
  have hbody : literalBody? (quoted body) = some body := by
    have hthree : isEnclosedBy ['"', '"', '"'] (quoted body) = false := by
      cases body with
      | nil => rfl
      | cons c cs =>
        have hc : ('"' == c) = false := by
          rw [beq_eq_false_iff_ne]
          rintro rfl
          exact h rfl
        simp [isEnclosedBy, quoted, List.isPrefixOf, hc]
    have hone : isEnclosedBy ['"'] (quoted body) = true := by
      simp [isEnclosedBy, quoted, List.isSuffixOf]
    have hdrop : dropBothEnds 1 (quoted body) = body := by simp [dropBothEnds, quoted]
    simp [literalBody?, hthree, hone, hdrop]
  simp [literalValue?, hmargins, hsigns, hends, hbody]

/-- The body of a literal does not begin with a quote. -/
lemma LiteralBody.head?_ne {body : List Char} (h : LiteralBody body) : body.head? ≠ some '"' := by
  cases h with
  | nil => simp
  | char quote _ _ _ => simpa using quote
  | escape => simp

/-- A literal on one line that is a text by itself is found whole. -/
lemma literals_quoted {body : List Char} (h : LiteralBody body) :
    literals (quoted body) = [⟨0, (quoted body).length⟩] := by
  have hlexemes : lexemes (quoted body) = [.literal (quoted body) true] := by
    simpa [Lexeme.text] using lexemes_textOf (scansBefore_quoted h)
  rw [literals, hlexemes]
  simp [literalsFrom]

/-- A text that is written as a literal with escapes is found as one literal that covers all of it.
The value of the literal is the text, unless the text has a backslash before an opening parenthesis:
then there is none. -/
theorem literalValue?_quoted_escape (cs : List Char) :
    (literalValue? (quoted (escape cs)) = if interpolationMark <:+: cs then none else some cs) ∧
      literals (quoted (escape cs)) = [⟨0, (quoted (escape cs)).length⟩] := by
  have hbody := literalBody_escape cs
  refine ⟨?_, literals_quoted hbody⟩
  rw [literalValue?_quoted_eq hbody.head?_ne, unescape_escape]
  simp only [interpolates_escape]

/-- The literal of a backslash and a parenthesis does not interpolate, but it has no value. -/
theorem literalValue?_escaped_mark :
    quoted (escape interpolationMark) = "\"\\\\(\"".toList ∧
      literalValue? (quoted (escape interpolationMark)) = none := by
  decide

end SwiftDependencies.Source
