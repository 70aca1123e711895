import SwiftDependencies.Source.StringLiteral
import SwiftDependencies.Source.Text
import SwiftDependencies.Term

/-!
# The term that a fragment writes

A fragment is a stretch of a source text, as glyphs. Without its blank margins it is a string
literal if it is covered by one literal, an array if its first bracket is square and closes at the
end of it, a reference if it is an identifier, and a call if it is a dotted name with a bracket that
closes at its end. The items of an array and the arguments of a call are the pieces between commas
at the level of the bracket, without the blank ones; an argument may begin with a label and a colon.
-/

namespace SwiftDependencies.Source

/-- A stretch of a source text. -/
abbrev Fragment := List Glyph

namespace Fragment

/-- The skeleton of a fragment. -/
def chars (f : Fragment) : List Char :=
  f.map (·.skeleton)

/-- The fragment as it reads without comments. -/
def cleanText (f : Fragment) : List Char :=
  f.map (·.clean)

/-- The fragment without its blank margins. -/
def trimmed (f : Fragment) : Fragment :=
  Text.dropMargins Glyph.isBlank f

/-- Whether a fragment holds nothing but blanks. -/
def isBlank (f : Fragment) : Bool :=
  f.all Glyph.isBlank

/-- The fragment after the blanks in front of it. -/
def skipBlanks (f : Fragment) : Fragment :=
  f.dropWhile Glyph.isBlank

/-- Whether a fragment begins with a text. -/
def startsWith (text : List Char) (f : Fragment) : Bool :=
  text.isPrefixOf f.chars

/-- The character at the start. -/
def first? (f : Fragment) : Option Char :=
  f.head?.map (·.skeleton)

/-- The lines that a fragment spans. -/
def span (g : Glyph) (rest : Fragment) : Span :=
  ⟨g.line, (rest.getLastD g).line⟩

/-- How many characters at the start form an identifier. -/
def identifierLength (f : Fragment) : Nat :=
  if (first? f).any Text.isNameStart then (f.chars.takeWhile Text.isWord).length else 0

/-- The pieces of a fragment between the commas outside brackets, without the blank ones. -/
def items (f : Fragment) : List Fragment :=
  (piecesFrom (·.skeleton) (· == ',') 0 f).filter fun piece => !piece.isBlank

/-- What a list between brackets holds: the fragment without its first `n` glyphs and its last. -/
def inside (n : Nat) (f : Fragment) : Fragment :=
  (f.drop n).dropLast

/-- The length of a dotted name, the blanks after it and the opening bracket, at the start. -/
def calleeLength? (f : Fragment) : Option Nat :=
  let dot := if first? f == some '.' then 1 else 0
  let name := f.drop dot
  if !(first? name).any Text.isNameStart then none
  else
    let rest := name.dropWhile fun g => Text.isWord g.skeleton || g.skeleton == '.'
    let rest := skipBlanks rest
    if first? rest == some '(' then some (f.length - rest.length + 1) else none

/-- The label at the start of an argument, and the fragment after its colon. -/
def label? (f : Fragment) : Option (String × Fragment) :=
  let n := f.identifierLength
  let rest := skipBlanks (f.drop n)
  if n != 0 && first? rest == some ':' && first? (rest.drop 1) != some ':' then
    some (String.ofList (chars (f.take n)), rest.drop 1)
  else none

/-- An argument: its label, if it has one, and the fragment of its value. -/
def argument (f : Fragment) : Option String × Fragment :=
  match label? (f.trimmed) with
  | some (label, rest) => (some label, rest)
  | none => (none, f)

/-! ### Lengths -/

/-- Nothing is added when the blanks around a fragment are removed. -/
theorem length_trimmed_le (f : Fragment) : f.trimmed.length ≤ f.length :=
  Text.length_dropMargins_le _ f

/-- Nothing is added when the blanks in front are skipped. -/
theorem length_skipBlanks_le (f : Fragment) : f.skipBlanks.length ≤ f.length :=
  (List.dropWhile_sublist _).length_le

/-- The items of a fragment are no longer than the fragment. -/
theorem length_le_of_mem_items {f piece : Fragment} (h : piece ∈ f.items) :
    piece.length ≤ f.length :=
  length_le_of_mem_piecesFrom (List.mem_filter.1 h).1

/-- The value of an argument is no longer than the argument. -/
theorem length_argument_le (f : Fragment) : f.argument.2.length ≤ f.length := by
  unfold argument
  split
  · rename_i label rest h
    simp only [label?] at h
    split at h
    · obtain ⟨-, rfl⟩ := Prod.mk.inj (Option.some.inj h)
      have h₁ := length_skipBlanks_le (List.drop f.trimmed.identifierLength f.trimmed)
      have h₂ := f.length_trimmed_le
      simp only [List.length_drop] at h₁ ⊢
      omega
    · simp at h
  · exact Nat.le_refl _

/-- What is inside of brackets is shorter than what has the brackets around it. -/
theorem length_inside_lt {f : Fragment} (n : Nat) (h : f ≠ []) :
    (f.inside n).length < f.length := by
  have := List.length_pos_iff.2 h
  simp only [inside, List.length_dropLast, List.length_drop]
  omega

/-! ### Terms -/

/-- The term that a fragment writes. -/
def term (f : Fragment) : Term :=
  match h : f.trimmed with
  | [] => .unknown "" ⟨0, 0⟩
  | g :: rest =>
    let all : Fragment := g :: rest
    have hlt (n : Nat) : (all.inside n).length < f.length :=
      Nat.lt_of_lt_of_le (length_inside_lt n (by simp [all]))
        (by have := f.length_trimmed_le; rwa [h] at this)
    let span := span g rest
    if g.literalLength = all.length then
      match literalValue? all.cleanText with
      | some value => .string (String.ofList value) span
      | none => .unknown (String.ofList all.cleanText) span
    else if g.skeleton = '[' ∧ closing? all.chars = some rest.length then
      .array ((all.inside 1).items.attach.map fun ⟨item, hi⟩ =>
        have := Nat.lt_of_le_of_lt (length_le_of_mem_items hi) (hlt 1)
        term item) span
    else if all.identifierLength = all.length then .reference (String.ofList all.chars) span
    else
      match all.calleeLength? with
      | none => .unknown (String.ofList all.cleanText) span
      | some n =>
        if closing? (all.chars.drop (n - 1)) = some (all.length - n) then
          .call (Term.lastPart (String.ofList (all.chars.take (n - 1))))
            ((all.inside n).items.attach.map fun ⟨item, hi⟩ =>
              have := Nat.lt_of_le_of_lt (Nat.le_trans item.length_argument_le
                (length_le_of_mem_items hi)) (hlt n)
              (item.argument.1, term item.argument.2)) span
        else .unknown (String.ofList all.cleanText) span
termination_by f.length

end Fragment

end SwiftDependencies.Source
