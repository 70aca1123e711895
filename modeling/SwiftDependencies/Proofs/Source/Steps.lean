import Mathlib.Tactic.Common
import SwiftDependencies.Source.Lexeme

/-!
# What a step inside a literal can do

Inside a literal the reader keeps a stack of the frames that are open: literals, and interpolations
with a count of their parentheses.  At every character it goes on with the same frames or with one
more, one less or one that counts differently (`StepsTo`), or it finishes the literal, or it cuts
the literal off.  `isStep_step` says when it may do which.

Everything that holds all the way through a literal is shown from these cases: what frames there can
be, where a literal ends, and that the one opened first stays at the bottom.
-/

namespace SwiftDependencies.Source

variable {frames frames' : List Frame} {c : Char} {cs : List Char} {extra : Nat}

/-- How the open frames change where the reader goes on. -/
inductive StepsTo : List Frame → List Frame → Prop
  | stays (frames : List Frame) : StepsTo frames frames
  | opens (hashes : Nat) (cs : List Char) (frames : List Frame) :
      StepsTo frames ((opening hashes cs).2 :: frames)
  | interpolates (parentheses : Nat) (frames : List Frame) :
      StepsTo frames (.interpolation parentheses :: frames)
  | counts (before after : Nat) (outer : List Frame) :
      StepsTo (.interpolation before :: outer) (.interpolation after :: outer)
  | returns (parentheses : Nat) (outer : List Frame) :
      StepsTo (.interpolation parentheses :: outer) outer
  /-- The last literal is not closed by going on. -/
  | closes (closing : List Char) (raw short : Bool) {outer : List Frame} (inside : outer ≠ []) :
      StepsTo (.literal closing raw short :: outer) outer

/-- The steps that are possible at a character. -/
inductive IsStep (frames : List Frame) (c : Char) (cs : List Char) : Step → Prop
  | more {extra : Nat} {frames' : List Frame} (goes : StepsTo frames frames') :
      IsStep frames c cs (.more extra frames')
  /-- The last literal is finished by what closes it. -/
  | finish {closing : List Char} {raw short : Bool} (last : frames = [.literal closing raw short])
    (closed : closing <+: c :: cs) : IsStep frames c cs (.finish (closing.length - 1))
  /-- A literal is cut off before the end of its line. -/
  | cut (ends : frames = [] ∨ c = '\n') : IsStep frames c cs .cut

/-- A step is one of those that are possible. -/
lemma isStep_step (frames : List Frame) (c : Char) (cs : List Char) :
    IsStep frames c cs (step frames c cs) := by
  match frames with
  | [] => exact .cut (.inl rfl)
  | .literal closing raw short :: outer =>
    simp only [step, literalStep]
    split
    · split
      · exact .more (.interpolates ..)
      · exact .more (.stays _)
    split
    · rename_i hclosing
      split
      · rename_i hempty
        obtain rfl := List.isEmpty_iff.1 hempty
        exact .finish rfl (List.isPrefixOf_iff_prefix.1 hclosing)
      · rename_i hinside
        exact .more (.closes _ _ _ (by simpa using hinside))
    split
    · rename_i hline
      split
      · exact .cut (.inr (beq_iff_eq.1 (Bool.and_eq_true_iff.1 hline).1))
      · rename_i hinside
        exact .more (.closes _ _ _ (by simpa using hinside))
    · exact .more (.stays _)
  | .interpolation parentheses :: outer =>
    simp only [step, interpolationStep]
    split
    · exact .more (.opens ..)
    split
    · exact .more (.counts ..)
    split
    · split
      · exact .more (.returns ..)
      · exact .more (.counts ..)
    · exact .more (.stays _)

/-- Where the reader goes on, the frames change in one of the possible ways. -/
lemma stepsTo_of_step (h : step frames c cs = .more extra frames') : StepsTo frames frames' := by
  have hstep := isStep_step frames c cs
  rw [h] at hstep
  cases hstep with
  | more goes => exact goes

/-- A step leaves open what was open, literals that it opens, and interpolations. -/
lemma forall_of_step {P : Frame → Prop} (hopening : ∀ hashes cs, P (opening hashes cs).2)
    (hinterpolation : ∀ n, P (.interpolation n)) (hf : ∀ f ∈ frames, P f)
    (h : step frames c cs = .more extra frames') : ∀ f ∈ frames', P f := by
  cases stepsTo_of_step h with
  | stays => exact hf
  | opens hashes cs => exact List.forall_mem_cons.2 ⟨hopening hashes cs, hf⟩
  | interpolates parentheses => exact List.forall_mem_cons.2 ⟨hinterpolation parentheses, hf⟩
  | counts before after =>
    exact List.forall_mem_cons.2 ⟨hinterpolation after, (List.forall_mem_cons.1 hf).2⟩
  | returns => exact (List.forall_mem_cons.1 hf).2
  | closes => exact (List.forall_mem_cons.1 hf).2

/-- A literal is finished by what closes it, and it is one of the frames. -/
lemma exists_of_step_eq_finish (h : step frames c cs = .finish extra) :
    ∃ closing raw short, Frame.literal closing raw short ∈ frames ∧ closing <+: c :: cs ∧
      extra = closing.length - 1 := by
  have hstep := isStep_step frames c cs
  rw [h] at hstep
  cases hstep with
  | finish last closed => exact ⟨_, _, _, last ▸ List.mem_singleton_self _, closed, rfl⟩

/-- A literal is cut off before a line feed only. -/
lemma eq_newline_of_step (h : step frames c cs = .cut) : frames = [] ∨ c = '\n' := by
  have hstep := isStep_step frames c cs
  rw [h] at hstep
  cases hstep with
  | cut ends => exact ends

end SwiftDependencies.Source
