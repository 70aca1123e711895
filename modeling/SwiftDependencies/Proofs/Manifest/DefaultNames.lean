import Mathlib.Tactic.Common
import SwiftDependencies.Manifest.Interpretation
import SwiftDependencies.Proofs.Text.Margins
import SwiftDependencies.Proofs.Text.Pieces

/-!
# Names of packages that are not named

A reference to a package need not say its name.  Then the name is read off its origin: the part
after the last dot of an identifier, the last part of a path, or the last part of an address without
the ending of a repository.  Slashes at the end of a path or an address do not count.

Each lemma says for every text and every name whether it is the name that the text gives.
-/

namespace SwiftDependencies

namespace Manifest

variable {origin name : String}

/-- The name with an identifier is the part that it ends in after a dot. -/
lemma nameOfIdentifier_eq_iff :
    nameOfIdentifier origin = name ↔ Text.EndsIn (· == '.') origin.toList name.toList :=
  Text.lastPiece_eq_iff

/-- A text is written with some slashes after its proper part, which does not end with one. -/
def IsWithoutFinalSlashes (origin part : List Char) : Prop :=
  part.getLast? ≠ some '/' ∧ ∃ slashes, origin = part ++ List.replicate slashes '/'

/-- The final slashes are all that is removed from a text. -/
lemma isWithoutFinalSlashes_iff {part : List Char} :
    IsWithoutFinalSlashes origin.toList part ↔ (withoutFinalSlashes origin).toList = part := by
  rw [withoutFinalSlashes, String.toList_ofList, Text.dropEnd_eq_iff]
  refine and_congr ?_ ⟨?_, ?_⟩
  · simp only [Option.mem_def, beq_eq_false_iff_ne]
    constructor
    · rintro h c hc rfl
      exact h hc
    · intro h hslash
      exact h _ hslash rfl
  · rintro ⟨slashes, h⟩
    exact ⟨_, fun c hc => beq_iff_eq.2 (List.eq_of_mem_replicate hc), h⟩
  · rintro ⟨after, hafter, h⟩
    refine ⟨after.length, h.trans ?_⟩
    rw [← List.eq_replicate_of_mem fun c hc => beq_iff_eq.1 (hafter c hc)]

/-- The name at a path is the part that it ends in after a slash, where final slashes do not
count. -/
lemma nameOfPath_eq_iff :
    nameOfPath origin = name ↔
      ∃ path, IsWithoutFinalSlashes origin.toList path ∧
        Text.EndsIn (· == '/') path name.toList := by
  simp only [isWithoutFinalSlashes_iff, exists_eq_left']
  exact Text.lastPiece_eq_iff

/-- The ending of a repository is removed where there is one. -/
lemma nameOfAddress_of_tail {tail : List Char}
    (h : Text.EndsIn (fun c => c == '/' || c == ':') (withoutFinalSlashes origin).toList tail) :
    nameOfAddress origin = name ↔
      tail = name.toList ++ ".git".toList ∨ ¬".git".toList <:+ tail ∧ tail = name.toList := by
  have htail :
      (Text.lastPiece (fun c => c == '/' || c == ':') (withoutFinalSlashes origin)).toList =
        tail := by
    rw [← String.toList_ofList (l := tail), ← Text.lastPiece_eq_iff] at h
    rw [h, String.toList_ofList]
  rw [nameOfAddress, ← String.toList_inj]
  rw [← String.length_toList, htail]
  by_cases hgit : ".git".toList <:+ tail
  · rw [if_pos (List.isSuffixOf_iff_suffix.2 hgit)]
    obtain ⟨front, rfl⟩ := hgit
    simp
  · rw [if_neg (mt List.isSuffixOf_iff_suffix.1 hgit), htail]
    have hnot : tail ≠ name.toList ++ ".git".toList := fun hfront => hgit ⟨_, hfront.symm⟩
    exact ⟨fun hname => .inr ⟨hgit, hname⟩, fun hname => (hname.resolve_left hnot).2⟩

/-- The name at an address is the part that it ends in after a slash or a colon, where final slashes
do not count and neither does the ending `.git` of that part. -/
lemma nameOfAddress_eq_iff :
    nameOfAddress origin = name ↔
      ∃ address tail, IsWithoutFinalSlashes origin.toList address ∧
        Text.EndsIn (fun c => c == '/' || c == ':') address tail ∧
        (tail = name.toList ++ ".git".toList ∨ ¬".git".toList <:+ tail ∧
          tail = name.toList) := by
  simp only [isWithoutFinalSlashes_iff]
  constructor
  · intro h
    obtain ⟨tail, htail⟩ := Text.exists_endsIn _ (withoutFinalSlashes origin).toList
    exact ⟨_, tail, rfl, htail, (nameOfAddress_of_tail htail).1 h⟩
  · rintro ⟨_, tail, rfl, htail, hname⟩
    exact (nameOfAddress_of_tail htail).2 hname

/-- An address of a repository gives the name of the repository. -/
example : nameOfAddress "https://github.com/apple/swift-nio.git" = "swift-nio" := by
  decide +kernel

end Manifest

end SwiftDependencies
