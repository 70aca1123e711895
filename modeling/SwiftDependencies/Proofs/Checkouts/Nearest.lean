import Mathlib.Data.List.Range
import Mathlib.Logic.Function.Iterate
import Mathlib.Tactic.Common
import SwiftDependencies.Checkouts

/-!
# The nearest directory of checkouts

The directory of checkouts is looked for in a place, in the place above it, and so on up to the
root, but at most a given number of levels above the start.  Here the places above are said by going
up level by level (`Place.ancestor`), from the root to the root itself, and the nearest directory by
its distance (`IsNearest`).

A step up costs one of the places that may be looked at, so the whole way is a search through the
distances up to the root, as many as there may be (`climb_eq`).  That it ends at the root loses
nothing, because from there on all places above are the root.  A search that may go further finds
the same directory if there was one within reach already, since the distance of the nearest one does
not depend on the reach.
-/

namespace SwiftDependencies

section Start

variable {fs : FileSystem} {path : Path}

/-- A path without the character that ends every path leads somewhere. -/
lemma resolve_of_not_hasEndMark (h : path.hasEndMark = false) :
    fs.resolve path = .ok (fs.place path) := by
  simp [FileSystem.resolve, Path.checked, h, Functor.map, Except.map]

/-- A path with the character that ends every path cannot be looked for. -/
lemma resolve_of_hasEndMark (h : path.hasEndMark = true) :
    fs.resolve path = .error .endMark := by
  simp [FileSystem.resolve, Path.checked, h, Functor.map, Except.map]

end Start

/-! ### Going up -/

namespace Place

variable {p : Place} {k : ℕ}

/-- The place some levels above a place. -/
def ancestor (p : Place) (k : ℕ) : Place :=
  parent^[k] p

/-- The places above a place are those above the next one, one level further up. -/
lemma ancestor_succ (p : Place) (k : ℕ) : p.ancestor (k + 1) = p.parent.ancestor k :=
  rfl

/-- Only the root is above itself. -/
lemma parent_eq_self_iff : p.parent = p ↔ p.names = [] := by
  constructor
  · intro h
    have hlength := congrArg (fun q => q.names.length) h
    simp only [parent, List.length_dropLast] at hlength
    exact List.length_eq_zero_iff.1 (by omega)
  · intro h
    obtain ⟨names⟩ := p
    obtain rfl := h
    rfl

/-- Every level takes one name off the end. -/
lemma ancestor_eq (p : Place) (k : ℕ) :
    p.ancestor k = ⟨p.names.take (p.names.length - k)⟩ := by
  induction k with
  | zero => simp [ancestor]
  | succ k ih =>
    rw [ancestor, Function.iterate_succ_apply', ← ancestor, ih, parent, List.dropLast_eq_take,
      List.take_take, List.length_take]
    congr 2
    omega

/-- All places further up than the root are the root. -/
lemma ancestor_of_length_le (h : p.names.length ≤ k) :
    p.ancestor k = p.ancestor p.names.length := by
  rw [ancestor_eq, ancestor_eq, Nat.sub_eq_zero_of_le h, Nat.sub_self]

end Place

/-! ### The nearest directory -/

namespace FileSystem

variable {fs : FileSystem} {p : Place} {depth k : ℕ} {checkouts : Path}

/-- The nearest directory of checkouts lies so many levels above a place, within reach. -/
structure IsNearest (fs : FileSystem) (p : Place) (depth k : ℕ) : Prop where
  le_depth : k ≤ depth
  /-- The root is as far up as one can go. -/
  le_root : k ≤ p.names.length
  isDirectory : fs.isDirectory (p.ancestor k).checkouts = true
  nearest : ∀ j < k, fs.isDirectory (p.ancestor j).checkouts = false

/-- The distance does not depend on the reach. -/
lemma IsNearest.mono {more : ℕ} (h : fs.IsNearest p depth k) (hle : depth ≤ more) :
    fs.IsNearest p more k :=
  { h with le_depth := h.le_depth.trans hle }

/-- From a place without a directory of checkouts the way goes on above, unless this is the root. -/
lemma climb_succ_of_not (h : fs.isDirectory p.checkouts = false) (places : ℕ) :
    fs.climb (places + 1) p = if p.names = [] then none else fs.climb places p.parent := by
  simp [climb, h, Place.parent_eq_self_iff]

/-- The way up is a search through the distances to the places above, up to the root. -/
lemma climb_eq (fs : FileSystem) (places : ℕ) (p : Place) :
    fs.climb places p =
      ((List.range (min places (p.names.length + 1))).find? fun k =>
        fs.isDirectory (p.ancestor k).checkouts).map fun k => (p.ancestor k).checkouts := by
  induction places generalizing p with
  | zero => simp [climb]
  | succ places ih =>
    have hzero : p.ancestor 0 = p := rfl
    rw [Nat.succ_min_succ, List.range_succ_eq_map, List.find?_cons, hzero]
    cases hdirectory : fs.isDirectory p.checkouts with
    | true => simp [climb, hdirectory, hzero]
    | false =>
      rw [climb_succ_of_not hdirectory]
      by_cases hroot : p.names = []
      · simp [hroot]
      · have hlength : p.names.length = p.parent.names.length + 1 := by
          have := List.length_pos_iff.2 hroot
          simp only [Place.parent, List.length_dropLast]
          omega
        rw [if_neg hroot, ih, hlength, List.find?_map, Option.map_map]
        simp only [Function.comp_def, Nat.succ_eq_add_one, Place.ancestor_succ]

/-- To go at most so many levels up is to look at one place more. -/
lemma checkoutsAbove_natCast (fs : FileSystem) (depth : ℕ) (p : Place) :
    fs.checkoutsAbove depth p = fs.climb (depth + 1) p := by
  have hreach : ((depth : ℤ) + 1).toNat = depth + 1 := by omega
  rw [checkoutsAbove, hreach]

/-- What is found is the nearest directory of checkouts. -/
lemma checkoutsAbove_eq_some_iff :
    fs.checkoutsAbove depth p = some checkouts ↔
      ∃ k, fs.IsNearest p depth k ∧ checkouts = (p.ancestor k).checkouts := by
  rw [checkoutsAbove_natCast, climb_eq, Option.map_eq_some_iff]
  refine exists_congr fun k => ?_
  rw [List.find?_range_eq_some, List.mem_range, Nat.lt_min, Nat.lt_succ_iff, Nat.lt_succ_iff]
  constructor
  · rintro ⟨⟨hdirectory, ⟨hdepth, hroot⟩, hbefore⟩, rfl⟩
    exact ⟨⟨hdepth, hroot, hdirectory, fun j hj => by simpa using hbefore j hj⟩, rfl⟩
  · rintro ⟨⟨hdepth, hroot, hdirectory, hbefore⟩, rfl⟩
    exact ⟨⟨hdirectory, ⟨hdepth, hroot⟩, fun j hj => by simpa using hbefore j hj⟩, rfl⟩

/-- Nothing is found if there is no directory of checkouts within reach. -/
lemma checkoutsAbove_eq_none_iff :
    fs.checkoutsAbove depth p = none ↔
      ∀ k ≤ depth, fs.isDirectory (p.ancestor k).checkouts = false := by
  rw [checkoutsAbove_natCast, climb_eq, Option.map_eq_none_iff, List.find?_eq_none]
  simp only [List.mem_range, Nat.lt_min, Nat.lt_succ_iff, Bool.not_eq_true]
  constructor
  · intro h k hk
    rcases Nat.le_total k p.names.length with hroot | hroot
    · exact h k ⟨hk, hroot⟩
    · rw [Place.ancestor_of_length_le hroot]
      exact h _ ⟨hroot.trans hk, Nat.le_refl _⟩
  · rintro h k ⟨hk, -⟩
    exact h k hk

/-- The search starts where the start is resolved to, if it can be. -/
lemma findCheckouts_eq_ok_iff {start : Path} {found : Option Path} :
    fs.findCheckouts depth start = .ok found ↔
      ∃ p, fs.resolve start = .ok p ∧ fs.checkoutsAbove depth p = found := by
  rw [findCheckouts]
  cases fs.resolve start <;> simp [Functor.map, Except.map]

/-- From a start that can be looked for on disk there is an answer: the directory of checkouts of
the nearest place that has one, where the start itself is the nearest place, or none exactly if no
place within reach has one. A search that may go further keeps to the directory that is found. -/
theorem findCheckouts_nearest (fs : FileSystem) (start : Path) (depth : ℕ) :
    ((∃ found, fs.findCheckouts depth start = .ok found) ↔ start.hasEndMark = false) ∧
      (∀ checkouts, fs.findCheckouts depth start = .ok (some checkouts) ↔
        ∃ p, fs.resolve start = .ok p ∧
          ∃ k, fs.IsNearest p depth k ∧ checkouts = (p.ancestor k).checkouts) ∧
      (fs.findCheckouts depth start = .ok none ↔
        ∃ p, fs.resolve start = .ok p ∧
          ∀ k ≤ depth, fs.isDirectory (p.ancestor k).checkouts = false) ∧
      ∀ checkouts, fs.findCheckouts depth start = .ok (some checkouts) →
        ∀ more, depth ≤ more → fs.findCheckouts more start = .ok (some checkouts) := by
  refine ⟨?answer, ?some, ?none, ?further⟩
  case answer =>
    simp only [findCheckouts_eq_ok_iff]
    cases hmark : start.hasEndMark with
    | true => simp [resolve_of_hasEndMark hmark]
    | false => simp [resolve_of_not_hasEndMark hmark]
  case some =>
    intro checkouts
    simp only [findCheckouts_eq_ok_iff, checkoutsAbove_eq_some_iff]
  case none =>
    simp only [findCheckouts_eq_ok_iff, checkoutsAbove_eq_none_iff]
  case further =>
    intro checkouts h more hle
    obtain ⟨p, hp, hfound⟩ := findCheckouts_eq_ok_iff.1 h
    obtain ⟨k, hnearest, rfl⟩ := checkoutsAbove_eq_some_iff.1 hfound
    exact findCheckouts_eq_ok_iff.2 ⟨p, hp,
      checkoutsAbove_eq_some_iff.2 ⟨k, hnearest.mono hle, rfl⟩⟩

/-- A way down and back up again starts where it began. -/
example :
    let fs : FileSystem := ⟨.directory [("App", .directory [("Sources", .directory []),
      (".build", .directory [("checkouts", .directory [])])])], ⟨["App"]⟩⟩
    fs.findCheckouts 0 (Path.ofString "Sources/..") =
      .ok (some ⟨.root, ["App", ".build", "checkouts"]⟩) := by
  decide +kernel

end FileSystem

end SwiftDependencies
