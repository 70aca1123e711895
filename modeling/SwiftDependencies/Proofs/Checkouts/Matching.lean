import Mathlib.Tactic.Common
import SwiftDependencies.Checkouts
import SwiftDependencies.Proofs.Sorted

/-!
# The best match among checkouts

A package is matched with a directory by their names: they may be the same, be the same in small
letters, or one may contain the other in small letters.  A directory can fit in several of these
ways, and several directories can fit in the same way, so this file says without a search which
directory is meant: none has a better fit, and none that fits equally well comes before it by name
(`IsBestMatch`).

The search goes through the ways one after the other, better ones first, and through the directories
by name for each. What it finds is the first directory by name for the best way in which some
directory fits (`bestMatch?_eq_some_iff_fit`), and that is the best match
(`bestMatch?_eq_some_iff`).  Which directory is the best match does not depend on the order in which
they are listed, so neither does the search.
-/

namespace SwiftDependencies

/-! ### Fitting -/

/-- The ways in which a directory fits a package. -/
inductive Fits (name directory : String) : Fit → Prop
  | exact (eq : directory = name) : Fits name directory .exact
  | sameLetters (eq : Text.lowercase directory = Text.lowercase name) :
    Fits name directory .sameLetters
  | contains (part : (Text.lowercase name).toList <:+: (Text.lowercase directory).toList) :
      Fits name directory .overlap
  | contained (part : (Text.lowercase directory).toList <:+: (Text.lowercase name).toList) :
      Fits name directory .overlap

/-- How many ways to fit are better. -/
def Fit.rank : Fit → ℕ
  | .exact => 0
  | .sameLetters => 1
  | .overlap => 2

/-- Different ways to fit have different ranks. -/
lemma Fit.eq_of_rank {fit other : Fit} (h : fit.rank = other.rank) : fit = other := by
  cases fit <;> cases other <;> first | rfl | cases h

/-- A text contains another if that one is a stretch of it. -/
lemma containsText_iff {part text : List Char} :
    Source.containsText part text = true ↔ part <:+: text := by
  induction text with
  | nil => simp [Source.containsText]
  | cons c cs ih =>
    rw [Source.containsText, Bool.or_eq_true, ih, List.isPrefixOf_iff_prefix, List.infix_cons_iff]

variable {name directory : String} {directories : List String} {fit : Fit}

/-- The test for a way to fit says what it is meant to say. -/
lemma holds_iff : fit.holds name directory = true ↔ Fits name directory fit := by
  cases fit with
  | exact =>
    rw [Fit.holds, beq_iff_eq]
    exact ⟨.exact, fun | .exact h => h⟩
  | sameLetters =>
    rw [Fit.holds, beq_iff_eq]
    exact ⟨.sameLetters, fun | .sameLetters h => h⟩
  | overlap =>
    rw [Fit.holds, overlaps, Bool.or_eq_true, containsText_iff, containsText_iff]
    exact ⟨Or.rec .contains .contained, fun | .contains h => .inl h | .contained h => .inr h⟩

/-- The best way in which a directory fits a package. -/
structure FitsBest (name directory : String) (fit : Fit) : Prop where
  fits : Fits name directory fit
  rank_le : ∀ other, Fits name directory other → fit.rank ≤ other.rank

/-- A directory that fits has a best way to fit. -/
lemma Fits.exists_best {fit : Fit} (h : Fits name directory fit) :
    ∃ best, FitsBest name directory best ∧ best.rank ≤ fit.rank := by
  by_cases hbest : ∀ other, Fits name directory other → fit.rank ≤ other.rank
  · exact ⟨fit, ⟨h, hbest⟩, Nat.le_refl _⟩
  · obtain ⟨other, hother⟩ := Classical.not_forall.1 hbest
    obtain ⟨hother, hnot⟩ := Classical.not_imp.1 hother
    have hlt : other.rank < fit.rank := Nat.lt_of_not_le hnot
    obtain ⟨best, hfits, hle⟩ := hother.exists_best
    exact ⟨best, hfits, Nat.le_trans hle (Nat.le_of_lt hlt)⟩
termination_by fit.rank

/-- The best match for a package among some directories: of those with the best fit, the first by
name. -/
structure IsBestMatch (name : String) (IsDirectory : String → Prop) (directory : String) :
    Prop where
  isDirectory : IsDirectory directory
  least : ∃ fit, FitsBest name directory fit ∧
    ∀ other, IsDirectory other → ∀ fit', FitsBest name other fit' →
      fit.rank < fit'.rank ∨ fit = fit' ∧ directory ≤ other

/-! ### The search -/

/-- No directory fits in a way if none is found for it. -/
lemma find?_eq_none_iff :
    (sortedBy id directories).find? (fit.holds name) = none ↔
      ∀ d ∈ directories, ¬Fits name d fit := by
  simp only [List.find?_eq_none, mem_sortedBy, holds_iff]

/-- There is no best match if nothing fits in any way. -/
lemma bestMatch?_eq_none_iff :
    bestMatch? name directories = none ↔ ∀ d ∈ directories, ∀ fit, ¬Fits name d fit := by
  rw [bestMatch?]
  simp only [List.findSome?_eq_none_iff, find?_eq_none_iff]
  constructor
  · intro h d hd fit
    exact h fit (by cases fit <;> simp) d hd
  · intro h fit _ d hd
    exact h d hd fit

/-- The ways that are tried before another one are the better ones. -/
lemma mem_before_iff {other : Fit} {before after : List Fit}
    (h : [Fit.exact, .sameLetters, .overlap] = before ++ fit :: after) :
    other ∈ before ↔ other.rank < fit.rank := by
  have hrising : (before ++ fit :: after).Pairwise fun a b => a.rank < b.rank := by
    rw [← h]
    decide
  have hmem : other ∈ before ++ fit :: after := by
    rw [← h]
    cases other <;> decide
  rw [List.pairwise_append, List.pairwise_cons] at hrising
  rw [List.mem_append, List.mem_cons] at hmem
  constructor
  · intro hbefore
    exact hrising.2.2 other hbefore fit List.mem_cons_self
  · intro hlt
    rcases hmem with hbefore | rfl | hafter
    · exact hbefore
    · exact absurd hlt (Nat.lt_irrefl _)
    · exact absurd hlt (Nat.lt_asymm (hrising.2.1.1 other hafter))

/-- What is found is the first directory by name for the best way in which some directory fits. -/
lemma bestMatch?_eq_some_iff_fit :
    bestMatch? name directories = some directory ↔
      ∃ fit : Fit, (sortedBy id directories).find? (fit.holds name) = some directory ∧
        ∀ other : Fit, other.rank < fit.rank →
          (sortedBy id directories).find? (other.holds name) = none := by
  rw [bestMatch?, List.findSome?_eq_some_iff]
  constructor
  · rintro ⟨before, fit, after, hsplit, hfind, hnone⟩
    exact ⟨fit, hfind, fun other hlt => hnone other ((mem_before_iff hsplit).2 hlt)⟩
  · rintro ⟨fit, hfind, hnone⟩
    have hfit : fit ∈ [Fit.exact, .sameLetters, .overlap] := by cases fit <;> decide
    obtain ⟨before, after, hsplit⟩ := List.append_of_mem hfit
    exact ⟨before, fit, after, hsplit, hfind,
      fun other hother => hnone other ((mem_before_iff hsplit).1 hother)⟩

/-- What is found is the best match. -/
lemma bestMatch?_eq_some_iff :
    bestMatch? name directories = some directory ↔
      IsBestMatch name (· ∈ directories) directory := by
  rw [bestMatch?_eq_some_iff_fit]
  constructor
  · rintro ⟨fit, hfind, hnone⟩
    obtain ⟨hmem, hholds, hfirst⟩ := find?_sortedBy_eq_some_iff.1 hfind
    -- No directory fits better, whatever the way.
    have hrank : ∀ d ∈ directories, ∀ other, Fits name d other →
        fit.rank ≤ other.rank := by
      intro d hd other hother
      by_contra hlt
      exact find?_eq_none_iff.1 (hnone other (Nat.lt_of_not_le hlt)) d hd hother
    refine ⟨hmem, fit, ⟨holds_iff.1 hholds, hrank directory hmem⟩, ?_⟩
    intro other hother fit' hfit'
    rcases Nat.lt_or_eq_of_le (hrank other hother fit' hfit'.fits) with hlt | heq
    · exact .inl hlt
    · obtain rfl := Fit.eq_of_rank heq
      exact .inr ⟨rfl, hfirst other hother (holds_iff.2 hfit'.fits)⟩
  · rintro ⟨hmem, fit, hbest, hleast⟩
    refine ⟨fit, find?_sortedBy_eq_some_iff.2 ⟨hmem, holds_iff.2 hbest.fits, ?_⟩, ?_⟩
    · intro other hother hholds
      obtain ⟨fit', hfit', hle⟩ := (holds_iff.1 hholds).exists_best
      rcases hleast other hother fit' hfit' with hlt | ⟨-, hname⟩
      · exact absurd hlt (Nat.not_lt_of_le hle)
      · exact hname
    · intro better hbetter
      refine find?_eq_none_iff.2 fun other hother hfits => ?_
      obtain ⟨fit', hfit', hle⟩ := hfits.exists_best
      have hlt : fit'.rank < fit.rank := Nat.lt_of_le_of_lt hle hbetter
      rcases hleast other hother fit' hfit' with hgt | ⟨rfl, -⟩
      · exact Nat.lt_asymm hlt hgt
      · exact Nat.lt_irrefl _ hlt

/-! ### The directory of checkouts -/

/-- A directory among some entries that is not hidden. -/
def IsVisibleDirectory (entries : List (String × FileTree)) (directory : String) : Prop :=
  ∃ t, (directory, t) ∈ entries ∧ t.isDirectory = true ∧ isHidden directory = false

/-- The visible directories are the entries that are directories and are not hidden. -/
lemma mem_visibleDirectories {entries : List (String × FileTree)} :
    directory ∈ visibleDirectories entries ↔ IsVisibleDirectory entries directory := by
  simp [visibleDirectories, IsVisibleDirectory]

/-- Directories that are listed in another order are matched in the same way. -/
lemma bestMatch?_congr {others : List String} (h : ∀ d, d ∈ directories ↔ d ∈ others) :
    bestMatch? name directories = bestMatch? name others := by
  refine Option.ext fun d => ?_
  rw [bestMatch?_eq_some_iff, bestMatch?_eq_some_iff]
  simp only [h]

/-- A directory of the name of the package is the best match. -/
lemma bestMatch?_of_mem (h : name ∈ directories) : bestMatch? name directories = some name := by
  rw [bestMatch?_eq_some_iff]
  refine ⟨h, .exact, ⟨.exact rfl, fun other _ => Nat.zero_le _⟩, ?_⟩
  intro other _ fit' hfit'
  rcases Nat.eq_zero_or_pos fit'.rank with hzero | hpos
  · obtain rfl : Fit.exact = fit' := Fit.eq_of_rank hzero.symm
    cases hfit'.fits with
    | exact eq => exact .inr ⟨rfl, eq ▸ String.le_refl _⟩
  · exact .inl hpos

/-- Among the entries of the directory of checkouts a package is matched with the best match of the
visible directories, or with none if none fits. One of its own name is always the best match, and it
does not matter in which order the entries are listed. -/
theorem FileSystem.matchCheckout_best {fs : FileSystem} {checkouts : Path}
    {entries : List (String × FileTree)} (h : fs.entries checkouts = .ok entries) (name : String) :
    ∃ found : Option String, fs.matchCheckout name checkouts = .ok (found.map checkouts.entry) ∧
      (found = none ↔ ∀ d, IsVisibleDirectory entries d → ∀ fit, ¬Fits name d fit) ∧
      (∀ d, found = some d ↔ IsBestMatch name (IsVisibleDirectory entries) d) ∧
      (IsVisibleDirectory entries name → found = some name) ∧
      ∀ (fs' : FileSystem) (entries' : List (String × FileTree)), fs'.entries checkouts =
        .ok entries' →
        entries.Perm entries' →
        fs'.matchCheckout name checkouts = fs.matchCheckout name checkouts := by
  have hmatch : ∀ {fs' : FileSystem} {entries' : List (String × FileTree)},
      fs'.entries checkouts = .ok entries' →
      fs'.matchCheckout name checkouts =
        .ok ((bestMatch? name (visibleDirectories entries')).map checkouts.entry) := by
    intro fs' entries' h'
    rw [matchCheckout, h']
    rfl
  refine ⟨bestMatch? name (visibleDirectories entries), hmatch h, ?none, ?best, ?exact, ?order⟩
  case none =>
    rw [bestMatch?_eq_none_iff]
    simp only [mem_visibleDirectories]
  case best =>
    intro d
    rw [bestMatch?_eq_some_iff]
    simp only [mem_visibleDirectories]
  case exact =>
    intro hname
    exact bestMatch?_of_mem (mem_visibleDirectories.2 hname)
  case order =>
    intro fs' entries' h' hperm
    rw [hmatch h, hmatch h', bestMatch?_congr fun d => ?_]
    rw [mem_visibleDirectories, mem_visibleDirectories, IsVisibleDirectory, IsVisibleDirectory]
    simp only [hperm.mem_iff]

/-- A disk with the given entries in the directory of checkouts. -/
def checkoutsWith (entries : List (String × FileTree)) : FileSystem where
  workingDirectory := ⟨[]⟩
  root := .directory [(".build", .directory [("checkouts", .directory entries)])]

/-- Several directories that fit `NIO`, one that is hidden, and a file of that name. -/
def nioEntries : List (String × FileTree) :=
  [("swift-nio", .directory []), ("nio", .directory []), ("NIO", .file []), (".NIO", .directory []),
    ("Nio", .directory [])]

/-- Two directories have the letters of the package; the first of them by name is the best match, in
whichever order the entries are listed. -/
theorem FileSystem.matchCheckout_best_nio :
    let checkouts : Path := ⟨.relative, [".build", "checkouts"]⟩
    (checkoutsWith nioEntries).entries checkouts = .ok nioEntries ∧
      IsBestMatch "NIO" (IsVisibleDirectory nioEntries) "Nio" ∧
      (checkoutsWith nioEntries.reverse).matchCheckout "NIO" checkouts =
        .ok (some (checkouts.entry "Nio")) := by
  intro checkouts
  have hentries : ∀ entries, (checkoutsWith entries).entries checkouts = .ok entries :=
    fun _ => rfl
  have hdirectories : visibleDirectories nioEntries = ["swift-nio", "nio", "Nio"] := by
    decide +kernel
  have hfirst : bestMatch? "NIO" ["swift-nio", "nio", "Nio"] = some "Nio" := by
    refine bestMatch?_eq_some_iff_fit.2 ⟨.sameLetters,
      find?_sortedBy_eq_some_iff.2 (by decide +kernel), ?_⟩
    intro other hbetter
    obtain rfl : Fit.exact = other := Fit.eq_of_rank (Nat.lt_one_iff.1 hbetter).symm
    refine find?_eq_none_iff.2 fun d hd hfits => ?_
    obtain ⟨rfl⟩ := hfits
    exact absurd hd (by decide)
  have hmatch : (checkoutsWith nioEntries).matchCheckout "NIO" checkouts =
      .ok (some (checkouts.entry "Nio")) := by
    rw [FileSystem.matchCheckout, hentries, ← Option.map_some, ← hfirst, ← hdirectories]
    rfl
  obtain ⟨found, hfound, -, hbest, -, horder⟩ :=
    FileSystem.matchCheckout_best (hentries nioEntries) "NIO"
  have hnio : found = some "Nio" := by
    rw [hmatch] at hfound
    obtain ⟨d, hd, hpath⟩ := Option.map_eq_some_iff.1 (Except.ok.inj hfound).symm
    simp only [Path.entry, Path.mk.injEq, true_and, List.append_cancel_left_eq, List.cons.injEq,
      and_true] at hpath
    rw [hd, hpath]
  refine ⟨hentries nioEntries, (hbest "Nio").1 hnio, ?_⟩
  rw [horder _ _ (hentries nioEntries.reverse) (List.reverse_perm nioEntries).symm, hmatch]

end SwiftDependencies
