import Mathlib.Tactic.Common
import SwiftDependencies.Checkouts

/-!
# File trees that differ in one file

Two file trees that differ only in the bytes of one file look the same from outside that file: the
same paths lead somewhere, to the same kind of thing, with entries of the same names, and all other
files have the same bytes.

A path is followed one name at a time in both trees at once.  What it has led to so far lies at the
same location in both, and is either the same or still contains the rewritten file (`Alike`); since
double dots go back, this has to be known of all directories above as well (`AlikeAbove`).
`FileTree.follow_alike` is the induction, and what an audit asks of the disk is answered from it:
`isDirectory_eq`, `sourceFiles_eq`, `matchCheckout_eq`, and `read_eq` for every path that does not
lead to the rewritten file.
-/

namespace SwiftDependencies

namespace FileTree

/-- Two trees that differ only in the bytes of the file to which some names lead. -/
inductive Rewritten : List String → FileTree → FileTree → Prop
  | file (old new : List UInt8) : Rewritten [] (.file old) (.file new)
  | entry {name : String} {names : List String} {t t' : FileTree}
      {before after : List (String × FileTree)} (first : ∀ e ∈ before, e.1 ≠ name)
      (below : Rewritten names t t') :
      Rewritten (name :: names) (.directory (before ++ (name, t) :: after))
        (.directory (before ++ (name, t') :: after))

/-- What two trees that differ only in the file at `f` have at a location: the same, or trees that
differ only in that file. -/
def Alike (f location : List String) (t t' : FileTree) : Prop :=
  t = t' ∨ ∃ names, f = location ++ names ∧ Rewritten names t t'

variable {f location names : List String} {t t' : FileTree}

/-! ### What is seen from outside -/

/-- A rewritten file is a file still. -/
lemma Rewritten.isFile_eq (h : Rewritten names t t') : t.isFile = t'.isFile := by
  cases h <;> rfl

/-- A tree with a rewritten file is a directory if it was one. -/
lemma Rewritten.isDirectory_eq (h : Rewritten names t t') : t.isDirectory = t'.isDirectory := by
  cases h <;> rfl

/-- The names and kinds of entries do not depend on the bytes of files. -/
lemma Rewritten.map_isDirectory_eq (h : Rewritten names t t') :
    t.entries.map (fun e => (e.1, e.2.isDirectory)) = t'.entries.map fun e =>
      (e.1, e.2.isDirectory) := by
  cases h with
  | file old new => rfl
  | entry first below => simp [entries, below.isDirectory_eq]

/-- The source files below a tree do not depend on the bytes of files. -/
lemma Rewritten.sourceFiles_eq (h : Rewritten names t t') (p : Path) :
    t.sourceFiles p = t'.sourceFiles p := by
  induction h generalizing p with
  | file old new => rw [sourceFiles, sourceFiles]
  | @entry name names t t' before after first below ih =>
    rw [sourceFiles_directory, sourceFiles_directory]
    simp only [List.filter_append, List.filter_cons, List.filterMap_append, List.filterMap_cons,
      below.isFile_eq, ih]
    split <;> simp

/-- The trees under a name are alike if those above are. -/
lemma Alike.child? (h : Alike f location t t') (name : String) :
    t.child? name = none ∧ t'.child? name = none ∨
      ∃ c c', t.child? name = some c ∧ t'.child? name = some c' ∧
        Alike f (location ++ [name]) c c' := by
  rcases h with rfl | ⟨names, rfl, h⟩
  · cases hchild : t.child? name with
    | none => exact .inl ⟨rfl, rfl⟩
    | some c => exact .inr ⟨c, c, rfl, rfl, .inl rfl⟩
  · cases h with
    | file old new => exact .inl ⟨rfl, rfl⟩
    | @entry first names c c' before after hfirst below =>
      have hbefore : ∀ other, before.lookup name = none →
          (before ++ other).lookup name = other.lookup name := by
        intro other hnone
        rw [List.lookup_append, hnone, Option.none_or]
      unfold FileTree.child? entries
      cases hlookup : before.lookup name with
      | some d =>
        refine .inr ⟨d, d, ?_, ?_, .inl rfl⟩ <;>
          rw [List.lookup_append, hlookup, Option.some_or]
      | none =>
        rw [hbefore _ hlookup, hbefore _ hlookup, List.lookup_cons, List.lookup_cons]
        by_cases hname : name = first
        · subst hname
          rw [beq_self_eq_true]
          exact .inr ⟨c, c', rfl, rfl, .inr ⟨names, by simp, below⟩⟩
        · rw [beq_false_of_ne hname]
          cases after.lookup name with
          | none => exact .inl ⟨rfl, rfl⟩
          | some d => exact .inr ⟨d, d, rfl, rfl, .inl rfl⟩

/-- Of two trees that are alike both are directories or neither is. -/
lemma Alike.isDirectory_eq (h : Alike f location t t') : t.isDirectory = t'.isDirectory := by
  rcases h with rfl | ⟨names, -, h⟩
  · rfl
  · exact h.isDirectory_eq

/-! ### Following a path -/

/-- The directories above a location are alike, nearest first. -/
inductive AlikeAbove (f : List String) : List String → List FileTree → List FileTree → Prop
  | root : AlikeAbove f [] [] []
  | step {location : List String} {name : String} {up up' : FileTree} {above above' : List FileTree}
      (here : Alike f location up up') (rest : AlikeAbove f location above above') :
      AlikeAbove f (location ++ [name]) (up :: above) (up' :: above')

/-- Names lead nowhere from two trees that are alike, for the same reason, or they lead to trees
that are alike, at the location that is reached by the names alone. -/
lemma follow_alike {above above' : List FileTree} (habove : AlikeAbove f location above above')
    (h : Alike f location t t') (names : List String) :
    (∃ obstacle, follow above t names = .error obstacle ∧
      follow above' t' names = .error obstacle) ∨
      ∃ u u', follow above t names = .ok u ∧ follow above' t' names = .ok u' ∧
        Alike f (names.foldl Place.step location) u u' := by
  induction names generalizing location above above' t t' with
  | nil => exact .inr ⟨t, t', rfl, rfl, h⟩
  | cons name names ih =>
    unfold follow
    rw [← h.isDirectory_eq, List.foldl_cons]
    split
    · exact .inl ⟨.notDirectory, rfl, rfl⟩
    · split
      · -- Double dots: the location loses its last name, or there is none above the root.
        rename_i hdots
        subst hdots
        cases habove with
        | root => exact ih .root h
        | step here rest =>
          rw [Place.step, if_pos rfl, List.dropLast_concat]
          exact ih rest here
      · rename_i hname
        rw [Place.step, if_neg hname]
        rcases h.child? name with ⟨hnone, hnone'⟩ | ⟨c, c', hc, hc', hchild⟩
        · rw [hnone, hnone']
          exact .inl ⟨.missing, rfl, rfl⟩
        · rw [hc, hc']
          exact ih (.step h habove) hchild

end FileTree

/-! ### File systems -/

namespace FileSystem

/-- Two file systems that differ only in the bytes of the file at a place. -/
structure Rewritten (f : Place) (fs fs' : FileSystem) : Prop where
  workingDirectory : fs.workingDirectory = fs'.workingDirectory
  root : FileTree.Rewritten f.names fs.root fs'.root

/-- The place in the tree to which a path leads, if it leads anywhere. -/
def location (fs : FileSystem) (p : Path) : Place :=
  Place.ofPath ⟨[]⟩ (fs.workingDirectory.toPath ++ p)

/-- A path is followed from the root, and leads to its location. -/
lemma exists_follow_eq (w : Place) (p : Path) :
    ∃ names, ∀ root, let fs : FileSystem := ⟨root, w⟩
      fs.follow p = FileTree.follow [] root names ∧
        (fs.location p).names = names.foldl Place.step [] := by
  obtain ⟨anchor, names⟩ := p
  cases anchor with
  | relative => exact ⟨w.names ++ names, fun root => ⟨rfl, rfl⟩⟩
  | root => exact ⟨names, fun root => ⟨rfl, rfl⟩⟩
  | doubleRoot => exact ⟨names, fun root => ⟨rfl, rfl⟩⟩

variable {f : Place} {fs fs' : FileSystem}

/-- A path leads nowhere in both file systems, for the same reason, or to trees that are alike. -/
lemma Rewritten.follow (h : Rewritten f fs fs') (p : Path) :
    (∃ obstacle, fs.follow p = .error obstacle ∧ fs'.follow p = .error obstacle) ∨
      ∃ t t', fs.follow p = .ok t ∧ fs'.follow p = .ok t' ∧
        FileTree.Alike f.names (fs.location p).names t t' := by
  have hroot : FileTree.Alike f.names [] fs.root fs'.root := .inr ⟨f.names, rfl, h.root⟩
  obtain ⟨root, w⟩ := fs
  obtain ⟨root', w'⟩ := fs'
  obtain rfl : w = w' := h.workingDirectory
  obtain ⟨names, hnames⟩ := exists_follow_eq w p
  rw [(hnames root).1, (hnames root').1, (hnames root).2]
  exact FileTree.follow_alike .root hroot names

/-- A path leads to trees that are alike before and after a file is rewritten, or to nothing both
times. -/
lemma Rewritten.get? (h : Rewritten f fs fs') (p : Path) :
    fs.get? p = none ∧ fs'.get? p = none ∨
      ∃ t t', fs.get? p = some t ∧ fs'.get? p = some t' ∧
        FileTree.Alike f.names (fs.location p).names t t' := by
  unfold FileSystem.get?
  rcases h.follow p with ⟨obstacle, hp, hp'⟩ | ⟨t, t', hp, hp', halike⟩
  · rw [hp, hp']
    exact .inl ⟨rfl, rfl⟩
  · rw [hp, hp']
    exact .inr ⟨t, t', rfl, rfl, halike⟩

/-- What does not tell a tree from a rewritten one does not tell what a path leads to. -/
lemma Rewritten.map_get? {α : Type} (h : Rewritten f fs fs') {look : FileTree → α}
    (hlook : ∀ {names t t'}, FileTree.Rewritten names t t' → look t = look t') (p : Path) :
    (fs.get? p).map look = (fs'.get? p).map look := by
  rcases h.get? p with ⟨hp, hp'⟩ | ⟨t, t', hp, hp', rfl | ⟨names, -, halike⟩⟩
  · rw [hp, hp']
  · rw [hp, hp']
  · rw [hp, hp', Option.map_some, Option.map_some, hlook halike]

/-- A test that does not tell a tree from a rewritten one has the same result for what a path leads
to. -/
lemma Rewritten.any_get? (h : Rewritten f fs fs') {test : FileTree → Bool}
    (htest : ∀ {names t t'}, FileTree.Rewritten names t t' → test t = test t') (p : Path) :
    (fs.get? p).any test = (fs'.get? p).any test := by
  have hany : ∀ o : Option FileTree, o.any test = (o.map test).getD false := by
    intro o
    cases o <;> rfl
  rw [hany, hany, h.map_get? htest]

lemma Rewritten.isDirectory_eq (h : Rewritten f fs fs') : fs.isDirectory = fs'.isDirectory :=
  funext fun p => h.any_get? FileTree.Rewritten.isDirectory_eq p

lemma Rewritten.isFile_eq (h : Rewritten f fs fs') : fs.isFile = fs'.isFile :=
  funext fun p => h.any_get? FileTree.Rewritten.isFile_eq p

/-- The same source files are found when a file is rewritten. -/
lemma Rewritten.sourceFiles_eq (h : Rewritten f fs fs') : fs.sourceFiles = fs'.sourceFiles := by
  funext p
  unfold FileSystem.sourceFiles
  rw [h.map_get? fun h => h.sourceFiles_eq p]

/-- Every file but the rewritten one has the same text. -/
lemma Rewritten.read_eq (h : Rewritten f fs fs') {p : Path} (hp : fs.location p ≠ f) :
    fs.read p = fs'.read p := by
  unfold FileSystem.read bytes
  rcases h.get? p with ⟨hget, hget'⟩ |
    ⟨t, t', hget, hget', rfl | ⟨names, hnames, halike⟩⟩
  · rw [hget, hget']
  · rw [hget, hget']
  · rw [hget, hget']
    cases halike with
    | entry first below => rfl
    | file old new =>
      rw [List.append_nil] at hnames
      refine absurd ?_ hp
      cases f
      cases hlocation : fs.location p
      simp_all

/-- The visible directories depend on the names and kinds of the entries only. -/
lemma visibleDirectories_eq {entries entries' : List (String × FileTree)}
    (h : entries.map (fun e => (e.1, e.2.isDirectory)) =
      entries'.map fun e => (e.1, e.2.isDirectory)) :
    visibleDirectories entries = visibleDirectories entries' := by
  have hmap : ∀ es : List (String × FileTree), visibleDirectories es =
      ((es.map fun e => (e.1, e.2.isDirectory)).filter fun e => e.2 &&
        !isHidden e.1).map (·.1) := by
    intro es
    simp [visibleDirectories, List.filter_map, Function.comp_def]
  rw [hmap, hmap, h]

/-- The same checkout is found when a file is rewritten. -/
lemma Rewritten.matchCheckout_eq (h : Rewritten f fs fs') (name : String) (checkouts : Path) :
    fs.matchCheckout name checkouts = fs'.matchCheckout name checkouts := by
  unfold FileSystem.matchCheckout entries
  cases checkouts.checked with
  | error fault => rfl
  | ok p =>
    simp only [bind, Except.bind]
    rcases h.follow p with ⟨obstacle, hp, hp'⟩ |
      ⟨t, t', hp, hp', rfl | ⟨names, -, halike⟩⟩
    · rw [hp, hp']
    · rw [hp, hp']
    · rw [hp, hp']
      have hentries := visibleDirectories_eq halike.map_isDirectory_eq
      cases halike with
      | file old new => rfl
      | entry first below =>
        simp only [FileTree.entries] at hentries
        simp only [pure, Except.pure, Functor.map, Except.map, hentries]

end FileSystem

end SwiftDependencies
