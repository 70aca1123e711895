import Mathlib.Tactic.Common
import SwiftDependencies.Import.Sources
import SwiftDependencies.Proofs.Sorted

/-!
# The source files below a directory

A source file below a directory is given by the way to it: the names from the directory down.  Which
ways lead to source files is said without the tree being searched (`IsSource`, `FileTree.HasFile`),
and so is which of two ways comes first (`Precedes`).

By induction over the tree, the search lists exactly these ways in exactly this order
(`FileTree.exists_ways`).  The order leaves no choice, so the list depends on nothing but which ways
there are (`FileTree.Ways.unique`); in particular it does not depend on the order in which
directories list their entries (`Reordered`).

All this needs that no directory has two entries of one name.
-/

namespace SwiftDependencies

/-! ### Ways -/

/-- The path that leads from a path down along some names. -/
def Path.below (p : Path) (names : List String) : Path :=
  ⟨p.anchor, p.names ++ names⟩

/-- The way to a source file: no name on it is hidden, and the last one has the ending of Swift. -/
structure IsSource (names : List String) : Prop where
  visible : ∀ n ∈ names, isHidden n = false
  ending : ∃ n ∈ names.getLast?, ".swift".toList <:+ n.toList

/-- The order of ways: the files of a directory come before those of the directories in it, both in
the order of their names. -/
inductive Precedes : List String → List String → Prop
  | files {a b : String} (lt : a < b) : Precedes [a] [b]
  | fileFirst (a d n : String) (names : List String) : Precedes [a] (d :: n :: names)
  | directories {d e : String} (lt : d < e) (m n : String) (names names' : List String) :
      Precedes (d :: m :: names) (e :: n :: names')
  | inside (d : String) {names names' : List String} (rest : Precedes names names') :
      Precedes (d :: names) (d :: names')

/-- Of two ways at most one precedes the other. -/
lemma Precedes.asymm {names names' : List String} (h : Precedes names names') :
    ¬Precedes names' names := by
  have hlt : ∀ {a b : String}, a < b →
      ¬b < a := fun hab hba => String.lt_irrefl _ (String.lt_trans hab hba)
  have hnil : ∀ {names : List String}, ¬Precedes names [] := fun h => nomatch h
  induction h with
  | files lt =>
    intro h
    cases h with
    | files lt' => exact hlt lt lt'
    | inside d rest => exact hnil rest
  | fileFirst a d n names =>
    intro h
    cases h with
    | inside d rest => exact hnil rest
  | directories lt m n names names' =>
    intro h
    cases h with
    | directories lt' => exact hlt lt lt'
    | inside d rest => exact String.lt_irrefl _ lt
  | @inside d names names' rest ih =>
    intro h
    cases h with
    | files lt => exact String.lt_irrefl _ lt
    | fileFirst a d n names => exact hnil rest
    | directories lt m n names names' => exact String.lt_irrefl _ lt
    | inside d rest' => exact ih rest'

/-- Nothing is listed twice in this order. -/
lemma nodup_of_pairwise {ways : List (List String)} (h : ways.Pairwise Precedes) : ways.Nodup :=
  h.imp fun hab hne => (hne ▸ hab).asymm (hne ▸ hab)

/-- A file is a source by its own name. -/
lemma isSource_singleton {n : String} : IsSource [n] ↔ isSourceName n = true := by
  rw [isSourceName, Bool.and_eq_true, Bool.not_eq_true', List.isSuffixOf_iff_suffix]
  constructor
  · rintro ⟨hvisible, m, hm, hending⟩
    obtain rfl : n = m := by simpa using hm
    exact ⟨hvisible n (by simp), hending⟩
  · rintro ⟨hvisible, hending⟩
    exact ⟨by simpa using hvisible, n, rfl, hending⟩

/-- The end of no way is a source. -/
lemma not_isSource_nil : ¬IsSource [] := by
  rintro ⟨-, n, hn, -⟩
  simp at hn

/-- A file below a directory is a source if the directory is visible and the rest of the way leads
to a source. -/
lemma isSource_cons {d : String} {names : List String} (h : names ≠ []) :
    IsSource (d :: names) ↔ isHidden d = false ∧ IsSource names := by
  obtain ⟨n, rest, rfl⟩ := List.exists_cons_of_ne_nil h
  constructor
  · rintro ⟨hvisible, hending⟩
    rw [List.forall_mem_cons] at hvisible
    exact ⟨hvisible.1, hvisible.2, by simpa using hending⟩
  · rintro ⟨hd, hvisible, hending⟩
    exact ⟨List.forall_mem_cons.2 ⟨hd, hvisible⟩, by simpa using hending⟩

/-- A way to a source has a name. -/
lemma IsSource.exists_cons {names : List String} (h : IsSource names) :
    ∃ n rest, names = n :: rest := by
  refine List.exists_cons_of_ne_nil ?_
  rintro rfl
  exact not_isSource_nil h

/-! ### Trees -/

namespace FileTree

/-- No directory has two entries of one name. -/
inductive Unambiguous : FileTree → Prop
  | file (bytes : List UInt8) : Unambiguous (.file bytes)
  | directory {entries : List (String × FileTree)} (names : (entries.map (·.1)).Nodup)
      (below : ∀ e ∈ entries, Unambiguous e.2) : Unambiguous (.directory entries)

/-- Some names lead to a file. -/
inductive HasFile : FileTree → List String → Prop
  | here (bytes : List UInt8) : HasFile (.file bytes) []
  | entry {entries : List (String × FileTree)} {name : String} {t : FileTree} {names : List String}
      (mem : (name, t) ∈ entries) (rest : HasFile t names) :
        HasFile (.directory entries) (name :: names)

/-- The ways to the source files below a tree, in order. -/
structure Ways (t : FileTree) (ways : List (List String)) : Prop where
  ordered : ways.Pairwise Precedes
  mem_iff : ∀ way, way ∈ ways ↔ IsSource way ∧ t.HasFile way

variable {t t' : FileTree} {ways : List (List String)}

/-- The files of a directory, and then those of each visible entry. -/
lemma sourceFiles_eq_append (p : Path) (entries : List (String × FileTree)) :
    (FileTree.directory entries).sourceFiles p =
      (sortedBy (·.1) (entries.filter fun e => e.2.isFile && isSourceName e.1)).map
        (fun e => p.below [e.1]) ++
        (sortedBy (·.1) (entries.filter fun e => !isHidden e.1)).flatMap fun e =>
          e.2.sourceFiles (p.below [e.1]) := by
  have hvisible :
      (entries.filterMap fun e =>
        if isHidden e.1 then none else some (e.1, e.2.sourceFiles (p.entry e.1))) =
      (entries.filter fun e => !isHidden e.1).map fun e =>
        (e.1, e.2.sourceFiles (p.entry e.1)) := by
    rw [← List.filterMap_eq_map, ← List.filterMap_eq_filter, List.filterMap_filterMap]
    refine List.filterMap_congr fun e _ => ?_
    cases h : isHidden e.1 <;> simp [Option.guard, h]
  rw [sourceFiles_directory, hvisible, sortedBy_map, sortedBy_map, List.map_map, List.flatMap_map]
  rfl

/-- The ways of a directory: its files, and then the ways of each visible entry behind its name. -/
def directoryWays (entries : List (String × FileTree))
    (below : String × FileTree → List (List String)) :
    List (List String) :=
  (sortedBy (·.1) (entries.filter fun e => e.2.isFile && isSourceName e.1)).map (fun e => [e.1]) ++
    (sortedBy (·.1) (entries.filter fun e => !isHidden e.1)).flatMap fun e =>
      (below e).map (e.1 :: ·)

section Directory

variable {entries : List (String × FileTree)} {below : String × FileTree → List (List String)}

/-- The sources of a directory are reached by the ways into its entries. -/
lemma sourceFiles_eq_map (h : ∀ e ∈ entries, ∀ p, e.2.sourceFiles p = (below e).map p.below)
    (p : Path) :
    (FileTree.directory entries).sourceFiles p = (directoryWays entries below).map p.below := by
  have hbelow : ∀ e ∈ sortedBy (·.1) (entries.filter fun e => !isHidden e.1),
      e.2.sourceFiles (p.below [e.1]) = ((below e).map (e.1 :: ·)).map p.below := by
    intro e he
    rw [h e (List.mem_of_mem_filter (mem_sortedBy.1 he)), List.map_map]
    refine List.map_congr_left fun names _ => ?_
    simp [Path.below]
  rw [sourceFiles_eq_append, directoryWays, List.map_append, List.map_map, List.map_flatMap,
    List.flatMap_congr hbelow]
  rfl

/-- The ways into a directory are in order if those into each entry are. -/
lemma pairwise_directoryWays (hnames : (entries.map (·.1)).Nodup)
    (h : ∀ e ∈ entries, e.2.Ways (below e)) :
    (directoryWays entries below).Pairwise Precedes := by
  have hnodup : ∀ q : String × FileTree → Bool,
      ((entries.filter q).map (·.1)).Nodup := fun q =>
    hnames.sublist (List.filter_sublist.map _)
  have hcons : ∀ e ∈ sortedBy (·.1) (entries.filter fun e => !isHidden e.1),
      ∀ way ∈ below e,
      ∃ n rest, way = n :: rest := by
    intro e he way hway
    have hmem := List.mem_of_mem_filter (mem_sortedBy.1 he)
    exact (((h e hmem).mem_iff way).1 hway).1.exists_cons
  refine List.pairwise_append.2 ⟨?_, List.pairwise_flatMap.2 ⟨?_, ?_⟩, ?_⟩
  · exact List.pairwise_map.2 ((pairwise_lt_sortedBy (hnodup _)).imp Precedes.files)
  · intro e he
    have hmem := List.mem_of_mem_filter (mem_sortedBy.1 he)
    exact List.pairwise_map.2 ((h e hmem).ordered.imp (Precedes.inside e.1))
  · refine (pairwise_lt_sortedBy (hnodup _)).imp_of_mem ?_
    intro d e hd he hlt x hx y hy
    obtain ⟨way, hway, rfl⟩ := List.mem_map.1 hx
    obtain ⟨way', hway', rfl⟩ := List.mem_map.1 hy
    obtain ⟨m, rest, rfl⟩ := hcons d hd way hway
    obtain ⟨n, rest', rfl⟩ := hcons e he way' hway'
    exact .directories hlt m n rest rest'
  · intro x hx y hy
    obtain ⟨e, -, rfl⟩ := List.mem_map.1 hx
    obtain ⟨d, hd, hy⟩ := List.mem_flatMap.1 hy
    obtain ⟨way, hway, rfl⟩ := List.mem_map.1 hy
    obtain ⟨n, rest, rfl⟩ := hcons d hd way hway
    exact .fileFirst e.1 d.1 n rest

/-- The ways into a directory are the ways to its sources if this holds for each entry. -/
lemma mem_directoryWays (h : ∀ e ∈ entries, e.2.Ways (below e)) (way : List String) :
    way ∈ directoryWays entries below ↔
      IsSource way ∧ (FileTree.directory entries).HasFile way := by
  rw [directoryWays, List.mem_append, List.mem_map, List.mem_flatMap]
  simp only [mem_sortedBy, List.mem_filter, Bool.and_eq_true, Bool.not_eq_true', List.mem_map]
  constructor
  · rintro (⟨⟨name, t⟩, ⟨hmem, hfile, hname⟩, rfl⟩ |
      ⟨⟨name, t⟩, ⟨hmem, hvisible⟩, rest, hrest, rfl⟩)
    · cases t with
      | file bytes => exact ⟨isSource_singleton.2 hname, .entry hmem (.here bytes)⟩
      | directory _ => cases hfile
    · obtain ⟨hsource, hfile⟩ := ((h _ hmem).mem_iff rest).1 hrest
      obtain ⟨n, names, rfl⟩ := hsource.exists_cons
      exact ⟨(isSource_cons (by simp)).2 ⟨hvisible, hsource⟩, .entry hmem hfile⟩
  · rintro ⟨hsource, hfile⟩
    cases hfile with
    | @entry _ name t names hmem hrest =>
      cases names with
      | nil =>
        cases hrest with
        | here bytes =>
          exact .inl ⟨(name, .file bytes), ⟨hmem, rfl, isSource_singleton.1 hsource⟩, rfl⟩
      | cons n names =>
        obtain ⟨hvisible, hsource⟩ := (isSource_cons (by simp)).1 hsource
        exact .inr ⟨(name, t), ⟨hmem, hvisible⟩, n :: names,
          ((h _ hmem).mem_iff _).2 ⟨hsource, hrest⟩, rfl⟩

end Directory

/-- Every tree has its ways, and the source files below it are listed along them. -/
lemma exists_ways (h : t.Unambiguous) :
    ∃ ways, t.Ways ways ∧ ∀ p, t.sourceFiles p = ways.map p.below := by
  induction h with
  | file bytes =>
    refine ⟨[], ⟨.nil, fun way => iff_of_false (by simp) ?_⟩,
      fun p => by rw [sourceFiles]; rfl⟩
    rintro ⟨hsource, hfile⟩
    cases hfile
    exact not_isSource_nil hsource
  | @directory entries hnames _ ih =>
    choose! below hways hfiles using ih
    exact ⟨directoryWays entries below,
      ⟨pairwise_directoryWays hnames hways, mem_directoryWays hways⟩,
      sourceFiles_eq_map hfiles⟩

/-- The order leaves no choice: two trees with the same ways have them in the same order. -/
lemma Ways.unique {ways' : List (List String)} (h : t.Ways ways) (h' : t'.Ways ways')
    (hfile : ∀ way, IsSource way → (t.HasFile way ↔ t'.HasFile way)) : ways = ways' := by
  have hperm : ways.Perm ways' := by
    refine (List.perm_ext_iff_of_nodup (nodup_of_pairwise h.ordered)
      (nodup_of_pairwise h'.ordered)).2 fun way => ?_
    rw [h.mem_iff, h'.mem_iff]
    exact and_congr_right (hfile way)
  exact hperm.eq_of_pairwise (fun a b _ _ hab hba => absurd hba hab.asymm) h.ordered h'.ordered

/-! ### The order of entries -/

/-- Two trees of which the directories list their entries in different orders. -/
inductive Reordered : FileTree → FileTree → Prop
  | refl (t : FileTree) : Reordered t t
  | perm {entries entries' : List (String × FileTree)} (h : entries.Perm entries') :
      Reordered (.directory entries) (.directory entries')
  | within {before after : List (String × FileTree)} {name : String} {t t' : FileTree}
    (h : Reordered t t') :
      Reordered (.directory (before ++ (name, t) :: after))
        (.directory (before ++ (name, t') :: after))
  | trans {t u v : FileTree} (h : Reordered t u) (h' : Reordered u v) : Reordered t v

/-- What is reordered can be put back in order. -/
lemma Reordered.symm (h : Reordered t t') : Reordered t' t := by
  induction h with
  | refl t => exact .refl t
  | perm h => exact .perm h.symm
  | within _ ih => exact .within ih
  | trans _ _ ih ih' => exact .trans ih' ih

/-- A reordered file is a file. -/
lemma Reordered.isFile_eq (h : Reordered t t') : t.isFile = t'.isFile := by
  induction h with
  | refl t => rfl
  | perm h => rfl
  | within _ _ => rfl
  | trans _ _ ih ih' => exact ih.trans ih'

/-- A reordered directory is a directory. -/
lemma Reordered.isDirectory_eq (h : Reordered t t') : t.isDirectory = t'.isDirectory := by
  induction h with
  | refl t => rfl
  | perm h => rfl
  | within _ _ => rfl
  | trans _ _ ih ih' => exact ih.trans ih'

/-- An entry is still there, and reordered itself. -/
lemma Reordered.exists_entry (h : Reordered t t') {name : String} {c : FileTree}
    (hc : (name, c) ∈ t.entries) :
    ∃ c', (name, c') ∈ t'.entries ∧ Reordered c c' := by
  induction h generalizing c with
  | refl t => exact ⟨c, hc, .refl c⟩
  | perm h => exact ⟨c, h.subset hc, .refl c⟩
  | @within before after other t t' h _ =>
    rcases List.mem_append.1 hc with hc | hc
    · exact ⟨c, List.mem_append_left _ hc, .refl c⟩
    · rcases List.mem_cons.1 hc with heq | hc
      · obtain ⟨rfl, rfl⟩ := Prod.mk.inj heq
        exact ⟨t', List.mem_append_right _ List.mem_cons_self, h⟩
      · exact ⟨c, List.mem_append_right _ (List.mem_cons_of_mem _ hc), .refl c⟩
  | trans _ _ ih ih' =>
    obtain ⟨d, hd, hcd⟩ := ih hc
    obtain ⟨e, he, hde⟩ := ih' hd
    exact ⟨e, he, .trans hcd hde⟩

/-- Entries that are reordered have different names if they had before. -/
lemma Reordered.unambiguous (h : Reordered t t') (ht : t.Unambiguous) : t'.Unambiguous := by
  induction h with
  | refl t => exact ht
  | perm h =>
    obtain - | ⟨hnames, hbelow⟩ := ht
    exact .directory ((h.map _).nodup_iff.1 hnames) fun e he => hbelow e (h.symm.subset he)
  | @within before after name t t' h ih =>
    obtain - | ⟨hnames, hbelow⟩ := ht
    refine .directory (by simpa using hnames) fun e he => ?_
    rcases List.mem_append.1 he with he | he
    · exact hbelow e (List.mem_append_left _ he)
    · rcases List.mem_cons.1 he with rfl | he
      · exact ih (hbelow (name, t) (List.mem_append_right _ List.mem_cons_self))
      · exact hbelow e (List.mem_append_right _ (List.mem_cons_of_mem _ he))
  | trans _ _ ih ih' => exact ih' (ih ht)

/-- The same names lead to files. -/
lemma Reordered.hasFile {names : List String} (h : Reordered t t') (hfile : t.HasFile names) :
    t'.HasFile names := by
  induction hfile generalizing t' with
  | here bytes =>
    cases t' with
    | file bytes' => exact .here bytes'
    | directory _ => cases h.isFile_eq
  | @entry entries name c names hmem _ ih =>
    cases t' with
    | file _ => cases h.isDirectory_eq
    | directory entries' =>
      obtain ⟨c', hmem', hc⟩ := h.exists_entry hmem
      exact .entry hmem' (ih hc)

/-- The source files below a tree are the same in whatever order its directories list their
entries. -/
lemma Reordered.sourceFiles_eq (h : Reordered t t') (ht : t.Unambiguous) (p : Path) :
    t.sourceFiles p = t'.sourceFiles p := by
  obtain ⟨ways, hways, hfiles⟩ := exists_ways ht
  obtain ⟨ways', hways', hfiles'⟩ := exists_ways (h.unambiguous ht)
  rw [hfiles, hfiles', hways.unique hways' fun way _ => ⟨h.hasFile, h.symm.hasFile⟩]

/-! ### Following names -/

/-- Among entries with different names each is found under its own. -/
lemma child?_eq_some_iff (ht : t.Unambiguous) {name : String} {c : FileTree} :
    t.child? name = some c ↔ (name, c) ∈ t.entries := by
  constructor
  · intro h
    obtain ⟨before, after, hentries, -⟩ := List.lookup_eq_some_iff.1 h
    rw [hentries]
    exact List.mem_append_right _ List.mem_cons_self
  · intro h
    cases ht with
    | file bytes => simp [entries] at h
    | @directory es hnames _ =>
      obtain ⟨before, after, hes⟩ := List.append_of_mem h
      refine List.lookup_eq_some_iff.2 ⟨before, after, hes, fun e he => ?_⟩
      rw [entries] at hes
      rw [hes, List.map_append, List.nodup_append] at hnames
      exact bne_iff_ne.2 (hnames.2.2 e.1 (List.mem_map_of_mem he) name (by simp)).symm

/-- The entries of an unambiguous tree are unambiguous. -/
lemma unambiguous_of_mem (ht : t.Unambiguous) {e : String × FileTree} (he : e ∈ t.entries) :
    e.2.Unambiguous := by
  cases ht with
  | file bytes => simp [entries] at he
  | directory _ hbelow => exact hbelow e he

/-- Names that do not go back lead to a file exactly if following them does. -/
lemma hasFile_iff_follow (ht : t.Unambiguous) {names : List String} (hnames : ".." ∉ names)
    (above : List FileTree) :
    t.HasFile names ↔ (follow above t names).toOption.any (·.isFile) = true := by
  induction names generalizing t above with
  | nil =>
    rw [follow]
    cases t with
    | file bytes => exact iff_of_true (.here bytes) rfl
    | directory entries => exact iff_of_false (by rintro ⟨⟩) (by simp [Except.toOption, isFile])
  | cons name names ih =>
    rw [List.mem_cons, not_or] at hnames
    unfold follow
    cases t with
    | file bytes => exact iff_of_false (by rintro ⟨⟩) (by simp [isDirectory, Except.toOption])
    | directory entries =>
      rw [if_neg (by simp [isDirectory]), if_neg (Ne.symm hnames.1)]
      cases hchild : (FileTree.directory entries).child? name with
      | none =>
        refine iff_of_false ?_ (by simp [Except.toOption])
        rintro (_ | ⟨hmem, -⟩)
        rw [(child?_eq_some_iff ht).2 hmem] at hchild
        cases hchild
      | some c =>
        have hmem := (child?_eq_some_iff ht).1 hchild
        rw [← ih (unambiguous_of_mem ht hmem) hnames.2]
        constructor
        · rintro (_ | ⟨hmem', hrest⟩)
          obtain rfl := Option.some.inj (hchild.symm.trans ((child?_eq_some_iff ht).2 hmem'))
          exact hrest
        · exact .entry hmem

/-- Names that lead to a tree are followed on from there, and names that lead nowhere still lead
nowhere. -/
lemma follow_append (above : List FileTree) (t : FileTree) (names : List String) :
    (∃ obstacle, ∀ rest, follow above t (names ++ rest) = .error obstacle) ∨
      ∃ above' u, ∀ rest, follow above t (names ++ rest) = follow above' u rest := by
  induction names generalizing above t with
  | nil => exact .inr ⟨above, t, fun _ => rfl⟩
  | cons name names ih =>
    simp only [List.cons_append, follow]
    split
    · exact .inl ⟨.notDirectory, fun _ => rfl⟩
    · split
      · cases above with
        | nil => exact ih [] t
        | cons up above => exact ih above up
      · cases t.child? name with
        | none => exact .inl ⟨.missing, fun _ => rfl⟩
        | some c => exact ih (t :: above) c

/-- Names lead nowhere from two reordered trees, for the same reason, or they lead to reordered
trees. -/
lemma follow_reordered {above above' : List FileTree}
    (habove : List.Forall₂ (fun u u' => u.Unambiguous ∧ Reordered u u') above above')
    (ht : t.Unambiguous) (h : Reordered t t') (names : List String) :
    (∃ obstacle, follow above t names = .error obstacle ∧
      follow above' t' names = .error obstacle) ∨
      ∃ u u', follow above t names = .ok u ∧ follow above' t' names = .ok u' ∧
        u.Unambiguous ∧ Reordered u u' := by
  induction names generalizing above above' t t' with
  | nil => exact .inr ⟨t, t', rfl, rfl, ht, h⟩
  | cons name names ih =>
    unfold follow
    rw [← h.isDirectory_eq]
    split
    · exact .inl ⟨.notDirectory, rfl, rfl⟩
    · split
      · cases habove with
        | nil => exact ih .nil ht h
        | cons hup habove => exact ih habove hup.1 hup.2
      · cases hchild : t.child? name with
        | none =>
          have hchild' : t'.child? name = none := by
            rw [Option.eq_none_iff_forall_ne_some] at hchild ⊢
            intro c' hc'
            obtain ⟨c, hmem, -⟩ :=
              h.symm.exists_entry ((child?_eq_some_iff (h.unambiguous ht)).1 hc')
            exact hchild c ((child?_eq_some_iff ht).2 hmem)
          rw [hchild']
          exact .inl ⟨.missing, rfl, rfl⟩
        | some c =>
          have hmem := (child?_eq_some_iff ht).1 hchild
          obtain ⟨c', hmem', hc⟩ := h.exists_entry hmem
          rw [(child?_eq_some_iff (h.unambiguous ht)).2 hmem']
          exact ih (.cons ⟨ht, h⟩ habove) (unambiguous_of_mem ht hmem) hc

/-- Following names keeps to trees that are unambiguous. -/
lemma unambiguous_of_follow (ht : t.Unambiguous) {names : List String} {u : FileTree}
    (h : follow [] t names = .ok u) : u.Unambiguous := by
  rcases follow_reordered .nil ht (.refl t) names with ⟨obstacle, herror, -⟩ |
    ⟨v, -, hv, -, hunambiguous, -⟩
  · rw [h] at herror
    cases herror
  · rw [h] at hv
    cases hv
    exact hunambiguous

end FileTree

/-! ### File systems -/

namespace FileSystem

/-- Two file systems of which the directories list their entries in different orders. -/
structure Reordered (fs fs' : FileSystem) : Prop where
  workingDirectory : fs.workingDirectory = fs'.workingDirectory
  root : FileTree.Reordered fs.root fs'.root

variable {fs fs' : FileSystem}

/-- A path is followed from the root, behind the names of the working directory if it hangs on
that. -/
lemma exists_follow_below (w : Place) (p : Path) : ∃ names, ∀ root rest,
    (⟨root, w⟩ : FileSystem).follow (p.below rest) =
      FileTree.follow [] root (names ++ rest) := by
  obtain ⟨anchor, names⟩ := p
  cases anchor with
  | relative => exact ⟨w.names ++ names, fun root rest => by rw [List.append_assoc]; rfl⟩
  | root => exact ⟨names, fun root rest => rfl⟩
  | doubleRoot => exact ⟨names, fun root rest => rfl⟩

/-- Nothing further below a path is the path. -/
lemma below_nil (p : Path) : p.below [] = p := by
  rw [Path.below, List.append_nil]

/-- Either a path and all paths below it lead nowhere, or these are followed on from where it
leads. -/
lemma get?_cases (hfs : fs.root.Unambiguous) (p : Path) :
    (fs.get? p = none ∧ ∀ rest, fs.get? (p.below rest) = none) ∨
      ∃ above t, fs.get? p = some t ∧ t.Unambiguous ∧
        ∀ rest, fs.get? (p.below rest) = (FileTree.follow above t rest).toOption := by
  obtain ⟨root, w⟩ := fs
  obtain ⟨names, hfollow⟩ := exists_follow_below w p
  have hget : ∀ rest, FileSystem.get? ⟨root, w⟩ (p.below rest) =
      (FileTree.follow [] root (names ++ rest)).toOption :=
    fun rest => congrArg Except.toOption (hfollow root rest)
  rcases FileTree.follow_append [] root names with ⟨obstacle, h⟩ | ⟨above, t, h⟩
  · have hnone : ∀ rest, FileSystem.get? ⟨root, w⟩ (p.below rest) = none := by
      intro rest
      rw [hget, h]
      rfl
    exact .inl ⟨below_nil p ▸ hnone [], hnone⟩
  · have hsome : ∀ rest, FileSystem.get? ⟨root, w⟩ (p.below rest) =
        (FileTree.follow above t rest).toOption := by
      intro rest
      rw [hget, h]
    exact .inr ⟨above, t, below_nil p ▸ hsome [],
      FileTree.unambiguous_of_follow hfs (h []), hsome⟩

/-- A path leads nowhere in both file systems, or to reordered trees. -/
lemma Reordered.get? (h : fs.Reordered fs') (hfs : fs.root.Unambiguous) (p : Path) :
    fs.get? p = none ∧ fs'.get? p = none ∨
      ∃ t t', fs.get? p = some t ∧ fs'.get? p = some t' ∧ t.Unambiguous ∧
        t.Reordered t' := by
  obtain ⟨root, w⟩ := fs
  obtain ⟨root', w'⟩ := fs'
  obtain rfl : w = w' := h.workingDirectory
  obtain ⟨names, hfollow⟩ := exists_follow_below w p
  have hget : ∀ r, FileSystem.get? ⟨r, w⟩ p = (FileTree.follow [] r names).toOption := by
    intro r
    have hp := hfollow r []
    rw [below_nil, List.append_nil] at hp
    rw [FileSystem.get?, hp]
  rw [hget, hget]
  rcases FileTree.follow_reordered .nil hfs h.root names with
    ⟨obstacle, hp, hp'⟩ | ⟨t, t', hp, hp', ht, hreordered⟩
  · rw [hp, hp']
    exact .inl ⟨rfl, rfl⟩
  · rw [hp, hp']
    exact .inr ⟨t, t', rfl, rfl, ht, hreordered⟩

/-- The sources come in the same order however the entries of directories are listed. -/
lemma Reordered.sourceFiles_eq (h : fs.Reordered fs') (hfs : fs.root.Unambiguous) (p : Path) :
    fs'.sourceFiles p = fs.sourceFiles p := by
  unfold FileSystem.sourceFiles
  rcases h.get? hfs p with ⟨hp, hp'⟩ | ⟨t, t', hp, hp', ht, hreordered⟩
  · rw [hp, hp']
  · rw [hp, hp', Option.map_some, Option.map_some, hreordered.sourceFiles_eq ht]

/-- Double dots are hidden, so the way to a source file does not go back. -/
lemma not_mem_of_isSource {way : List String} (h : IsSource way) : ".." ∉ way := by
  intro hmem
  have hhidden : isHidden ".." = true := by decide +kernel
  rw [h.visible ".." hmem] at hhidden
  cases hhidden

/-- The source files below a path are listed along the ways from it to them. -/
lemma exists_ways_sourceFiles (hfs : fs.root.Unambiguous) (root : Path) :
    ∃ ways : List (List String), fs.sourceFiles root = ways.map root.below ∧
      ways.Pairwise Precedes ∧
      ∀ way, way ∈ ways ↔ IsSource way ∧ fs.isFile (root.below way) = true := by
  rcases get?_cases hfs root with ⟨hnone, hbelow⟩ | ⟨above, t, hsome, ht, hbelow⟩
  · refine ⟨[], by rw [sourceFiles, hnone]; rfl, .nil, fun way => iff_of_false (by simp) ?_⟩
    rw [isFile, hbelow]
    exact fun h => nomatch h.2
  · obtain ⟨ways, hways, hfiles⟩ := FileTree.exists_ways ht
    refine ⟨ways, by rw [sourceFiles, hsome, Option.map_some, Option.getD_some, hfiles],
      hways.ordered, fun way => ?_⟩
    rw [hways.mem_iff, isFile, hbelow]
    refine and_congr_right fun hsource => ?_
    exact FileTree.hasFile_iff_follow ht (not_mem_of_isSource hsource) above

/-- The source files below a directory are listed along the ways that lead from it to them: every
way of which no name is hidden, the last one has the ending of Swift, and at the end of which there
is a file. The files of a directory come before those of the directories in it, both in the order of
their names; so none is listed twice, and the list is the same in whatever order directories list
their entries. -/
theorem sourceFiles_ways (fs : FileSystem) (hfs : fs.root.Unambiguous) (root : Path) :
    (∃ ways : List (List String), fs.sourceFiles root = ways.map root.below ∧
      ways.Pairwise Precedes ∧
      ∀ way, way ∈ ways ↔ IsSource way ∧ fs.isFile (root.below way) = true) ∧
      (fs.sourceFiles root).Nodup ∧
      ∀ fs', fs.Reordered fs' → fs'.sourceFiles root = fs.sourceFiles root := by
  obtain ⟨ways, hfiles, hordered, hmem⟩ := exists_ways_sourceFiles hfs root
  have hinjective : Function.Injective root.below := fun way way' h =>
    List.append_cancel_left (Path.mk.inj h).2
  refine ⟨⟨ways, hfiles, hordered, hmem⟩, ?_, fun fs' h => h.sourceFiles_eq hfs root⟩
  rw [hfiles]
  exact (nodup_of_pairwise hordered).map hinjective

/-- A directory with files and directories in no order, some of them hidden. -/
theorem sourceFiles_ways_app :
    let app : FileTree := .directory [("b.swift", .file []),
      ("View", .directory [("a.swift", .file [])]), (".build", .directory [("c.swift", .file [])]),
      ("a.swift", .file []), ("a.txt", .file [])]
    let fs : FileSystem := ⟨.directory [("Sources", .directory [("App", app)])], ⟨[]⟩⟩
    let root : Path := ⟨.relative, ["Sources", "App"]⟩
    fs.root.Unambiguous ∧ fs.isDirectory root = true ∧
      (∃ ways : List (List String), fs.sourceFiles root = ways.map root.below ∧
        ways.Pairwise Precedes ∧
        ∀ way, way ∈ ways ↔ IsSource way ∧ fs.isFile (root.below way) = true) ∧
      (fs.sourceFiles root).Nodup ∧
      ∀ fs', fs.Reordered fs' → fs'.sourceFiles root = fs.sourceFiles root := by
  intro app fs root
  have hone : ∀ (name : String) {t : FileTree}, t.Unambiguous →
      (FileTree.directory [(name, t)]).Unambiguous :=
    fun name t ht => .directory (by simp) (by simpa using ht)
  have happ : app.Unambiguous := by
    refine .directory (by decide) ?_
    simp only [List.forall_mem_cons]
    exact ⟨.file [], hone _ (.file []), hone _ (.file []), .file [], .file [], by simp⟩
  have hfs : fs.root.Unambiguous := hone _ (hone _ happ)
  exact ⟨hfs, by decide +kernel, sourceFiles_ways fs hfs root⟩

end FileSystem

end SwiftDependencies
