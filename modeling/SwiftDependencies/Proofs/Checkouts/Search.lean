import Mathlib.Tactic.Common
import SwiftDependencies.Proofs.Checkouts.Nearest

/-!
# When the disk answers

The disk answers whenever a path that is looked for does not contain the character that ends every
path on disk.  A manifest may name such a path, since a string literal can be written with that
character.

A reference has an answer, be it that there is no package, exactly if its path can be looked for or
the directory of checkouts can be listed (`isOk_load_iff`).  The directory of checkouts that is
found for a package is always one that can be listed (`checkouts_of_checkoutsAbove`), so it only
depends on the paths in the manifest whether all references of a package are answered
(`exists_resolve`).
-/

namespace SwiftDependencies

section Disk

variable {fs : FileSystem} {path : Path}

/-- A path can be looked for if no name in it has the character that ends paths. -/
lemma hasEndMark_eq_false_iff :
    path.hasEndMark = false ↔ ∀ name ∈ path.names, '\x00' ∉ name.toList := by
  simp [Path.hasEndMark]

/-- The entries of a path can be listed exactly if it can be looked for and is a directory. -/
lemma isOk_entries_iff :
    (∃ entries, fs.entries path = .ok entries) ↔
      path.hasEndMark = false ∧ fs.isDirectory path = true := by
  cases hmark : path.hasEndMark with
  | true => simp [FileSystem.entries, Path.checked, hmark, bind, Except.bind]
  | false =>
    have hchecked : path.checked = .ok path := by simp [Path.checked, hmark]
    simp only [FileSystem.entries, FileSystem.isDirectory, FileSystem.get?, hchecked, bind,
      Except.bind]
    cases fs.follow path with
    | error obstacle => simp [Except.toOption, throw, throwThe, MonadExceptOf.throw]
    | ok tree =>
      cases tree with
      | file bytes =>
        simp [Except.toOption, FileTree.isDirectory, throw, throwThe, MonadExceptOf.throw]
      | directory entries => simp [Except.toOption, FileTree.isDirectory, pure, Except.pure]

end Disk

/-! ### One reference -/

namespace Resolver

variable {fs : FileSystem} {ref : PackageReference} {root : Path} {checkouts : Option Path}

/-- The disk can be searched for a reference: its path can be looked for, or, if it has none, the
directory of checkouts can be listed, unless there is no such directory. -/
def CanSearch (fs : FileSystem) (ref : PackageReference) (root : Path) (checkouts : Option Path) :
    Prop :=
  if ref.isLocal then (root.join ref.origin).hasEndMark = false
  else ∀ c ∈ checkouts, c.hasEndMark = false ∧ fs.isDirectory c = true

/-- There is an answer to where a reference is looked for exactly if the disk can be searched for
it. -/
lemma isOk_directory?_iff :
    (∃ directory, directory? fs ref root checkouts = .ok directory) ↔
      CanSearch fs ref root checkouts := by
  unfold directory? CanSearch
  split
  · cases hmark : (root.join ref.origin).hasEndMark with
    | true => simp [resolve_of_hasEndMark hmark, Functor.map, Except.map]
    | false => simp [resolve_of_not_hasEndMark hmark, Functor.map, Except.map]
  · cases checkouts with
    | none => simp
    | some c =>
      simp only [Option.mem_def, Option.some.injEq, forall_eq', ← isOk_entries_iff,
        FileSystem.matchCheckout]
      cases fs.entries c <;> simp [Functor.map, Except.map]

/-- There is an answer for a reference that is looked for exactly if the disk can be searched for
it. -/
lemma isOk_load_iff {r : Resolver} :
    (∃ answer, r.load fs ref root checkouts = .ok answer) ↔
      CanSearch fs ref root checkouts := by
  rw [← isOk_directory?_iff, load]
  cases directory? fs ref root checkouts <;> simp [Functor.map, Except.map]

end Resolver

/-! ### The references of a package -/

/-- The places at which an audit looks for the external packages of a package can be looked for. The
working directory and the root are such places on every disk; what the manifest names need not
be. -/
structure Searchable (fs : FileSystem) (p : Package) : Prop where
  workingDirectory : fs.workingDirectory.toPath.hasEndMark = false
  root : p.root.hasEndMark = false
  references : ∀ ref ∈ p.references, ref.isLocal = true →
    (p.root.join ref.origin).hasEndMark = false

section Searching

variable {fs : FileSystem} {p : Package}

/-- A step down a path adds its name at most. -/
lemma mem_step {names : List String} {next name : String} (h : name ∈ Place.step names next) :
    name ∈ names ∨ name = next := by
  unfold Place.step at h
  split at h
  · exact .inl ((List.dropLast_sublist _).subset h)
  · rcases List.mem_append.1 h with h | h
    · exact .inl h
    · exact .inr (List.mem_singleton.1 h)

/-- Steps down a path add no names but those of the path. -/
lemma mem_foldl_step {names start : List String} {name : String}
    (h : name ∈ names.foldl Place.step start) : name ∈ start ∨ name ∈ names := by
  induction names generalizing start with
  | nil => exact .inl h
  | cons next names ih =>
    rcases ih h with hstep | hrest
    · rcases mem_step hstep with hstart | rfl
      · exact .inl hstart
      · exact .inr List.mem_cons_self
    · exact .inr (List.mem_cons_of_mem _ hrest)

/-- The place of a path has the names of the working directory and the path, if any. -/
lemma mem_place {path : Path} {name : String} (h : name ∈ (fs.place path).names) :
    name ∈ fs.workingDirectory.names ∨ name ∈ path.names := by
  unfold FileSystem.place Place.ofPath at h
  rcases mem_foldl_step h with hstart | hnames
  · split at hstart
    · exact .inl hstart
    · exact absurd hstart List.not_mem_nil
  · exact .inr hnames

/-- The directory of checkouts that is found can be looked for itself. -/
lemma checkouts_of_checkoutsAbove (h : Searchable fs p) {depth : Int} {checkouts : Path}
    (hc : fs.checkoutsAbove depth (fs.place p.root) = some checkouts) :
    checkouts.hasEndMark = false ∧ fs.isDirectory checkouts = true := by
  rw [FileSystem.checkoutsAbove, FileSystem.climb_eq] at hc
  obtain ⟨k, hk, rfl⟩ := Option.map_eq_some_iff.1 hc
  have hisDirectory : fs.isDirectory ((fs.place p.root).ancestor k).checkouts = true := by
    simpa using List.find?_some hk
  refine ⟨?_, hisDirectory⟩
  rw [Place.ancestor_eq]
  have hdirectory := hasEndMark_eq_false_iff.1 h.workingDirectory
  have hroot := hasEndMark_eq_false_iff.1 h.root
  rw [hasEndMark_eq_false_iff]
  intro name hname
  simp only [Place.checkouts, Path.entry, Place.toPath, List.append_assoc, List.cons_append,
    List.nil_append, List.mem_append, List.mem_cons, List.not_mem_nil, or_false] at hname
  rcases hname with hname | rfl | rfl
  · rcases mem_place (List.mem_of_mem_take hname) with hn | hn
    · exact hdirectory name hn
    · exact hroot name hn
  · decide
  · decide

/-- Whether a reference is looked for or has a result already, there is an answer. -/
lemma exists_resolveReference (r : Resolver) (h : Searchable fs p) {ref : PackageReference}
    (href : ref ∈ p.references) {checkouts : Option Path}
    (hc : ∀ c ∈ checkouts, c.hasEndMark = false ∧ fs.isDirectory c = true)
    (cache : ResolverCache) :
    ∃ result cache' events,
      r.resolveReference fs cache ref p.root checkouts = (.ok result, cache', events) := by
  have hsearch : Resolver.CanSearch fs ref p.root checkouts := by
    unfold Resolver.CanSearch
    split
    · exact h.references ref href ‹_›
    · exact hc
  obtain ⟨⟨result, events⟩, hload⟩ := (Resolver.isOk_load_iff (r := r)).2 hsearch
  unfold Resolver.resolveReference
  cases cache.lookup ref.name with
  | some result => exact ⟨_, _, _, rfl⟩
  | none =>
    rw [hload]
    exact ⟨_, _, _, rfl⟩

/-- The disk answers for all references. -/
lemma exists_resolveReferences (r : Resolver) (h : Searchable fs p) {checkouts : Option Path}
    (hc : ∀ c ∈ checkouts, c.hasEndMark = false ∧ fs.isDirectory c = true)
    (cache : ResolverCache) {refs : List PackageReference}
    (hrefs : ∀ ref ∈ refs, ref ∈ p.references) :
    ∃ results, (r.resolveReferences fs p.root checkouts cache refs).1 = .ok results := by
  induction refs generalizing cache with
  | nil => exact ⟨[], rfl⟩
  | cons ref refs ih =>
    have htail := fun cache => ih cache fun q hq => hrefs q (List.mem_cons_of_mem _ hq)
    unfold Resolver.resolveReferences
    split
    · exact htail cache
    · obtain ⟨result, cache', events, hanswer⟩ :=
        exists_resolveReference r h (hrefs ref List.mem_cons_self) hc cache
      obtain ⟨results, hresults⟩ := htail cache'
      refine ⟨result.toList ++ results, ?_⟩
      simp only [hanswer, hresults]
      rfl

/-- The disk answers when the external packages of a package are looked for. -/
lemma exists_resolve (r : Resolver) (h : Searchable fs p) (cache : ResolverCache) :
    ∃ results, (r.resolve fs cache p).1 = .ok results := by
  have hroot : fs.findCheckouts r.depth p.root =
      .ok (fs.checkoutsAbove r.depth (fs.place p.root)) := by
    rw [FileSystem.findCheckouts, resolve_of_not_hasEndMark h.root]
    rfl
  have hcheckouts : ∀ c ∈ fs.checkoutsAbove r.depth (fs.place p.root),
      c.hasEndMark = false ∧ fs.isDirectory c = true :=
    fun c hc => checkouts_of_checkoutsAbove h hc
  simp only [Resolver.resolve, hroot]
  exact exists_resolveReferences r h hcheckouts cache fun _ hq => hq

end Searching

end SwiftDependencies
