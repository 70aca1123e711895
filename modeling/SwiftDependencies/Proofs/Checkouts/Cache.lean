import SwiftDependencies.Proofs.Checkouts.Search
import SwiftDependencies.Proofs.Text.Ascii

/-!
# The cache of a resolver is written once

A resolver is asked for single references and for all references of packages, and between two calls
everything may change: the disk, the packages, where a reference points to, and the directory of
checkouts.  What stays is the cache.  A call can only fill it, that is, add results for names that
had none, with one search for each (`Fills`); this is shown of one reference, of a row of references
and of one call, and a run of calls inherits it by induction.

The consequences are collected in `Resolver.KeepsResults`.  What they leave open is a search during
which the disk does not answer: it has no result, so nothing is kept, and the next call for the name
searches again.  The field `fault_iff` says when this happens, and `Resolver.first_answer_not_kept`
that it does.
-/

namespace SwiftDependencies

/-! ### Searches -/

/-- The reference whose package has been searched for, if this is what an event is about. -/
def Event.searched? : Event → Option String
  | .referenceUnmatched name | .referenceSkipped name | .referenceResolved name => some name
  | _ => none

/-- The references whose packages have been searched for, in order. -/
def searchedNames (events : List Event) : List String :=
  events.filterMap Event.searched?

/-- The searches of one row of events after the other. -/
@[simp] lemma searchedNames_append (events more : List Event) :
    searchedNames (events ++ more) = searchedNames events ++ searchedNames more :=
  List.filterMap_append

/-- Reading a manifest is not a search. -/
lemma searchedNames_readAt (r : Reader) (fs : FileSystem) (path : Path) :
    searchedNames (r.readAt fs path).2 = [] := by
  have hread : ∀ text root, searchedNames (r.read text root).2 = [] := by
    intro text root
    obtain ⟨kind, parser⟩ := r
    cases kind with
    | program => rfl
    | sections => rfl
    | automatic =>
      unfold Reader.read
      dsimp only
      split <;> rfl
  unfold Reader.readAt
  dsimp only
  split
  · rfl
  · split
    · rfl
    · rename_i text _
      have htext := hread text (Reader.manifestPath path).parent
      split <;> rename_i heq <;> rw [heq] at htext
      · rw [searchedNames_append, htext]
        rfl
      · exact htext

namespace Resolver

variable {r : Resolver} {fs : FileSystem} {cache : ResolverCache} {ref : PackageReference}
  {root : Path} {checkouts : Option Path}

/-- To load the package of a reference is one search for it. -/
lemma searchedNames_load {result : Option ExternalPackage} {events : List Event}
    (h : r.load fs ref root checkouts = .ok (result, events)) :
    searchedNames events = [ref.name] := by
  have hpackage : ∀ directory, searchedNames (r.readPackage fs ref directory).2 = [ref.name] := by
    intro directory
    unfold readPackage
    split
    · rfl
    · rename_i found _
      have hfound := searchedNames_readAt r.reader fs found
      split <;> rename_i heq <;> rw [heq] at hfound <;> rw [searchedNames_append, hfound] <;> rfl
  unfold load at h
  cases hdirectory : directory? fs ref root checkouts with
  | error fault => simp [hdirectory, Functor.map, Except.map] at h
  | ok directory =>
    have hevents := hpackage directory
    simp only [hdirectory, Functor.map, Except.map, Except.ok.injEq] at h
    rwa [h] at hevents

/-! ### Filling a cache -/

/-- A cache is filled with results for names that it has none for, one after the other. -/
inductive Fills : ResolverCache → List String → ResolverCache → Prop
  | nothing {cache : ResolverCache} : Fills cache [] cache
  | result {cache filled : ResolverCache} {name : String} {result : Option ExternalPackage}
      {names : List String} (unknown : cache.lookup name = none)
      (rest : Fills ((name, result) :: cache) names filled) : Fills cache (name :: names) filled

namespace Fills

variable {filled more : ResolverCache} {names others : List String} {name : String}
  {result : Option ExternalPackage}

/-- A cache that is filled twice is filled with the names of both times. -/
lemma trans (h : Fills cache names filled) (h' : Fills filled others more) :
    Fills cache (names ++ others) more := by
  induction h with
  | nothing => exact h'
  | result unknown _ ih => exact .result unknown (ih h')

/-- To keep the result for a name that has none fills the cache with this name. -/
lemma single (h : cache.lookup name = none) : Fills cache [name] ((name, result) :: cache) :=
  .result h .nothing

/-- A result is kept, and its name is none of those that get one. -/
lemma kept (h : Fills cache names filled) (hresult : cache.lookup name = some result) :
    filled.lookup name = some result ∧ name ∉ names := by
  induction h with
  | nothing => exact ⟨hresult, List.not_mem_nil⟩
  | @result cache filled other result' names unknown _ ih =>
    have hne : name ≠ other := by
      rintro rfl
      rw [hresult] at unknown
      cases unknown
    have hlookup : ((other, result') :: cache).lookup name = some result := by
      rw [List.lookup_cons, beq_false_of_ne hne]
      exact hresult
    obtain ⟨hfilled, hnames⟩ := ih hlookup
    refine ⟨hfilled, ?_⟩
    rw [List.mem_cons, not_or]
    exact ⟨hne, hnames⟩

/-- No name gets a result twice. -/
lemma nodup (h : Fills cache names filled) : names.Nodup := by
  induction h with
  | nothing => exact List.nodup_nil
  | result _ rest ih =>
    rw [List.nodup_cons]
    exact ⟨(rest.kept List.lookup_cons_self).2, ih⟩

/-- The names with a result are those that had one and those that get one. -/
lemma isSome_iff (h : Fills cache names filled) :
    (filled.lookup name).isSome = true ↔
      (cache.lookup name).isSome = true ∨ name ∈ names := by
  induction h with
  | nothing => simp
  | @result cache filled other result' names _ _ ih =>
    rw [ih, List.lookup_cons, List.mem_cons]
    by_cases hname : name = other
    · simp [hname]
    · simp [hname, beq_false_of_ne hname]

end Fills

/-! ### One reference -/

/-- A reference has a result already, or the disk does not answer, or it is searched for and has a
result from then on. -/
lemma resolveReference_cases (r : Resolver) (fs : FileSystem) (cache : ResolverCache)
    (ref : PackageReference) (root : Path) (checkouts : Option Path) :
    (∃ result, cache.lookup ref.name = some result ∧
        r.resolveReference fs cache ref root checkouts = (.ok result, cache, [])) ∨
      (∃ fault, cache.lookup ref.name = none ∧ r.load fs ref root checkouts = .error fault ∧
        r.resolveReference fs cache ref root checkouts = (.error fault, cache, [])) ∨
      ∃ result events, cache.lookup ref.name = none ∧
        r.load fs ref root checkouts = .ok (result, events) ∧
        r.resolveReference fs cache ref root checkouts =
          (.ok result, (ref.name, result) :: cache, events) := by
  unfold resolveReference
  cases hlookup : cache.lookup ref.name with
  | some result => exact .inl ⟨result, rfl, rfl⟩
  | none =>
    cases hload : r.load fs ref root checkouts with
    | error fault => exact .inr (.inl ⟨fault, rfl, rfl, rfl⟩)
    | ok answer => exact .inr (.inr ⟨answer.1, answer.2, rfl, rfl, rfl⟩)

/-- A look for one reference fills the cache with what has been searched for, which is this
reference or nothing. -/
lemma fills_resolveReference (r : Resolver) (fs : FileSystem) (cache : ResolverCache)
    (ref : PackageReference) (root : Path) (checkouts : Option Path) :
    Fills cache (searchedNames (r.resolveReference fs cache ref root checkouts).2.2)
      (r.resolveReference fs cache ref root checkouts).2.1 := by
  rcases r.resolveReference_cases fs cache ref root checkouts with
    ⟨result, -, h⟩ | ⟨fault, -, -, h⟩ | ⟨result, events, hnone, hload, h⟩
  · rw [h]
    exact .nothing
  · rw [h]
    exact .nothing
  · rw [h, searchedNames_load hload]
    exact .single hnone

/-- What a reference is answered is its result in the cache from then on. -/
lemma lookup_of_resolveReference {result : Option ExternalPackage}
    (h : (r.resolveReference fs cache ref root checkouts).1 = .ok result) :
    (r.resolveReference fs cache ref root checkouts).2.1.lookup ref.name = some result := by
  rcases r.resolveReference_cases fs cache ref root checkouts with
    ⟨kept, hkept, heq⟩ | ⟨fault, -, -, heq⟩ | ⟨found, events, -, -, heq⟩ <;>
      rw [heq] at h ⊢
  · cases h
    exact hkept
  · cases h
  · cases h
    exact List.lookup_cons_self

/-- A reference with a result is answered by it, whatever the disk holds, and nothing happens. -/
lemma resolveReference_of_lookup {result : Option ExternalPackage}
    (h : cache.lookup ref.name = some result) :
    r.resolveReference fs cache ref root checkouts = (.ok result, cache, []) := by
  simp [resolveReference, h]

/-- The disk does not answer for a reference exactly if it has no result and cannot be searched
for. -/
lemma resolveReference_eq_error_iff :
    (∃ fault, (r.resolveReference fs cache ref root checkouts).1 = .error fault) ↔
      cache.lookup ref.name = none ∧ ¬CanSearch fs ref root checkouts := by
  rw [← isOk_load_iff (r := r)]
  rcases r.resolveReference_cases fs cache ref root checkouts with
    ⟨result, hlookup, heq⟩ | ⟨fault, hlookup, hload, heq⟩ |
      ⟨result, events, hlookup, hload, heq⟩
  · simp [heq, hlookup]
  · simp [heq, hlookup, hload]
  · simp [heq, hlookup, hload]

/-! ### The references of a package -/

/-- The results that a cache has for references, in the order of the references. -/
def cached (cache : ResolverCache) (refs : List PackageReference) : List ExternalPackage :=
  refs.filterMap fun ref => (cache.lookup ref.name).join

/-- A cache that is filled has no less results for references. -/
lemma cached_sublist_of_fills {filled : ResolverCache} {names : List String}
    (h : Fills cache names filled) (refs : List PackageReference) :
    (cached cache refs).Sublist (cached filled refs) := by
  induction refs with
  | nil => exact .slnil
  | cons ref refs ih =>
    unfold cached at ih ⊢
    rw [List.filterMap_cons, List.filterMap_cons]
    cases hlookup : (cache.lookup ref.name).join with
    | none =>
      cases (filled.lookup ref.name).join with
      | none => exact ih
      | some _ => exact ih.cons _
    | some package =>
      have hfilled := (h.kept (Option.join_eq_some_iff.1 hlookup)).1
      rw [hfilled]
      exact ih.cons_cons _

/-- References in a row fill the cache, and the answer has those packages that the cache then has
for them, some perhaps left out. -/
lemma resolveReferences_spec (r : Resolver) (fs : FileSystem) (root : Path)
    (checkouts : Option Path) (cache : ResolverCache) (refs : List PackageReference) :
    Fills cache (searchedNames (r.resolveReferences fs root checkouts cache refs).2.2)
        (r.resolveReferences fs root checkouts cache refs).2.1 ∧
      ∀ results, (r.resolveReferences fs root checkouts cache refs).1 = .ok results →
        results.Sublist (cached (r.resolveReferences fs root checkouts cache refs).2.1 refs) := by
  induction refs generalizing cache with
  | nil =>
    refine ⟨.nothing, ?_⟩
    intro results h
    cases h
    exact .slnil
  | cons ref refs ih =>
    unfold resolveReferences
    split
    · obtain ⟨hfills, hsublist⟩ := ih cache
      refine ⟨hfills, ?_⟩
      intro results h
      refine (hsublist results h).trans ?_
      unfold cached
      rw [List.filterMap_cons]
      split
      · exact .refl _
      · exact List.sublist_cons_self _ _
    · have hfirst := r.fills_resolveReference fs cache ref root checkouts
      have hlookup := @lookup_of_resolveReference r fs cache ref root checkouts
      -- The first reference may stop the search; otherwise the others go on with the cache it
      -- leaves.
      split <;> rename_i heq <;> rw [heq] at hfirst hlookup
      · refine ⟨hfirst, ?_⟩
        intro results h
        cases h
      · rename_i result filled events
        obtain ⟨hfills, hsublist⟩ := ih filled
        refine ⟨?_, ?_⟩
        · rw [searchedNames_append]
          exact hfirst.trans hfills
        · intro results h
          obtain ⟨others, hothers, rfl⟩ : ∃ others,
              (r.resolveReferences fs root checkouts filled refs).1 = .ok others ∧
                result.toList ++ others = results := by
            cases hrest : (r.resolveReferences fs root checkouts filled refs).1 with
            | error fault => simp [hrest, Functor.map, Except.map] at h
            | ok others =>
              exact ⟨others, rfl, by simpa [hrest, Functor.map, Except.map] using h⟩
          have hresult := (hfills.kept (hlookup rfl)).1
          unfold cached at hsublist ⊢
          rw [List.filterMap_cons, hresult]
          cases result with
          | none => exact hsublist others hothers
          | some package => exact (hsublist others hothers).cons_cons _

/-- Looking for the external packages of a package fills the cache, and the answer has those
packages that the cache then has for its references, some perhaps left out. -/
lemma resolve_spec (r : Resolver) (fs : FileSystem) (cache : ResolverCache) (p : Package) :
    Fills cache (searchedNames (r.resolve fs cache p).2.2) (r.resolve fs cache p).2.1 ∧
      ∀ results, (r.resolve fs cache p).1 = .ok results →
        results.Sublist (cached (r.resolve fs cache p).2.1 p.references) := by
  unfold resolve
  split
  · refine ⟨.nothing, ?_⟩
    intro results h
    cases h
  · rename_i checkouts _
    obtain ⟨hfills, hsublist⟩ := r.resolveReferences_spec fs p.root checkouts cache p.references
    have hnone : searchedNames (if checkouts.isNone then [.noCheckouts p.name] else []) = [] := by
      split <;> rfl
    refine ⟨?_, hsublist⟩
    rw [searchedNames_append, hnone, List.nil_append]
    exact hfills

end Resolver

/-! ### Runs -/

/-- A call of a resolver, with the disk as the call finds it. -/
inductive ResolverCall where
  /-- Ask for the package of a reference. -/
  | reference (fs : FileSystem) (ref : PackageReference) (root : Path) (checkouts : Option Path)
  /-- Ask for the external packages of a package. -/
  | package (fs : FileSystem) (p : Package)

namespace Resolver

/-- What a call does: the cache that it leaves, and what happens. -/
def effect (r : Resolver) (cache : ResolverCache) : ResolverCall → ResolverCache × List Event
  | .reference fs ref root checkouts => (r.resolveReference fs cache ref root checkouts).2
  | .package fs p => (r.resolve fs cache p).2

/-- What calls do, one after the other. -/
def run (r : Resolver) (cache : ResolverCache) : List ResolverCall → ResolverCache × List Event
  | [] => (cache, [])
  | call :: calls =>
    let (cache, events) := r.effect cache call
    let (cache, more) := r.run cache calls
    (cache, events ++ more)

variable {r : Resolver} {cache : ResolverCache}

/-- A call fills the cache. -/
lemma fills_effect (r : Resolver) (cache : ResolverCache) (call : ResolverCall) :
    Fills cache (searchedNames (r.effect cache call).2) (r.effect cache call).1 := by
  cases call with
  | reference fs ref root checkouts => exact r.fills_resolveReference fs cache ref root checkouts
  | package fs p => exact (r.resolve_spec fs cache p).1

/-- A run of calls fills the cache. -/
lemma fills_run (r : Resolver) (cache : ResolverCache) (calls : List ResolverCall) :
    Fills cache (searchedNames (r.run cache calls).2) (r.run cache calls).1 := by
  induction calls generalizing cache with
  | nil => exact .nothing
  | cons call calls ih =>
    have hcall := r.fills_effect cache call
    have hcalls := ih (r.effect cache call).1
    simp only [run, searchedNames_append]
    exact hcall.trans hcalls

/-- To make some calls and then more is to make all of them. -/
lemma run_append (calls more : List ResolverCall) :
    (r.run cache (calls ++ more)).1 = (r.run (r.run cache calls).1 more).1 := by
  induction calls generalizing cache with
  | nil => rfl
  | cons call calls ih => exact ih

/-- A result that the cache has after some calls is kept by all further calls. -/
lemma lookup_run_append {calls : List ResolverCall} {name : String}
    {result : Option ExternalPackage} (h : (r.run cache calls).1.lookup name = some result)
    (more : List ResolverCall) : (r.run cache (calls ++ more)).1.lookup name = some result := by
  rw [run_append]
  exact ((r.fills_run _ more).kept h).1

/-- What is kept in a run of calls on a new resolver. In each field the run is cut at one or two of
its calls, which find the cache that the calls before them have left. -/
structure KeepsResults (r : Resolver) (calls : List ResolverCall) : Prop where
  /-- No name is searched for twice. -/
  nodup_searched : (searchedNames (r.run [] calls).2).Nodup
  /-- A name has a result exactly if it has been searched for. -/
  isSome_iff : ∀ name, ((r.run [] calls).1.lookup name).isSome = true ↔
    name ∈ searchedNames (r.run [] calls).2
  /-- The result for a name never changes. -/
  lookup_eq : ∀ {before after name result}, calls = before ++ after →
    (r.run [] before).1.lookup name = some result → (r.run [] calls).1.lookup name = some result
  /-- Once a reference has been answered, every reference of its name is given the same answer
  without another search, wherever it points to and whatever the disk then holds. -/
  answer_eq : ∀ {before between after fs ref root checkouts fs' ref' root' checkouts' result},
    calls = before ++ .reference fs ref root checkouts :: between ++
        .reference fs' ref' root' checkouts' :: after → ref'.name = ref.name →
      (r.resolveReference fs (r.run [] before).1 ref root checkouts).1 = .ok result →
      let cache := (r.run [] (before ++ .reference fs ref root checkouts :: between)).1
      r.resolveReference fs' cache ref' root' checkouts' = (.ok result, cache, [])
  /-- There is no answer for a reference exactly if there is no result for its name and the disk
  cannot be searched for it. -/
  fault_iff : ∀ {before after fs ref root checkouts},
    calls = before ++ .reference fs ref root checkouts :: after →
      ((∃ fault,
          (r.resolveReference fs (r.run [] before).1 ref root checkouts).1 = .error fault) ↔
        (r.run [] before).1.lookup ref.name = none ∧ ¬CanSearch fs ref root checkouts)
  /-- The packages that are found for a package are among those that the cache has for its
  references, in the order of the references. -/
  packages_sublist : ∀ {before after fs p results}, calls = before ++ .package fs p :: after →
    (r.resolve fs (r.run [] before).1 p).1 = .ok results →
      results.Sublist (cached (r.run [] calls).1 p.references)

/-- The cache of a resolver is written once for each name, over any run of calls. -/
theorem keepsResults (r : Resolver) (calls : List ResolverCall) : r.KeepsResults calls where
  nodup_searched := (r.fills_run [] calls).nodup
  isSome_iff name := by
    rw [(r.fills_run [] calls).isSome_iff]
    simp
  lookup_eq := by
    rintro before after name result rfl h
    exact lookup_run_append h after
  answer_eq := by
    rintro before between after fs ref root checkouts fs' ref' root' checkouts'
      result - hname hanswer
    intro cache
    have hfirst : (r.run [] (before ++ [.reference fs ref root checkouts])).1.lookup ref.name =
        some result := by
      rw [run_append]
      exact lookup_of_resolveReference hanswer
    have hcache : cache.lookup ref'.name = some result := by
      have hkept := lookup_run_append hfirst between
      rw [List.append_assoc, List.singleton_append] at hkept
      rwa [hname]
    exact resolveReference_of_lookup hcache
  fault_iff _ := resolveReference_eq_error_iff
  packages_sublist := by
    rintro before after fs p results rfl h
    have hsublist := (r.resolve_spec fs (r.run [] before).1 p).2 results h
    refine hsublist.trans ?_
    have hfills := r.fills_run (r.effect (r.run [] before).1 (.package fs p)).1 after
    rw [run_append]
    exact cached_sublist_of_fills hfills p.references

/-! ### A search without an answer -/

/-- A directory with a package `K`. -/
def directoryOfK : FileSystem where
  workingDirectory := ⟨[]⟩
  root := .directory [("K", .directory [("Package.swift",
    .file (Text.asciiBytes "let package = Package(name: \"K\", targets: [])".toList))])]

/-- The manifest of the example is read as its package. -/
lemma readAt_directoryOfK :
    Reader.sections.readAt directoryOfK ⟨.root, ["K"]⟩ =
      (.ok ⟨"K", ⟨.root, ["K"]⟩, [], [], []⟩, [.manifestRead "K"]) := by
  have hpath : Reader.manifestPath ⟨.root, ["K"]⟩ = ⟨.root, ["K", "Package.swift"]⟩ := by
    decide +kernel
  refine Reader.readAt_asciiBytes "let package = Package(name: \"K\", targets: [])".toList ?_
    (by decide +kernel) (by decide +kernel)
  rw [hpath]
  rfl

/-- A first answer need not be kept if it is that the disk does not answer. A reference to a path
that no disk has is refused, and yet the package of the same name is found where the next reference
points to. -/
theorem first_answer_not_kept :
    ¬∀ (r : Resolver) (fs fs' : FileSystem) (ref ref' : PackageReference) (root root' : Path)
      (checkouts checkouts' : Option Path), ref'.name = ref.name →
        (r.resolveReference fs' (r.run [] [.reference fs ref root checkouts]).1 ref' root'
          checkouts').1 = (r.resolveReference fs [] ref root checkouts).1 := by
  intro h
  let r : Resolver := ⟨.sections, 5⟩
  let refused : PackageReference := ⟨"K", "\x00", true⟩
  let found : PackageReference := ⟨"K", "K", true⟩
  have hmark : (Path.join ⟨.relative, []⟩ refused.origin).hasEndMark = true := by decide +kernel
  have hrefused : r.resolveReference directoryOfK [] refused ⟨.relative, []⟩ none =
      (.error .endMark, [], []) := by
    simp only [resolveReference, List.lookup_nil, load, directory?, refused, if_true,
      resolve_of_hasEndMark hmark, Functor.map, Except.map]
  have hdirectory : directory? directoryOfK found ⟨.relative, []⟩ none =
      .ok (some ⟨.root, ["K"]⟩) := by
    decide +kernel
  have hisDirectory : directoryOfK.isDirectory ⟨.root, ["K"]⟩ = true := rfl
  have hfound : (r.resolveReference directoryOfK [] found ⟨.relative, []⟩ none).1 =
      .ok (some ⟨"K", [], ⟨.root, ["K"]⟩⟩) := by
    simp only [resolveReference, List.lookup_nil, load, hdirectory, Functor.map, Except.map,
      readPackage, Option.filter_some, hisDirectory, if_true, r, readAt_directoryOfK]
    rfl
  have heq := h r directoryOfK directoryOfK refused found ⟨.relative, []⟩
    ⟨.relative, []⟩ none none rfl
  have hcache : (r.run [] [.reference directoryOfK refused ⟨.relative, []⟩ none]).1 = [] := by
    simp only [run, effect, hrefused]
  rw [hcache, hfound, hrefused] at heq
  cases heq

end Resolver

end SwiftDependencies
