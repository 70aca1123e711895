import SwiftDependencies.Proofs.Audit.Targets
import SwiftDependencies.Proofs.FileTree.Rewriting

/-!
# Targets do not depend on each other's sources

A source file matters only to the targets that scan it.  If the bytes of a file change, an audit of
the same package still gives a report, and every target that does not scan the file has the same
entry in it, whether or not the file can be read before or after.

The one file whose bytes matter to all targets is a manifest.  A manifest is always read at a path
that ends in its name (`getLast?_location_manifestPath`), so a file of another name is never read as
one, neither for the package itself nor for the packages it refers to.  Everything else that an
audit does before it scans sources only looks at names and kinds of entries (`externals_eq`,
`sourceRoot_eq`).
-/

namespace SwiftDependencies

/-! ### Manifests -/

/-- A manifest is read in some directory, whether the directory or the manifest is asked for. -/
lemma Reader.exists_manifestPath_eq (path : Path) :
    ∃ directory : Path, manifestPath path = directory.join manifestName := by
  unfold manifestPath
  by_cases hname : path.name = manifestName
  · rw [if_pos hname]
    rw [Path.name, List.getLastD_eq_getLast?] at hname
    obtain ⟨directory, hdirectory⟩ :
        ∃ directory, path.names = directory ++ [manifestName] := by
      cases hlast : path.names.getLast? with
      | none =>
        rw [hlast] at hname
        exact absurd hname (by decide)
      | some last =>
        rw [hlast, Option.getD_some] at hname
        rw [← hname]
        exact List.getLast?_eq_some_iff.1 hlast
    refine ⟨⟨path.anchor, directory⟩, ?_⟩
    rw [Path.join_manifestName, ← hdirectory]
  · rw [if_neg hname]
    exact ⟨path, rfl⟩

/-- The last name of the place of a manifest is that of manifests. -/
lemma getLast?_location_manifestPath (fs : FileSystem) (path : Path) :
    (fs.location (Reader.manifestPath path)).names.getLast? = some manifestName := by
  obtain ⟨directory, hdirectory⟩ := Reader.exists_manifestPath_eq path
  have hlocation : fs.location (directory.join manifestName) =
      ⟨(fs.location directory).names ++ [manifestName]⟩ := by
    rw [FileSystem.location, Path.join, ← Path.append_assoc]
    exact Place.ofPath_join_manifestName _ _
  rw [hdirectory, hlocation]
  exact List.getLast?_concat

section Rewriting

variable {f : Place} {fs fs' : FileSystem}

/-- A manifest is read the same if another file is rewritten. -/
lemma readAt_eq (h : fs.Rewritten f fs') (hf : f.names.getLast? ≠ some manifestName)
    (r : Reader) :
    r.readAt fs = r.readAt fs' := by
  funext path
  have hlocation : fs.location (Reader.manifestPath path) ≠ f := by
    rintro rfl
    exact hf (getLast?_location_manifestPath fs path)
  unfold Reader.readAt
  dsimp only
  rw [h.isFile_eq, h.read_eq hlocation]

/-! ### External packages -/

/-- To rewrite a file changes no place. -/
lemma place_eq (h : fs.Rewritten f fs') : fs.place = fs'.place := by
  funext p
  rw [FileSystem.place, FileSystem.place, h.workingDirectory]

/-- To rewrite a file changes nothing about where paths lead. -/
lemma resolve_eq (h : fs.Rewritten f fs') : fs.resolve = fs'.resolve := by
  funext p
  rw [FileSystem.resolve, FileSystem.resolve, place_eq h]

/-- To rewrite a file that is no manifest changes nothing about what is found for a reference. -/
lemma load_eq (h : fs.Rewritten f fs') (hf : f.names.getLast? ≠ some manifestName)
    (r : Resolver) :
    r.load fs = r.load fs' := by
  funext ref root checkouts
  have hdirectory : Resolver.directory? fs ref root checkouts =
      Resolver.directory? fs' ref root checkouts := by
    unfold Resolver.directory?
    rw [resolve_eq h]
    cases checkouts with
    | none => rfl
    | some c => simp only [h.matchCheckout_eq]
  have hpackage : r.readPackage fs ref = r.readPackage fs' ref := by
    funext directory
    unfold Resolver.readPackage
    rw [h.isDirectory_eq, readAt_eq h hf]
  rw [Resolver.load, Resolver.load, hdirectory, hpackage]

/-- To rewrite a file that is no manifest changes nothing about what is found for references. -/
lemma resolveReferences_eq (h : fs.Rewritten f fs') (hf : f.names.getLast? ≠ some manifestName)
    (r : Resolver) (root : Path) (checkouts : Option Path) (cache : ResolverCache)
    (refs : List PackageReference) :
    r.resolveReferences fs root checkouts cache refs =
      r.resolveReferences fs' root checkouts cache refs := by
  have hone : r.resolveReference fs = r.resolveReference fs' := by
    funext cache ref root checkouts
    unfold Resolver.resolveReference
    rw [load_eq h hf]
  induction refs generalizing cache with
  | nil => rfl
  | cons ref refs ih =>
    unfold Resolver.resolveReferences
    simp only [hone, ih]

/-- The same external packages are found if a file is rewritten that is no manifest. -/
lemma externals_eq (h : fs.Rewritten f fs') (hf : f.names.getLast? ≠ some manifestName)
    (x : Auditor) (p : Package) : x.externals fs p = x.externals fs' p := by
  have hclimb : fs.climb = fs'.climb := by
    funext places start
    induction places generalizing start with
    | zero => rfl
    | succ places ih => simp only [FileSystem.climb, h.isDirectory_eq, ih]
  have hcheckouts : fs.findCheckouts x.depth p.root = fs'.findCheckouts x.depth p.root := by
    unfold FileSystem.findCheckouts FileSystem.checkoutsAbove
    rw [resolve_eq h, hclimb]
  unfold Auditor.externals Resolver.resolve
  rw [hcheckouts]
  cases fs'.findCheckouts x.depth p.root with
  | error fault => rfl
  | ok checkouts => simp only [resolveReferences_eq h hf]

/-! ### Targets -/

/-- To rewrite a file changes nothing about where the sources of a target are. -/
lemma sourceRoot_eq (h : fs.Rewritten f fs') : fs.sourceRoot = fs'.sourceRoot := by
  funext root t
  unfold FileSystem.sourceRoot
  rw [h.isDirectory_eq]

end Rewriting

namespace AuditContext

/-- A target scans the file at a place: it has sources, and the file is among those below their
directory. -/
def Scans (x : AuditContext) (t : Target) (f : Place) : Prop :=
  t.hasSources = true ∧ ∃ root, x.files.sourceRoot x.package.root t = .ok root ∧
    ∃ q ∈ x.files.sourceFiles root, x.files.location q = f

/-- The same audit of other files. -/
def withFiles (x : AuditContext) (fs : FileSystem) : AuditContext :=
  { x with files := fs }

variable {x : AuditContext} {fs' : FileSystem} {f : Place} {t : Target}

/-- The sources of a target are scanned the same if the target does not scan the rewritten file. -/
lemma scanFile_eq_of_not_scans (h : x.files.Rewritten f fs') (hsources : t.hasSources = true)
    (ht : ¬x.Scans t f) {root : Path} (hroot : x.files.sourceRoot x.package.root t = .ok root) :
    ∀ q ∈ x.files.sourceFiles root, x.files.scanFile x.allowed q =
      fs'.scanFile x.allowed q := by
  intro q hq
  have hlocation : x.files.location q ≠ f := by
    intro heq
    exact ht ⟨hsources, root, hroot, q, hq, heq⟩
  unfold FileSystem.scanFile
  rw [h.read_eq hlocation]

/-- A target that does not scan the rewritten file has the same outcome. -/
lemma outcome_eq_of_not_scans (h : x.files.Rewritten f fs') (ht : ¬x.Scans t f) :
    x.outcome t = (x.withFiles fs').outcome t := by
  unfold outcome
  cases hsources : t.hasSources with
  | false => rfl
  | true =>
    have hrootEq : x.files.sourceRoot x.package.root t = fs'.sourceRoot x.package.root t := by
      rw [sourceRoot_eq h]
    simp only [withFiles, ← hrootEq]
    cases hroot : x.files.sourceRoot x.package.root t with
    | error fault => rfl
    | ok root =>
      have hscan : x.files.scanEach x.allowed root = fs'.scanEach x.allowed root := by
        unfold FileSystem.scanEach
        rw [← h.sourceFiles_eq,
          List.map_congr_left (scanFile_eq_of_not_scans h hsources ht hroot)]
      simp only [hscan]
      rfl

/-- The files that keep such a target from being analyzed are the same, whichever is noticed
first. -/
lemma unreadable_iff_of_not_scans (h : x.files.Rewritten f fs') (hsources : t.hasSources = true)
    (ht : ¬x.Scans t f) (fault : AuditFault) :
    x.Unreadable t fault ↔ (x.withFiles fs').Unreadable t fault := by
  unfold Unreadable
  simp only [withFiles, ← sourceRoot_eq h, ← h.sourceFiles_eq]
  constructor
  · rintro ⟨root, hroot, q, hq, hfault⟩
    exact ⟨root, hroot, q, hq, scanFile_eq_of_not_scans h hsources ht hroot q hq ▸ hfault⟩
  · rintro ⟨root, hroot, q, hq, hfault⟩
    exact ⟨root, hroot, q, hq, scanFile_eq_of_not_scans h hsources ht hroot q hq ▸ hfault⟩

end AuditContext

/-! ### The audit -/

/-- There is a report only if the manifest is read, the targets are selected, the external packages
are known, and the number of workers is not negative. -/
lemma exists_of_run_eq_ok {x : Auditor} {fs : FileSystem} {path : Path} {target : Option String}
    {excludeTests : Bool} {report : Report} (h : x.run fs path target excludeTests = .ok report) :
    ∃ p targets externals, (x.reader.readAt fs path).1 = .ok p ∧
      p.select target excludeTests = .ok targets ∧ x.externals fs p = .ok externals ∧
      0 ≤ x.workers ∧
      report = Report.ofOutcomes p
        ((⟨fs, p, externals, x.allowed⟩ : AuditContext).outcomes targets) := by
  cases hread : (x.reader.readAt fs path).1 with
  | error fault => simp [Auditor.run, hread, Except.mapError, bind, Except.bind] at h
  | ok p =>
    cases hselect : p.select target excludeTests with
    | error fault => simp [Auditor.run, hread, hselect, Except.mapError, bind, Except.bind] at h
    | ok targets =>
      cases hexternals : x.externals fs p with
      | error fault =>
        rw [run_eq_error hread hselect hexternals] at h
        cases h
      | ok externals =>
        by_cases hworkers : x.workers < 0
        · simp [Auditor.run, hread, hselect, hexternals, hworkers, Except.mapError, bind,
            Except.bind, throw, throwThe, MonadExceptOf.throw] at h
        · have hnonneg : 0 ≤ x.workers := Int.not_lt.1 hworkers
          rw [run_eq hnonneg hread hselect hexternals] at h
          exact ⟨p, targets, externals, rfl, hselect, hexternals, hnonneg,
            (Except.ok.inj h).symm⟩

/-- If an audit gives a report, and the bytes of one file that is no manifest change, then it gives
a report again. Both reports have one entry for each selected target, in their order, and it is the
same one for every target that does not scan the file; nor do the files change that could keep such
a target from being analyzed. -/
theorem Auditor.run_isolated (x : Auditor) {fs fs' : FileSystem} {f : Place}
    (hfile : fs.Rewritten f fs') (hf : f.names.getLast? ≠ some manifestName) {path : Path}
    {target : Option String} {excludeTests : Bool} {report : Report}
    (hrun : x.run fs path target excludeTests = .ok report) :
    ∃ p targets externals report',
      let before : AuditContext := ⟨fs, p, externals, x.allowed⟩
      let after : AuditContext := ⟨fs', p, externals, x.allowed⟩
      (x.reader.readAt fs path).1 = .ok p ∧ p.select target excludeTests = .ok targets ∧
      x.externals fs p = .ok externals ∧
      report = Report.ofOutcomes p (before.outcomes targets) ∧
      Entries before targets report.results report.skipped report.failures ∧
      x.run fs' path target excludeTests = .ok report' ∧
      report' = Report.ofOutcomes p (after.outcomes targets) ∧
      Entries after targets report'.results report'.skipped report'.failures ∧
      ∀ t ∈ targets, ¬before.Scans t f →
        before.outcome t = after.outcome t ∧
          (t.hasSources = true → ∀ fault, before.Unreadable t fault ↔
            after.Unreadable t fault) := by
  obtain ⟨p, targets, externals, hread, hselect, hexternals, hworkers, rfl⟩ :=
    exists_of_run_eq_ok hrun
  have hread' : (x.reader.readAt fs' path).1 = .ok p := by
    rw [← readAt_eq hfile hf]
    exact hread
  have hexternals' : x.externals fs' p = .ok externals := by
    rw [← externals_eq hfile hf]
    exact hexternals
  let before : AuditContext := ⟨fs, p, externals, x.allowed⟩
  let after : AuditContext := ⟨fs', p, externals, x.allowed⟩
  refine ⟨p, targets, externals, _, hread, hselect, hexternals, rfl,
    before.entries_ofOutcomes targets,
    run_eq hworkers hread' hselect hexternals', rfl, after.entries_ofOutcomes targets, ?_⟩
  intro t _ ht
  refine ⟨AuditContext.outcome_eq_of_not_scans hfile ht, ?_⟩
  intro hsources fault
  exact AuditContext.unreadable_iff_of_not_scans hfile hsources ht fault

/-! ### Two targets, one file -/

/-- A package with two targets. -/
def siblings : Package where
  name := "P"
  root := ⟨.relative, []⟩
  targets := [⟨"A", .library, [], none⟩, ⟨"B", .library, [], none⟩]
  products := []
  references := []

/-- A directory with the manifest of this package, and one source file for each target, of which the
first has the given bytes. -/
def siblingsWith (bytes : List UInt8) : FileSystem where
  workingDirectory := ⟨[]⟩
  root := .directory [
    ("Package.swift", .file (Text.asciiBytes
      "Package(name: \"P\", targets: [.target(name: \"A\"), .target(name: \"B\")])".toList)),
    ("Sources", .directory [("A", .directory [("a.swift", .file bytes)]),
      ("B", .directory [("b.swift", .file (Text.asciiBytes "import Net".toList))])])]

/-- The example with other bytes has one file rewritten. -/
lemma rewritten_siblingsWith (old new : List UInt8) :
    (siblingsWith old).Rewritten ⟨["Sources", "A", "a.swift"]⟩ (siblingsWith new) where
  workingDirectory := rfl
  root := by
    have hnone : ∀ {name : String}, ∀ e ∈ ([] : List (String × FileTree)), e.1 ≠ name :=
      fun _ he => absurd he List.not_mem_nil
    have hmanifest : ∀ bytes, ∀ e ∈ [("Package.swift", FileTree.file bytes)],
        e.1 ≠ "Sources" := by
      simp
    exact .entry (hmanifest _) (.entry hnone (.entry hnone (.file old new)))

/-- The manifest of the example is read as the package, whatever the bytes of the source. -/
lemma readAt_siblingsWith (bytes : List UInt8) :
    (Reader.sections.readAt (siblingsWith bytes) ⟨.relative, []⟩).1 = .ok siblings := by
  have hpath : Reader.manifestPath ⟨.relative, []⟩ = ⟨.relative, ["Package.swift"]⟩ := by
    decide +kernel
  rw [Reader.readAt_asciiBytes (p := siblings)
    "Package(name: \"P\", targets: [.target(name: \"A\"), .target(name: \"B\")])".toList
    (by rw [hpath]; rfl) (by decide +kernel) (by decide +kernel)]

/-- If the file of the first target becomes unreadable, the second target has the same outcome. -/
theorem Auditor.run_isolated_siblings :
    let x : Auditor := ⟨.sections, ∅, 4, 5⟩
    let f : Place := ⟨["Sources", "A", "a.swift"]⟩
    let before : AuditContext :=
      ⟨siblingsWith (Text.asciiBytes "import B".toList), siblings, [], ∅⟩
    let after : AuditContext := ⟨siblingsWith [0xff], siblings, [], ∅⟩
    before.files.Rewritten f after.files ∧ f.names.getLast? ≠ some manifestName ∧
      (∃ report, x.run before.files ⟨.relative, []⟩ none false = .ok report) ∧
      (∃ report', x.run after.files ⟨.relative, []⟩ none false = .ok report') ∧
      before.Scans ⟨"A", .library, [], none⟩ f ∧
      ¬before.Scans ⟨"B", .library, [], none⟩ f ∧
      before.outcome ⟨"B", .library, [], none⟩ =
        after.outcome ⟨"B", .library, [], none⟩ := by
  intro x f before after
  have hfile : before.files.Rewritten f after.files := rewritten_siblingsWith _ _
  have hname : f.names.getLast? ≠ some manifestName := by decide
  have hexternals : x.externals before.files siblings = .ok [] := by decide +kernel
  have hrun := run_eq (x := x) (by decide) (readAt_siblingsWith _) (select_all siblings) hexternals
  have hsource : ∀ name ∈ ["A", "B"],
      before.files.sourceRoot siblings.root ⟨name, .library, [], none⟩ =
      .ok ⟨.relative, ["Sources", name]⟩ := by
    decide +kernel
  have hscans : before.Scans ⟨"A", .library, [], none⟩ f := by
    refine ⟨rfl, _, hsource "A" (by decide),
      ⟨.relative, ["Sources", "A", "a.swift"]⟩, ?_, rfl⟩
    decide +kernel
  have hnot : ¬before.Scans ⟨"B", .library, [], none⟩ f := by
    rintro ⟨-, root, hroot, q, hq, hlocation⟩
    obtain rfl := Except.ok.inj ((hsource "B" (by decide)).symm.trans hroot)
    have hfiles : before.files.sourceFiles ⟨.relative, ["Sources", "B"]⟩ =
        [⟨.relative, ["Sources", "B", "b.swift"]⟩] := by
      decide +kernel
    rw [hfiles, List.mem_singleton] at hq
    subst hq
    exact absurd hlocation (by decide +kernel)
  obtain ⟨p, targets, externals, report', hread, hselect, hfound, -, -, hrun', -, -, hsame⟩ :=
    Auditor.run_isolated x hfile hname hrun
  obtain rfl := Except.ok.inj ((readAt_siblingsWith _).symm.trans hread)
  obtain rfl := Except.ok.inj (hexternals.symm.trans hfound)
  obtain rfl := Except.ok.inj ((select_all siblings).symm.trans hselect)
  have hmem : (⟨"B", .library, [], none⟩ : Target) ∈ siblings.targets := by decide
  exact ⟨hfile, hname, ⟨_, hrun⟩, ⟨_, hrun'⟩, hscans, hnot, (hsame _ hmem hnot).1⟩

end SwiftDependencies
