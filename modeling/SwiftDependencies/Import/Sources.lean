import SwiftDependencies.Failure
import SwiftDependencies.FileTree
import SwiftDependencies.Import.Statement
import SwiftDependencies.Package
import SwiftDependencies.Sorted

/-!
# The sources of a target

The sources of a target lie in its declared directory, or else in the directory of its name below
`Sources`, or else below `Tests`. All files below with the ending of Swift belong to it, apart from
hidden ones and those in hidden directories. The files of a directory come before those of the
directories in it, both in the order of their names.
-/

namespace SwiftDependencies

/-- A source file and its imports. -/
structure SourceFile where
  path : Path
  imports : List Import
  deriving DecidableEq, Repr, Inhabited

/-- The modules that a source file imports. -/
def SourceFile.modules (f : SourceFile) : NameSet :=
  NameSet.ofList (f.imports.map (·.module))

/-! ### Finding the directory -/

/-- Remove the slashes in front of a text. -/
def withoutFirstSlashes (s : String) : String :=
  String.ofList (s.toList.dropWhile (· == '/'))

/-- The places where the sources of a target may lie, first the ones that count most. -/
def Target.sourceCandidates (t : Target) (root : Path) : List Path :=
  ((t.path.filter (· != "")).toList.map fun p => root.join (withoutFirstSlashes p)) ++
    [(root.join "Sources").join t.name, (root.join "Tests").join t.name]

/-- The directory of the sources of a target. -/
def FileSystem.sourceRoot (fs : FileSystem) (root : Path) (t : Target) : Except AuditFault Path :=
  match (t.sourceCandidates root).find? fs.isDirectory with
  | some p => .ok p
  | none => .error (.sourcesNotFound ((t.sourceCandidates root).headD root).toString)

/-! ### Finding the files -/

/-- Whether a name is hidden. -/
def isHidden (name : String) : Bool :=
  name.toList.head? == some '.'

/-- Whether a name is that of a visible source file. -/
def isSourceName (name : String) : Bool :=
  !isHidden name && ".swift".toList.isSuffixOf name.toList

/-- The path of an entry of a directory. -/
def Path.entry (p : Path) (name : String) : Path :=
  ⟨p.anchor, p.names ++ [name]⟩

/-- The source files below a directory at a path. -/
def FileTree.sourceFiles (at_ : Path) : FileTree → List Path
  | .file _ => []
  | .directory entries =>
    let files := (entries.filter fun e => e.2.isFile && isSourceName e.1).map (·.1)
    let below := entries.attach.filterMap fun ⟨e, _⟩ =>
      if isHidden e.1 then none else some (e.1, e.2.sourceFiles (at_.entry e.1))
    (sortedBy id files).map at_.entry ++ (sortedBy (·.1) below).flatMap (·.2)
termination_by t => sizeOf t
decreasing_by
  have h := List.sizeOf_lt_of_mem ‹e ∈ entries›
  obtain ⟨name, t⟩ := e
  simp only [Prod.mk.sizeOf_spec, FileTree.directory.sizeOf_spec] at *
  omega

/-- The source files of a directory and those of the directories in it. -/
theorem FileTree.sourceFiles_directory (p : Path) (entries : List (String × FileTree)) :
    (FileTree.directory entries).sourceFiles p =
      (sortedBy id
          ((entries.filter fun e => e.2.isFile && isSourceName e.1).map (·.1))).map p.entry ++
        (sortedBy (·.1) (entries.filterMap fun e =>
          if isHidden e.1 then none
          else some (e.1, e.2.sourceFiles (p.entry e.1)))).flatMap (·.2) := by
  have hattach : ∀ g : String × FileTree → Option (String × List Path),
      (entries.attach.filterMap fun e => g e.1) = entries.filterMap g := by
    intro g
    have hmap := List.filterMap_map (f := Subtype.val) (g := g) (l := entries.attach)
    rw [List.attach_map_subtype_val] at hmap
    exact hmap.symm
  rw [sourceFiles]
  simp only [← hattach]

/-- The source files below a path, in order. -/
def FileSystem.sourceFiles (fs : FileSystem) (p : Path) : List Path :=
  ((fs.get? p).map (FileTree.sourceFiles p)).getD []

/-- The source files below a path that may be looked for on disk, in order. -/
def FileSystem.listSources (fs : FileSystem) (p : Path) : Except DiskFault (List Path) :=
  fs.sourceFiles <$> p.checked

/-! ### Scanning -/

/-- The imports of one file. -/
def FileSystem.scanFile (fs : FileSystem) (allowed : NameSet) (p : Path) :
    Except AuditFault SourceFile :=
  match fs.read p with
  | .ok text => .ok ⟨p, Import.ofText allowed text⟩
  | .error fault => .error (.unreadable p.toString fault.message)

/-- The imports of the source files below a path, unless one of them cannot be read. -/
def FileSystem.scan (fs : FileSystem) (allowed : NameSet) (p : Path) :
    Except AuditFault (List SourceFile) :=
  (fs.sourceFiles p).mapM (fs.scanFile allowed)

end SwiftDependencies
