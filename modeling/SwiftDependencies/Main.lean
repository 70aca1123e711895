import SwiftDependencies.CommandLine.Answer

/-!
# The command

The command reads from disk what its audit may look at, answers, and writes the answer. Of the disk
it reads the manifest, the manifests of the packages that it may refer to, and the directories of
sources. What these are is read off the manifest, so it is read first.
-/

namespace SwiftDependencies.Disk

/-! ### What an audit may look at -/

/-- A part of the disk: a path, and how many levels of directories below it count. -/
structure Part where
  path : Path
  levels : Nat

/-- More levels than a path can have. -/
def allLevels : Nat := 4096

/-- The directory of a manifest, for a path to it or to its package. -/
def manifestPart (path : Path) : Part :=
  ⟨(Reader.manifestPath path).parent, 1⟩

/-- A place and the places above it, nearest first. -/
def upward (p : Place) : List Place :=
  (List.range (p.names.length + 1)).map fun k => ⟨p.names.take (p.names.length - k)⟩

/-- The packages by whatever reader can read the manifest at a path. -/
def packagesAt (fs : FileSystem) (path : Path) : List Package :=
  [Reader.program, Reader.sections].filterMap fun r => (r.readAt fs path).1.toOption

/-- What an audit of a package may look at: the packages that it refers to by path, the directories
of its sources, outer ones first, and the checkouts above it. -/
def parts (fs : FileSystem) (p : Package) : List Part :=
  let references := (p.references.filter (·.isLocal)).map fun r => ⟨p.root.join r.origin, 1⟩
  let sources := (p.targets.flatMap (·.sourceCandidates p.root)).mergeSort
    fun a b => (fs.place a).names.length ≤ (fs.place b).names.length
  references ++ sources.map (⟨·, allLevels⟩) ++
    ((upward (fs.place p.root)).map fun up => ⟨up.checkouts, 2⟩)

/-- The variables of the environment that count. -/
def variableNames : List String :=
  ["SPM_AUDIT_BACKEND", "SPM_AUDIT_MAX_WORKERS", "SPM_AUDIT_CHECKOUT_DEPTH",
    "SPM_AUDIT_WHITELIST", "SPM_AUDIT_LOG_LEVEL", "SPM_AUDIT_LOG_FORMAT"]

/-! ### Reading the disk -/

/-- The directory at a path, without hidden entries and links to directories, and with the bytes of
source files. Below the levels that count a directory is taken for empty. -/
def readDirectory : Nat → String → IO FileTree
  | 0, _ => return .directory []
  | levels + 1, path => do
    let mut found : List (String × FileTree) := []
    for e in ← ((← IO.currentDir) / path).readDir do
      if isHidden e.fileName then continue
      if ← e.path.isDir then
        if (← e.path.symlinkMetadata).type != .symlink then
          found := (e.fileName, ← readDirectory levels e.path.toString) :: found
      else if isSourceName e.fileName then
        found := (e.fileName, .file (← IO.FS.readBinFile e.path).toList) :: found
    return .directory found

/-- Add a part of the disk, if it is a directory. -/
def load (fs : FileSystem) (part : Part) : IO FileSystem := do
  let place := (fs.place part.path).toPath
  if ← ((← IO.currentDir) / place.toString).isDir then
    return fs.write place (← readDirectory part.levels place.toString)
  else return fs

/-- All that an audit of the package at a path may look at. -/
def readFor (workingDirectory : Place) (path : Path) : IO FileSystem := do
  let fs ← load ⟨.directory [], workingDirectory⟩ (manifestPart path)
  ((packagesAt fs path).flatMap (parts fs)).foldlM load fs

/-- The variables of the environment that are set. -/
def readEnvironment : IO Environment :=
  variableNames.filterMapM fun name => do return (← IO.getEnv name).map (name, ·)

/-- Write a text, without styles unless it goes to a terminal. -/
def write (stream : IO.FS.Stream) (text : String) : IO Unit := do
  if ← stream.isTty then stream.putStr text
  else stream.putStr (String.ofList (Text.withoutStyles text.toList))

end SwiftDependencies.Disk

open SwiftDependencies in
/-- Answer the arguments of the command line. -/
def main (arguments : List String) : IO UInt32 := do
  let workingDirectory := Place.ofPath ⟨[]⟩ (Path.ofString (← IO.currentDir).toString)
  let fs ← match CommandLine.Request.ofCommandLine arguments with
    | .ok (.audit request) => Disk.readFor workingDirectory (Path.ofString request.path)
    | _ => pure ⟨.directory [], workingDirectory⟩
  match CommandLine.answer fs (← Disk.readEnvironment) none arguments with
  | .ok a =>
    Disk.write (← IO.getStdout) a.output
    Disk.write (← IO.getStderr) a.errors
    return a.status.toUInt32
  | .error failure =>
    Disk.write (← IO.getStderr) (CommandLine.Answer.errorLine failure.message)
    return 1
