import SwiftDependencies.Event
import SwiftDependencies.Failure
import SwiftDependencies.FileTree
import SwiftDependencies.Manifest.Program
import SwiftDependencies.Manifest.Sections

/-!
# Reading manifests

A manifest is read as a program or by its sections. The automatic reader first takes it for a
program and, if it describes no package in this way, reads it by its sections, which is recorded.

What gives the nodes of a program is a part of the reader, so whatever is said of all readers is
said of all parsers.
-/

namespace SwiftDependencies

/-- The ways to read a manifest. -/
inductive ReaderKind where
  | automatic
  | program
  | sections
  deriving DecidableEq, Repr, Inhabited

namespace ReaderKind

/-- All kinds of readers. -/
def all : List ReaderKind := [.automatic, .program, .sections]

/-- The name of a kind of readers. -/
def name : ReaderKind → String
  | .automatic => "auto"
  | .program => "syntax"
  | .sections => "pattern"

/-- The names are offered in the order of the kinds. -/
theorem map_name_all : all.map name = readerNames := rfl

/-- The kind of readers with a name. -/
def ofName? (s : String) : Option ReaderKind :=
  all.find? fun k => k.name == s

/-- Different kinds have different names. -/
theorem ofName?_name (k : ReaderKind) : ofName? k.name = some k := by
  cases k <;> rfl

end ReaderKind

/-- What reads manifests: a way to do so, and what gives the nodes of a manifest that is read as a
program. -/
structure Reader where
  kind : ReaderKind
  parser : Program.Parser := Program.nodes?

namespace Reader

/-- The reader that tries both ways. -/
def automatic : Reader := ⟨.automatic, Program.nodes?⟩

/-- The reader that takes every manifest for a program. -/
def program : Reader := ⟨.program, Program.nodes?⟩

/-- The reader that looks for the sections of a manifest. -/
def sections : Reader := ⟨.sections, Program.nodes?⟩

/-- The name of a reader. -/
def name (r : Reader) : String :=
  r.kind.name

/-- The reader with a name. -/
def ofName? (s : String) : Option Reader :=
  (ReaderKind.ofName? s).map fun kind => ⟨kind, Program.nodes?⟩

/-- Read a manifest as a program with a parser. -/
def asProgramBy (parser : Program.Parser) (text : List Char) (root : Path) :
    Except ManifestFault Package := do
  (← Manifest.ofProgramBy parser text).package? root

/-- Read a manifest by its sections. -/
def bySections (text : List Char) (root : Path) : Except ManifestFault Package :=
  (Manifest.ofSections text).package? root

/-- The package that a manifest in a directory describes, and what happened on the way. -/
def read (r : Reader) (text : List Char) (root : Path) :
    Except ManifestFault Package × List Event :=
  match r.kind with
  | .program => (asProgramBy r.parser text root, [])
  | .sections => (bySections text root, [])
  | .automatic =>
    match asProgramBy r.parser text root with
    | .ok p => (.ok p, [])
    | .error fault => (bySections text root, [.manifestFallback root fault])

/-- The path of the manifest for a path to a package or to its manifest. -/
def manifestPath (path : Path) : Path :=
  if path.name = manifestName then path else path.join manifestName

/-- The package at a path, and what happened on the way. -/
def readAt (r : Reader) (fs : FileSystem) (path : Path) : Except AuditFault Package × List Event :=
  let manifest := manifestPath path
  if !fs.isFile manifest then (.error (.manifestNotFound manifest.toString), [])
  else
    match fs.read manifest with
    | .error fault => (.error (.unreadable manifest.toString fault.message), [])
    | .ok text =>
      match r.read text manifest.parent with
      | (.ok p, events) => (.ok p, events ++ [.manifestRead p.name])
      | (.error fault, events) => (.error (.invalidManifest fault), events)

end Reader

/-! ### Registered readers -/

/-- The names under which readers are registered. -/
structure ReaderRegistry where
  names : NameSet
  deriving Inhabited

namespace ReaderRegistry

/-- The two readers that are always there. -/
def standard : ReaderRegistry :=
  ⟨NameSet.ofList [Reader.sections.name, Reader.program.name]⟩

/-- Register a reader under a name. -/
def register (r : ReaderRegistry) (name : String) : ReaderRegistry :=
  ⟨r.names.insert name⟩

/-- The registered reader with a name. -/
def find (r : ReaderRegistry) (name : String) : Except UsageFault String :=
  if name ∈ r.names then .ok name else .error (.unregisteredReader name r.names.toList)

end ReaderRegistry

end SwiftDependencies
