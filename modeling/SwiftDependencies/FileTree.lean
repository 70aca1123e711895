import SwiftDependencies.DiskFault
import SwiftDependencies.NameSet
import SwiftDependencies.Text.Utf8

/-!
# File trees

A file tree is a value: a file is its bytes, and a directory is a list of named entries. A path is
followed one name at a time. Each name must be an entry of a directory, and double dots go back to
the directory above, so a path through a missing directory leads nowhere even if it comes back.

A tree says nothing of what else a disk may hold or refuse: links, special files such as pipes and
devices, permissions, and limits on the length of names and paths are left out.
-/

namespace SwiftDependencies

/-- A file, or a directory with its entries. -/
inductive FileTree where
  | file (bytes : List UInt8)
  | directory (entries : List (String × FileTree))
  deriving Inhabited

namespace FileTree

/-- The entries of a directory; a file has none. -/
def entries : FileTree → List (String × FileTree)
  | .file _ => []
  | .directory es => es

/-- Whether it is a directory. -/
def isDirectory : FileTree → Bool
  | .file _ => false
  | .directory _ => true

/-- Whether it is a file. -/
def isFile : FileTree → Bool
  | .file _ => true
  | .directory _ => false

/-- The entry with a name. -/
def child? (t : FileTree) (name : String) : Option FileTree :=
  t.entries.lookup name

/-- Follow names down from `here`, which lies in the given directories, nearest first. -/
def follow (above : List FileTree) (here : FileTree) : List String → Except Obstacle FileTree
  | [] => .ok here
  | name :: names =>
    if !here.isDirectory then .error .notDirectory
    else if name = ".." then
      match above with
      | [] => follow [] here names
      | up :: above => follow above up names
    else
      match here.child? name with
      | none => .error .missing
      | some t => follow (here :: above) t names

/-! ### Changing a tree -/

/-- Give the entry with a name a new value, at the end if there was none. -/
def putEntry (name : String) (t : FileTree) :
    List (String × FileTree) → List (String × FileTree)
  | [] => [(name, t)]
  | e :: es => if e.1 = name then (name, t) :: es else e :: putEntry name t es

/-- Put a tree below another one, making the directories on the way. -/
def put (new : FileTree) : List String → FileTree → FileTree
  | [], old =>
    match new, old with
    | .directory [], .directory es => .directory es
    | _, _ => new
  | name :: names, t =>
    .directory (putEntry name (put new names ((t.child? name).getD (.directory []))) t.entries)

/-- Take away what lies below a tree. -/
def remove : List String → FileTree → FileTree
  | [], t => t
  | [name], t => .directory (t.entries.filter fun e => e.1 ≠ name)
  | name :: names, t =>
    match t.child? name with
    | none => t
    | some c => .directory (putEntry name (remove names c) t.entries)

end FileTree

/-- A file tree from the root, seen from a working directory in it. -/
structure FileSystem where
  root : FileTree
  workingDirectory : Place

namespace FileSystem

/-- What a path leads to, or what is in the way. -/
def follow (fs : FileSystem) (p : Path) : Except Obstacle FileTree :=
  match p.anchor with
  | .relative => FileTree.follow [] fs.root (fs.workingDirectory.names ++ p.names)
  | _ => FileTree.follow [] fs.root p.names

/-- What a path leads to. -/
def get? (fs : FileSystem) (p : Path) : Option FileTree :=
  (fs.follow p).toOption

/-- Whether a path leads to a directory. -/
def isDirectory (fs : FileSystem) (p : Path) : Bool :=
  (fs.get? p).any (·.isDirectory)

/-- Whether a path leads to a file. -/
def isFile (fs : FileSystem) (p : Path) : Bool :=
  (fs.get? p).any (·.isFile)

/-- The bytes of the file that a path leads to; none if there is no such file. -/
def bytes (fs : FileSystem) (p : Path) : List UInt8 :=
  match fs.get? p with
  | some (.file bytes) => bytes
  | _ => []

/-- The entries of the directory that a path leads to. -/
def entries (fs : FileSystem) (p : Path) : Except DiskFault (List (String × FileTree)) := do
  match fs.follow (← p.checked) with
  | .ok (.directory entries) => return entries
  | .ok (.file _) => throw (.blocked .notDirectory p)
  | .error obstacle => throw (.blocked obstacle p)

/-- The place of a path, by its names alone. -/
def place (fs : FileSystem) (p : Path) : Place :=
  Place.ofPath fs.workingDirectory p

/-- The place of a path that may be looked for on disk. -/
def resolve (fs : FileSystem) (p : Path) : Except DiskFault Place :=
  fs.place <$> p.checked

/-- Write a tree at a path. -/
def write (fs : FileSystem) (p : Path) (t : FileTree) : FileSystem :=
  { fs with root := FileTree.put t (fs.place p).names fs.root }

/-- Remove what lies at a path. -/
def remove (fs : FileSystem) (p : Path) : FileSystem :=
  { fs with root := fs.root.remove (fs.place p).names }

/-- The text of a file, or what is wrong with its bytes. -/
def read (fs : FileSystem) (p : Path) : Except Text.Utf8Fault (List Char) :=
  Text.readText (fs.bytes p)

end FileSystem

end SwiftDependencies
