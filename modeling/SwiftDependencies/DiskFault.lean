import SwiftDependencies.Path
import SwiftDependencies.Text.Quoted

/-!
# Faults of the disk

A path is followed one name at a time, and leads nowhere if a name is missing or if the way goes on
from a file. A path with the character that ends every path on disk is not even looked for.
-/

namespace SwiftDependencies

/-- Why a path leads nowhere. -/
inductive Obstacle where
  /-- A directory on the way has no entry of the next name. -/
  | missing
  /-- The way goes on from a file. -/
  | notDirectory
  deriving DecidableEq, Repr, Inhabited

namespace Obstacle

/-- The number under which an obstacle is known. -/
def number : Obstacle → Nat
  | .missing => 2
  | .notDirectory => 20

/-- What an obstacle is called. -/
def name : Obstacle → String
  | .missing => "No such file or directory"
  | .notDirectory => "Not a directory"

end Obstacle

/-- Why the disk does not answer. -/
inductive DiskFault where
  /-- There is no directory at a path. -/
  | blocked (obstacle : Obstacle) (path : Path)
  /-- A path contains the character that ends every path on disk. -/
  | endMark
  deriving DecidableEq, Repr, Inhabited

/-- What is said of a fault of the disk. -/
def DiskFault.message : DiskFault → String
  | .blocked obstacle path =>
    s!"[Errno {obstacle.number}] {obstacle.name}: " ++ Text.quoted path.toString
  | .endMark => "embedded null byte"

/-- Whether a path contains the character that ends every path on disk. -/
def Path.hasEndMark (p : Path) : Bool :=
  p.names.any fun name => name.toList.contains '\x00'

/-- A path that may be looked for on disk. -/
def Path.checked (p : Path) : Except DiskFault Path :=
  if p.hasEndMark then .error .endMark else .ok p

end SwiftDependencies
