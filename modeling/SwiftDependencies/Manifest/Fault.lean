/-!
# Faults of a manifest

Why a manifest describes no package.
-/

namespace SwiftDependencies

/-- Why a manifest describes no package. -/
inductive ManifestFault where
  /-- No package name is written anywhere. -/
  | noName
  /-- The text is not a program. -/
  | notSwift
  /-- Nowhere in the program is a package constructed. -/
  | noInitializer
  deriving DecidableEq, Repr, Inhabited

namespace ManifestFault

/-- The reason, without the words common to all. -/
def reason : ManifestFault → String
  | .noName => "Could not find package name"
  | .notSwift => "manifest does not parse as Swift"
  | .noInitializer => "no Package(...) initializer found"

/-- What is said of a fault. -/
def message (f : ManifestFault) : String :=
  "Invalid Package.swift: " ++ f.reason

/-- Whether the fault is found in reading the program, before it is interpreted. -/
def isSyntactic : ManifestFault → Bool
  | .noName => false
  | _ => true

end ManifestFault

end SwiftDependencies
