import SwiftDependencies.Manifest.Fault
import SwiftDependencies.Path

/-!
# Events

What happens in the course of an audit is recorded as a list of events, each with a level and a
name.
-/

namespace SwiftDependencies

/-- How serious an event is. -/
inductive Level where
  | debug
  | info
  | warning
  | error
  | critical
  deriving DecidableEq, Repr, Inhabited

/-- The name of a level. -/
def Level.name : Level → String
  | .debug => "debug"
  | .info => "info"
  | .warning => "warning"
  | .error => "error"
  | .critical => "critical"

/-- Something that happened. -/
inductive Event where
  /-- A manifest is no program, so it is read by its sections instead. -/
  | manifestFallback (root : Path) (fault : ManifestFault)
  /-- A manifest has been read. -/
  | manifestRead (package : String)
  /-- No directory of checkouts was found for a package. -/
  | noCheckouts (package : String)
  /-- There is no directory for a reference. -/
  | referenceUnmatched (reference : String)
  /-- The package of a reference has no usable manifest. -/
  | referenceSkipped (reference : String)
  /-- The package of a reference was found and read. -/
  | referenceResolved (reference : String)
  /-- Two packages have a product of the same name, of which the later one is kept. -/
  | productCollision (product kept dropped : String)
  /-- A target could not be read. -/
  | targetFailed (target message : String)
  /-- All targets are done. -/
  | auditDone (package : String) (analyzed skipped failed : Nat)
  deriving DecidableEq, Repr

namespace Event

/-- How serious an event is. -/
def level : Event → Level
  | .productCollision .. => .warning
  | .targetFailed .. => .error
  | .auditDone .. => .info
  | _ => .debug

/-- The name of an event. -/
def name : Event → String
  | .manifestFallback .. => "manifest.fallback"
  | .manifestRead .. => "manifest.parsed"
  | .noCheckouts .. => "resolver.no_checkouts"
  | .referenceUnmatched .. => "resolver.package_unmatched"
  | .referenceSkipped .. => "resolver.package_skipped"
  | .referenceResolved .. => "resolver.package_resolved"
  | .productCollision .. => "resolver.product_collision"
  | .targetFailed .. => "runner.target_failed"
  | .auditDone .. => "runner.done"

/-- The package or the reference that an event is about, if it names one. -/
def package? : Event → Option String
  | .manifestRead p | .noCheckouts p | .referenceUnmatched p | .referenceSkipped p
  | .referenceResolved p | .auditDone p .. => some p
  | _ => none

end Event

end SwiftDependencies
