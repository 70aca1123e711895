import SwiftDependencies.DiskFault
import SwiftDependencies.Manifest.Fault
import SwiftDependencies.Text.Numeral
import SwiftDependencies.Text.Quoted

/-!
# Failures

An audit fails for a reason that lies in the audited package, for a wrong use of the program, or
because the disk does not answer. Every failure is a cause, and its wording is in one place. A fault
at a path keeps the path as it is written.
-/

namespace SwiftDependencies

/-- The names of the ways to read a manifest, in the order in which they are offered. -/
def readerNames : List String := ["auto", "syntax", "pattern"]

/-- What is wrong with an audited package. -/
inductive AuditFault where
  /-- There is no manifest at a path. -/
  | manifestNotFound (path : String)
  /-- A manifest describes no package. -/
  | invalidManifest (fault : ManifestFault)
  /-- A target has no directory of sources; the first place where it was looked for is given. -/
  | sourcesNotFound (path : String)
  /-- A file is not text. -/
  | unreadable (path : String) (reason : String)
  /-- A package has no target of a name. -/
  | targetNotFound (target package : String)
  deriving DecidableEq, Repr, Inhabited

/-- What is said of a fault in a package. -/
def AuditFault.message : AuditFault → String
  | .manifestNotFound path => s!"Package.swift not found at path: {path}"
  | .invalidManifest fault => fault.message
  | .sourcesNotFound path => s!"Source directory not found at: {path}"
  | .unreadable path reason => s!"Failed to read file {path}: {reason}"
  | .targetNotFound target package => s!"Target '{target}' not found in package '{package}'"

/-- How the program was used wrongly. -/
inductive UsageFault where
  /-- There is no reader of a name. -/
  | unknownReader (name : String)
  /-- The environment names a reader that does not exist. -/
  | unknownReaderSetting (name : String)
  /-- No reader of a name has been registered. -/
  | unregisteredReader (name : String) (available : List String)
  /-- A setting is not a whole number. -/
  | notANumber (fault : Text.NumeralFault)
  /-- There is no report format of a name. -/
  | unknownFormat (name : String)
  /-- Fewer than no workers were asked for. -/
  | negativeWorkers
  /-- There is no log level of a name. -/
  | unknownLogLevel
  deriving DecidableEq, Repr

/-- The names of the readers, as they are listed in a message. -/
def readerList : String :=
  "(" ++ Text.quotedRow readerNames ++ ")"

/-- What is said of a wrong use. -/
def UsageFault.message : UsageFault → String
  | .unknownReader name => s!"backend must be one of {readerList}, got {Text.quoted name}"
  | .unknownReaderSetting name =>
    s!"SPM_AUDIT_BACKEND must be one of {readerList}, got {Text.quoted name}"
  | .unregisteredReader name available =>
    s!"unknown manifest backend {Text.quoted name}; available: [" ++ Text.quotedRow available ++ "]"
  | .notANumber fault => fault.message
  | .unknownFormat name => s!"unknown output format {Text.quoted name}"
  | .negativeWorkers => "Semaphore initial value must be >= 0"
  | .unknownLogLevel => "Unable to configure logger 'spm_audit'"

/-- Why something failed. -/
inductive Failure where
  | audit (fault : AuditFault)
  | usage (fault : UsageFault)
  | disk (fault : DiskFault)
  /-- Anything that none of these foresees: a kind of error, and what it says. -/
  | unexpected (kind message : String)
  deriving DecidableEq, Repr

/-- What is said of a failure. -/
def Failure.message : Failure → String
  | .audit fault => fault.message
  | .usage fault => fault.message
  | .disk fault => fault.message
  | .unexpected _ message => message

end SwiftDependencies
