import SwiftDependencies.Report.Basic

/-!
# Findings

A finding is one thing to mend, with its place. An import of a missing module is found where it is
written, and an unused or redundant dependency where the manifest declares it. Development tools
read findings line by line, in one of two forms.
-/

namespace SwiftDependencies

/-- How bad a finding is. -/
inductive Severity where
  | error
  | warning
  deriving DecidableEq, Repr

/-- The name of a severity. -/
def Severity.name : Severity → String
  | .error => "error"
  | .warning => "warning"

/-- One thing to mend. -/
structure Finding where
  severity : Severity
  /-- The file, as it is shown. -/
  file : String
  line : Option Nat
  message : String
  deriving DecidableEq, Repr

/-! ### Wording -/

/-- What is said of a missing module. -/
def missingMessage (name : String) : String :=
  s!"Missing dependency '{name}' is imported but not declared in Package.swift"

/-- What is said of an unused dependency. -/
def unusedMessage (name target : String) : String :=
  s!"Unused dependency '{name}' is declared but never imported into {target} target"

/-- What is said of a redundant dependency. -/
def redundantMessage (r : Redundant) : String :=
  s!"Redundant dependency '{r.name}' is already provided by product '{r.product}' ({r.package})"

/-! ### The findings of a report -/

namespace Analysis

/-- The line of the manifest that declares a name. -/
def declaredLine? (a : Analysis) (name : String) : Option Nat :=
  (a.declaration? name).bind (·.line)

/-- The files and lines to blame for a missing module: where it is imported, or the manifest. -/
def blamed (a : Analysis) (manifest : Path) (name : String) : List (Path × Option Nat) :=
  match a.sites name with
  | [] => [(manifest, none)]
  | sites => sites.map fun s => (s.1, some s.2)

/-- The findings on missing modules, given how a path is shown. -/
def missingFindings (a : Analysis) (manifest : Path) (shown : Path → String) : List Finding :=
  a.missing.toList.flatMap fun n =>
    (a.blamed manifest n).map fun (path, line) => ⟨.error, shown path, line, missingMessage n⟩

/-- The findings on unused dependencies. -/
def unusedFindings (a : Analysis) (manifest : String) : List Finding :=
  a.unused.toList.map fun n =>
    ⟨.warning, manifest, a.declaredLine? n, unusedMessage n a.target.name⟩

/-- The findings on redundant dependencies. -/
def redundantFindings (a : Analysis) (manifest : String) : List Finding :=
  a.redundantByName.map fun r =>
    ⟨.warning, manifest, a.declaredLine? r.name, redundantMessage r⟩

/-- The findings on a target. -/
def findings (a : Analysis) (manifest : Path) (shown : Path → String) : List Finding :=
  a.missingFindings manifest shown ++ a.unusedFindings (shown manifest) ++
    a.redundantFindings (shown manifest)

end Analysis

/-- The path that a fault is about. -/
def AuditFault.path? : AuditFault → Option Path
  | .manifestNotFound path | .sourcesNotFound path | .unreadable path _ =>
    some (Path.ofString path)
  | .invalidManifest _ | .targetNotFound .. => none

/-- The path that a failure is about. -/
def Failure.path? : Failure → Option Path
  | .audit fault => fault.path?
  | .usage _ | .disk _ | .unexpected .. => none

/-- The finding on a target that failed. One about no path is put on the manifest, whose shown path
is read anew from the working directory. -/
def TargetFailure.finding (f : TargetFailure) (manifest : Path) (shown : Path → String) :
    Finding :=
  ⟨.error, shown (f.failure.path?.getD (Path.ofString (shown manifest))), none,
    f.failure.message⟩

/-- All findings of a report. -/
def Report.findings (r : Report) (workingDirectory : Place) : List Finding :=
  let manifest := r.package.manifestPath
  let shown := shownPath workingDirectory r.package.root
  r.resultsByName.flatMap (·.findings manifest shown) ++
    r.failuresByName.map (·.finding manifest shown)

/-! ### Forms -/

namespace Finding

/-- A finding as an integrated editor reads it. -/
def toXcode (f : Finding) : String :=
  match f.line with
  | some line => s!"{f.file}:{line}: {f.severity.name}: {f.message}"
  | none => s!"{f.file}: {f.severity.name}: {f.message}"

/-- A finding as a command to the service that runs a workflow. -/
def toWorkflowCommand (f : Finding) : String :=
  match f.line with
  | some line => s!"::{f.severity.name} file={f.file},line={line}::{f.message}"
  | none => s!"::{f.severity.name} file={f.file}::{f.message}"

end Finding

namespace Report

/-- The findings of a report, one after the other, for an integrated editor. -/
def toXcode (r : Report) (workingDirectory : Place) : String :=
  "\n".intercalate ((r.findings workingDirectory).map Finding.toXcode)

/-- The findings of a report, one after the other, for a workflow. -/
def toWorkflowCommands (r : Report) (workingDirectory : Place) : String :=
  "\n".intercalate ((r.findings workingDirectory).map Finding.toWorkflowCommand)

end Report

end SwiftDependencies
