import SwiftDependencies.Analysis.Classification
import SwiftDependencies.Report.Basic

/-!
# Outcomes for targets

Every selected target has one outcome: it is analyzed, it is skipped because it has no directory of
sources, or it fails. Outcomes are collected into a report. A target whose files cannot be read
fails by itself; any other failure is that of the whole audit.
-/

namespace SwiftDependencies

/-! ### Selecting targets -/

/-- The targets to be audited: the named one, or else all, perhaps without the tests. -/
def Package.select (p : Package) (name : Option String) (excludeTests : Bool) :
    Except AuditFault (List Target) :=
  match name with
  | some name =>
    match p.target? name with
    | some t => .ok [t]
    | none => .error (.targetNotFound name p.name)
  | none => .ok (p.targets.filter fun t => !(excludeTests && t.kind == .test))

/-! ### Analyzing one target -/

/-- All that is known when the targets of a package are analyzed. -/
structure AuditContext where
  files : FileSystem
  package : Package
  externals : List ExternalPackage
  /-- The modules that are never reported. -/
  allowed : NameSet

namespace AuditContext

/-- The classification of a target, given its source files. -/
def classify (x : AuditContext) (t : Target) (files : List SourceFile) : Analysis :=
  AnalysisInput.analyze
    ⟨t, x.package, x.externals, ProductMap.ofPackages x.externals, files, x.allowed⟩

/-- The analysis of one target: find its sources, scan them in order, and classify. -/
def analyzeTarget (x : AuditContext) (t : Target) : Except AuditFault Analysis :=
  if t.hasSources then do
    let root ← x.files.sourceRoot x.package.root t
    return x.classify t (← x.files.scan x.allowed root)
  else .ok (Analysis.trivial t)

end AuditContext

/-! ### Outcomes -/

/-- What has become of a target. -/
inductive Outcome where
  | analyzed (analysis : Analysis)
  | skipped
  | failed (failure : Failure)

namespace Outcome

/-- The analysis, if there is one. -/
def analysis? : Outcome → Option Analysis
  | .analyzed a => some a
  | _ => none

/-- Whether the target was skipped. -/
def isSkipped : Outcome → Bool
  | .skipped => true
  | _ => false

/-- The failure to read a file, if that is the outcome. -/
def unreadable? : Outcome → Option Failure
  | .failed (.audit (.unreadable path reason)) => some (.audit (.unreadable path reason))
  | _ => none

/-- The failure that is not one of reading a file, if that is the outcome. -/
def unexpected? : Outcome → Option Failure
  | .failed (.audit (.unreadable ..)) => none
  | .failed f => some f
  | _ => none

end Outcome

/-- The files below a path, each scanned by itself. They are read at once, and of several that
cannot be read any one may be noticed first. That the first by its path is reported here is a
choice; `AuditContext.Unreadable` says which faults may be reported, and targets are shown to be
isolated with respect to all of these. -/
def FileSystem.scanEach (fs : FileSystem) (allowed : NameSet) (p : Path) :
    Except AuditFault (List SourceFile) :=
  let scans := (fs.sourceFiles p).map (fs.scanFile allowed)
  match scans.findSome? fun | .error fault => some fault | .ok _ => none with
  | some fault => .error fault
  | none => .ok (scans.filterMap fun | .ok f => some f | .error _ => none)

namespace AuditContext

/-- The outcome for a target. -/
def outcome (x : AuditContext) (t : Target) : Outcome :=
  if !t.hasSources then .analyzed (Analysis.trivial t)
  else
    match x.files.sourceRoot x.package.root t with
    | .error _ => .skipped
    | .ok root =>
      match x.files.scanEach x.allowed root with
      | .error fault => .failed (.audit fault)
      | .ok files => .analyzed (x.classify t files)

end AuditContext

/-! ### Collecting -/

/-- The report on a package, given the outcome for each target. -/
def Report.ofOutcomes (p : Package) (outcomes : List (Target × Outcome)) : Report :=
  ⟨p, outcomes.filterMap (·.2.analysis?),
    (outcomes.filter (·.2.isSkipped)).map (·.1.name),
    outcomes.filterMap fun (t, o) => o.unreadable?.map (⟨t.name, ·⟩)⟩

/-- What is recorded of a failed target. -/
def TargetFailure.event (f : TargetFailure) : Event :=
  .targetFailed f.target f.failure.message

/-- What is recorded at the end of an audit. -/
def Report.doneEvent (r : Report) : Event :=
  .auditDone r.package.name r.results.length r.skipped.length r.failures.length

/-- Collect outcomes into a report, unless one of them is an unexpected failure, and say what
happened. -/
def collectOutcomes (p : Package) (outcomes : List (Target × Outcome)) :
    Except Failure Report × List Event :=
  let report := Report.ofOutcomes p outcomes
  let failed := report.failures.map TargetFailure.event
  match outcomes.findSome? (·.2.unexpected?) with
  | some failure => (.error failure, failed)
  | none => (.ok report, failed ++ [report.doneEvent])

end SwiftDependencies
