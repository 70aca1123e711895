import SwiftDependencies.Analysis.Result

/-!
# Reports

A report holds the outcomes for the targets of a package: the analyses, the names of the targets
that were skipped, and the targets that failed. Every rendering sorts them by name, so that it does
not depend on the order in which the targets were finished.
-/

namespace SwiftDependencies

/-- A target that could not be analyzed. -/
structure TargetFailure where
  target : String
  failure : Failure
  deriving DecidableEq, Repr

/-- The outcomes for the targets of a package. -/
structure Report where
  package : Package
  results : List Analysis
  /-- The targets without a directory of sources. -/
  skipped : List String
  failures : List TargetFailure

/-- How much of a report is shown, and in what manner. -/
structure ReportOptions where
  /-- Whether headings have colors. -/
  color : Bool
  /-- Whether targets without issues are left out. -/
  quiet : Bool
  /-- Whether correct dependencies are shown too. -/
  verbose : Bool
  deriving DecidableEq, Repr

/-- The options of a rendering for which nothing else is asked. -/
instance : Inhabited ReportOptions := ⟨⟨true, false, false⟩⟩

namespace Analysis

/-- The findings of provided imports, by the name of the import. -/
def satisfiedByName (a : Analysis) : List Satisfied :=
  sortedBy (·.module) a.satisfied

/-- The findings of redundant dependencies, by the name of the dependency. -/
def redundantByName (a : Analysis) : List Redundant :=
  sortedBy (·.name) a.redundant

end Analysis

namespace Report

/-- The analyses, by the name of the target. -/
def resultsByName (r : Report) : List Analysis :=
  sortedBy (·.target.name) r.results

/-- The skipped targets, by name. -/
def skippedByName (r : Report) : List String :=
  sortedBy id r.skipped

/-- The failed targets, by name. -/
def failuresByName (r : Report) : List TargetFailure :=
  sortedBy (·.target) r.failures

/-- Whether a target failed or has something to report. -/
def hasIssues (r : Report) : Bool :=
  !r.failures.isEmpty || r.results.any (·.hasIssues)

/-- How many targets failed or miss a dependency. -/
def errorCount (r : Report) : Nat :=
  r.results.countP (·.hasError) + r.failures.length

/-- How many targets have unused or redundant dependencies. -/
def warningCount (r : Report) : Nat :=
  r.results.countP (·.hasWarning)

end Report

/-- A path as it is shown in a report: the way to it from the directory of the package. -/
def shownPath (workingDirectory : Place) (root path : Path) : String :=
  ((Place.ofPath workingDirectory root).route (Place.ofPath workingDirectory path)).toString

end SwiftDependencies
