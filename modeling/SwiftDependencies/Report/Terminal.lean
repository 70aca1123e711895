import SwiftDependencies.Report.Basic

/-!
# Reports for a terminal

A report for a terminal has a paragraph for each target. Under the heading of the target come the
missing, unused and redundant dependencies, and on request the correct ones. A summary ends it.
-/

namespace SwiftDependencies

/-- How a text stands out. -/
inductive TextStyle where
  | bold
  | red
  | green
  | yellow
  deriving DecidableEq, Repr

namespace TextStyle

/-- The code that switches a style on. -/
def code : TextStyle → String
  | .bold => "1"
  | .red => "31"
  | .green => "32"
  | .yellow => "33"

/-- A text in a style, if styles are wanted. -/
def apply (style : TextStyle) (wanted : Bool) (text : String) : String :=
  if wanted then s!"\x1b[{style.code}m{text}\x1b[0m" else text

end TextStyle

/-- A heading with its items below it, or nothing if there are none. -/
def paragraph (heading : String) (items : List String) : List String :=
  if items.isEmpty then [] else heading :: items.map ("    - " ++ ·)

namespace Analysis

/-- A missing module, with the first place where it is imported. -/
def missingItem (a : Analysis) (workingDirectory : Place) (root : Path) (name : String) : String :=
  match a.sites name with
  | [] => name
  | (path, line) :: _ =>
    s!"{name} (imported in {shownPath workingDirectory root path}:{line})"

/-- The lines on what is wrong with a target. -/
def issueLines (a : Analysis) (workingDirectory : Place) (root : Path) (o : ReportOptions) :
    List String :=
  paragraph (TextStyle.red.apply o.color "  ✗ Missing dependencies:")
      (a.missing.toList.map (a.missingItem workingDirectory root)) ++
    paragraph (TextStyle.yellow.apply o.color "  ! Unused dependencies:") a.unused.toList ++
    paragraph (TextStyle.yellow.apply o.color "  ! Redundant dependencies:")
      (a.redundantByName.map fun r =>
        s!"{r.name} (already provided by {r.product} from {r.package})")

/-- The lines on what is right about a target. -/
def correctLines (a : Analysis) (o : ReportOptions) : List String :=
  paragraph (TextStyle.green.apply o.color "  ✓ Correct dependencies:") a.correct.toList ++
    a.satisfiedByName.map fun s =>
      TextStyle.green.apply o.color "  ✓ " ++
        s!"{s.module} satisfied by product {s.product} ({s.package})"

/-- The paragraph of a target. -/
def terminalLines (a : Analysis) (workingDirectory : Place) (root : Path) (o : ReportOptions) :
    List String :=
  ["", TextStyle.bold.apply o.color s!"Target: {a.target.name}" ++ s!" ({a.target.kind.name})"] ++
    a.issueLines workingDirectory root o ++
    (if o.verbose then a.correctLines o else []) ++
    (if a.hasIssues then []
      else [TextStyle.green.apply o.color "  ✓ All dependencies are correctly declared"])

end Analysis

/-- The paragraph of a target that failed. -/
def TargetFailure.terminalLines (f : TargetFailure) (o : ReportOptions) : List String :=
  ["", TextStyle.bold.apply o.color s!"Target: {f.target}",
    TextStyle.red.apply o.color s!"  ✗ {f.failure.message}"]

namespace Report

/-- The style of the summary: that of the worst outcome. -/
def summaryStyle (r : Report) : TextStyle :=
  if r.errorCount ≠ 0 then .red else if r.warningCount ≠ 0 then .yellow else .green

/-- The counts at the end of a report. -/
def summary (r : Report) : String :=
  s!"Summary: {r.results.length} targets analyzed, {r.errorCount} with errors, " ++
    s!"{r.warningCount} with warnings"

/-- The results that are shown. -/
def shownResults (r : Report) (o : ReportOptions) : List Analysis :=
  if o.quiet then r.resultsByName.filter (·.hasIssues) else r.resultsByName

/-- The lines of a report for a terminal. -/
def terminalLines (r : Report) (workingDirectory : Place) (o : ReportOptions) : List String :=
  (if o.quiet then []
    else [TextStyle.bold.apply o.color s!"Analyzing package: {r.package.name}"]) ++
  (r.shownResults o).flatMap (·.terminalLines workingDirectory r.package.root o) ++
  r.failuresByName.flatMap (·.terminalLines o) ++
  (if o.verbose && !r.skipped.isEmpty then
      ["", "Skipped (no source directory): " ++ ", ".intercalate r.skippedByName]
    else []) ++
  (if o.quiet then [] else ["", r.summaryStyle.apply o.color r.summary])

/-- A report for a terminal. -/
def toTerminal (r : Report) (workingDirectory : Place) (o : ReportOptions) : String :=
  "\n".intercalate (r.terminalLines workingDirectory o)

end Report

end SwiftDependencies
