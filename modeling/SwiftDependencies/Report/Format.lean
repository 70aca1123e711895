import SwiftDependencies.Report.Finding
import SwiftDependencies.Report.Json
import SwiftDependencies.Report.Terminal

/-!
# Formats of a report

A report is rendered for a terminal, as JSON, or as lines of findings in one of two forms.
-/

namespace SwiftDependencies

/-- The formats in which a report can be rendered. -/
inductive ReportFormat where
  | terminal
  | json
  | xcode
  | workflow
  deriving DecidableEq, Repr, Inhabited

namespace ReportFormat

/-- All formats. -/
def all : List ReportFormat :=
  [.terminal, .json, .xcode, .workflow]

/-- The name of a format. -/
def name : ReportFormat → String
  | .terminal => "terminal"
  | .json => "json"
  | .xcode => "xcode"
  | .workflow => "github-actions"

/-- The format with a name. -/
def ofName? (s : String) : Option ReportFormat :=
  all.find? fun f => f.name == s

/-- Different formats have different names. -/
theorem ofName?_name (f : ReportFormat) : ofName? f.name = some f := by
  cases f <;> rfl

/-- The format with a name, or else the fault of naming it. -/
def ofName (s : String) : Except UsageFault ReportFormat :=
  match ofName? s with
  | some f => .ok f
  | none => .error (.unknownFormat s)

end ReportFormat

/-- A report in a format. Paths are shown as they are seen from a working directory. -/
def Report.render (r : Report) (workingDirectory : Place) (format : ReportFormat)
    (o : ReportOptions) : String :=
  match format with
  | .terminal => r.toTerminal workingDirectory o
  | .json => r.toJson.toText
  | .xcode => r.toXcode workingDirectory
  | .workflow => r.toWorkflowCommands workingDirectory

end SwiftDependencies
