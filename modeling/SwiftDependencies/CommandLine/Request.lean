import SwiftDependencies.CommandLine.Arguments
import SwiftDependencies.Manifest.Reader
import SwiftDependencies.Text.Numeral

/-!
# Requests

The arguments of a command line amount to a request: for help, or for an audit with certain options.
Help comes before all that could be wrong with a value. Values are checked in the order in which
their parameters first appear, and of several values for one parameter the last one counts. The
first operand is checked after them, and only then whether there are more.
-/

namespace SwiftDependencies.CommandLine

/-- A request for an audit. -/
structure AuditRequest where
  path : String
  target : Option String
  excludeTests : Bool
  /-- Further modules that are never reported, separated by commas. -/
  whitelist : Option String
  format : ReportFormat
  reader : Option ReaderKind
  workers : Option Int
  options : ReportOptions
  deriving DecidableEq, Repr

/-- What a command line asks for. -/
inductive Request where
  | help
  | audit (request : AuditRequest)
  deriving DecidableEq, Repr

/-- Give a parameter a value. -/
def AuditRequest.assign (r : AuditRequest) (p : Parameter) (value : String) :
    Except CommandFault AuditRequest :=
  match p with
  | .target => .ok { r with target := some value }
  | .whitelist => .ok { r with whitelist := some value }
  | .format =>
    match ReportFormat.ofName? value with
    | some f => .ok { r with format := f }
    | none => .error (.notAChoice p value)
  | .reader =>
    match ReaderKind.ofName? value with
    | some kind => .ok { r with reader := some kind }
    | none => .error (.notAChoice p value)
  | .workers =>
    match Text.readInt value with
    | .error _ => .error (.notANumber p value)
    | .ok n => if n < 1 then .error (.tooSmall p n) else .ok { r with workers := some n }

/-- The parameters that get values, in the order of their first appearance, each with its last
value. -/
def assignments (arguments : List Argument) : List (Parameter × String) :=
  (arguments.filterMap Argument.parameter?).eraseDups.filterMap fun p =>
    (arguments.reverse.findSome? (Argument.valueOf? p)).map (p, ·)

/-- The request for an audit before parameters are given values. -/
def AuditRequest.ofFlags (path : String) (flags : Flag → Bool) : AuditRequest :=
  ⟨path, none, flags .excludeTests, none, .terminal, none, none,
    ⟨!flags .noColor, flags .quiet, flags .verbose⟩⟩

/-- The request that arguments amount to. -/
def Request.ofArguments (arguments : List Argument) : Except CommandFault Request := do
  let has (f : Flag) : Bool := arguments.contains (.flag f)
  if has .help then return .help
  let operands := arguments.filterMap Argument.operand?
  let request ← (assignments arguments).foldlM (fun r (p, value) => r.assign p value)
    (AuditRequest.ofFlags (operands.headD ".") has)
  let _ ← (Path.ofString request.path).checked.mapError .badPath
  if (operands.drop 1).isEmpty then return .audit request
  else throw (.extraOperands (operands.drop 1))

/-- The request of a command line. -/
def Request.ofCommandLine (arguments : List String) : Except CommandFault Request := do
  Request.ofArguments (← readArguments arguments)

end SwiftDependencies.CommandLine
