import SwiftDependencies.Failure
import SwiftDependencies.Report.Format

/-!
# Options of the command line

An option is a flag, which stands by itself, or a parameter, which takes a value.
-/

namespace SwiftDependencies.CommandLine

/-- An option that stands by itself. -/
inductive Flag where
  | excludeTests
  | noColor
  | quiet
  | verbose
  | help
  deriving DecidableEq, Repr

namespace Flag

/-- All flags. -/
def all : List Flag :=
  [.excludeTests, .noColor, .quiet, .verbose, .help]

/-- The name of a flag. -/
def name : Flag → String
  | .excludeTests => "--exclude-tests"
  | .noColor => "--no-color"
  | .quiet => "--quiet"
  | .verbose => "--verbose"
  | .help => "--help"

/-- The letter of a flag that has one. -/
def letter? : Flag → Option Char
  | .quiet => some 'q'
  | .verbose => some 'v'
  | _ => none

/-- The flag with a name. -/
def ofName? (s : String) : Option Flag :=
  all.find? fun f => f.name == s

/-- The flag with a letter. -/
def ofLetter? (c : Char) : Option Flag :=
  all.find? fun f => f.letter? == some c

/-- Different flags have different names. -/
theorem ofName?_name (f : Flag) : ofName? f.name = some f := by
  cases f <;> rfl

end Flag

/-- An option that takes a value. -/
inductive Parameter where
  | target
  | whitelist
  | format
  | reader
  | workers
  deriving DecidableEq, Repr

namespace Parameter

/-- All parameters. -/
def all : List Parameter :=
  [.target, .whitelist, .format, .reader, .workers]

/-- The name of a parameter. -/
def name : Parameter → String
  | .target => "--target"
  | .whitelist => "--whitelist"
  | .format => "--output-format"
  | .reader => "--backend"
  | .workers => "--max-workers"

/-- The values between which a parameter chooses, if it does. -/
def choices : Parameter → List String
  | .format => ReportFormat.all.map (·.name)
  | .reader => readerNames
  | _ => []

/-- The parameter with a name. -/
def ofName? (s : String) : Option Parameter :=
  all.find? fun p => p.name == s

/-- Different parameters have different names. -/
theorem ofName?_name (p : Parameter) : ofName? p.name = some p := by
  cases p <;> rfl

end Parameter

/-- The names of all options. -/
def optionNames : List String :=
  Parameter.all.map Parameter.name ++ Flag.all.map Flag.name

end SwiftDependencies.CommandLine
