import SwiftDependencies.CommandLine.Options
import SwiftDependencies.Text.Quoted
import SwiftDependencies.Text.Similarity

/-!
# Faults in a command line

A command line that cannot be followed is answered by what is wrong with it, in most cases after a
reminder of how the command is used.
-/

namespace SwiftDependencies.CommandLine

/-- Why a command line cannot be followed. -/
inductive CommandFault where
  /-- There is no such option. -/
  | unknownOption (name : String)
  /-- A parameter stands at the end without a value. -/
  | missingValue (name : String)
  /-- A flag has been given a value. -/
  | unwantedValue (name : String)
  /-- The value of a parameter is none of those that it may have. -/
  | notAChoice (parameter : Parameter) (value : String)
  /-- The value of a parameter is no whole number. -/
  | notANumber (parameter : Parameter) (value : String)
  /-- The value of a parameter is too small a number. -/
  | tooSmall (parameter : Parameter) (value : Int)
  /-- The operand is no path that may be looked for on disk. -/
  | badPath (fault : DiskFault)
  /-- There are operands beyond the first. -/
  | extraOperands (operands : List String)
  deriving DecidableEq, Repr

namespace CommandFault

/-- What is wrong with the value of a parameter. -/
def onValue (p : Parameter) (what : String) : String :=
  s!"Invalid value for '{p.name}': {what}."

/-- The names of options that an unknown one may have been meant for. -/
def suggestion : List String → String
  | [] => ""
  | [name] => s!" Did you mean {Text.quoted name}?"
  | names => s!" (Did you mean one of: {Text.quotedRow names}?)"

/-- What is said of a fault. -/
def message : CommandFault → String
  | .unknownOption name =>
    s!"No such option {Text.quoted name}." ++ suggestion (Text.closest optionNames name)
  | .missingValue name => s!"Option {Text.quoted name} requires an argument."
  | .unwantedValue name => s!"Option {Text.quoted name} does not take a value."
  | .notAChoice p value =>
    onValue p (Text.quoted value ++ " is not one of " ++ Text.quotedRow p.choices)
  | .notANumber p value => onValue p (Text.quoted value ++ " is not a valid integer range")
  | .tooSmall p value => onValue p s!"{value} is not in the range x>=1"
  | .badPath fault => fault.message
  | .extraOperands [s] => s!"Got unexpected extra argument ({s})"
  | .extraOperands operands =>
    "Got unexpected extra arguments (" ++ " ".intercalate operands ++ ")"

/-- Whether a reminder of the usage comes before what is said. -/
def showsUsage : CommandFault → Bool
  | .missingValue _ | .unwantedValue _ => false
  | _ => true

end CommandFault

end SwiftDependencies.CommandLine
