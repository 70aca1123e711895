import SwiftDependencies.CommandLine.Fault

/-!
# Arguments of the command line

An argument that starts with a dash and goes on is an option; any other is an operand, and after two
dashes everything is. An option that takes a value has it after an equals sign or in the next
argument. Short flags may be written together after one dash. Options and operands mix freely.
-/

namespace SwiftDependencies.CommandLine

/-- One element of a command line, as it is read. -/
inductive Argument where
  | flag (flag : Flag)
  | parameter (parameter : Parameter) (value : String)
  | operand (text : String)
  deriving DecidableEq, Repr

/-- Whether an argument is an option. -/
def isOption (s : String) : Bool :=
  match s.toList with
  | '-' :: _ :: _ => true
  | _ => false

/-- Whether an option is written out with two dashes. -/
def isLong (s : String) : Bool :=
  ['-', '-'].isPrefixOf s.toList

/-- An option before its first equals sign, and the value after it. -/
def splitValue (s : String) : String × Option String :=
  let cs := s.toList
  match cs.dropWhile (· != '=') with
  | [] => (s, none)
  | _ :: value => (String.ofList (cs.takeWhile (· != '=')), some (String.ofList value))

/-- Read flags that are written together. -/
def readLetters : List Char → Except CommandFault (List Argument)
  | [] => .ok []
  | c :: cs =>
    match Flag.ofLetter? c with
    | some f => do return .flag f :: (← readLetters cs)
    | none => .error (.unknownOption (String.ofList ['-', c]))

/-- Read an option that is no parameter. -/
def readFlags (s name : String) (value : Option String) : Except CommandFault (List Argument) :=
  match Flag.ofName? name with
  | some f => if value.isSome then .error (.unwantedValue name) else .ok [.flag f]
  | none => if isLong s then .error (.unknownOption name) else readLetters (s.toList.drop 1)

/-- Read the arguments of a command line. -/
def readArguments : List String → Except CommandFault (List Argument)
  | [] => .ok []
  | s :: rest =>
    if s = "--" then .ok (rest.map .operand)
    else if !isOption s then do return .operand s :: (← readArguments rest)
    else
      let (name, value) := splitValue s
      match Parameter.ofName? name with
      | none => do return (← readFlags s name value) ++ (← readArguments rest)
      | some p =>
        match value, rest with
        | some v, rest => do return .parameter p v :: (← readArguments rest)
        | none, v :: rest => do return .parameter p v :: (← readArguments rest)
        | none, [] => .error (.missingValue name)

namespace Argument

/-- The parameter that an argument gives a value. -/
def parameter? : Argument → Option Parameter
  | .parameter p _ => some p
  | _ => none

/-- The value that an argument gives a parameter. -/
def valueOf? (p : Parameter) : Argument → Option String
  | .parameter q v => if p = q then some v else none
  | _ => none

/-- The text of an operand. -/
def operand? : Argument → Option String
  | .operand s => some s
  | _ => none

end Argument

end SwiftDependencies.CommandLine
