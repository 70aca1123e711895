import SwiftDependencies.Report.Basic
import SwiftDependencies.Text.Quoted

/-!
# Reports as JSON

A report becomes a JSON value, which is written over several lines with two spaces for each level.
In a string the quote, the backslash and the control characters are escaped and nothing else.
-/

namespace SwiftDependencies

/-- A JSON value, as far as a report needs it. -/
inductive Json where
  | bool (value : Bool)
  | number (value : Nat)
  | string (value : String)
  | array (items : List Json)
  | object (fields : List (String × Json))
  deriving Inhabited

namespace Json

/-- A character inside a JSON string. -/
def escapedChar (c : Char) : List Char :=
  if c == '"' || c == '\\' then ['\\', c]
  else if c == '\x08' then ['\\', 'b']
  else if c == '\x0c' then ['\\', 'f']
  else if c == '\n' then ['\\', 'n']
  else if c == '\r' then ['\\', 'r']
  else if c == '\t' then ['\\', 't']
  else if c.toNat < 0x20 then '\\' :: 'u' :: Text.hexDigits 4 c.toNat
  else [c]

/-- A text as a JSON string. -/
def quoted (s : String) : String :=
  String.ofList ('"' :: s.toList.flatMap escapedChar ++ ['"'])

/-- The spaces in front of a line. -/
def indent (depth : Nat) : String :=
  String.ofList (List.replicate (2 * depth) ' ')

/-- Written items between two brackets, each on a line of its own. -/
def enclosed (depth : Nat) (opening closing : String) (items : List String) : String :=
  if items.isEmpty then opening ++ closing
  else
    opening ++ "\n" ++ ",\n".intercalate (items.map (indent (depth + 1) ++ ·)) ++ "\n" ++
      indent depth ++ closing

mutual

/-- A JSON value at a depth, written over several lines. -/
def write (depth : Nat) : Json → String
  | .bool b => if b then "true" else "false"
  | .number n => toString n
  | .string s => quoted s
  | .array items => enclosed depth "[" "]" (writeItems (depth + 1) items)
  | .object fields => enclosed depth "\x7b" "\x7d" (writeFields (depth + 1) fields)

/-- The items of an array, each written. -/
def writeItems (depth : Nat) : List Json → List String
  | [] => []
  | j :: js => write depth j :: writeItems depth js

/-- The fields of an object, each written. -/
def writeFields (depth : Nat) : List (String × Json) → List String
  | [] => []
  | (name, j) :: fields => (quoted name ++ ": " ++ write depth j) :: writeFields depth fields

end

/-- A JSON value as a text. -/
def toText (j : Json) : String :=
  write 0 j

/-- An array of strings. -/
def strings (l : List String) : Json :=
  .array (l.map .string)

end Json

/-! ### Parts of a report -/

/-- A provided import as a JSON value. -/
def Satisfied.toJson (s : Satisfied) : Json :=
  .object [("importName", .string s.module), ("productName", .string s.product),
    ("packageName", .string s.package)]

/-- A redundant dependency as a JSON value. -/
def Redundant.toJson (r : Redundant) : Json :=
  .object [("targetName", .string r.name), ("providingProduct", .string r.product),
    ("packageName", .string r.package)]

/-- An analysis as a JSON value. -/
def Analysis.toJson (a : Analysis) : Json :=
  .object [("name", .string a.target.name), ("kind", .string a.target.kind.name),
    ("hasError", .bool a.hasError), ("hasWarning", .bool a.hasWarning),
    ("missing", .strings a.missing.toList), ("unused", .strings a.unused.toList),
    ("correct", .strings a.correct.toList),
    ("productSatisfied", .array (a.satisfiedByName.map Satisfied.toJson)),
    ("redundant", .array (a.redundantByName.map Redundant.toJson)),
    ("sourceFiles", .number a.files.length)]

/-- A failed target as a JSON value. -/
def TargetFailure.toJson (f : TargetFailure) : Json :=
  .object [("target", .string f.target), ("error", .string f.failure.message)]

/-- A report as a JSON value. -/
def Report.toJson (r : Report) : Json :=
  .object [("packageName", .string r.package.name),
    ("targets", .array (r.resultsByName.map Analysis.toJson)),
    ("skipped", .strings r.skippedByName),
    ("failures", .array (r.failuresByName.map TargetFailure.toJson))]

end SwiftDependencies
