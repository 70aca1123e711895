import SwiftDependencies.Event
import SwiftDependencies.Sorted
import SwiftDependencies.Text.LineBreak
import SwiftDependencies.Text.Quoted

/-!
# Entries of the log

An entry says what happened, how serious it is, who says so, and has fields with further values. For
a reader it is written after the time, with its fields in the order of their names. What happened is
written as it is, so it may take several lines. The text of a field is quoted if it holds a blank, a
quotation mark or an equals sign, and every text inside a list or a record is. A field with a name
that every entry has for itself is left out.
-/

namespace SwiftDependencies

/-- The value of a field. -/
inductive FieldValue where
  | absent
  | flag (value : Bool)
  | number (value : Int)
  | text (value : String)
  | list (items : List FieldValue)
  | record (fields : List (String × FieldValue))
  deriving Inhabited

namespace FieldValue

mutual

/-- A value as it is written inside another one. -/
def inner : FieldValue → String
  | .absent => "None"
  | .flag true => "True"
  | .flag false => "False"
  | .number n => toString n
  | .text s => Text.quoted s
  | .list items => "[" ++ ", ".intercalate (innerItems items) ++ "]"
  | .record fields => "\x7b" ++ ", ".intercalate (innerFields fields) ++ "\x7d"

/-- The items of a list as they are written. -/
def innerItems : List FieldValue → List String
  | [] => []
  | v :: vs => v.inner :: innerItems vs

/-- The fields of a record as they are written. -/
def innerFields : List (String × FieldValue) → List String
  | [] => []
  | (name, v) :: fields => (Text.quoted name ++ ": " ++ v.inner) :: innerFields fields

end

/-- Whether a text with a character is quoted. -/
def forcesQuotes (c : Char) : Bool :=
  [' ', '\t', '\n', '\r', '=', '"', '\''].contains c

/-- A value as it is written after the name of its field. -/
def written : FieldValue → String
  | .text s => if s.toList.any forcesQuotes then Text.quoted s else s
  | v => v.inner

end FieldValue

/-- An entry of the log. -/
structure LogEntry where
  level : Level
  /-- What happened. -/
  event : String
  /-- Who says so. -/
  logger : String
  fields : List (String × FieldValue)

namespace LogEntry

/-- A text with blanks after it, up to a width. -/
def padded (width : Nat) (s : String) : String :=
  s ++ String.ofList (List.replicate (width - s.length) ' ')

/-- The names that every entry has for itself. -/
def ownNames : List String := ["event", "level", "logger", "timestamp"]

/-- The fields that are written, by name. -/
def shownFields (e : LogEntry) : List (String × FieldValue) :=
  sortedBy (·.1) (e.fields.filter fun f => !ownNames.contains f.1)

/-- An entry as it is written after the time. -/
def written (e : LogEntry) : String :=
  " ".intercalate
    (["[" ++ padded 9 e.level.name ++ "]", padded 30 e.event, "[" ++ e.logger ++ "]"] ++
      e.shownFields.map fun (name, value) => name ++ "=" ++ value.written)

/-- The lines that an entry takes. -/
def lines (e : LogEntry) : List (List Char) :=
  Text.lines (e.written.toList ++ ['\n'])

end LogEntry

end SwiftDependencies
