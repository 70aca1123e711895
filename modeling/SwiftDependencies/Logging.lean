import SwiftDependencies.Failure
import SwiftDependencies.Logging.Entry
import SwiftDependencies.Settings
import SwiftDependencies.Text.SmallLetter

/-!
# Logging

Events from a threshold upwards are logged, either as lines for a reader or as JSON objects. An
argument counts before the environment. The name of a threshold may be written in small letters.
-/

namespace SwiftDependencies

/-- From which level on events are logged. -/
inductive Threshold where
  | notSet
  | debug
  | info
  | warning
  | error
  | critical
  deriving DecidableEq, Repr, Inhabited

namespace Threshold

/-- The name of a threshold. -/
def name : Threshold → String
  | .notSet => "NOTSET"
  | .debug => "DEBUG"
  | .info => "INFO"
  | .warning => "WARNING"
  | .error => "ERROR"
  | .critical => "CRITICAL"

/-- The names under which a threshold is known. -/
def names : List (String × Threshold) :=
  [("NOTSET", .notSet), ("DEBUG", .debug), ("INFO", .info), ("WARNING", .warning),
    ("WARN", .warning), ("ERROR", .error), ("CRITICAL", .critical), ("FATAL", .critical)]

/-- The height of a threshold. One that is not set is that of the whole program. -/
def height : Threshold → Nat
  | .debug => 1
  | .info => 2
  | .warning | .notSet => 3
  | .error => 4
  | .critical => 5

end Threshold

/-- The height of a level among the thresholds. -/
def Level.height : Level → Nat
  | .debug => 1
  | .info => 2
  | .warning => 3
  | .error => 4
  | .critical => 5

/-- How logged events are written. -/
inductive LogForm where
  | lines
  | json
  deriving DecidableEq, Repr, Inhabited

/-- How events are logged. -/
structure Logging where
  threshold : Threshold
  form : LogForm
  deriving DecidableEq, Repr, Inhabited

namespace Logging

/-- The capital of a letter, as far as the name of a threshold can contain it. -/
def capital (c : Char) : Char :=
  if c == '\u0131' then 'I' else if c == '\u017f' then 'S' else c.toUpper

/-- An argument that is given and not empty, or else a variable, or else a default. -/
def choose (argument : Option String) (environment : Environment) (name default : String) :
    String :=
  (argument.filter (· != "")).getD ((environment.lookup name).getD default)

/-- Set up logging. -/
def setUp (level form : Option String) (environment : Environment) : Except UsageFault Logging :=
  let level := choose level environment "SPM_AUDIT_LOG_LEVEL" "WARNING"
  let form := Text.lowercase (choose form environment "SPM_AUDIT_LOG_FORMAT" "console")
  match Threshold.names.lookup (level.map capital) with
  | some threshold => .ok ⟨threshold, if form = "json" then .json else .lines⟩
  | none => .error .unknownLogLevel

/-- Whether events of a level are logged. -/
def logs (x : Logging) (level : Level) : Bool :=
  x.threshold.height ≤ level.height

/-- How many lines an entry takes. As a JSON object it takes one, since JSON escapes line breaks. -/
def lineCount (x : Logging) (e : LogEntry) : Nat :=
  match x.form with
  | .lines => e.lines.length
  | .json => 1

end Logging

end SwiftDependencies
