import SwiftDependencies.Audit.Run
import SwiftDependencies.Text.Blank
import SwiftDependencies.Text.Numeral
import SwiftDependencies.Text.Pieces
import SwiftDependencies.Text.SmallLetter

/-!
# Settings

Settings are read from variables of the environment. Each has a value that counts if its variable is
missing. The number of workers is at least one and the depth at least zero.
-/

namespace SwiftDependencies

/-- The variables of an environment. -/
abbrev Environment := List (String × String)

/-- A comma-separated list of names, without blanks around them and without empty ones. -/
def nameList (s : String) : NameSet :=
  NameSet.ofList (((Text.piecesOf (· == ',') s).map Text.trim).filter (· != ""))

/-- What the environment asks of an audit. -/
structure Settings where
  reader : ReaderKind
  workers : Int
  depth : Int
  /-- The modules that are never reported. -/
  allowed : NameSet

namespace Settings

/-- A whole number in a variable, or a default if there is no such variable. -/
def numberIn (environment : Environment) (name : String) (default : Int) :
    Except UsageFault Int :=
  match environment.lookup name with
  | some s => (Text.readInt s).mapError .notANumber
  | none => .ok default

/-- The kind of readers that the environment names. -/
def readerIn (environment : Environment) : Except UsageFault ReaderKind :=
  let name :=
    Text.lowercase ((environment.lookup "SPM_AUDIT_BACKEND").getD ReaderKind.automatic.name)
  match ReaderKind.ofName? name with
  | some kind => .ok kind
  | none => .error (.unknownReaderSetting name)

/-- Read the settings on a machine with a number of processors. -/
def load (environment : Environment) (processors : Option Int) : Except UsageFault Settings := do
  let reader ← readerIn environment
  let workers ←
    numberIn environment "SPM_AUDIT_MAX_WORKERS" (Auditor.defaultWorkers processors)
  let depth ← numberIn environment "SPM_AUDIT_CHECKOUT_DEPTH" Auditor.defaultDepth
  return ⟨reader, max 1 workers, max 0 depth,
    nameList ((environment.lookup "SPM_AUDIT_WHITELIST").getD "")⟩

/-- The auditor with some settings. -/
def auditor (s : Settings) (parser : Program.Parser := Program.nodes?) : Auditor :=
  ⟨⟨s.reader, parser⟩, s.allowed, s.workers, s.depth⟩

end Settings

end SwiftDependencies
