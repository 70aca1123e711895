import SwiftDependencies.CommandLine.Request
import SwiftDependencies.Logging
import SwiftDependencies.Settings
import SwiftDependencies.Text.Style

/-!
# Answers of the command

The command answers by an exit status and by what it writes. The status is one if the audit fails or
has something to report, two if the command line cannot be followed, and zero otherwise. Nothing is
written for an empty report. Styles are left out unless the answer goes to a terminal.
-/

namespace SwiftDependencies.CommandLine

/-- The exit status of a command and what it writes. -/
structure Answer where
  status : Nat
  output : String
  errors : String
  deriving DecidableEq, Repr

/-- How the command is used. -/
def usage : String :=
  "Usage: spm-audit [OPTIONS] [PATH]\n"

/-- The description of the command. -/
def help : String :=
  usage ++ "
  Audit a Swift package's declared dependencies against its imports.

Options:
  --target TEXT                   Analyze only this target
  --exclude-tests                 Skip test targets
  --whitelist TEXT                Comma-separated module names to ignore (case-
                                  sensitive)
  --output-format [terminal|json|xcode|github-actions]
                                  Report format  [default: terminal]
  --backend [auto|syntax|pattern]
                                  Manifest parser backend [default: auto]
  --max-workers INTEGER RANGE     Parallel worker cap  [x>=1]
  --no-color                      Disable colored output
  -q, --quiet                     Only report targets with issues
  -v, --verbose                   Show correct dependencies and debug logs
  --help                          Show this message and exit.
"

namespace Answer

/-- The answer to a request for help. -/
def ofHelp : Answer :=
  ⟨0, help, ""⟩

/-- A line that says what went wrong. -/
def errorLine (message : String) : String :=
  s!"Error: {message}\n"

/-- The answer to a command line that cannot be followed. -/
def ofCommandFault (f : CommandFault) : Answer :=
  ⟨2, "",
    (if f.showsUsage then usage ++ "Try 'spm-audit --help' for help.\n\n" else "") ++
      errorLine f.message⟩

/-- The answer to an audit that fails. -/
def ofMessage (message : String) : Answer :=
  ⟨1, "", errorLine message⟩

/-- The answer that gives a report. -/
def ofReport (r : Report) (workingDirectory : Place) (format : ReportFormat) (o : ReportOptions) :
    Answer :=
  let text := r.render workingDirectory format o
  ⟨if r.hasIssues then 1 else 0, if text.isEmpty then "" else text ++ "\n", ""⟩

/-- An answer without styles. -/
def plain (a : Answer) : Answer :=
  ⟨a.status, String.ofList (Text.withoutStyles a.output.toList),
    String.ofList (Text.withoutStyles a.errors.toList)⟩

end Answer

/-- The auditor for a request. What the request says counts before the settings, and the modules
that are never reported are those of both. -/
def AuditRequest.auditor (r : AuditRequest) (s : Settings) (parser : Program.Parser) : Auditor :=
  ⟨⟨r.reader.getD s.reader, parser⟩, s.allowed ∪ nameList (r.whitelist.getD ""),
    r.workers.getD s.workers, s.depth⟩

/-- The answer to a request for an audit. A failure that is not one of the audited package is not
answered. -/
def AuditRequest.answer (r : AuditRequest) (fs : FileSystem) (environment : Environment)
    (processors : Option Int) (parser : Program.Parser) : Except Failure Answer := do
  let _ ← (Logging.setUp (if r.options.verbose then some "DEBUG" else none) none
    environment).mapError .usage
  match Settings.load environment processors with
  | .error fault => return .ofMessage fault.message
  | .ok settings =>
    match (r.auditor settings parser).run fs (Path.ofString r.path) r.target r.excludeTests with
    | .error (.audit fault) => return .ofMessage fault.message
    | .error failure => throw failure
    | .ok report => return .ofReport report fs.workingDirectory r.format r.options

/-- The answer to a command line, styles included. Of a path that cannot be looked for there is
none. -/
def answer (fs : FileSystem) (environment : Environment) (processors : Option Int)
    (arguments : List String) (parser : Program.Parser := Program.nodes?) : Except Failure Answer :=
  match Request.ofCommandLine arguments with
  | .error (.badPath fault) => .error (.disk fault)
  | .error fault => .ok (.ofCommandFault fault)
  | .ok .help => .ok .ofHelp
  | .ok (.audit request) => request.answer fs environment processors parser

end SwiftDependencies.CommandLine
