import CellFormula.CommandLine.Arguments
import CellFormula.CommandLine.Transcript

/-!
# Reports

What the program writes, and the exit code that it ends with: 0 after success, 1 after a failure,
2 if its arguments are misused.
-/

namespace CellFormula

/-- Text in which each line is moved right by four columns. -/
def indent (text : String) : String :=
  "    " ++ String.ofList (text.toList.flatMap fun c => if c = '\n' then "\n    ".toList else [c])

namespace Message

/-- What the message adds to the standard output. -/
def output : Message → String
  | answer text => text ++ "\n"
  | complaint _ => ""

/-- What the message adds to the error output. -/
def errors : Message → String
  | answer _ => ""
  | complaint text => "Error: " ++ text ++ "\n"

end Message

/-- An error with the cause behind it. -/
def causeReport (headline cause : String) : String :=
  "Error: " ++ headline ++ "\n\nCaused by:\n" ++ indent cause ++ "\n"

def Failure.report : Failure → String
  | .formula text cause => causeReport ("Failed to run '" ++ text ++ "'") cause.message
  | .unreadable => causeReport "Failed to read input" "stream did not contain valid UTF-8"

/-- The exit code and the two outputs of the program. -/
structure Report where
  exitCode : UInt32
  output : String
  errors : String
deriving DecidableEq, Repr

def Transcript.report (t : Transcript) : Report where
  exitCode := if t.failure?.isSome then 1 else 0
  output := String.join (t.messages.map Message.output)
  errors := String.join (t.messages.map Message.errors) ++
    (t.failure?.map Failure.report).getD ""

def versionText : String := "gridkid 0.1.0\n"

/-- The reminder of how the program is used. -/
def usageText : String :=
  "Usage: gridkid [--max-depth N] eval FORMULA...\n" ++
  "       gridkid [--max-depth N] repl\n" ++
  "       gridkid --version\n"

namespace Invocation

/-- Whether the standard input is read. -/
def readsInput : Invocation → Bool
  | repl _ => true
  | version | eval _ _ => false

/-- The report of an invocation, given the standard input. -/
def perform (input : ByteArray) : Invocation → Report
  | version => ⟨0, versionText, ""⟩
  | eval limit formulas => ((Session.empty limit).evalAll formulas).report
  | repl limit => ((Session.empty limit).repl (decodeLines input)).report

end Invocation

/-- The report of the program, given its arguments and the standard input. -/
def report (arguments : List String) (input : ByteArray) : Report :=
  match Invocation.ofArguments? arguments with
  | some invocation => invocation.perform input
  | none => ⟨2, "", usageText⟩

end CellFormula
