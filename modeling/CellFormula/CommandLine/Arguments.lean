import CellFormula.Session
import CellFormula.Text.Front

/-!
# Arguments

A command line names a command, `eval` with formulas or `repl`, and options, which may stand before
or after the command. `Invocation.ofArguments?` reads it from left to right.
-/

namespace CellFormula

/-- What a command line asks for. -/
inductive Invocation where
  /-- Tells the version of the program. -/
  | version
  /-- Runs formulas in order until one fails. -/
  | eval (limit : Nat) (formulas : List String)
  /-- Runs the lines of the input as formulas. -/
  | repl (limit : Nat)
deriving DecidableEq, Repr

/-- A command line argument, together with the argument that an option takes. -/
inductive Argument where
  | word (text : String)
  /-- Two hyphens, after which every argument is a word. -/
  | separator
  /-- Asks for a log, which is not kept. -/
  | verbose
  | version
  /-- Sets how long a chain of references may be. -/
  | limit (text : String)
  | unknown
deriving DecidableEq, Repr

namespace Argument

/-- Reads an argument by itself. Options of one letter can be joined, as in `-vvV`. -/
def ofText (text : String) : Argument :=
  match text.toList with
  | '-' :: '-' :: name =>
    if name = [] then .separator
    else if name = "verbose".toList then .verbose
    else if name = "version".toList then .version
    else
      match stripFront? "max-depth=".toList name with
      | some value => .limit (String.ofList value)
      | none => .unknown
  | '-' :: c :: letters =>
    match (c :: letters).dropWhile (· = 'v') with
    | [] => .verbose
    | 'V' :: _ => .version
    | _ => .unknown
  | _ => .word text

/-- Reads all arguments. -/
def ofTexts : List String → List Argument
  | [] => []
  | "--" :: rest => .separator :: rest.map .word
  | ["--max-depth"] => [.unknown]
  | "--max-depth" :: text :: rest => .limit text :: ofTexts rest
  | text :: rest => ofText text :: ofTexts rest

end Argument

/-- Reads a limit: digits, after a plus sign if any, for a number of at most 64 bits. -/
def readLimit? (text : String) : Option Nat :=
  let run := match text.toList with
    | '+' :: run => run
    | run => run
  if run ≠ [] ∧ run.all Char.isDigit ∧ Numeral.value run < UInt64.size then some (Numeral.value run)
  else none

/-- Sets a limit that is not set yet. -/
def setLimit? (limit? : Option Nat) (text : String) : Option Nat :=
  match limit? with
  | none => readLimit? text
  | some _ => none

/-- Reads what follows a command: its words, and the limit if it is set there. -/
def readOperands? (limit? : Option Nat) : List Argument → Option (List String × Option Nat)
  | [] => some ([], limit?)
  | .word text :: rest => do
    let (words, found?) ← readOperands? limit? rest
    some (text :: words, found?)
  | .limit text :: rest => do
    let limit ← setLimit? limit? text
    readOperands? (some limit) rest
  | .separator :: rest | .verbose :: rest => readOperands? limit? rest
  | .version :: _ | .unknown :: _ => none

namespace Invocation

/-- The invocation of a command by name. -/
def ofCommand? (limit : Nat) : String → List String → Option Invocation
  | "eval", formula :: formulas => some (.eval limit (formula :: formulas))
  | "repl", [] => some (.repl limit)
  | _, _ => none

/-- Reads arguments, the limit being set before them or not. A limit set after the command goes
before one set in front of it. -/
def read? (limit? : Option Nat) : List Argument → Option Invocation
  | .version :: _ => some .version
  | .verbose :: rest => read? limit? rest
  | .limit text :: rest => do
    let limit ← setLimit? limit? text
    read? (some limit) rest
  | .word command :: rest => do
    let (words, inner?) ← readOperands? none rest
    ofCommand? ((inner? <|> limit?).getD Session.defaultLimit) command words
  | [] | .separator :: _ | .unknown :: _ => none

/-- The invocation that the arguments stand for. There is none if they are misused. -/
def ofArguments? (arguments : List String) : Option Invocation :=
  read? none (Argument.ofTexts arguments)

end Invocation

end CellFormula
