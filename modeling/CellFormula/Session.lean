import CellFormula.Evaluation.Context
import CellFormula.Expr.Text

/-!
# Sessions

A session answers requests about one grid. `Session.handle` answers a request and says which session
goes on from there. A request that fails leaves the session as it is.
-/

namespace CellFormula

/-- The result of running a formula. -/
inductive Outcome where
  /-- The formula was an assignment, and its body is stored without being evaluated. -/
  | assigned (address : Address) (formula : String)
  | value (v : Value)
deriving DecidableEq, Repr

/-- The outcome as it is shown. -/
def Outcome.text : Outcome → String
  | .assigned a formula => "Assigned " ++ a.text ++ " => " ++ formula
  | .value v => v.text

inductive Request where
  /-- Runs a formula, which may be an assignment. -/
  | run (formula : String)
  /-- Evaluates a formula, which may not be an assignment. -/
  | evaluate (formula : String)
  | evaluateTree (tree : Tree)
  | evaluateExpr (expr : Expr)
  /-- Evaluates the formula stored at an address. -/
  | resolve (address : Address)
  /-- Stores the text of an expression. -/
  | store (address : Address) (expr : Expr)
  | insert (address : Address) (formula : String)
  | erase (address : Address)
deriving DecidableEq, Repr

inductive Reply where
  | outcome (o : Outcome)
  | value (v : Value)
  /-- The cell that was at the address before. -/
  | replaced (cell : Option Cell)
deriving DecidableEq, Repr

/-- A grid, and how long a chain of references may be that is followed from it. -/
structure Session where
  grid : Grid
  limit : Nat

namespace Session

/-- The limit of a session that sets none. -/
def defaultLimit : Nat := 256

/-- The session without cells. -/
def empty (limit : Nat) : Session := ⟨∅, limit⟩

/-- The context in which the formulas of the session are evaluated. -/
def root (s : Session) : Context := ⟨s.grid, s.limit, []⟩

/-- The address and the body of tokens that are an assignment. -/
def assigned? : List Token → Option (Address × String)
  | [⟨.assignment, body, _, some a⟩] => some (a, body)
  | _ => none

/-- The outcome of a formula. -/
def outcome (s : Session) (formula : String) : Traced Outcome := do
  let tokens ← lex formula
  Traced.emit (.tokens tokens)
  match assigned? tokens with
  | some (a, body) =>
    Traced.emit (.stored a body)
    return .assigned a body
  | none =>
    let tree ← Tree.ofTokens tokens
    Traced.emit (.tree tree)
    let v ← s.root.evaluateTree tree
    Traced.emit (.value v)
    return .value v

/-- The session after an outcome. -/
def keep (s : Session) : Outcome → Session
  | .assigned a body => ⟨s.grid.insert a body, s.limit⟩
  | .value _ => s

/-- Runs a formula. -/
def run (s : Session) (formula : String) : Traced Outcome × Session :=
  let answer := s.outcome formula
  match answer.result with
  | .ok o => (answer, s.keep o)
  | .error _ => (answer, s)

/-- The value of a formula. -/
def evaluate (s : Session) (formula : String) : Traced Value := do
  let tree ← Tree.ofText formula
  s.root.evaluateTree tree

/-- Stores a formula. The reply is the cell that it replaces. -/
def insert (s : Session) (a : Address) (formula : String) : Traced Reply × Session :=
  (.ok (.replaced (s.grid.lookup a)), ⟨s.grid.insert a formula, s.limit⟩)

/-- Answers a request. -/
def handle (s : Session) : Request → Traced Reply × Session
  | .run formula =>
    let (answer, next) := s.run formula
    (Reply.outcome <$> answer, next)
  | .evaluate formula => (Reply.value <$> s.evaluate formula, s)
  | .evaluateTree tree => (Reply.value <$> s.root.evaluateTree tree, s)
  | .evaluateExpr expr => (Reply.value <$> s.root.evaluateExpr expr, s)
  | .resolve a => (Reply.value <$> s.root.resolve a, s)
  | .store a expr => s.insert a expr.text
  | .insert a formula => s.insert a formula
  | .erase a => (.ok (.replaced (s.grid.lookup a)), ⟨s.grid.erase a, s.limit⟩)

end Session

end CellFormula
