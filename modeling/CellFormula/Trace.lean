import CellFormula.Error

/-!
# Traced computations

Running a formula leaves a trace: the events on the way to its value or error, in order. A `Traced`
computation is its result together with these events. The events never influence the result.
-/

namespace CellFormula

/-- How much detail a log must ask for to show an event. -/
inductive EventLevel where
  | debug | trace
deriving DecidableEq, Repr

def EventLevel.name : EventLevel → String
  | .debug => "DEBUG"
  | .trace => "TRACE"

inductive Event where
  /-- The text was split into these tokens. -/
  | tokens (tokens : List Token)
  /-- The formula was stored. -/
  | stored (address : Address) (formula : String)
  /-- The tokens were parsed into this tree. -/
  | tree (tree : Tree)
  /-- The tree has this value. -/
  | value (v : Value)
  /-- The left operand settles the logical operator alone. -/
  | decided (op : BinaryOp) (outcome : Bool)
  /-- The cell has a value that cannot be folded. -/
  | skippedValue (fn : Aggregate) (address : Address) (type : ValueType)
  /-- The cell has no value. -/
  | skippedError (fn : Aggregate) (address : Address) (cause : FormulaError)
  /-- The cell has this value. -/
  | resolved (address : Address) (v : Value)
deriving DecidableEq, Repr

namespace Event

def level : Event → EventLevel
  | tokens _ | stored _ _ | tree _ | value _ => .debug
  | decided _ _ | skippedValue _ _ _ | skippedError _ _ _ | resolved _ _ => .trace

def message : Event → String
  | tokens ts => "tokens: [" ++ ", ".intercalate (ts.map Token.text) ++ "]"
  | stored a formula => "stored " ++ a.text ++ " => " ++ formula
  | tree t => "ast: " ++ t.text
  | value v => "value: " ++ v.text
  | decided op b =>
    "'" ++ op.symbol ++ "' decided by left operand (" ++ (Value.boolean b).text ++
      "), evaluating right anyway"
  | skippedValue fn a type =>
    fn.name ++ ": skipping " ++ a.text ++ " with " ++ type.name ++ " value"
  | skippedError fn a cause => fn.name ++ ": skipping " ++ a.text ++ ": " ++ cause.message
  | resolved a v => a.text ++ " = " ++ v.text

/-- The event as a line of a log. -/
def text (e : Event) : String := e.level.name ++ " " ++ e.message

end Event

/-- A result and the events before it. -/
structure Traced (α : Type) where
  events : List Event
  result : Except FormulaError α
deriving Repr

namespace Traced

variable {α β : Type}

def ok (a : α) : Traced α := ⟨[], .ok a⟩

def fail (e : FormulaError) : Traced α := ⟨[], .error e⟩

def ofExcept (x : Except FormulaError α) : Traced α := ⟨[], x⟩

def emit (e : Event) : Traced Unit := ⟨[e], .ok ()⟩

/-- Continues with the result, unless it is an error. -/
def bind (x : Traced α) (f : α → Traced β) : Traced β :=
  match x.result with
  | .ok a => ⟨x.events ++ (f a).events, (f a).result⟩
  | .error e => ⟨x.events, .error e⟩

instance : Monad Traced where
  pure := ok
  bind := bind

instance : MonadLift (Except FormulaError) Traced := ⟨ofExcept⟩

theorem bind_eq {x : Traced α} {f : α → Traced β} : x >>= f = x.bind f := rfl

theorem pure_eq {a : α} : (pure a : Traced α) = ok a := rfl

@[simp] theorem result_pure (a : α) : (pure a : Traced α).result = .ok a := rfl

@[simp] theorem result_emit (e : Event) : (emit e).result = .ok () := rfl

@[simp] theorem result_lift (x : Except FormulaError α) :
    (liftM x : Traced α).result = x := rfl

/-- The result of two steps depends on their results alone. -/
@[simp] theorem result_bind (x : Traced α) (f : α → Traced β) :
    (x >>= f).result = x.result >>= fun a => (f a).result := by
  rcases x with ⟨_, _ | _⟩ <;> rfl

instance : LawfulMonad Traced := LawfulMonad.mk' Traced
  (by rintro α ⟨events, _ | _⟩ <;> simp [Functor.map, bind, ok])
  (by intro α β a f; simp [bind_eq, pure_eq, bind, ok])
  (by rintro α β γ ⟨events, _ | a⟩ f g
      · rfl
      · rcases h : (f a).result with _ | b <;> simp [bind_eq, bind, h])

end Traced

end CellFormula
