import Mathlib.Algebra.Order.Floor.Semiring
import Mathlib.Data.Rat.Floor
import TraceGuard.Stateful
import TraceGuard.Types

/-! The calculator tool: the evaluation of an expression tree within a budget of nodes and bounds on
every value, and what becomes of its exceptions in the execution of a call. Numbers are exact. -/
namespace TraceGuard
open Stateful

namespace Calculator

/-- `MAX_CALC_ABS_VALUE`. -/
def maxAbsValue : ℚ := 1000000000000

/-- `MAX_CALC_POW_EXPONENT`. -/
def maxPowExponent : ℚ := 8

/-- `MAX_CALC_NODES`. -/
def maxNodes : Nat := 64

inductive BinaryOperator where
  | add | sub | mult | div | floorDiv | mod | pow
  /-- One that is not in `_OPERATORS`. -/
  | other
  deriving DecidableEq

inductive UnaryOperator where
  | uSub | uAdd
  | other
  deriving DecidableEq

/-- A tree of `ast.parse(expression, mode="eval")`. -/
inductive Node where
  | expression (body : Node)
  | number (value : ℚ)
  /-- A constant that is no number: a text, a boolean, `None`. -/
  | constant
  | binOp (left : Node) (op : BinaryOperator) (right : Node)
  | unaryOp (op : UnaryOperator) (operand : Node)
  /-- A name, an attribute, a call, a subscript, a list, a dictionary or a tuple. -/
  | compound
  | other

/-- The classes of exceptions of the evaluation and of the call around it. -/
inductive Raised where
  | value (message : String)
  | type
  | syntaxError
  | key
  | os
  | zeroDivision
  deriving DecidableEq

/-- What the powers of floats are where they are not rational, and how a float is written. -/
structure Floats where
  /-- `x ** y` for a positive `x` and a `y` that is no integer. -/
  power : ℚ → ℚ → ℚ
  /-- `abs(x ** y)` for a negative `x` and a `y` that is no integer: the power is complex. -/
  magnitude : ℚ → ℚ → ℚ
  repr : ℚ → String

inductive Result where
  | real (value : ℚ)
  | complex (magnitude : ℚ)

def Result.abs : Result → ℚ
  | .real value => |value|
  | .complex magnitude => magnitude

section
variable (floats : Floats)

/-- `operator.pow`. -/
def power (left right : ℚ) : Except Raised Result :=
  if left=0 then
    if right<0 then .error .zeroDivision
    else .ok (.real (if right=0 then 1 else 0))
  else if right.den=1 then .ok (.real (left^right.num))
  else if 0<left then .ok (.real (floats.power left right))
  else .ok (.complex (floats.magnitude left right))

/-- `_OPERATORS[type(node.op)](left, right)`. -/
def operate (op : BinaryOperator) (left right : ℚ) : Except Raised Result :=
  match op with
  | .add => .ok (.real (left+right))
  | .sub => .ok (.real (left-right))
  | .mult => .ok (.real (left*right))
  | .div => if right=0 then .error .zeroDivision else .ok (.real (left/right))
  | .floorDiv => if right=0 then .error .zeroDivision else .ok (.real ⌊left/right⌋)
  | .mod => if right=0 then .error .zeroDivision else .ok (.real (left-right*⌊left/right⌋))
  | .pow => power floats left right
  | .other => .error (.value "unsupported calculator expression")

/-- The shared budget, the nodes that were visited, and the values that were returned. -/
structure Run where
  budget : Nat := maxNodes
  visited : Nat := 0
  values : List ℚ := []

abbrev Evaluation (α : Type) := EStateM Raised Run α

/-- A check that raises. -/
def raiseIf (p : Prop) [Decidable p] (e : Raised) : Evaluation Unit :=
  check fun _ => if p then .error e else .ok ()

/-- `budget[0] -= 1` and its check. -/
def visit : Evaluation Unit := do
  check fun s => if s.budget=0 then .error (.value "calculator expression too complex") else .ok ()
  modify fun s => { s with budget := s.budget-1, visited := s.visited+1 }

def give (value : ℚ) : Evaluation ℚ := do
  modify fun s => { s with values := s.values++[value] }
  return value

def unsupported : Raised := .value "unsupported calculator expression"

/-- `_calculate`. -/
def calculate : Node → Evaluation ℚ
  | .expression body => do
    visit
    let value ← calculate body
    give value
  | .number value => do
    visit
    raiseIf (maxAbsValue < |value|) (.value "calculator literal out of bounds")
    give value
  | .constant => do
    visit
    throw unsupported
  | .binOp left op right => do
    visit
    raiseIf (op=.other) unsupported
    let left ← calculate left
    let right ← calculate right
    raiseIf (op=.pow ∧ (maxPowExponent < |right| ∨ 1000 < |left|))
      (.value "exponentiation exceeds safety limits")
    let result ← check fun _ => operate floats op left right
    raiseIf (maxAbsValue < result.abs) (.value "calculator result out of bounds")
    match result with
    | .real value => give value
    | .complex _ => throw .type
  | .unaryOp op operand => do
    visit
    raiseIf (op=.other) unsupported
    let value ← calculate operand
    give (if op=.uSub then -value else value)
  | .compound => do
    visit
    throw (.value "names, calls, and compound literals are not allowed")
  | .other => do
    visit
    throw unsupported

end

/-! The call around the evaluation. -/

/-- What `execute_call` returns for a calculator call that reaches its tool. -/
inductive Outcome where
  | executed (content : String)
  | toolError (raised : Raised)

/-- `except (KeyError, OSError, SyntaxError, TypeError, ValueError)`. -/
def Raised.converted : Raised → Bool
  | .key | .os | .syntaxError | .type | .value _ => true
  | .zeroDivision => false

/-- The exceptions of `ast.parse`. -/
inductive ParseError where
  | syntaxError
  | value (message : String)

def ParseError.raised : ParseError → Raised
  | .syntaxError => .syntaxError
  | .value message => .value message

section
variable (floats : Floats) (parse : String → Except ParseError Node)

/-- `evaluate_expression`: the tree is what `ast.parse` makes of the text. -/
def evaluateExpression (expression : String) : Except Raised ℚ := do
  let tree ← (parse expression).mapError ParseError.raised
  (outcome (calculate floats (.expression tree)) {}).1

/-- The handler of the tool. -/
def calculator (expression : String) : Except Raised String := do
  let result ← evaluateExpression floats parse expression
  return if result.den=1 then toString result.num else floats.repr result

/-- `CalculatorArguments.model_validate`. -/
def expressionOf (arguments : Dict Json) : Except Raised String :=
  match arguments.items with
  | [("expression", .str expression)] =>
    if expression.length=0 ∨ 200 < expression.length then .error (.value "validation error")
    else .ok expression
  | _ => .error (.value "validation error")

/-- `self.tools.execute(effective_call)` and the handlers of its exceptions; a calculator call has no
effect and no reservation. -/
def executeCall (arguments : Dict Json) : Except Raised Outcome :=
  match expressionOf arguments >>= calculator floats parse with
  | .ok content => .ok (.executed content)
  | .error raised => if raised.converted then .ok (.toolError raised) else .error raised

end

/-! How a tree is evaluated, from left to right and within the bounds, as a relation: with a budget of
`n` nodes it has a value, and leaves `m` of them. -/
inductive Evaluates (floats : Floats) : Node → Nat → ℚ → Nat → Prop where
  | expression {body : Node} {n m : Nat} {v : ℚ} (h : Evaluates floats body n v m) :
    Evaluates floats (.expression body) (n+1) v m
  | number {v : ℚ} {n : Nat} (bound : |v| ≤ maxAbsValue) : Evaluates floats (.number v) (n+1) v n
  | binOp {left right : Node} {op : BinaryOperator} {n m k : Nat} {l r v : ℚ} (supported : op≠.other)
      (hl : Evaluates floats left n l m) (hr : Evaluates floats right m r k)
      (safe : op=.pow → |r| ≤ maxPowExponent ∧ |l|≤1000) (result : operate floats op l r = .ok (.real v))
      (bound : |v| ≤ maxAbsValue) : Evaluates floats (.binOp left op right) (n+1) v k
  | unaryOp {operand : Node} {op : UnaryOperator} {n m : Nat} {v : ℚ} (supported : op≠.other)
      (h : Evaluates floats operand n v m) :
    Evaluates floats (.unaryOp op operand) (n+1) (if op=.uSub then -v else v) m

/-- An operator that has no value there: a division by zero, or zero to a negative power. -/
def Undefined (op : BinaryOperator) (l r : ℚ) : Prop :=
  (op=.div ∨ op=.floorDiv ∨ op=.mod) ∧ r=0 ∨ op=.pow ∧ l=0 ∧ r<0 ∧ |r| ≤ maxPowExponent

/-- The evaluation comes to such an operator within its budget. -/
inductive Divides (floats : Floats) : Node → Nat → Prop where
  | expression {body : Node} {n : Nat} (h : Divides floats body n) : Divides floats (.expression body) (n+1)
  | left {left right : Node} {op : BinaryOperator} {n : Nat} (supported : op≠.other)
      (h : Divides floats left n) : Divides floats (.binOp left op right) (n+1)
  | right {left right : Node} {op : BinaryOperator} {n m : Nat} {l : ℚ} (supported : op≠.other)
      (hl : Evaluates floats left n l m) (h : Divides floats right m) :
    Divides floats (.binOp left op right) (n+1)
  | here {left right : Node} {op : BinaryOperator} {n m k : Nat} {l r : ℚ}
      (hl : Evaluates floats left n l m) (hr : Evaluates floats right m r k) (undefined : Undefined op l r) :
    Divides floats (.binOp left op right) (n+1)
  | operand {operand : Node} {op : UnaryOperator} {n : Nat} (supported : op≠.other)
      (h : Divides floats operand n) : Divides floats (.unaryOp op operand) (n+1)

end Calculator
end TraceGuard
