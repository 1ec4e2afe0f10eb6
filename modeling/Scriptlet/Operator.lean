import Scriptlet.EvalError
import Scriptlet.Value

namespace Scriptlet

namespace Value

def numbers : Value → Value → Except Fault (Float × Float)
  | .number x, .number y => .ok (x, y)
  | a, b => .error (.typeMismatch s!"Operands must be numbers, got {a.typeName} and {b.typeName}.")

/-- Concatenates as soon as one side is a string. -/
def add : Value → Value → Except Fault Value
  | .string s, b => .ok (.string (s ++ b.text))
  | a, .string t => .ok (.string (a.text ++ t))
  | .number x, .number y => .ok (.number (x + y))
  | a, b =>
    .error (.typeMismatch
      s!"Addition operation not supported for operands ({a.typeName} + {b.typeName}).")

def div (a b : Value) : Except Fault Value := do
  let (x, y) ← numbers a b
  if y == 0.0 then .error .divisionByZero else .ok (.number (x / y))

def arithmetic (f : Float → Float → Float) (a b : Value) : Except Fault Value := do
  let (x, y) ← numbers a b
  return .number (f x y)

def comparison (f : Float → Float → Bool) (a b : Value) : Except Fault Value := do
  let (x, y) ← numbers a b
  return .bool (f x y)

end Value

def UnaryOp.apply : UnaryOp → Value → Except Fault Value
  | .neg, .number x => .ok (.number (-x))
  | .neg, _ => .error (.typeMismatch "Operand must be a number.")
  | .not, v => .ok (.bool (!v.isTruthy))

def BinaryOp.apply : BinaryOp → Value → Value → Except Fault Value
  | .add, a, b => a.add b
  | .sub, a, b => Value.arithmetic (· - ·) a b
  | .mul, a, b => Value.arithmetic (· * ·) a b
  | .div, a, b => a.div b
  | .greater, a, b => Value.comparison (fun x y => x > y) a b
  | .greaterEq, a, b => Value.comparison (fun x y => x ≥ y) a b
  | .less, a, b => Value.comparison (fun x y => x < y) a b
  | .lessEq, a, b => Value.comparison (fun x y => x ≤ y) a b
  | .eq, a, b => .ok (.bool (a == b))
  | .notEq, a, b => .ok (.bool (a != b))
  | .comma, _, b => .ok b

/-- Whether the left operand alone settles the result. -/
def LogicalOp.isSettledBy : LogicalOp → Value → Bool
  | .or, v => v.isTruthy
  | .and, v => !v.isTruthy

end Scriptlet
