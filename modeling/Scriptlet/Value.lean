import Scriptlet.Decimal.Positional
import Scriptlet.Syntax.Basic

namespace Scriptlet

abbrev FunctionId := Nat

abbrev NativeId := Nat

/-- A function of the program or of the host. The number is its identity: two executions of one
function statement make two functions. -/
inductive Callable where
  | function (id : FunctionId) (declaration : Declaration)
  | native (id : NativeId) (name : String) (arity : Nat)

namespace Callable

def name : Callable → String
  | .function _ declaration => declaration.name.name
  | .native _ name _ => name

def arity : Callable → Nat
  | .function _ declaration => declaration.params.length
  | .native _ _ arity => arity

def text : Callable → String
  | .function _ declaration => s!"<fn {declaration.name.name}>"
  | .native _ name _ => s!"<native fn {name}>"

def signature (c : Callable) : String :=
  s!"{c.text}/{c.arity}"

def same : Callable → Callable → Bool
  | .function i _, .function j _ => i == j
  | .native i _ _, .native j _ _ => i == j
  | _, _ => false

instance : BEq Callable := ⟨same⟩

end Callable

inductive Value where
  | number (x : Float)
  | string (s : String)
  | bool (b : Bool)
  | nil
  | callable (c : Callable)

namespace Value

def ofLiteral : Literal → Value
  | .number x => .number x
  | .string s => .string s
  | .bool b => .bool b
  | .nil => .nil

def isTruthy : Value → Bool
  | .nil => false
  | .bool b => b
  | _ => true

def typeName : Value → String
  | .number _ => "number"
  | .string _ => "string"
  | .bool _ => "bool"
  | .nil => "nil"
  | .callable _ => "function"

def text : Value → String
  | .number x => numberText x
  | .string s => s
  | .bool true => "true"
  | .bool false => "false"
  | .nil => "nil"
  | .callable c => c.text

/-- Equality without coercion. Numbers compare as doubles, so one that is not a number differs from
itself and the two zeros agree. -/
def same : Value → Value → Bool
  | .number x, .number y => x == y
  | .string s, .string t => s == t
  | .bool b, .bool c => b == c
  | .nil, .nil => true
  | .callable c, .callable d => c == d
  | _, _ => false

instance : BEq Value := ⟨same⟩

def number? : Value → Option Float
  | .number x => some x
  | _ => none

def callable? : Value → Option Callable
  | .callable c => some c
  | _ => none

end Value

end Scriptlet
