namespace Scriptlet

/-- A number as it was written. Only one with a fraction or an exponent has a power of ten. -/
structure Numeral where
  negative : Bool
  coefficient : Nat
  power : Option Int
  deriving DecidableEq

/-- JSON data. Members keep their order and may repeat a key. A string is `none` when its escapes
leave half of a surrogate pair alone, so that it spells no text. -/
inductive Json where
  | null
  | bool (b : Bool)
  | number (n : Numeral)
  | string (s : Option String)
  | array (items : List Json)
  | object (members : List (Option String × Json))

namespace Json

def nat (n : Nat) : Json :=
  .number ⟨false, n, none⟩

def text (s : String) : Json :=
  .string (some s)

def natBelow? (bound : Nat) : Json → Option Nat
  | .number ⟨false, n, none⟩ => if n < bound then some n else none
  | _ => none

def text? : Json → Option String
  | .string s => s
  | _ => none

/-- The value of the one member with a given key; `none` when it is missing or repeated. -/
def sole? (key : String) (members : List (Option String × Json)) : Option Json :=
  match members.filter (·.1 == some key) with
  | [(_, j)] => some j
  | _ => none

end Json

end Scriptlet
