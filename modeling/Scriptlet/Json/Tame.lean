import Scriptlet.Decimal.Rounding
import Scriptlet.Json.Basic

namespace Scriptlet

namespace Numeral

def cut (coefficient : Nat) (power : Int) : Nat × Int :=
  if coefficient < 0x10000000000000000 then (coefficient, power)
  else cut (coefficient / 10) (power + 1)
termination_by coefficient

def maxPower : Int := 308

/-- Whether a number is read as a finite double. Its leading digits and its power of ten are each
rounded to a double before they are multiplied, so that numbers next to the largest double may go
either way. A negative power divides, which never leads to infinity. -/
def isFinite (n : Numeral) : Bool :=
  let (lead, power) := cut n.coefficient (n.power.getD 0)
  lead == 0 || power < 0 ||
    (power ≤ maxPower &&
      Binary64.nearest lead * Binary64.nearest (Nat.pow 10 power.toNat) < Binary64.overflow)

end Numeral

namespace Json

mutual

/-- Whether data can be kept: every string spells a text, every number is finite as a double, and
arrays and objects are nested at most `depth` deep. -/
def isTame : Nat → Json → Bool
  | _, .null => true
  | _, .bool _ => true
  | _, .number n => n.isFinite
  | _, .string s => s.isSome
  | 0, .array _ => false
  | 0, .object _ => false
  | depth + 1, .array js => areTame depth js
  | depth + 1, .object ms => areTameMembers depth ms

def areTame : Nat → List Json → Bool
  | _, [] => true
  | depth, j :: js => isTame depth j && areTame depth js

def areTameMembers : Nat → List (Option String × Json) → Bool
  | _, [] => true
  | depth, (key, j) :: ms => key.isSome && isTame depth j && areTameMembers depth ms

end

end Json

end Scriptlet
