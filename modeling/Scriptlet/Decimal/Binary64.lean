namespace Scriptlet

/-- A number `mantissa · 2 ^ exponent` of a binary format. `narrowBelow` tells that the next
smaller number of the format is only half a unit away. -/
structure Dyadic where
  mantissa : Nat
  exponent : Int
  narrowBelow : Bool := false
  deriving DecidableEq

inductive Binary64 where
  | notANumber
  | infinite (negative : Bool)
  | finite (negative : Bool) (magnitude : Dyadic)
  deriving DecidableEq

namespace Binary64

def signBit (bits : UInt64) : Bool :=
  bits.toNat / 0x8000000000000000 == 1

def biasedExponent (bits : UInt64) : Nat :=
  bits.toNat / 0x10000000000000 % 0x800

def fraction (bits : UInt64) : Nat :=
  bits.toNat % 0x10000000000000

/-- The magnitude of a finite number. The least biased exponent marks the subnormal numbers, which
lack the leading one and share the unit of the exponent above it. -/
def magnitude (biased fraction : Nat) : Dyadic :=
  if biased = 0 then ⟨fraction, -1074, false⟩
  else ⟨0x10000000000000 + fraction, (biased : Int) - 1075, fraction = 0 ∧ 1 < biased⟩

def ofBits (bits : UInt64) : Binary64 :=
  if biasedExponent bits = 2047 then
    if fraction bits = 0 then .infinite (signBit bits) else .notANumber
  else .finite (signBit bits) (magnitude (biasedExponent bits) (fraction bits))

end Binary64

end Scriptlet
