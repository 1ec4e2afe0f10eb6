import Scriptlet.Decimal.Shortest

namespace Scriptlet

namespace Decimal

def digits (n : Nat) : List Char :=
  Nat.toDigits 10 n

def paddedDigits (width n : Nat) : List Char :=
  List.replicate (width - (digits n).length) '0' ++ digits n

/-- A decimal written out in full, never with an exponent. -/
def positional (d : Decimal) : List Char :=
  if 0 ≤ d.exponent then digits d.coefficient ++ List.replicate d.exponent.toNat '0'
  else
    let places := (-d.exponent).toNat
    let unit := Nat.pow 10 places
    digits (d.coefficient / unit) ++ '.' :: paddedDigits places (d.coefficient % unit)

end Decimal

namespace Binary64

def chars : Binary64 → List Char
  | .notANumber => ['N', 'a', 'N']
  | .infinite negative => (if negative then ['-'] else []) ++ ['i', 'n', 'f']
  | .finite negative magnitude =>
    (if negative then ['-'] else []) ++ magnitude.shortest.positional

end Binary64

/-- The text of a double: the fewest digits that read back, written out in full. -/
def numberText (x : Float) : String :=
  String.ofList (Binary64.ofBits x.toBits).chars

end Scriptlet
