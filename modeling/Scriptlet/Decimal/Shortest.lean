import Scriptlet.Decimal.Binary64

namespace Scriptlet

structure Decimal where
  coefficient : Nat
  exponent : Int
  deriving DecidableEq

namespace Dyadic

variable (x : Dyadic)

/-- Distances are measured in quarters of the unit in the last place, so that the midpoints to both
neighbours are whole. -/
def value : Nat :=
  4 * x.mantissa

def low : Nat :=
  4 * x.mantissa - if x.narrowBelow then 1 else 2

def high : Nat :=
  4 * x.mantissa + 2

def quarter (k : Int) : Nat :=
  -- over the common denominator of a quarter and a step of the grid of multiples of `10 ^ k`
  Nat.pow 2 (x.exponent - 2).toNat * Nat.pow 10 (-k).toNat

def step (k : Int) : Nat :=
  Nat.pow 10 k.toNat * Nat.pow 2 (2 - x.exponent).toNat

def roundsFrom (k : Int) (d : Nat) : Bool :=
  let lower := x.low * x.quarter k
  let upper := x.high * x.quarter k
  let point := d * x.step k
  (lower < point && point < upper) ||
    (x.mantissa % 2 == 0 && (point == lower || point == upper))

def below (k : Int) : Nat :=
  x.value * x.quarter k / x.step k

def nearerBelow (k : Int) : Bool :=
  2 * (x.value * x.quarter k - x.below k * x.step k) < x.step k

/-- The grid point next to `x` that rounds to it: the nearer if both do, the upper one on a tie. -/
def onGrid? (k : Int) : Option Nat :=
  let down := x.below k
  match x.roundsFrom k down, x.roundsFrom k (down + 1) with
  | true, true => some (if x.nearerBelow k then down else down + 1)
  | true, false => some down
  | false, true => some (down + 1)
  | false, false => none

/-- An exponent whose power of ten exceeds everything that rounds to `x`, from the least power of
two that does: `8 < 10 < 16`. -/
def coarsest : Int :=
  let b : Int := x.mantissa.log2 + 1 + x.exponent
  if 0 ≤ b then b / 3 + 1 else -(-b / 4)

def finest : Int :=
  min x.exponent 0

def firstHit : Nat → Decimal
  | 0 => ⟨x.below x.finest, x.finest⟩
  | n + 1 =>
    match x.onGrid? (x.finest + (n + 1 : Nat)) with
    | some d => ⟨d, x.finest + (n + 1 : Nat)⟩
    | none => firstHit n

/-- The decimal with the fewest digits that rounds to `x`, and among those the nearest. -/
def shortest : Decimal :=
  if x.mantissa = 0 then ⟨0, 0⟩ else x.firstHit (x.coarsest - x.finest).toNat

end Dyadic

end Scriptlet
