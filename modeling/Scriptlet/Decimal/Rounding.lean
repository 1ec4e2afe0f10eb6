namespace Scriptlet.Binary64

def unit (n : Nat) : Nat :=
  Nat.pow 2 (n.log2 - 52)

/-- The double nearest to a whole number, the one with the even mantissa on a tie. There is no
largest double here. -/
def nearest (n : Nat) : Nat :=
  let down := n / unit n
  let excess := 2 * (n % unit n)
  unit n * if excess < unit n ∨ excess = unit n ∧ down % 2 = 0 then down else down + 1

/-- The least magnitude that rounds to infinity: half a unit above the largest double. -/
def overflow : Nat :=
  Nat.pow 2 1024 - Nat.pow 2 970

theorem nearest_eq_self {n : Nat} (h : n.log2 ≤ 52) : nearest n = n := by
  have hu : unit n = 1 := by simp [unit, Nat.sub_eq_zero_of_le h]
  simp [nearest, hu, Nat.mod_one]

end Scriptlet.Binary64
