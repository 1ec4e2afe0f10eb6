import Mathlib.Algebra.Order.Field.Power
import Mathlib.Data.Rat.Cast.Order
import Mathlib.Order.Monotone.Basic
import Mathlib.Tactic.Linarith
import Mathlib.Tactic.LinearCombination
import Mathlib.Tactic.NormNum
import Mathlib.Tactic.Positivity
import Mathlib.Tactic.Ring
import Scriptlet.Decimal.Positional
import Scriptlet.Decimal.Rounding

namespace Scriptlet

def Dyadic.toRat (x : Dyadic) : ℚ :=
  x.mantissa * 2 ^ x.exponent

theorem Dyadic.toRat_nonneg (x : Dyadic) : 0 ≤ x.toRat := by
  unfold Dyadic.toRat
  positivity

namespace Binary64

/-- The magnitudes in their order, those beyond the largest double included. -/
def nth (n : ℕ) : Dyadic :=
  magnitude (n / 0x10000000000000) (n % 0x10000000000000)

def place (bits : UInt64) : ℕ :=
  bits.toNat % 0x8000000000000000

def infinity : ℕ :=
  0x7ff0000000000000

/-- Half-way from a magnitude to the next. -/
def midpoint (n : ℕ) : ℚ :=
  ((nth n).toRat + (nth (n + 1)).toRat) / 2

/-- A number of magnitude `q` is rounded to the double with the given bits, which takes its sign: no
double is nearer, and if another one is as near, the mantissa is even. From half a unit above the
largest double on, numbers are rounded to infinity. -/
def RoundsTo (negative : Bool) (q : ℚ) (bits : UInt64) : Prop :=
  ∃ x, ofBits bits = .finite negative x ∧ q < overflow ∧
    ∀ other sign y, ofBits other = .finite sign y →
      |q - x.toRat| < |q - y.toRat| ∨
        |q - x.toRat| = |q - y.toRat| ∧ (y.toRat = x.toRat ∨ x.mantissa % 2 = 0)

theorem nth_succ_cases (n : ℕ) :
    (nth (n + 1)).mantissa = (nth n).mantissa + 1 ∧ (nth (n + 1)).exponent = (nth n).exponent ∧
        (nth (n + 1)).narrowBelow = false ∨
      2 * (nth (n + 1)).mantissa = (nth n).mantissa + 1 ∧
        (nth (n + 1)).exponent = (nth n).exponent + 1 ∧ (nth (n + 1)).narrowBelow = true := by
  rw [nth, nth, magnitude, magnitude]
  by_cases hcarry : (n + 1) % 0x10000000000000 = 0
  · have hdiv : (n + 1) / 0x10000000000000 = n / 0x10000000000000 + 1 := by omega
    have hmod : n % 0x10000000000000 = 0xfffffffffffff := by omega
    rw [hcarry, hdiv, hmod, if_neg (Nat.succ_ne_zero _)]
    split
    · next hzero =>
        left
        simp [hzero]
    · next hpos =>
        right
        have hone : 1 < n / 0x10000000000000 + 1 := by omega
        simp [hone]
        ring
  · have hdiv : (n + 1) / 0x10000000000000 = n / 0x10000000000000 := by omega
    have hmod : (n + 1) % 0x10000000000000 = n % 0x10000000000000 + 1 := by omega
    left
    rw [hdiv, hmod]
    split
    · exact ⟨rfl, rfl, rfl⟩
    · exact ⟨(Nat.add_assoc _ _ _).symm, rfl, by simp⟩

theorem toRat_nth_succ (n : ℕ) : (nth (n + 1)).toRat = (nth n).toRat + 2 ^ (nth n).exponent := by
  rw [Dyadic.toRat, Dyadic.toRat]
  rcases nth_succ_cases n with ⟨hm, he, -⟩ | ⟨hm, he, -⟩
  · rw [hm, he]
    push_cast
    ring
  · have hm' : 2 * ((nth (n + 1)).mantissa : ℚ) = (nth n).mantissa + 1 := mod_cast hm
    rw [he, zpow_add_one₀ (by norm_num)]
    linear_combination 2 ^ (nth n).exponent * hm'

theorem strictMono_nth : StrictMono fun n => (nth n).toRat := by
  refine strictMono_nat_of_lt_succ fun n => ?_
  rw [toRat_nth_succ]
  exact lt_add_of_pos_right _ (by positivity)

theorem toRat_nth_zero : (nth 0).toRat = 0 := by
  simp [Dyadic.toRat, nth, magnitude]

theorem mantissa_nth_mod_two (n : ℕ) : (nth n).mantissa % 2 = n % 2 := by
  rw [nth, magnitude]
  split
  · dsimp only
    omega
  · dsimp only
    omega

theorem mantissa_nth_pos {n : ℕ} (h : 0 < n) : 0 < (nth n).mantissa := by
  rw [nth, magnitude]
  split
  · dsimp only
    omega
  · exact Nat.add_pos_left (by decide) _

theorem midpoint_lt_succ (n : ℕ) : midpoint n < midpoint (n + 1) := by
  have h := strictMono_nth (show n < n + 2 by omega)
  dsimp only at h
  unfold midpoint
  linarith

theorem strictMono_midpoint : StrictMono midpoint :=
  strictMono_nat_of_lt_succ midpoint_lt_succ

theorem high_nth (n : ℕ) : ((nth n).high : ℚ) * 2 ^ ((nth n).exponent - 2) = midpoint n := by
  rw [midpoint, toRat_nth_succ, Dyadic.toRat, Dyadic.high, zpow_sub₀ (by norm_num)]
  push_cast
  ring

theorem low_nth_succ (n : ℕ) :
    ((nth (n + 1)).low : ℚ) * 2 ^ ((nth (n + 1)).exponent - 2) = midpoint n := by
  rw [midpoint, toRat_nth_succ, Dyadic.toRat, Dyadic.low]
  rcases nth_succ_cases n with ⟨hm, he, hnarrow⟩ | ⟨hm, he, hnarrow⟩
  · have hlow : ((4 * (nth (n + 1)).mantissa - 2 : ℕ) : ℚ) = 4 * (nth n).mantissa + 2 := by
      rw [hm, show 4 * ((nth n).mantissa + 1) - 2 = 4 * (nth n).mantissa + 2 by omega]
      push_cast
      rfl
    simp only [hnarrow, Bool.false_eq_true, if_false, hlow, he]
    rw [zpow_sub₀ (by norm_num)]
    ring
  · have hlow : ((4 * (nth (n + 1)).mantissa - 1 : ℕ) : ℚ) = 2 * (nth n).mantissa + 1 := by
      rw [show 4 * (nth (n + 1)).mantissa - 1 = 2 * (nth n).mantissa + 1 by omega]
      push_cast
      rfl
    simp only [hnarrow, if_true, hlow, he]
    rw [zpow_sub₀ (by norm_num), zpow_add_one₀ (by norm_num)]
    ring

theorem overflow_eq : (overflow : ℚ) = midpoint (infinity - 1) := by
  have hlast : nth (infinity - 1) = ⟨0x1fffffffffffff, 971, false⟩ := by decide
  have hle (k : ℕ) : 2 ^ k ≤ 2 ^ (k + 54) := Nat.pow_le_pow_right (by decide) (by omega)
  have hlarge : (2 : ℚ) ^ 1024 = 2 ^ 54 * 2 ^ 970 := by rw [← pow_add]
  have hunit : (2 : ℚ) ^ 970 = 2 * 2 ^ (971 - 2 : ℤ) := by
    rw [← zpow_natCast, ← zpow_one_add₀ (by norm_num)]
    norm_num
  have hoverflow : (overflow : ℚ) = 2 ^ 1024 - 2 ^ 970 := by
    simp only [overflow, Nat.pow_eq, Nat.cast_sub (hle _), Nat.cast_pow, Nat.cast_two]
  rw [hoverflow, hlarge, hunit, ← high_nth, hlast, Dyadic.high]
  generalize (2 : ℚ) ^ (971 - 2 : ℤ) = unit
  push_cast
  ring

variable {bits other : UInt64} {q : ℚ}

theorem place_lt (bits : UInt64) : place bits < 0x8000000000000000 :=
  Nat.mod_lt _ (by decide)

theorem signBit_iff : signBit bits = true ↔ 2 ^ 63 ≤ bits.toNat := by
  have hbound := bits.toNat_lt
  rw [signBit, beq_iff_eq]
  omega

theorem toNat_eq (bits : UInt64) :
    bits.toNat = (if signBit bits then 0x8000000000000000 else 0) + place bits := by
  have hbound := bits.toNat_lt
  simp only [signBit, place, beq_iff_eq]
  split <;> omega

theorem eq_of_place_eq (hsign : signBit bits = signBit other) (h : place bits = place other) :
    bits = other := by
  rw [← UInt64.toNat_inj, toNat_eq bits, toNat_eq other, hsign, h]

theorem biasedExponent_eq (bits : UInt64) :
    biasedExponent bits = place bits / 0x10000000000000 := by
  rw [biasedExponent, place]
  omega

theorem fraction_eq (bits : UInt64) : fraction bits = place bits % 0x10000000000000 := by
  rw [fraction, place]
  omega

theorem ofBits_eq_finite_iff {negative : Bool} {x : Dyadic} :
    ofBits bits = .finite negative x ↔
      place bits < infinity ∧ signBit bits = negative ∧ nth (place bits) = x := by
  have hplace := place_lt bits
  rw [ofBits, biasedExponent_eq, fraction_eq]
  split
  · refine iff_of_false (by split <;> nofun) fun h => ?_
    have hlt := h.1
    rw [infinity] at hlt
    omega
  · next hfinite =>
      have hlt : place bits < infinity := by
        rw [infinity]
        omega
      simp [hlt, nth]

theorem place_toUInt64 {n : ℕ} (h : n < infinity) : place n.toUInt64 = n := by
  rw [infinity] at h
  rw [place, Nat.toUInt64_eq, UInt64.toNat_ofNat_of_lt' (Nat.lt_trans h (by decide)),
    Nat.mod_eq_of_lt (Nat.lt_trans h (by decide))]

def Prefers (q : ℚ) (n k : ℕ) : Prop :=
  |q - (nth n).toRat| < |q - (nth k).toRat| ∨
    |q - (nth n).toRat| = |q - (nth k).toRat| ∧ (k = n ∨ n % 2 = 0)

theorem roundsTo_iff_prefers {negative : Bool} :
    RoundsTo negative q bits ↔
      signBit bits = negative ∧ place bits < infinity ∧ q < overflow ∧
        ∀ k < infinity, Prefers q (place bits) k := by
  constructor
  · rintro ⟨x, hx, hq, h⟩
    obtain ⟨hplace, hsign, rfl⟩ := ofBits_eq_finite_iff.mp hx
    refine ⟨hsign, hplace, hq, fun k hk => ?_⟩
    have hk' := h k.toUInt64 _ (nth k) (ofBits_eq_finite_iff.mpr
      ⟨(place_toUInt64 hk).symm ▸ hk, rfl, by rw [place_toUInt64 hk]⟩)
    rwa [mantissa_nth_mod_two, strictMono_nth.injective.eq_iff] at hk'
  · rintro ⟨hsign, hplace, hq, h⟩
    refine ⟨_, ofBits_eq_finite_iff.mpr ⟨hplace, hsign, rfl⟩, hq, fun other sign y hy => ?_⟩
    obtain ⟨hother, -, rfl⟩ := ofBits_eq_finite_iff.mp hy
    rw [mantissa_nth_mod_two, strictMono_nth.injective.eq_iff]
    exact h _ hother

section

variable {a b : ℚ}

theorem abs_sub_lt_iff_of_lt (h : a < b) : |q - b| < |q - a| ↔ (a + b) / 2 < q := by
  rcases abs_cases (q - a) with ⟨ha, hqa⟩ | ⟨ha, hqa⟩ <;>
    rcases abs_cases (q - b) with ⟨hb, hqb⟩ | ⟨hb, hqb⟩ <;>
    rw [ha, hb] <;> constructor <;> intro <;> linarith

theorem abs_sub_lt_iff_of_gt (h : a < b) : |q - a| < |q - b| ↔ q < (a + b) / 2 := by
  rcases abs_cases (q - a) with ⟨ha, hqa⟩ | ⟨ha, hqa⟩ <;>
    rcases abs_cases (q - b) with ⟨hb, hqb⟩ | ⟨hb, hqb⟩ <;>
    rw [ha, hb] <;> constructor <;> intro <;> linarith

theorem abs_sub_eq_iff_of_lt (h : a < b) : |q - b| = |q - a| ↔ q = (a + b) / 2 := by
  rw [le_antisymm_iff, le_antisymm_iff, ← not_lt, abs_sub_lt_iff_of_gt h, ← not_lt,
    abs_sub_lt_iff_of_lt h, not_lt, not_lt, and_comm]

end

variable {n k : ℕ}

theorem prefers_iff_of_lt (h : k < n) :
    Prefers q n k ↔
      ((nth k).toRat + (nth n).toRat) / 2 < q ∨
        q = ((nth k).toRat + (nth n).toRat) / 2 ∧ n % 2 = 0 := by
  have hstep : (nth k).toRat < (nth n).toRat := strictMono_nth h
  rw [Prefers, abs_sub_lt_iff_of_lt hstep, abs_sub_eq_iff_of_lt hstep, or_iff_right h.ne]

theorem prefers_iff_of_gt (h : n < k) :
    Prefers q n k ↔
      q < ((nth n).toRat + (nth k).toRat) / 2 ∨
        q = ((nth n).toRat + (nth k).toRat) / 2 ∧ n % 2 = 0 := by
  have hstep : (nth n).toRat < (nth k).toRat := strictMono_nth h
  rw [Prefers, abs_sub_lt_iff_of_gt hstep, eq_comm, abs_sub_eq_iff_of_lt hstep, or_iff_right h.ne']

theorem forall_lt_prefers_iff :
    (∀ k < n + 1, Prefers q (n + 1) k) ↔ midpoint n < q ∨ q = midpoint n ∧ (n + 1) % 2 = 0 := by
  constructor
  · intro h
    exact (prefers_iff_of_lt n.lt_succ_self).mp (h n n.lt_succ_self)
  · intro h k hk
    have hle : (nth k).toRat ≤ (nth n).toRat := strictMono_nth.monotone (Nat.le_of_lt_succ hk)
    rw [prefers_iff_of_lt hk]
    unfold midpoint at h
    rcases lt_or_eq_of_le hle with hlt | heq
    · left
      rcases h with h | ⟨h, -⟩ <;> linarith
    · rwa [heq]

/-- Of the places above, the next one is the hardest to beat, and the largest double has half a unit
above it like the others. -/
theorem forall_gt_prefers_iff (hn : n < infinity) :
    (q < overflow ∧ ∀ k, n < k → k < infinity → Prefers q n k) ↔
      q < midpoint n ∨ q = midpoint n ∧ n % 2 = 0 := by
  constructor
  · rintro ⟨hq, h⟩
    rcases Nat.lt_or_ge (n + 1) infinity with hnext | hlast
    · exact (prefers_iff_of_gt n.lt_succ_self).mp (h (n + 1) n.lt_succ_self hnext)
    · rw [overflow_eq, show infinity - 1 = n by omega] at hq
      exact .inl hq
  · intro h
    have hmid : q ≤ midpoint n := by
      rcases h with h | ⟨h, -⟩
      · exact h.le
      · exact h.le
    refine ⟨?_, fun k hk _ => ?_⟩
    · rw [overflow_eq]
      rcases Nat.lt_or_ge n (infinity - 1) with hnext | hlast
      · exact lt_of_le_of_lt hmid (strictMono_midpoint hnext)
      · -- the largest double is odd
        have hodd : n % 2 ≠ 0 := by
          rw [infinity] at hlast hn
          omega
        rw [show infinity - 1 = n by omega]
        exact h.resolve_right fun heven => hodd heven.2
    · have hle : (nth (n + 1)).toRat ≤ (nth k).toRat := strictMono_nth.monotone hk
      rw [prefers_iff_of_gt hk]
      unfold midpoint at h
      rcases lt_or_eq_of_le hle with hlt | heq
      · left
        rcases h with h | ⟨h, -⟩ <;> linarith
      · rwa [← heq]

/-- Everything that is rounded to a place lies between the midpoints to its neighbours, and a
midpoint itself goes to the even one of the two places. -/
theorem roundsTo_iff_between {negative : Bool} (hn : place bits = n + 1) :
    RoundsTo negative q bits ↔
      signBit bits = negative ∧ n + 1 < infinity ∧
        (midpoint n < q ∧ q < midpoint (n + 1) ∨
          (n + 1) % 2 = 0 ∧ (q = midpoint n ∨ q = midpoint (n + 1))) := by
  rw [roundsTo_iff_prefers, hn]
  refine and_congr_right fun _ => and_congr_right fun hlt => ?_
  have hsplit : (q < overflow ∧ ∀ k < infinity, Prefers q (n + 1) k) ↔
      (∀ k < n + 1, Prefers q (n + 1) k) ∧
        q < overflow ∧ ∀ k, n + 1 < k → k < infinity → Prefers q (n + 1) k := by
    constructor
    · rintro ⟨hq, h⟩
      exact ⟨fun k hk => h k (hk.trans hlt), hq, fun k _ => h k⟩
    · rintro ⟨hbelow, hq, habove⟩
      refine ⟨hq, fun k hk => ?_⟩
      rcases Nat.lt_trichotomy k (n + 1) with hk' | rfl | hk'
      · exact hbelow k hk'
      · exact .inr ⟨rfl, .inl rfl⟩
      · exact habove k hk' hk
  rw [hsplit, forall_lt_prefers_iff, forall_gt_prefers_iff hlt]
  have hmid := midpoint_lt_succ n
  grind

theorem roundsTo_zero (h : place bits = 0) : RoundsTo (signBit bits) 0 bits := by
  have hpos {k : ℕ} (hk : 0 < k) : 0 < (nth k).toRat := toRat_nth_zero ▸ strictMono_nth hk
  rw [roundsTo_iff_prefers, h]
  refine ⟨rfl, by decide, ?_, fun k _ => ?_⟩
  · rw [overflow_eq, midpoint]
    have hlast := hpos (show 0 < infinity - 1 by decide)
    have hnext := hpos (Nat.succ_pos (infinity - 1))
    linarith
  · rcases Nat.eq_zero_or_pos k with rfl | hk
    · exact .inr ⟨rfl, .inl rfl⟩
    · rw [prefers_iff_of_gt hk, toRat_nth_zero]
      left
      linarith [hpos hk]

/-- Two places to which a number is rounded are both even, and the one between them is nearer. -/
theorem RoundsTo.place_le {negative : Bool} (h : RoundsTo negative q bits)
    (h' : RoundsTo negative q other) : place bits ≤ place other := by
  obtain ⟨-, hplace, -, h⟩ := roundsTo_iff_prefers.mp h
  obtain ⟨-, hplace', -, h'⟩ := roundsTo_iff_prefers.mp h'
  by_contra! hlt
  have hmid : q = ((nth (place other)).toRat + (nth (place bits)).toRat) / 2 ∧
      place bits % 2 = 0 ∧ place other % 2 = 0 := by
    rcases (prefers_iff_of_lt hlt).mp (h _ hplace') with hgt | ⟨heq, heven⟩ <;>
      rcases (prefers_iff_of_gt hlt).mp (h' _ hplace) with hlt' | ⟨heq', heven'⟩
    · exact absurd hgt (lt_asymm hlt')
    · exact absurd heq' hgt.ne'
    · exact absurd heq hlt'.ne
    · exact ⟨heq, heven, heven'⟩
  have hbelow : (nth (place other + 1)).toRat < (nth (place bits)).toRat :=
    strictMono_nth (by omega)
  rcases (prefers_iff_of_gt (Nat.lt_succ_self _)).mp (h' (place other + 1) (by omega))
    with hnear | ⟨hnear, -⟩ <;> linarith

theorem RoundsTo.unique {negative : Bool} (h : RoundsTo negative q bits)
    (h' : RoundsTo negative q other) : bits = other :=
  eq_of_place_eq ((roundsTo_iff_prefers.mp h).1.trans (roundsTo_iff_prefers.mp h').1.symm)
    (le_antisymm (h.place_le h') (h'.place_le h))

end Binary64

end Scriptlet
