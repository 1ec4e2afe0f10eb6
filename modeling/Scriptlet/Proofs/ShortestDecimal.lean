import Mathlib.Tactic.FieldSimp
import Scriptlet.Proofs.DoubleValues

namespace Scriptlet

def Decimal.toRat (d : Decimal) : ℚ :=
  d.coefficient * 10 ^ d.exponent

namespace Dyadic

/-- What is rounded to a positive double: the numbers between the midpoints to its neighbours, and
also the midpoints if its mantissa is even. -/
def Attracts (x : Dyadic) (q : ℚ) : Prop :=
  x.low * 2 ^ (x.exponent - 2) < q ∧ q < x.high * 2 ^ (x.exponent - 2) ∨
    x.mantissa % 2 = 0 ∧ (q = x.low * 2 ^ (x.exponent - 2) ∨ q = x.high * 2 ^ (x.exponent - 2))

variable {x : Dyadic} {q a b : ℚ} {k : ℤ} {n c : ℕ}

theorem zpow_mul_pow_toNat {b : ℚ} (hb : b ≠ 0) (n : ℤ) : b ^ n * b ^ (-n).toNat = b ^ n.toNat := by
  rw [← zpow_natCast, ← zpow_natCast, ← zpow_add₀ hb]
  congr 1
  omega

theorem exists_scale (x : Dyadic) (k : ℤ) :
    ∃ u : ℚ, 0 < u ∧ x.quarter k = 2 ^ (x.exponent - 2) * u ∧ x.step k = 10 ^ k * u := by
  have htwo := zpow_mul_pow_toNat (show (2 : ℚ) ≠ 0 by norm_num) (x.exponent - 2)
  have hten := zpow_mul_pow_toNat (show (10 : ℚ) ≠ 0 by norm_num) k
  rw [neg_sub] at htwo
  refine ⟨2 ^ (2 - x.exponent).toNat * 10 ^ (-k).toNat, by positivity, ?_, ?_⟩
  · simp only [quarter, Nat.pow_eq, Nat.cast_mul, Nat.cast_pow, Nat.cast_ofNat, ← htwo, mul_assoc]
  · simp only [step, Nat.pow_eq, Nat.cast_mul, Nat.cast_pow, Nat.cast_ofNat, ← hten]
    ring

theorem mul_quarter_lt_mul_step_iff :
    n * x.quarter k < c * x.step k ↔ (n : ℚ) * 2 ^ (x.exponent - 2) < c * 10 ^ k := by
  obtain ⟨u, hu, hquarter, hstep⟩ := x.exists_scale k
  rw [← Nat.cast_lt (α := ℚ), Nat.cast_mul, Nat.cast_mul, hquarter, hstep, ← mul_assoc,
    ← mul_assoc, mul_lt_mul_iff_left₀ hu]

theorem mul_step_lt_mul_quarter_iff :
    c * x.step k < n * x.quarter k ↔ (c : ℚ) * 10 ^ k < n * 2 ^ (x.exponent - 2) := by
  obtain ⟨u, hu, hquarter, hstep⟩ := x.exists_scale k
  rw [← Nat.cast_lt (α := ℚ), Nat.cast_mul, Nat.cast_mul, hquarter, hstep, ← mul_assoc,
    ← mul_assoc, mul_lt_mul_iff_left₀ hu]

theorem mul_step_eq_mul_quarter_iff :
    c * x.step k = n * x.quarter k ↔ (c : ℚ) * 10 ^ k = n * 2 ^ (x.exponent - 2) := by
  rw [le_antisymm_iff, le_antisymm_iff, ← not_lt, ← not_lt, ← not_lt, ← not_lt,
    mul_step_lt_mul_quarter_iff, mul_quarter_lt_mul_step_iff]

theorem roundsFrom_iff : x.roundsFrom k c = true ↔ x.Attracts (c * 10 ^ k) := by
  simp only [roundsFrom, Attracts, Bool.or_eq_true, Bool.and_eq_true, decide_eq_true_eq, beq_iff_eq,
    mul_quarter_lt_mul_step_iff, mul_step_lt_mul_quarter_iff, mul_step_eq_mul_quarter_iff]

theorem value_mul (x : Dyadic) : (x.value : ℚ) * 2 ^ (x.exponent - 2) = x.toRat := by
  rw [value, toRat, zpow_sub₀ (by norm_num)]
  push_cast
  ring

theorem low_lt_value (h : 0 < x.mantissa) : x.low < x.value := by
  rw [low, value]
  split <;> omega

theorem value_lt_high (x : Dyadic) : x.value < x.high := by
  rw [high, value]
  omega

theorem attracts_toRat (h : 0 < x.mantissa) : x.Attracts x.toRat := by
  have hlow : (x.low : ℚ) < x.value := Nat.cast_lt.mpr (low_lt_value h)
  have hhigh : (x.value : ℚ) < x.high := Nat.cast_lt.mpr x.value_lt_high
  rw [← value_mul]
  exact .inl ⟨by gcongr, by gcongr⟩

theorem low_le_high (x : Dyadic) :
    (x.low : ℚ) * 2 ^ (x.exponent - 2) ≤ x.high * 2 ^ (x.exponent - 2) := by
  have hle : (x.low : ℚ) ≤ x.high := Nat.cast_le.mpr (by rw [low, high]; omega)
  gcongr

theorem Attracts.low_le (h : x.Attracts q) : x.low * 2 ^ (x.exponent - 2) ≤ q := by
  rcases h with ⟨hlow, -⟩ | ⟨-, rfl | rfl⟩
  · exact hlow.le
  · exact le_rfl
  · exact x.low_le_high

theorem Attracts.le_high (h : x.Attracts q) : q ≤ x.high * 2 ^ (x.exponent - 2) := by
  rcases h with ⟨-, hhigh⟩ | ⟨-, rfl | rfl⟩
  · exact hhigh.le
  · exact x.low_le_high
  · exact le_rfl

theorem Attracts.between (ha : x.Attracts a) (hb : x.Attracts b) (haq : a ≤ q) (hqb : q ≤ b) :
    x.Attracts q := by
  rcases lt_or_eq_of_le haq with haq | rfl
  · rcases lt_or_eq_of_le hqb with hqb | rfl
    · exact .inl ⟨lt_of_le_of_lt ha.low_le haq, lt_of_lt_of_le hqb hb.le_high⟩
    · exact hb
  · exact ha

theorem Attracts.pos (h : x.Attracts q) (hx : 0 < x.mantissa) : 0 < q := by
  have hlow : (0 : ℚ) < x.low := by
    rw [Nat.cast_pos, low]
    split <;> omega
  refine lt_of_lt_of_le ?_ h.low_le
  positivity

theorem below_mul_le (x : Dyadic) (k : ℤ) : (x.below k : ℚ) * 10 ^ k ≤ x.toRat := by
  rw [← value_mul, ← not_lt, ← mul_quarter_lt_mul_step_iff, not_lt]
  exact Nat.div_mul_le_self _ _

theorem lt_below_succ_mul (x : Dyadic) (k : ℤ) : x.toRat < (x.below k + 1 : ℕ) * 10 ^ k := by
  have hstep : 0 < x.step k :=
    Nat.mul_pos (Nat.pow_pos (by decide)) (Nat.pow_pos (by decide))
  rw [← value_mul, ← mul_quarter_lt_mul_step_iff]
  exact Nat.lt_mul_of_div_lt (Nat.lt_succ_self _) hstep

theorem attracts_of_onGrid? (h : x.onGrid? k = some c) : x.Attracts (c * 10 ^ k) := by
  rw [← roundsFrom_iff]
  cases hdown : x.roundsFrom k (x.below k) <;> cases hup : x.roundsFrom k (x.below k + 1) <;>
    simp only [onGrid?, hdown, hup, Option.some.injEq, reduceCtorEq] at h
  case false.true => exact h ▸ hup
  case true.false => exact h ▸ hdown
  case true.true =>
    split at h
    · exact h ▸ hdown
    · exact h ▸ hup

/-- What lies on a grid and is rounded to `x` has the grid point below `x`, or the one above it,
between itself and `x`. -/
theorem not_attracts_of_onGrid? (hx : 0 < x.mantissa) (h : x.onGrid? k = none) (c : ℕ) :
    ¬x.Attracts (c * 10 ^ k) := by
  have hnext : ¬x.Attracts (x.below k * 10 ^ k) ∧ ¬x.Attracts ((x.below k + 1 : ℕ) * 10 ^ k) := by
    rw [← roundsFrom_iff, ← roundsFrom_iff]
    cases hdown : x.roundsFrom k (x.below k) <;> cases hup : x.roundsFrom k (x.below k + 1) <;>
      simp [onGrid?, hdown, hup] at h ⊢
  intro hc
  rcases Nat.lt_or_ge (x.below k) c with hlt | hge
  · refine hnext.2 ((attracts_toRat hx).between hc (x.lt_below_succ_mul k).le ?_)
    have hle : ((x.below k + 1 : ℕ) : ℚ) ≤ c := Nat.cast_le.mpr hlt
    gcongr
  · refine hnext.1 (hc.between (attracts_toRat hx) ?_ (x.below_mul_le k))
    have hle : (c : ℚ) ≤ x.below k := Nat.cast_le.mpr hge
    gcongr

theorem exists_mul_finest (x : Dyadic) : ∃ c : ℕ, (c : ℚ) * 10 ^ x.finest = x.toRat := by
  rw [finest, toRat]
  rcases le_total x.exponent 0 with hle | hge
  · obtain ⟨n, hn⟩ := Int.eq_ofNat_of_zero_le (show 0 ≤ -x.exponent by omega)
    refine ⟨x.mantissa * 5 ^ n, ?_⟩
    rw [min_eq_left hle, show x.exponent = -(n : ℤ) by omega, zpow_neg, zpow_neg, zpow_natCast,
      zpow_natCast, show (10 : ℚ) = 5 * 2 by norm_num, mul_pow]
    push_cast
    field_simp
  · obtain ⟨n, hn⟩ := Int.eq_ofNat_of_zero_le hge
    refine ⟨x.mantissa * 2 ^ n, ?_⟩
    rw [min_eq_right hge, hn, zpow_zero, zpow_natCast]
    push_cast
    ring

theorem below_finest (x : Dyadic) : (x.below x.finest : ℚ) * 10 ^ x.finest = x.toRat := by
  obtain ⟨c, hc⟩ := x.exists_mul_finest
  have hbelow := x.below_mul_le x.finest
  have habove := x.lt_below_succ_mul x.finest
  rw [← hc] at hbelow habove ⊢
  have hpos : (0 : ℚ) < 10 ^ x.finest := by positivity
  rw [mul_le_mul_iff_left₀ hpos, Nat.cast_le] at hbelow
  rw [mul_lt_mul_iff_left₀ hpos, Nat.cast_lt] at habove
  rw [show x.below x.finest = c by omega]

/-- What the search has found when it has tried the grids up to some power of ten. -/
theorem firstHit_spec (hx : 0 < x.mantissa) (n : ℕ) :
    x.Attracts (x.firstHit n).toRat ∧
      ∀ k, (x.firstHit n).exponent < k → k ≤ x.finest + n → ∀ c : ℕ, ¬x.Attracts (c * 10 ^ k) := by
  induction n with
  | zero =>
      rw [firstHit, Decimal.toRat, below_finest]
      refine ⟨attracts_toRat hx, fun k hlt hle => ?_⟩
      dsimp only at hlt
      omega
  | succ n ih =>
      rw [firstHit]
      split
      · next c hc =>
          refine ⟨attracts_of_onGrid? hc, fun k hlt hle => ?_⟩
          dsimp only at hlt
          omega
      · next hnone =>
          refine ⟨ih.1, fun k hlt hle => ?_⟩
          rcases eq_or_lt_of_le hle with rfl | hlt'
          · exact not_attracts_of_onGrid? hx hnone
          · exact ih.2 k hlt (by omega)

theorem two_zpow_le_ten_zpow_coarsest (x : Dyadic) :
    (2 : ℚ) ^ (x.mantissa.log2 + 1 + x.exponent) ≤ 10 ^ x.coarsest := by
  rw [coarsest]
  generalize (x.mantissa.log2 : ℤ) + 1 + x.exponent = b
  split
  · next hb =>
      calc (2 : ℚ) ^ b ≤ 2 ^ (3 * (b / 3 + 1)) := zpow_le_zpow_right₀ (by norm_num) (by omega)
        _ = 8 ^ (b / 3 + 1) := by rw [zpow_mul]; norm_num
        _ ≤ 10 ^ (b / 3 + 1) := zpow_le_zpow_left₀ (by omega) (by norm_num) (by norm_num)
  · next hb =>
      calc (2 : ℚ) ^ b ≤ 2 ^ (4 * -(-b / 4)) := zpow_le_zpow_right₀ (by norm_num) (by omega)
        _ = (16 ^ (-b / 4))⁻¹ := by rw [zpow_mul, zpow_neg]; norm_num
        _ ≤ (10 ^ (-b / 4))⁻¹ := by
          gcongr
          exact zpow_le_zpow_left₀ (by omega) (by norm_num) (by norm_num)
        _ = 10 ^ (-(-b / 4)) := (zpow_neg _ _).symm

theorem Attracts.lt_coarsest (h : x.Attracts q) : q < 10 ^ x.coarsest := by
  refine lt_of_lt_of_le ?_ x.two_zpow_le_ten_zpow_coarsest
  have hmantissa : (x.high : ℚ) < 4 * (2 ^ (x.mantissa.log2 + 1) : ℕ) := by
    have hlog := Nat.lt_log2_self (n := x.mantissa)
    have hhigh : x.high < 4 * 2 ^ (x.mantissa.log2 + 1) := by
      rw [high]
      omega
    exact_mod_cast hhigh
  calc q ≤ x.high * 2 ^ (x.exponent - 2) := h.le_high
    _ < 4 * (2 ^ (x.mantissa.log2 + 1) : ℕ) * 2 ^ (x.exponent - 2) := by gcongr
    _ = 2 ^ (x.mantissa.log2 + 1 + x.exponent) := by
      rw [zpow_add₀ (by norm_num), zpow_sub₀ (by norm_num)]
      push_cast
      rw [← zpow_natCast]
      push_cast
      ring

theorem shortest_spec (hx : 0 < x.mantissa) :
    x.Attracts x.shortest.toRat ∧
      ∀ k, x.shortest.exponent < k → ∀ c : ℕ, ¬x.Attracts (c * 10 ^ k) := by
  rw [shortest, if_neg hx.ne']
  obtain ⟨hhit, hcoarser⟩ := firstHit_spec hx (x.coarsest - x.finest).toNat
  refine ⟨hhit, fun k hlt c hc => ?_⟩
  rcases le_or_gt k (x.finest + (x.coarsest - x.finest).toNat) with hle | hgt
  · exact hcoarser k hlt hle c hc
  · -- the grid has nothing but zero below its unit
    have hpos : 0 < c := by
      have hc' := hc.pos hx
      rw [Nat.pos_iff_ne_zero]
      rintro rfl
      simp at hc'
    have hone : (1 : ℚ) ≤ c := Nat.one_le_cast.mpr hpos
    have hunit : (10 : ℚ) ^ x.coarsest ≤ c * 10 ^ k :=
      calc (10 : ℚ) ^ x.coarsest ≤ 10 ^ k := zpow_le_zpow_right₀ (by norm_num) (by omega)
        _ ≤ c * 10 ^ k := le_mul_of_one_le_left (by positivity) hone
    exact absurd hc.lt_coarsest (not_lt.mpr hunit)

theorem shortest_coefficient_mod_ten (hx : 0 < x.mantissa) : x.shortest.coefficient % 10 ≠ 0 := by
  obtain ⟨hmet, hcoarser⟩ := shortest_spec hx
  intro hzero
  refine hcoarser (x.shortest.exponent + 1) (by omega) (x.shortest.coefficient / 10) ?_
  have htenth : (x.shortest.coefficient : ℚ) = (x.shortest.coefficient / 10 : ℕ) * 10 :=
    mod_cast (Nat.div_mul_cancel (Nat.dvd_of_mod_eq_zero hzero)).symm
  rwa [zpow_add_one₀ (by norm_num), mul_comm ((10 : ℚ) ^ _), ← mul_assoc, ← htenth]

theorem eq_of_attracts_natCast (hx : x.Attracts n) (he : x.exponent < 0) : x.toRat = n := by
  obtain ⟨j, hj⟩ := Int.eq_ofNat_of_zero_le (show 0 ≤ -x.exponent by omega)
  have hquarter : (4 * 2 ^ j : ℚ) * 2 ^ (x.exponent - 2) = 1 := by
    rw [show x.exponent - 2 = -((j + 2 : ℕ) : ℤ) by omega, zpow_neg, zpow_natCast, pow_add]
    field_simp
    norm_num
  have hpos : (0 : ℚ) < 2 ^ (x.exponent - 2) := by positivity
  have hn : (n : ℚ) = (4 * (2 ^ j * n) : ℕ) * 2 ^ (x.exponent - 2) := by
    push_cast
    linear_combination -(n : ℚ) * hquarter
  have hlow := hx.low_le
  have hhigh := hx.le_high
  rw [hn, mul_le_mul_iff_left₀ hpos, Nat.cast_le] at hlow hhigh
  have hmantissa : 2 ^ j * n = x.mantissa := by
    rw [low] at hlow
    rw [high] at hhigh
    split at hlow <;> omega
  rw [hn, hmantissa, ← value_mul, value]

theorem shortest_exponent_nonneg_iff (hx : 0 < x.mantissa) :
    0 ≤ x.shortest.exponent ↔ ∃ n : ℕ, x.toRat = n := by
  obtain ⟨hmet, hcoarser⟩ := shortest_spec hx
  constructor
  · intro hk
    rcases lt_or_ge x.exponent 0 with he | he
    · obtain ⟨k, hk⟩ := Int.eq_ofNat_of_zero_le hk
      refine ⟨x.shortest.coefficient * 10 ^ k, eq_of_attracts_natCast ?_ he⟩
      rw [Decimal.toRat, hk, zpow_natCast] at hmet
      exact_mod_cast hmet
    · obtain ⟨e, he⟩ := Int.eq_ofNat_of_zero_le he
      refine ⟨x.mantissa * 2 ^ e, ?_⟩
      rw [toRat, he, zpow_natCast]
      push_cast
      rfl
  · rintro ⟨n, hn⟩
    by_contra! hk
    refine hcoarser 0 hk n ?_
    rw [zpow_zero, mul_one, ← hn]
    exact attracts_toRat hx

/-- No decimal with fewer digits is rounded to the same double. -/
theorem length_shortest_le (hx : 0 < x.mantissa) {d : Decimal} (hd : x.Attracts d.toRat) :
    (Nat.toDigits 10 x.shortest.coefficient).length ≤ (Nat.toDigits 10 d.coefficient).length := by
  obtain ⟨hmet, hcoarser⟩ := shortest_spec hx
  generalize hs : (Nat.toDigits 10 d.coefficient).length = s
  have hspos : 0 < s := hs ▸ Nat.length_toDigits_pos
  have hlt : d.coefficient < 10 ^ s := (Nat.length_toDigits_le_iff (by decide) hspos).mp hs.le
  have hexponent : d.exponent ≤ x.shortest.exponent := by
    by_contra! hk
    exact hcoarser _ hk _ hd
  rw [Nat.length_toDigits_le_iff (by decide) hspos]
  by_contra! hge
  -- a power of ten separates the two
  refine hcoarser (s + x.shortest.exponent) (by omega) 1 (hd.between hmet ?_ ?_)
  · have hlt' : (d.coefficient : ℚ) ≤ 10 ^ s := mod_cast hlt.le
    calc d.toRat ≤ 10 ^ s * 10 ^ d.exponent := by
          unfold Decimal.toRat
          gcongr
      _ ≤ 10 ^ s * 10 ^ x.shortest.exponent := by
          gcongr
          norm_num
      _ = (1 : ℕ) * 10 ^ (s + x.shortest.exponent) := by
          rw [zpow_add₀ (by norm_num), zpow_natCast, Nat.cast_one, one_mul]
  · have hge' : (10 : ℚ) ^ s ≤ x.shortest.coefficient := mod_cast hge
    rw [zpow_add₀ (by norm_num), zpow_natCast, Nat.cast_one, one_mul, Decimal.toRat]
    gcongr

end Dyadic

namespace Binary64

variable {bits : UInt64} {negative : Bool} {x : Dyadic} {q : ℚ}

theorem roundsTo_iff_attracts (h : ofBits bits = .finite negative x) (hx : 0 < x.mantissa)
    {sign : Bool} : RoundsTo sign q bits ↔ sign = negative ∧ x.Attracts q := by
  obtain ⟨hplace, hsign, rfl⟩ := ofBits_eq_finite_iff.mp h
  obtain ⟨n, hn⟩ : ∃ n, place bits = n + 1 := by
    refine Nat.exists_eq_succ_of_ne_zero fun hzero => ?_
    simp [hzero, nth, magnitude] at hx
  rw [roundsTo_iff_between hn, hn, Dyadic.Attracts, high_nth, low_nth_succ, mantissa_nth_mod_two,
    hsign, eq_comm]
  exact and_congr_right fun _ => and_iff_right (hn ▸ hplace)

end Binary64

end Scriptlet
