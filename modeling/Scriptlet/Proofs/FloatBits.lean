import Mathlib
import Scriptlet.Proofs.DoubleValues

namespace Scriptlet.Binary64

open Float.Model UnpackedFloat

variable {bits other : UInt64} {x y : Float}

theorem toNat_unpackExponent (bits : UInt64) :
    (@unpackExponent .binary64 bits.toBitVec).toNat = biasedExponent bits := by
  simp [unpackExponent, biasedExponent, Nat.shiftRight_eq_div_pow]

theorem toNat_unpackMantissa (bits : UInt64) :
    (@unpackMantissa .binary64 bits.toBitVec).toNat = fraction bits := by
  simp [unpackMantissa, fraction]

theorem ofBits_eq_notANumber_iff :
    ofBits bits = .notANumber ↔ biasedExponent bits = 2047 ∧ fraction bits ≠ 0 := by
  rw [ofBits]
  split
  · split <;> simp_all
  · simp_all

theorem isNaNBits_iff : @isNaNBits .binary64 bits.toBitVec = true ↔ ofBits bits = .notANumber := by
  rw [isNaNBits, decide_eq_true_eq, ofBits_eq_notANumber_iff, ne_eq, ← BitVec.toNat_inj,
    ← BitVec.toNat_inj, toNat_unpackExponent, toNat_unpackMantissa]
  rfl

theorem toBits_ofBits (h : ofBits bits ≠ .notANumber) : (Float.ofBits bits).toBits = bits := by
  rw [← UInt64.toBitVec_inj]
  exact (@pack_unpack .binary64 bits.toBitVec (by decide)).trans (if_neg (mt isNaNBits_iff.mp h))

theorem ofBits_toBits_eq_notANumber_iff : ofBits x.toBits = .notANumber ↔ x = Float.nan := by
  constructor
  · intro h
    obtain ⟨hexponent, hmantissa⟩ := of_decide_eq_true (isNaNBits_iff.mpr h)
    have hnan : x.toBits.toBitVec = Float.nan.toBits.toBitVec :=
      x.toModel.valid.eq_packedNaN hexponent hmantissa
    rwa [UInt64.toBitVec_inj, Float.toBits_inj] at hnan
  · rintro rfl
    decide

def signed (negative : Bool) (q : ℚ) : ℚ :=
  if negative then -q else q

/-- Equality of floating-point numbers: what is not a number equals nothing, and finite numbers are
equal if their values are, so that the two zeros are. -/
def Equals : Binary64 → Binary64 → Prop
  | .infinite negative, .infinite negative' => negative = negative'
  | .finite negative x, .finite negative' y => signed negative x.toRat = signed negative' y.toRat
  | _, _ => False

theorem Equals.symm {x y : Binary64} (h : x.Equals y) : y.Equals x := by
  cases x <;> cases y <;> first | exact Eq.symm h | exact h.elim

theorem Equals.trans {x y z : Binary64} (h : x.Equals y) (h' : y.Equals z) : x.Equals z := by
  cases x <;> cases y <;> cases z <;> first | exact Eq.trans h h' | exact h.elim | exact h'.elim

theorem equals_self_iff {x : Binary64} : x.Equals x ↔ x ≠ .notANumber := by
  cases x <;> simp [Equals]

theorem signed_eq_iff {a b : Bool} {p q : ℚ} (hp : 0 ≤ p) (hq : 0 ≤ q) :
    signed a p = signed b q ↔ a = b ∧ p = q ∨ p = 0 ∧ q = 0 := by
  constructor
  · intro h
    by_cases hsign : a = b
    · subst hsign
      left
      refine ⟨rfl, ?_⟩
      unfold signed at h
      split at h <;> linarith
    · right
      unfold signed at h
      constructor <;> cases a <;> cases b <;> simp at h hsign <;> linarith
  · rintro (⟨rfl, rfl⟩ | ⟨rfl, rfl⟩)
    · rfl
    · simp [signed]

theorem toRat_nth_eq_zero_iff {n : ℕ} : (nth n).toRat = 0 ↔ n = 0 := by
  rw [← toRat_nth_zero]
  exact strictMono_nth.injective.eq_iff

theorem ofBits_eq_infinite_iff {negative : Bool} :
    ofBits bits = .infinite negative ↔ place bits = infinity ∧ signBit bits = negative := by
  have hplace := place_lt bits
  rw [ofBits, biasedExponent_eq, fraction_eq, infinity]
  split
  · split
    · rw [infinite.injEq, and_iff_right (by omega)]
    · exact iff_of_false (by simp) (by omega)
  · exact iff_of_false (by simp) (by omega)

theorem equals_iff :
    (ofBits bits).Equals (ofBits other) ↔
      ofBits bits ≠ .notANumber ∧ ofBits other ≠ .notANumber ∧
        (bits = other ∨ place bits = 0 ∧ place other = 0) := by
  have hzero {b : UInt64} {a : Bool} (h : ofBits b = .infinite a) : place b ≠ 0 := by
    rw [(ofBits_eq_infinite_iff.mp h).1]
    decide
  rcases h : ofBits bits with _ | a | ⟨a, x⟩ <;> rcases h' : ofBits other with _ | b | ⟨b, y⟩
  case finite.finite =>
    obtain ⟨-, hsign, rfl⟩ := ofBits_eq_finite_iff.mp h
    obtain ⟨-, hsign', rfl⟩ := ofBits_eq_finite_iff.mp h'
    have hsame : a = b ∧ place bits = place other ↔ bits = other :=
      ⟨fun ⟨hab, hplace⟩ => eq_of_place_eq (hsign.trans (hab.trans hsign'.symm)) hplace,
        fun heq => ⟨hsign.symm.trans (heq ▸ hsign'), heq ▸ rfl⟩⟩
    rw [Equals, signed_eq_iff (Dyadic.toRat_nonneg _) (Dyadic.toRat_nonneg _),
      strictMono_nth.injective.eq_iff, toRat_nth_eq_zero_iff, toRat_nth_eq_zero_iff, hsame]
    simp
  case infinite.infinite =>
    obtain ⟨hplace, hsign⟩ := ofBits_eq_infinite_iff.mp h
    obtain ⟨hplace', hsign'⟩ := ofBits_eq_infinite_iff.mp h'
    have hsame : a = b ↔ bits = other :=
      ⟨fun hab => eq_of_place_eq (hsign.trans (hab.trans hsign'.symm)) (hplace.trans hplace'.symm),
        fun heq => hsign.symm.trans (heq ▸ hsign')⟩
    simp [Equals, hsame, hzero h]
  case infinite.finite =>
    have hne : bits ≠ other := by
      rintro rfl
      cases h.symm.trans h'
    simp [Equals, hne, hzero h]
  case finite.infinite =>
    have hne : bits ≠ other := by
      rintro rfl
      cases h.symm.trans h'
    simp [Equals, hne, hzero h']
  all_goals simp [Equals]

theorem place_eq_zero_iff : place x.toBits = 0 ↔ x = 0 ∨ x = -0 := by
  rw [← Float.toBits_inj, ← Float.toBits_inj, ← UInt64.toNat_inj, ← UInt64.toNat_inj,
    show (0 : Float).toBits.toNat = 0 by decide,
    show (-0 : Float).toBits.toNat = 0x8000000000000000 by decide, place]
  have hlt := x.toBits.toNat_lt
  omega

theorem float_beq_iff : (x == y) = true ↔ (ofBits x.toBits).Equals (ofBits y.toBits) := by
  simp only [Float.beq_iff_ne_nan_and_eq, equals_iff, ne_eq, ofBits_toBits_eq_notANumber_iff,
    place_eq_zero_iff, Float.toBits_inj]
  refine and_congr_right fun _ => and_congr_right fun _ => ?_
  constructor
  · tauto
  · rintro (h | ⟨rfl | rfl, rfl | rfl⟩) <;> tauto

end Scriptlet.Binary64
