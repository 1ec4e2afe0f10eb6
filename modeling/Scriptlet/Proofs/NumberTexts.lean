import Mathlib.Data.List.DropRight
import Mathlib.Data.Nat.Factorization.Basic
import Scriptlet.Eval
import Scriptlet.Proofs.FloatBits
import Scriptlet.Proofs.JsonNumbers
import Scriptlet.Proofs.ShortestDecimal

namespace Scriptlet

/-- A number written out: its sign, the digits before the point and those behind it. Without digits
behind it there is no point. -/
structure Written where
  negative : Bool
  whole : List Char
  fraction : List Char

namespace Written

def tail (w : Written) : List Char :=
  if w.fraction = [] then [] else '.' :: w.fraction

def chars (w : Written) : List Char :=
  (if w.negative then ['-'] else []) ++ (w.whole ++ w.tail)

def decimal (w : Written) : Decimal :=
  ⟨Nat.ofDigitChars 10 (w.whole ++ w.fraction) 0, -w.fraction.length⟩

/-- Digits, and neither a superfluous zero before them nor one behind the fraction. -/
structure IsProper (w : Written) : Prop where
  whole : Json.Whole w.whole
  fraction : ∀ c ∈ w.fraction, c.isDigit = true
  noZeroBehind : w.fraction.getLast? ≠ some '0'

variable {w w' : Written}

theorem noDigit_tail (w : Written) : Json.NoDigit w.tail := by
  unfold tail
  split
  · nofun
  · rintro c ⟨⟩
    rfl

theorem IsProper.digits_eq (h : w.IsProper) :
    Json.Reader.digits (w.whole ++ w.tail) = some (w.whole, w.tail) :=
  Json.Reader.digits_eq_some_iff.mpr ⟨h.whole.1, w.noDigit_tail, rfl⟩

theorem fraction_eq_of_tail_eq (h : w.tail = w'.tail) : w.fraction = w'.fraction := by
  unfold tail at h
  split at h <;> split at h <;> simp_all

/-- A sign is no digit, and the point ends the whole part, so a text is written in one way only. -/
theorem IsProper.eq_of_chars_eq (h : w.IsProper) (h' : w'.IsProper) (heq : w.chars = w'.chars) :
    w = w' := by
  obtain ⟨d, ds, hwhole, hd⟩ := h.whole.1.exists_cons
  obtain ⟨d', ds', hwhole', hd'⟩ := h'.whole.1.exists_cons
  have hsign : w.negative = w'.negative := by
    unfold chars at heq
    cases hw : w.negative <;> cases hw' : w'.negative <;> simp [hw, hw', hwhole, hwhole'] at heq ⊢
    · simp [heq.1] at hd
    · simp [← heq.1] at hd'
  have hbody : w.whole ++ w.tail = w'.whole ++ w'.tail := by
    rw [chars, chars, hsign] at heq
    exact List.append_cancel_left heq
  have hdigits := h.digits_eq
  rw [hbody, h'.digits_eq] at hdigits
  obtain ⟨hwhole, htail⟩ := Prod.mk.inj (Option.some.inj hdigits)
  cases w
  cases w'
  cases hsign
  cases hwhole
  cases fraction_eq_of_tail_eq htail
  rfl

end Written

/-- How many digits are left of the coefficient without the zeros at its end. -/
def Decimal.significant (d : Decimal) : ℕ :=
  ((Nat.toDigits 10 d.coefficient).rdropWhile (· == '0')).length

theorem getLast?_toDigits (n : ℕ) : (Nat.toDigits 10 n).getLast? = some (n % 10).digitChar := by
  rw [Nat.toDigits_eq_if (by decide)]
  split
  · next hn => rw [Nat.mod_eq_of_lt hn]; rfl
  · rw [List.getLast?_append]
    rfl

theorem digitChar_mod_ne_zero {n : ℕ} (hn : n % 10 ≠ 0) : (n % 10).digitChar ≠ '0' := by
  intro h
  have hlt : n % 10 < 10 := Nat.mod_lt _ (by decide)
  have hchar := congrArg Char.toNat h
  rw [Nat.toNat_digitChar_of_lt_ten hlt, show '0'.toNat = 48 from rfl] at hchar
  omega

theorem toDigits_mul_pow {n : ℕ} (hn : 0 < n) (k : ℕ) :
    Nat.toDigits 10 (10 ^ k * n) = Nat.toDigits 10 n ++ List.replicate k '0' := by
  rw [← Nat.ofDigitChars_replicate_zero]
  refine Json.toDigits_ofDigitChars (fun c hc => ?_) hn
  rw [List.eq_of_mem_replicate hc]
  rfl

theorem rdropWhile_append_replicate (cs : List Char) (k : ℕ) :
    (cs ++ List.replicate k '0').rdropWhile (· == '0') = cs.rdropWhile (· == '0') := by
  induction k with
  | zero => rw [List.replicate_zero, List.append_nil]
  | succ k ih =>
      rw [List.replicate_succ', ← List.append_assoc, List.rdropWhile_concat_pos _ _ _ rfl, ih]

theorem Decimal.significant_eq {d : Decimal} {n k : ℕ} (hd : d.coefficient = 10 ^ k * n)
    (hn : n % 10 ≠ 0) : d.significant = (Nat.toDigits 10 n).length := by
  have hlast (hne : Nat.toDigits 10 n ≠ []) :
      ¬((Nat.toDigits 10 n).getLast hne == '0') = true := by
    have hlast := getLast?_toDigits n
    rw [List.getLast?_eq_some_getLast hne, Option.some.injEq] at hlast
    rw [hlast, beq_iff_eq]
    exact digitChar_mod_ne_zero hn
  rw [significant, hd, toDigits_mul_pow (by omega), rdropWhile_append_replicate,
    List.rdropWhile_eq_self_iff.mpr hlast]

namespace Decimal

variable {d : Decimal} {negative : Bool}

def written (negative : Bool) (d : Decimal) : Written :=
  if 0 ≤ d.exponent then ⟨negative, digits d.coefficient ++ List.replicate d.exponent.toNat '0', []⟩
  else
    let places := (-d.exponent).toNat
    ⟨negative, digits (d.coefficient / 10 ^ places),
      paddedDigits places (d.coefficient % 10 ^ places)⟩

theorem paddedDigits_ne_nil (width n : ℕ) : paddedDigits width n ≠ [] :=
  List.append_ne_nil_of_right_ne_nil _ Nat.toDigits_ne_nil

theorem chars_written (negative : Bool) (d : Decimal) :
    (d.written negative).chars = (if negative then ['-'] else []) ++ d.positional := by
  rw [written, positional]
  split
  · simp [Written.chars, Written.tail]
  · simp [Written.chars, Written.tail, paddedDigits_ne_nil]

theorem fraction_written_eq_nil_iff : (d.written negative).fraction = [] ↔ 0 ≤ d.exponent := by
  rw [written]
  split
  · next h => exact iff_of_true rfl h
  · next h => exact iff_of_false (paddedDigits_ne_nil _ _) h

theorem negative_written (negative : Bool) (d : Decimal) :
    (d.written negative).negative = negative := by
  rw [written]
  split <;> rfl

theorem length_paddedDigits {width n : ℕ} (hwidth : 0 < width) (hn : n < 10 ^ width) :
    (paddedDigits width n).length = width := by
  have hle := (Nat.length_toDigits_le_iff (by decide) hwidth).mpr hn
  rw [paddedDigits, List.length_append, List.length_replicate, digits]
  omega

theorem ofDigitChars_paddedDigits (width n init : ℕ) :
    Nat.ofDigitChars 10 (paddedDigits width n) init =
      10 ^ (paddedDigits width n).length * init + n := by
  have hvalue : Nat.ofDigitChars 10 (paddedDigits width n) 0 = n := by
    rw [paddedDigits, Nat.ofDigitChars_append, Nat.ofDigitChars_replicate_zero, Nat.mul_zero,
      digits, Nat.ofDigitChars_ten_toDigits]
  rw [Nat.ofDigitChars_eq_ofDigitChars_zero, hvalue]

theorem decimal_written (negative : Bool) (d : Decimal) :
    (d.written negative).decimal = ⟨10 ^ d.exponent.toNat * d.coefficient, min d.exponent 0⟩ := by
  rw [written]
  split
  · next h =>
      rw [Written.decimal, List.append_nil, Nat.ofDigitChars_append, digits,
        Nat.ofDigitChars_ten_toDigits, Nat.ofDigitChars_replicate_zero, min_eq_right h]
      rfl
  · next h =>
      have hlength : (paddedDigits (-d.exponent).toNat
          (d.coefficient % 10 ^ (-d.exponent).toNat)).length = (-d.exponent).toNat :=
        length_paddedDigits (by omega) (Nat.mod_lt _ (by positivity))
      dsimp only [Written.decimal]
      rw [Nat.ofDigitChars_append, ofDigitChars_paddedDigits, digits,
        Nat.ofDigitChars_ten_toDigits, hlength, Nat.div_add_mod, min_eq_left (by omega),
        show d.exponent.toNat = 0 by omega, pow_zero, one_mul]
      congr 1
      omega

theorem toRat_decimal_written (negative : Bool) (d : Decimal) :
    (d.written negative).decimal.toRat = d.toRat := by
  have hexponent : (d.exponent.toNat : ℤ) + min d.exponent 0 = d.exponent := by omega
  rw [decimal_written, toRat, toRat, Nat.cast_mul, Nat.cast_pow, Nat.cast_ofNat, ← zpow_natCast,
    mul_right_comm, ← zpow_add₀ (by norm_num), hexponent, mul_comm]

theorem isProper_written (hcoefficient : d.coefficient % 10 ≠ 0) :
    (d.written negative).IsProper := by
  rw [written]
  split
  · have hwhole := Json.whole_toDigits (10 ^ d.exponent.toNat * d.coefficient)
    rw [toDigits_mul_pow (by omega)] at hwhole
    exact ⟨hwhole, nofun, nofun⟩
  · next h =>
      obtain ⟨places, hplaces⟩ : ∃ places, (-d.exponent).toNat = places + 1 :=
        Nat.exists_eq_succ_of_ne_zero (by omega)
      have hmod : d.coefficient % 10 ^ (places + 1) % 10 = d.coefficient % 10 :=
        Nat.mod_mod_of_dvd _ (Dvd.intro_left _ rfl)
      rw [hplaces]
      refine ⟨Json.whole_toDigits _, fun c hc => ?_, ?_⟩
      · rcases List.mem_append.mp hc with hc | hc
        · rw [List.eq_of_mem_replicate hc]
          rfl
        · exact Nat.isDigit_of_mem_toDigits (by decide) (by decide) hc
      · dsimp only
        rw [paddedDigits, digits, List.getLast?_append, getLast?_toDigits, Option.some_or, hmod,
          ne_eq, Option.some.injEq]
        exact digitChar_mod_ne_zero hcoefficient

end Decimal

namespace Binary64

variable {bits other : UInt64} {negative negative' : Bool} {x y : Dyadic}

theorem numberText_eq (h : ofBits bits = .finite negative x) :
    numberText (.ofBits bits) = String.ofList (x.shortest.written negative).chars := by
  rw [numberText, toBits_ofBits (by simp [h]), h, chars, Decimal.chars_written]

theorem isProper_shortest (negative : Bool) (x : Dyadic) :
    (x.shortest.written negative).IsProper := by
  rcases Nat.eq_zero_or_pos x.mantissa with hzero | hpos
  · rw [Dyadic.shortest, if_pos hzero]
    exact ⟨Json.whole_toDigits 0, by simp [Decimal.written], by simp [Decimal.written]⟩
  · exact Decimal.isProper_written (Dyadic.shortest_coefficient_mod_ten hpos)

theorem shortest_exponent_nonneg_iff (x : Dyadic) :
    0 ≤ x.shortest.exponent ↔ ∃ n : ℕ, x.toRat = n := by
  rcases Nat.eq_zero_or_pos x.mantissa with hzero | hpos
  · rw [Dyadic.shortest, if_pos hzero]
    exact iff_of_true le_rfl ⟨0, by simp [Dyadic.toRat, hzero]⟩
  · exact Dyadic.shortest_exponent_nonneg_iff hpos

theorem roundsTo_shortest (h : ofBits bits = .finite negative x) :
    RoundsTo negative x.shortest.toRat bits := by
  obtain ⟨-, rfl, rfl⟩ := ofBits_eq_finite_iff.mp h
  rcases Nat.eq_zero_or_pos (nth (place bits)).mantissa with hzero | hpos
  · have hplace : place bits = 0 := by
      by_contra hne
      exact (mantissa_nth_pos (Nat.pos_of_ne_zero hne)).ne' hzero
    rw [Dyadic.shortest, if_pos hzero, Decimal.toRat]
    simpa using roundsTo_zero hplace
  · exact (roundsTo_iff_attracts h hpos).mpr ⟨rfl, (Dyadic.shortest_spec hpos).1⟩

theorem significant_shortest_le (hx : 0 < x.mantissa) {d : Decimal} (hd : x.Attracts d.toRat) :
    (x.shortest.written negative).decimal.significant ≤ d.significant := by
  have hne : d.coefficient ≠ 0 := by
    rintro hzero
    have hpos := hd.pos hx
    simp [Decimal.toRat, hzero] at hpos
  obtain ⟨k, n, hn, hcoefficient⟩ := Nat.exists_eq_pow_mul_and_not_dvd hne 10 (by decide)
  have hvalue : d.toRat = Decimal.toRat ⟨n, k + d.exponent⟩ := by
    rw [Decimal.toRat, Decimal.toRat, hcoefficient, zpow_add₀ (by norm_num), zpow_natCast]
    push_cast
    ring
  rw [Decimal.significant_eq hcoefficient (mt Nat.dvd_of_mod_eq_zero hn), Decimal.decimal_written,
    Decimal.significant_eq rfl (Dyadic.shortest_coefficient_mod_ten hx)]
  exact Dyadic.length_shortest_le hx (hvalue ▸ hd)

theorem eq_of_numberText_eq (h : ofBits bits = .finite negative x)
    (h' : ofBits other = .finite negative' y)
    (heq : numberText (.ofBits bits) = numberText (.ofBits other)) : bits = other := by
  rw [numberText_eq h, numberText_eq h', String.ofList_inj] at heq
  have hwritten := (isProper_shortest negative x).eq_of_chars_eq (isProper_shortest negative' y) heq
  have hsign : negative = negative' := by
    rw [← Decimal.negative_written negative x.shortest, hwritten,
      Decimal.negative_written]
  have hround := roundsTo_shortest h
  rw [← Decimal.toRat_decimal_written negative, hwritten, Decimal.toRat_decimal_written, hsign]
    at hround
  exact hround.unique (roundsTo_shortest h')

end Binary64

/-- The text of a finite double, which is what is printed and what `+` puts next to a string. It has
a sign if the number has one, digits without superfluous zeros, and a fraction if the number is not
whole; there is no exponent. Read as a decimal, it is rounded to the double, so no other finite
double has it, and unless the double is zero, nothing with fewer significant digits is rounded to
it. -/
theorem number_texts_are_exact_and_shortest (bits : UInt64) (negative : Bool) (x : Dyadic)
    (h : Binary64.ofBits bits = .finite negative x) :
    ∃ w : Written, w.IsProper ∧ (Value.number (.ofBits bits)).text = String.ofList w.chars ∧
      (w.negative = true ↔ 2 ^ 63 ≤ bits.toNat) ∧
      (w.fraction ≠ [] ↔ ¬∃ n : ℕ, x.toRat = n) ∧
      Binary64.RoundsTo w.negative w.decimal.toRat bits ∧
      (∀ other negative' y, Binary64.ofBits other = .finite negative' y →
        (Value.number (.ofBits bits)).text = (Value.number (.ofBits other)).text → bits = other) ∧
      (x.toRat ≠ 0 → ∀ (sign : Bool) (d : Decimal), Binary64.RoundsTo sign d.toRat bits →
        w.decimal.significant ≤ d.significant) ∧
      (∀ s,
        (Value.number (.ofBits bits)).add (.string s) =
            .ok (.string (String.ofList w.chars ++ s)) ∧
          (Value.string s).add (.number (.ofBits bits)) =
            .ok (.string (s ++ String.ofList w.chars))) ∧
      ∀ (σ : Type) [Sink σ] (n : ℕ) (s t : Span) (c : Cursor σ),
        execStmt (n + 2) (.print (.literal (.number (.ofBits bits)) s) t) c =
          (.ok .nil, ⟨c.scope, { c.machine with
            sink := Sink.println (String.ofList w.chars) c.machine.sink }⟩) := by
  have htext : (Value.number (.ofBits bits)).text =
      String.ofList (x.shortest.written negative).chars := Binary64.numberText_eq h
  obtain ⟨-, hsign, -⟩ := Binary64.ofBits_eq_finite_iff.mp h
  refine ⟨x.shortest.written negative, Binary64.isProper_shortest negative x, htext, ?_, ?_, ?_,
    fun _ _ _ h' => Binary64.eq_of_numberText_eq h h', fun hx sign d hd => ?_,
    fun s => ⟨?_, ?_⟩, ?_⟩
  · rw [Decimal.negative_written, ← hsign, Binary64.signBit_iff]
  · rw [ne_eq, Decimal.fraction_written_eq_nil_iff, Binary64.shortest_exponent_nonneg_iff]
  · rw [Decimal.negative_written, Decimal.toRat_decimal_written]
    exact Binary64.roundsTo_shortest h
  · have hpos : 0 < x.mantissa :=
      Nat.pos_of_ne_zero fun hzero => hx (by simp [Dyadic.toRat, hzero])
    exact Binary64.significant_shortest_le hpos ((Binary64.roundsTo_iff_attracts h hpos).mp hd).2
  · rw [← htext]
    rfl
  · rw [← htext]
    rfl
  · intro σ _ n s t c
    rw [← htext]
    rfl

/-- The sum of the doubles next to a tenth and two tenths needs all seventeen digits. -/
theorem number_texts_are_exact_and_shortest_seventeen_digits :
    Binary64.ofBits 0x3fd3333333333334 = .finite false ⟨0x13333333333334, -54, false⟩ ∧
      (Value.number (.ofBits 0x3fd3333333333334)).text = "0.30000000000000004" ∧
      ∀ (sign : Bool) (d : Decimal), Binary64.RoundsTo sign d.toRat 0x3fd3333333333334 →
        17 ≤ d.significant := by
  have hbits :
      Binary64.ofBits 0x3fd3333333333334 = .finite false ⟨0x13333333333334, -54, false⟩ := by
    decide
  have htext : (Value.number (.ofBits 0x3fd3333333333334)).text = "0.30000000000000004" := by
    decide +kernel
  obtain ⟨w, hw, hchars, -, -, -, -, hshortest, -⟩ :=
    number_texts_are_exact_and_shortest 0x3fd3333333333334 false _ hbits
  have hw' : w = ⟨false, ['0'], '3' :: (List.replicate 15 '0' ++ ['4'])⟩ := by
    refine hw.eq_of_chars_eq ⟨⟨⟨by simp, by simp⟩, fun _ => rfl⟩, by simp +contextual, by simp⟩ ?_
    rw [← String.ofList_inj, ← hchars, htext]
    rfl
  have hdigits : w.decimal.significant = 17 := by
    rw [hw']
    decide +kernel
  exact ⟨hbits, htext, fun sign d hd => hdigits ▸ hshortest (by simp [Dyadic.toRat]) sign d hd⟩

end Scriptlet
