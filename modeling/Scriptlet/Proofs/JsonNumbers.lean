import Scriptlet.Json.Reader

namespace Scriptlet.Json

def Digits (cs : List Char) : Prop :=
  cs ≠ [] ∧ ∀ c ∈ cs, c.isDigit = true

def Whole (cs : List Char) : Prop :=
  Digits cs ∧ (cs.head? = some '0' → cs = ['0'])

inductive Fraction : List Char → List Char → Prop
  | absent : Fraction [] []
  | present {ds : List Char} (h : Digits ds) : Fraction ('.' :: ds) ds

inductive Signed : List Char → Int → Prop
  | bare {ds : List Char} (h : Digits ds) : Signed ds (Nat.ofDigitChars 10 ds 0)
  | plus {ds : List Char} (h : Digits ds) : Signed ('+' :: ds) (Nat.ofDigitChars 10 ds 0)
  | minus {ds : List Char} (h : Digits ds) : Signed ('-' :: ds) (-(Nat.ofDigitChars 10 ds 0 : Int))

inductive Exponent : List Char → Option Int → Prop
  | absent : Exponent [] none
  | present {e : Char} {cs : List Char} {k : Int} (he : e = 'e' ∨ e = 'E') (h : Signed cs k) :
      Exponent (e :: cs) (some k)

/-- The digits of the whole part and of the fraction make up the coefficient. Only a number with a
fraction or an exponent has a power of ten. -/
inductive Figures : Numeral → List Char → Prop
  | mk (negative : Bool) {ds fs fds es : List Char} {k : Option Int} (hds : Whole ds)
      (hfs : Fraction fs fds) (hes : Exponent es k) :
      Figures ⟨negative, Nat.ofDigitChars 10 (ds ++ fds) 0,
          if fds = [] then k else some (k.getD 0 - fds.length)⟩
        ((if negative then ['-'] else []) ++ (ds ++ (fs ++ es)))

theorem exists_digitChar {c : Char} (h : c.isDigit = true) : ∃ n < 10, c = n.digitChar := by
  rw [Char.isDigit_iff_toNat] at h
  simp only [Char.reduceToNat] at h
  refine ⟨c.toNat - 48, by omega, Char.toNat_inj.mp ?_⟩
  rw [Nat.toNat_digitChar_of_lt_ten (by omega)]
  omega

theorem whole_toDigits (n : Nat) : Whole (Nat.toDigits 10 n) := by
  refine ⟨⟨Nat.toDigits_ne_nil, fun c => Nat.isDigit_of_mem_toDigits (by decide) (by decide)⟩, ?_⟩
  induction n using Nat.strongRecOn with
  | ind n ih =>
      intro h
      rw [Nat.toDigits_eq_if (by decide)] at h ⊢
      split at h
      · next hn =>
          rw [if_pos hn]
          rw [List.head?_cons, Option.some.injEq] at h
          rw [h]
      · next hn =>
          rw [List.head?_append, List.head?_eq_some_head Nat.toDigits_ne_nil, Option.some_or,
            ← List.head?_eq_some_head Nat.toDigits_ne_nil] at h
          -- the digits of a tenth would be a lone zero
          have hvalue := congrArg (Nat.ofDigitChars 10 · 0) (ih (n / 10) (by omega) h)
          simp only [Nat.ofDigitChars_ten_toDigits] at hvalue
          have htenth : n / 10 = 0 := hvalue
          omega

theorem toDigits_ofDigitChars {cs : List Char} (hcs : ∀ c ∈ cs, c.isDigit = true) {n : Nat}
    (hn : 0 < n) : Nat.toDigits 10 (Nat.ofDigitChars 10 cs n) = Nat.toDigits 10 n ++ cs := by
  induction cs generalizing n with
  | nil => rw [Nat.ofDigitChars_nil, List.append_nil]
  | cons c cs ih =>
      obtain ⟨hc, hrest⟩ := List.forall_mem_cons.mp hcs
      obtain ⟨d, hd, rfl⟩ := exists_digitChar hc
      rw [Nat.ofDigitChars_cons_digitChar_of_lt_ten hd, ih hrest (by omega),
        ← Nat.toDigits_append_toDigits (by decide) hn hd, Nat.toDigits_of_lt_base hd,
        List.append_assoc, List.singleton_append]

theorem Whole.toDigits_eq {ds : List Char} (h : Whole ds) :
    Nat.toDigits 10 (Nat.ofDigitChars 10 ds 0) = ds := by
  obtain ⟨⟨hne, hdigits⟩, hzero⟩ := h
  cases ds with
  | nil => exact absurd rfl hne
  | cons c cs =>
      obtain ⟨hc, hcs⟩ := List.forall_mem_cons.mp hdigits
      obtain ⟨d, hd, rfl⟩ := exists_digitChar hc
      rcases Nat.eq_zero_or_pos d with rfl | hpos
      · rw [hzero rfl]
        rfl
      · rw [Nat.ofDigitChars_cons_digitChar_of_lt_ten hd, Nat.mul_zero, Nat.zero_add,
          toDigits_ofDigitChars hcs hpos, Nat.toDigits_of_lt_base hd, List.singleton_append]

theorem figures_nat_iff {n : Nat} {cs : List Char} :
    Figures ⟨false, n, none⟩ cs ↔ cs = Nat.toDigits 10 n := by
  constructor
  · intro h
    generalize hnum : (⟨false, n, none⟩ : Numeral) = num at h
    obtain ⟨negative, hds, hfs, hes⟩ := h
    obtain ⟨rfl, rfl, hpower⟩ := Numeral.mk.inj hnum
    cases hfs with
    | absent =>
        cases hes with
        | absent => simpa using hds.toDigits_eq.symm
        | present he hk => simp at hpower
    | present hfds => simp [hfds.1] at hpower
  · rintro rfl
    have h := Figures.mk false (whole_toDigits n) .absent .absent
    simpa [Nat.ofDigitChars_ten_toDigits] using h

def NoDigit (cs : List Char) : Prop :=
  ∀ c ∈ cs.head?, c.isDigit = false

/-- Nothing with which a number could go on. -/
def Ends (cs : List Char) : Prop :=
  ∀ c ∈ cs.head?, c.isDigit = false ∧ c ≠ '.' ∧ c ≠ 'e' ∧ c ≠ 'E'

theorem Ends.noDigit {cs : List Char} (h : Ends cs) : NoDigit cs :=
  fun c hc => (h c hc).1

theorem Ends.noPoint {cs : List Char} (h : Ends cs) : cs.head? ≠ some '.' :=
  fun hc => (h '.' hc).2.1 rfl

theorem Digits.exists_cons {ds : List Char} (h : Digits ds) :
    ∃ d ds', ds = d :: ds' ∧ d.isDigit = true := by
  obtain ⟨d, ds', rfl⟩ := List.exists_cons_of_ne_nil h.1
  exact ⟨d, ds', rfl, h.2 d List.mem_cons_self⟩

theorem Figures.exists_cons {n : Numeral} {cs : List Char} (h : Figures n cs) :
    ∃ c cs', cs = c :: cs' ∧ (c = '-' ∨ c.isDigit = true) := by
  cases h with
  | mk negative hds hfs hes =>
      cases negative with
      | true => exact ⟨'-', _, rfl, .inl rfl⟩
      | false =>
          obtain ⟨d, ds', rfl, hd⟩ := hds.1.exists_cons
          exact ⟨d, _, rfl, .inr hd⟩

theorem Fraction.noDigit_append {fs fds rest : List Char} (h : Fraction fs fds)
    (hrest : NoDigit rest) : NoDigit (fs ++ rest) := by
  cases h with
  | absent => exact hrest
  | present h =>
      rintro c ⟨⟩
      rfl

theorem Exponent.head_append {es rest : List Char} {k : Option Int} (h : Exponent es k)
    (hrest : Ends rest) : NoDigit (es ++ rest) ∧ (es ++ rest).head? ≠ some '.' := by
  cases h with
  | absent => exact ⟨hrest.noDigit, hrest.noPoint⟩
  | present he h =>
      rcases he with rfl | rfl
      · exact ⟨by rintro c ⟨⟩; rfl, by simp⟩
      · exact ⟨by rintro c ⟨⟩; rfl, by simp⟩

namespace Reader

variable {cs rest ds : List Char}

theorem digits_eq_some_iff :
    digits cs = some (ds, rest) ↔ Digits ds ∧ NoDigit rest ∧ cs = ds ++ rest := by
  constructor
  · intro h
    rw [digits] at h
    split at h
    · cases h
    · next hne =>
        obtain ⟨rfl, rfl⟩ := Prod.mk.inj (Option.some.inj h)
        refine ⟨⟨hne, List.all_eq_true.mp List.all_takeWhile⟩, fun c hc => ?_,
          List.takeWhile_append_dropWhile.symm⟩
        have hhead := List.head?_dropWhile_not Char.isDigit cs
        rwa [hc] at hhead
  · rintro ⟨⟨hne, hds⟩, hrest, rfl⟩
    have hstop : rest.takeWhile Char.isDigit = [] ∧ rest.dropWhile Char.isDigit = rest := by
      cases rest with
      | nil => exact ⟨rfl, rfl⟩
      | cons c rest => simp [hrest c rfl]
    rw [digits, List.takeWhile_append_of_pos hds, List.dropWhile_append_of_pos hds, hstop.1,
      hstop.2, List.append_nil]
    cases ds with
    | nil => exact absurd rfl hne
    | cons d ds => rfl

theorem whole_of_eq_some (h : whole cs = some (ds, rest)) : Whole ds ∧ cs = ds ++ rest := by
  cases cs with
  | nil => cases h
  | cons c cs =>
      rw [whole] at h
      split at h
      · next hc =>
          obtain ⟨rfl, rfl⟩ := Prod.mk.inj (Option.some.inj h)
          exact ⟨⟨⟨nofun, by simp⟩, fun _ => rfl⟩, congrArg (· :: cs) hc⟩
      · next hc =>
          obtain ⟨hds, -, hcs⟩ := digits_eq_some_iff.mp h
          refine ⟨⟨hds, fun hzero => ?_⟩, hcs⟩
          obtain ⟨d, ds', rfl, -⟩ := hds.exists_cons
          exact absurd ((List.cons.inj hcs).1.trans (Option.some.inj hzero)) hc

theorem whole_append (h : Whole ds) (hrest : NoDigit rest) :
    whole (ds ++ rest) = some (ds, rest) := by
  obtain ⟨hds, hzero⟩ := h
  obtain ⟨d, ds', rfl, -⟩ := hds.exists_cons
  rw [List.cons_append, whole]
  split
  · next hd =>
      subst hd
      obtain rfl : ds' = [] := (List.cons.inj (hzero rfl)).2
      rfl
  · exact digits_eq_some_iff.mpr ⟨hds, hrest, rfl⟩

theorem fraction_of_eq_some {fds : List Char} (h : fraction cs = some (fds, rest)) :
    ∃ fs, Fraction fs fds ∧ cs = fs ++ rest := by
  cases cs with
  | nil =>
      cases h
      exact ⟨[], .absent, rfl⟩
  | cons c cs =>
      rw [fraction] at h
      split at h
      · next hc =>
          obtain ⟨hfds, -, rfl⟩ := digits_eq_some_iff.mp h
          exact ⟨c :: fds, hc ▸ .present hfds, rfl⟩
      · cases h
        exact ⟨[], .absent, rfl⟩

theorem fraction_append {fs fds : List Char} (h : Fraction fs fds) (hrest : NoDigit rest)
    (hpoint : rest.head? ≠ some '.') : fraction (fs ++ rest) = some (fds, rest) := by
  cases h with
  | absent =>
      cases rest with
      | nil => rfl
      | cons c rest =>
          rw [List.nil_append, fraction, if_neg fun hc => hpoint (congrArg some hc)]
  | present h =>
      rw [List.cons_append, fraction, if_pos rfl]
      exact digits_eq_some_iff.mpr ⟨h, hrest, rfl⟩

theorem signed_of_eq_some {k : Int} (h : signed cs = some (k, rest)) :
    ∃ text, Signed text k ∧ cs = text ++ rest := by
  cases cs with
  | nil => cases h
  | cons c cs =>
      rw [signed] at h
      split at h
      · next hc =>
          obtain ⟨⟨ds, rest'⟩, hscan, h⟩ := Option.map_eq_some_iff.mp h
          cases h
          obtain ⟨hds, -, rfl⟩ := digits_eq_some_iff.mp hscan
          exact ⟨c :: ds, hc ▸ .minus hds, rfl⟩
      · obtain ⟨⟨ds, rest'⟩, hscan, h⟩ := Option.map_eq_some_iff.mp h
        cases h
        obtain ⟨hds, -, hcs⟩ := digits_eq_some_iff.mp hscan
        split at hcs
        · next hc => exact ⟨c :: ds, hc ▸ .plus hds, congrArg (c :: ·) hcs⟩
        · exact ⟨ds, .bare hds, hcs⟩

theorem signed_append {text : List Char} {k : Int} (h : Signed text k) (hrest : NoDigit rest) :
    signed (text ++ rest) = some (k, rest) := by
  cases h with
  | bare h =>
      have hdigits := digits_eq_some_iff.mpr ⟨h, hrest, rfl⟩
      obtain ⟨d, ds', rfl, hd⟩ := h.exists_cons
      have hminus : d ≠ '-' := by rintro rfl; cases hd
      have hplus : d ≠ '+' := by rintro rfl; cases hd
      rw [List.cons_append] at hdigits ⊢
      rw [signed, if_neg hminus, if_neg hplus, hdigits]
      rfl
  | plus h =>
      rw [List.cons_append, signed, if_neg (by decide), if_pos rfl,
        digits_eq_some_iff.mpr ⟨h, hrest, rfl⟩]
      rfl
  | minus h =>
      rw [List.cons_append, signed, if_pos rfl, digits_eq_some_iff.mpr ⟨h, hrest, rfl⟩]
      rfl

theorem exponent_of_eq_some {k : Option Int} (h : exponent cs = some (k, rest)) :
    ∃ es, Exponent es k ∧ cs = es ++ rest := by
  cases cs with
  | nil =>
      cases h
      exact ⟨[], .absent, rfl⟩
  | cons c cs =>
      rw [exponent] at h
      split at h
      · next hc =>
          obtain ⟨⟨k, rest'⟩, hk, h⟩ := Option.map_eq_some_iff.mp h
          cases h
          obtain ⟨text, htext, rfl⟩ := signed_of_eq_some hk
          exact ⟨c :: text, .present hc htext, rfl⟩
      · cases h
        exact ⟨[], .absent, rfl⟩

theorem exponent_append {es : List Char} {k : Option Int} (h : Exponent es k) (hrest : Ends rest) :
    exponent (es ++ rest) = some (k, rest) := by
  cases h with
  | absent =>
      cases rest with
      | nil => rfl
      | cons c rest =>
          obtain ⟨-, -, he, hE⟩ := hrest c rfl
          rw [List.nil_append, exponent, if_neg fun hc => hc.elim he hE]
  | present he h =>
      rw [List.cons_append, exponent, if_pos he, signed_append h hrest.noDigit]
      rfl

theorem figures_of_unsigned {negative : Bool} {n : Numeral}
    (h : unsigned negative cs = some (n, rest)) :
    ∃ text, Figures n ((if negative then ['-'] else []) ++ text) ∧ cs = text ++ rest := by
  obtain ⟨⟨ds, cs₁⟩, hwhole, h⟩ := Option.bind_eq_some_iff.mp h
  obtain ⟨⟨fds, cs₂⟩, hfraction, h⟩ := Option.bind_eq_some_iff.mp h
  obtain ⟨⟨k, cs₃⟩, hexponent, h⟩ := Option.bind_eq_some_iff.mp h
  cases h
  obtain ⟨hds, rfl⟩ := whole_of_eq_some hwhole
  obtain ⟨fs, hfs, rfl⟩ := fraction_of_eq_some hfraction
  obtain ⟨es, hes, rfl⟩ := exponent_of_eq_some hexponent
  exact ⟨ds ++ (fs ++ es), .mk negative hds hfs hes, by simp⟩

theorem figures_of_numeral {n : Numeral} (h : numeral cs = some (n, rest)) :
    ∃ text, Figures n text ∧ cs = text ++ rest := by
  cases cs with
  | nil => cases h
  | cons c cs =>
      rw [numeral] at h
      split at h
      · next hc =>
          obtain ⟨text, htext, rfl⟩ := figures_of_unsigned h
          exact ⟨'-' :: text, htext, congrArg (· :: (text ++ rest)) hc⟩
      · obtain ⟨text, htext, hcs⟩ := figures_of_unsigned h
        exact ⟨text, htext, hcs⟩

theorem numeral_append {n : Numeral} {text : List Char} (h : Figures n text) (hrest : Ends rest) :
    numeral (text ++ rest) = some (n, rest) := by
  cases h with
  | @mk negative ds fs fds es k hds hfs hes =>
      obtain ⟨hdigit, hpoint⟩ := hes.head_append hrest
      have hunsigned : unsigned negative (ds ++ (fs ++ es) ++ rest) =
          some (⟨negative, Nat.ofDigitChars 10 (ds ++ fds) 0,
            if fds = [] then k else some (k.getD 0 - fds.length)⟩, rest) := by
        rw [List.append_assoc, List.append_assoc, unsigned,
          whole_append hds (hfs.noDigit_append hdigit)]
        simp only [Option.bind_eq_bind, Option.bind_some]
        rw [fraction_append hfs hdigit hpoint]
        simp only [Option.bind_some]
        rw [exponent_append hes hrest]
        rfl
      cases negative with
      | true => exact hunsigned
      | false =>
          obtain ⟨d, ds', rfl, hd⟩ := hds.1.exists_cons
          have hminus : d ≠ '-' := by rintro rfl; cases hd
          change numeral (d :: (ds' ++ (fs ++ es) ++ rest)) = _
          rw [numeral, if_neg hminus]
          exact hunsigned

end Reader

end Scriptlet.Json
