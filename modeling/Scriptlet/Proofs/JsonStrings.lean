import Scriptlet.Json.Reader

namespace Scriptlet.Json

open Reader

def units (c : Char) : List Nat :=
  if c.toNat < 0x10000 then [c.toNat]
  else [0xd800 + (c.toNat - 0x10000) / 0x400, 0xdc00 + (c.toNat - 0x10000) % 0x400]

def unitsOf (cs : List Char) : List Nat :=
  cs.flatMap units

theorem toNat_bounds (c : Char) : c.toNat < 0xd800 ∨ 0xdfff < c.toNat ∧ c.toNat < 0x110000 :=
  c.valid

theorem toNat_ofNat {n : Nat} (h : n < 0xd800 ∨ 0xdfff < n ∧ n < 0x110000) :
    (Char.ofNat n).toNat = n := by
  rw [Char.ofNat, dif_pos h]
  rfl

theorem isHigh_iff {n : Nat} : isHigh n = true ↔ 0xd800 ≤ n ∧ n < 0xdc00 := by
  simp [isHigh]

theorem isLow_iff {n : Nat} : isLow n = true ↔ 0xdc00 ≤ n ∧ n < 0xe000 := by
  simp [isLow]

theorem units_ofNat {n : Nat} (hn : n < 0x10000) (h : ¬(isHigh n || isLow n) = true) :
    units (Char.ofNat n) = [n] := by
  rw [Bool.or_eq_true, isHigh_iff, isLow_iff] at h
  rw [units, toNat_ofNat (by omega), if_pos hn]

theorem units_ofNat_pair {n m : Nat} (hn : isHigh n = true) (hm : isLow m = true) :
    units (Char.ofNat (0x10000 + (n - 0xd800) * 0x400 + (m - 0xdc00))) = [n, m] := by
  rw [isHigh_iff] at hn
  rw [isLow_iff] at hm
  rw [units, toNat_ofNat (by omega), if_neg (by omega)]
  simp only [List.cons.injEq, and_true]
  omega

theorem units_cases (c : Char) :
    (∃ n, units c = [n] ∧ isHigh n = false ∧ isLow n = false) ∨
      ∃ n m, units c = [n, m] ∧ isHigh n = true ∧ isLow m = true := by
  have hc := toNat_bounds c
  rw [units]
  split
  · refine .inl ⟨_, rfl, ?_, ?_⟩
    · rw [← Bool.not_eq_true, isHigh_iff]
      omega
    · rw [← Bool.not_eq_true, isLow_iff]
      omega
  · refine .inr ⟨_, _, rfl, ?_, ?_⟩
    · rw [isHigh_iff]
      omega
    · rw [isLow_iff]
      omega

theorem units_inj {c d : Char} (h : units c = units d) : c = d := by
  rw [← Char.toNat_inj]
  simp only [units] at h
  split at h <;> split at h <;> simp at h <;> omega

/-- No unit is both halves, so the units of a text fall apart into characters in one way. -/
theorem units_append_inj {c d : Char} {us vs : List Nat} (h : units c ++ us = units d ++ vs) :
    c = d ∧ us = vs := by
  have hlength : (units c).length = (units d).length := by
    rcases units_cases c with ⟨n, hc, hn, -⟩ | ⟨n, m, hc, hn, -⟩ <;>
      rcases units_cases d with ⟨n', hd, hn', -⟩ | ⟨n', m', hd, hn', -⟩ <;>
      simp_all
  obtain ⟨hunits, hrest⟩ := List.append_inj h hlength
  exact ⟨units_inj hunits, hrest⟩

theorem isLow_of_units_append {c : Char} {us vs : List Nat} {m : Nat}
    (h : units c ++ us = m :: vs) : isLow m = false := by
  rcases units_cases c with ⟨n, hc, -, hlow⟩ | ⟨n, l, hc, hhigh, -⟩
  · rw [hc] at h
    exact (List.cons.inj h).1 ▸ hlow
  · rw [hc] at h
    rw [isHigh_iff, (List.cons.inj h).1] at hhigh
    rw [← Bool.not_eq_true, isLow_iff]
    omega

theorem unitsOf_eq_nil_iff {cs : List Char} : unitsOf cs = [] ↔ cs = [] := by
  cases cs with
  | nil => simp [unitsOf]
  | cons c cs =>
      rcases units_cases c with ⟨n, hc, -⟩ | ⟨n, m, hc, -⟩ <;> simp [unitsOf, hc]

theorem unitsOf_eq_append_iff {cs : List Char} {c : Char} {us : List Nat} :
    unitsOf cs = units c ++ us ↔ ∃ ds, unitsOf ds = us ∧ c :: ds = cs := by
  constructor
  · intro h
    cases cs with
    | nil =>
        rcases units_cases c with ⟨n, hc, -⟩ | ⟨n, m, hc, -⟩ <;> simp [unitsOf, hc] at h
    | cons d cs =>
        rw [unitsOf, List.flatMap_cons] at h
        obtain ⟨rfl, hrest⟩ := units_append_inj h
        exact ⟨cs, hrest, rfl⟩
  · rintro ⟨ds, rfl, rfl⟩
    rw [unitsOf, List.flatMap_cons, unitsOf]

theorem unitsOf_ne_of_half {n : Nat} (hn : (isHigh n || isLow n) = true) {us : List Nat}
    (hus : ∀ m vs, us = m :: vs → (isHigh n && isLow m) = false) (cs : List Char) :
    unitsOf cs ≠ n :: us := by
  intro h
  cases cs with
  | nil => simp [unitsOf] at h
  | cons c cs =>
      rw [unitsOf, List.flatMap_cons] at h
      rcases units_cases c with ⟨n', hc, hhigh, hlow⟩ | ⟨n', m, hc, hhigh, hlow⟩
      · rw [hc] at h
        obtain rfl : n' = n := (List.cons.inj h).1
        simp [hhigh, hlow] at hn
      · rw [hc] at h
        obtain ⟨rfl, hrest⟩ := List.cons.inj h
        have hpair := hus m _ hrest.symm
        simp [hhigh, hlow] at hpair

def Reader.Piece.units : Piece → List Nat
  | .char c => Json.units c
  | .unit n => [n]

theorem Reader.flatMap_units_unit (n : Nat) (ps : List Piece) :
    (Piece.unit n :: ps).flatMap Piece.units = [n] ++ ps.flatMap Piece.units :=
  rfl

theorem Reader.spelled?_eq_some_iff {ps : List Piece} {cs : List Char}
    (h : ∀ n, .unit n ∈ ps → n < 0x10000) :
    spelled? ps = some cs ↔ unitsOf cs = ps.flatMap Piece.units := by
  fun_induction spelled? ps generalizing cs with
  | case1 => rw [List.flatMap_nil, unitsOf_eq_nil_iff, Option.some.injEq, eq_comm]
  | case2 c ps ih =>
      rw [List.flatMap_cons, Piece.units, unitsOf_eq_append_iff, Option.map_eq_some_iff]
      simp only [ih fun n hn => h n (List.mem_cons_of_mem _ hn)]
  | case3 n m ps hpair ih =>
      obtain ⟨hn, hm⟩ := Bool.and_eq_true_iff.mp hpair
      rw [flatMap_units_unit, flatMap_units_unit, ← List.append_assoc]
      rw [List.singleton_append, ← units_ofNat_pair hn hm, unitsOf_eq_append_iff,
        Option.map_eq_some_iff]
      simp only [ih fun k hk => h k (List.mem_cons_of_mem _ (List.mem_cons_of_mem _ hk))]
  | case4 n m ps hpair hhalf =>
      rw [flatMap_units_unit, List.singleton_append]
      refine iff_of_false nofun (unitsOf_ne_of_half hhalf (fun m' vs hv => ?_) cs)
      obtain rfl : m = m' := (List.cons.inj hv).1
      exact Bool.not_eq_true _ ▸ hpair
  | case5 n m ps hpair hhalf ih =>
      have hn := h n List.mem_cons_self
      rw [flatMap_units_unit, ← units_ofNat hn hhalf, unitsOf_eq_append_iff,
        Option.map_eq_some_iff]
      simp only [ih fun k hk => h k (List.mem_cons_of_mem _ hk)]
  | case6 n ps hps hhalf =>
      rw [flatMap_units_unit, List.singleton_append]
      refine iff_of_false nofun (unitsOf_ne_of_half hhalf (fun m vs hv => ?_) cs)
      match ps with
      | [] => simp at hv
      | .unit k :: ps => exact absurd rfl (hps k ps)
      | .char c :: ps =>
          rw [List.flatMap_cons, Piece.units] at hv
          rw [isLow_of_units_append hv, Bool.and_false]
  | case7 n ps hps hhalf ih =>
      have hn := h n List.mem_cons_self
      rw [flatMap_units_unit, ← units_ofNat hn hhalf, unitsOf_eq_append_iff,
        Option.map_eq_some_iff]
      simp only [ih fun k hk => h k (List.mem_cons_of_mem _ hk)]

def HexDigit (c : Char) (n : Nat) : Prop :=
  n < 16 ∧ (c = n.digitChar ∨ c = n.digitChar.toUpper)

def shorthands : List (Char × Char) :=
  [('"', '"'), ('\\', '\\'), ('/', '/'), ('b', '\x08'), ('f', '\x0c'), ('n', '\n'), ('r', '\r'),
    ('t', '\t')]

/-- What may stand between quotes, with the units it gives. -/
inductive Quotable : List Char → List Nat → Prop
  | nil : Quotable [] []
  | plain {c : Char} {cs : List Char} {us : List Nat} (hc : 0x20 ≤ c.toNat) (hquote : c ≠ '"')
      (hbackslash : c ≠ '\\') (h : Quotable cs us) : Quotable (c :: cs) (units c ++ us)
  | shorthand {e c : Char} {cs : List Char} {us : List Nat} (hc : (e, c) ∈ shorthands)
      (h : Quotable cs us) : Quotable ('\\' :: e :: cs) (units c ++ us)
  | unit {a b c d : Char} {w x y z : Nat} {cs : List Char} {us : List Nat} (ha : HexDigit a w)
      (hb : HexDigit b x) (hc : HexDigit c y) (hd : HexDigit d z) (h : Quotable cs us) :
      Quotable ('\\' :: 'u' :: a :: b :: c :: d :: cs) ((((w * 16 + x) * 16 + y) * 16 + z) :: us)

inductive Quotes : Option String → List Char → Prop
  | text {s : String} {body : List Char} (h : Quotable body (unitsOf s.toList)) :
      Quotes (some s) ('"' :: (body ++ ['"']))
  | noText {body : List Char} {us : List Nat} (h : Quotable body us)
      (hus : ∀ cs, unitsOf cs ≠ us) : Quotes none ('"' :: (body ++ ['"']))

namespace Reader

theorem hexDigit?_eq_some_iff {c : Char} {n : Nat} : hexDigit? c = some n ↔ HexDigit c n := by
  have hwritten : ∀ n < 16, hexDigit? n.digitChar = some n ∧
      hexDigit? n.digitChar.toUpper = some n := by decide
  have hdecimal : ∀ n < 10, n.digitChar.toNat = n + 48 := by decide
  have hletter : ∀ n < 6, (n + 10).digitChar.toNat = n + 97 ∧
      (n + 10).digitChar.toUpper.toNat = n + 65 := by decide
  constructor
  · intro h
    rw [hexDigit?] at h
    simp only [Char.le_def, UInt32.le_iff_toNat_le, Char.toNat_val, Char.reduceToNat] at h
    split at h
    · obtain rfl := Option.some.inj h
      refine ⟨by omega, .inl (Char.toNat_inj.mp ?_)⟩
      rw [hdecimal _ (by omega)]
      omega
    · split at h
      · obtain rfl := Option.some.inj h
        refine ⟨by omega, .inl (Char.toNat_inj.mp ?_)⟩
        rw [(hletter _ (by omega)).1]
        omega
      · split at h
        · obtain rfl := Option.some.inj h
          refine ⟨by omega, .inr (Char.toNat_inj.mp ?_)⟩
          rw [(hletter _ (by omega)).2]
          omega
        · cases h
  · rintro ⟨hn, rfl | rfl⟩
    · exact (hwritten n hn).1
    · exact (hwritten n hn).2

theorem shortEscape?_eq_some_iff {e c : Char} :
    shortEscape? e = some c ↔ (e, c) ∈ shorthands := by
  have hlisted : ∀ p ∈ shorthands, shortEscape? p.1 = some p.2 := by decide
  constructor
  · intro h
    rw [shortEscape?] at h
    split at h
    · next he =>
        obtain rfl := Option.some.inj h
        rcases he with rfl | rfl | rfl <;> decide
    · repeat' split at h
      all_goals cases h
      all_goals subst e; decide
  · exact hlisted (e, c)

theorem hexUnit?_eq_some_iff {a b c d : Char} {n : Nat} :
    hexUnit? a b c d = some n ↔ ∃ w x y z, HexDigit a w ∧ HexDigit b x ∧ HexDigit c y ∧
      HexDigit d z ∧ ((w * 16 + x) * 16 + y) * 16 + z = n := by
  simp [hexUnit?, Option.bind_eq_some_iff, hexDigit?_eq_some_iff]

theorem quotable_of_pieces {cs rest : List Char} {ps : List Piece}
    (h : pieces cs = some (ps, rest)) :
    (∀ n, .unit n ∈ ps → n < 0x10000) ∧
      ∃ body, cs = body ++ '"' :: rest ∧ Quotable body (ps.flatMap Piece.units) := by
  fun_induction pieces cs generalizing ps with
  | case1 => cases h
  | case2 cs =>
      obtain ⟨rfl, rfl⟩ := Prod.mk.inj (Option.some.inj h)
      exact ⟨nofun, [], rfl, .nil⟩
  | case3 => cases h
  | case4 a b c d cs hq ih =>
      obtain ⟨n, hn, h⟩ := Option.bind_eq_some_iff.mp h
      obtain ⟨⟨qs, rest'⟩, hqs, h⟩ := Option.bind_eq_some_iff.mp h
      cases h
      obtain ⟨hbound, body, rfl, hbody⟩ := ih hqs
      obtain ⟨w, x, y, z, ha, hb, hc, hd, rfl⟩ := hexUnit?_eq_some_iff.mp hn
      refine ⟨fun k hk => ?_, _, rfl, .unit ha hb hc hd hbody⟩
      rcases List.mem_cons.mp hk with hk | hk
      · have hw := ha.1
        have hx := hb.1
        have hy := hc.1
        have hz := hd.1
        cases hk
        omega
      · exact hbound k hk
  | case5 cs hcs hq => cases h
  | case6 e cs he hq ih =>
      obtain ⟨c, hc, h⟩ := Option.bind_eq_some_iff.mp h
      obtain ⟨⟨qs, rest'⟩, hqs, h⟩ := Option.bind_eq_some_iff.mp h
      cases h
      obtain ⟨hbound, body, rfl, hbody⟩ := ih hqs
      refine ⟨fun n hn => ?_, _, rfl, .shorthand (shortEscape?_eq_some_iff.mp hc) hbody⟩
      exact hbound n (List.mem_of_ne_of_mem Piece.noConfusion hn)
  | case7 e cs hq hb hc => cases h
  | case8 e cs hq hb hc ih =>
      obtain ⟨⟨qs, rest'⟩, hqs, h⟩ := Option.bind_eq_some_iff.mp h
      cases h
      obtain ⟨hbound, body, rfl, hbody⟩ := ih hqs
      refine ⟨fun n hn => ?_, _, rfl, .plain (Nat.not_lt.mp hc) hq hb hbody⟩
      exact hbound n (List.mem_of_ne_of_mem Piece.noConfusion hn)

theorem pieces_quote (cs : List Char) : pieces ('"' :: cs) = some ([], cs) := by
  rw [pieces.eq_def]
  exact if_pos rfl

section

variable {cs rest : List Char} {ps : List Piece} (h : pieces cs = some (ps, rest))
include h

theorem pieces_plain {c : Char} (hc : 0x20 ≤ c.toNat) (hquote : c ≠ '"')
    (hbackslash : c ≠ '\\') : pieces (c :: cs) = some (.char c :: ps, rest) := by
  rw [pieces.eq_def]
  simp [hquote, hbackslash, Nat.not_lt.mpr hc, h]

theorem pieces_shorthand {e c : Char} (hc : (e, c) ∈ shorthands) :
    pieces ('\\' :: e :: cs) = some (.char c :: ps, rest) := by
  have he : e ≠ 'u' := by
    rintro rfl
    exact absurd (shortEscape?_eq_some_iff.mpr hc) (by simp [shortEscape?])
  rw [pieces.eq_def]
  simp [he, shortEscape?_eq_some_iff.mpr hc, h]

theorem pieces_unit {a b c d : Char} {n : Nat} (hn : hexUnit? a b c d = some n) :
    pieces ('\\' :: 'u' :: a :: b :: c :: d :: cs) = some (.unit n :: ps, rest) := by
  rw [pieces.eq_def]
  simp [hn, h]

end

theorem pieces_of_quotable {body : List Char} {us : List Nat} (h : Quotable body us)
    (rest : List Char) :
    ∃ ps, pieces (body ++ '"' :: rest) = some (ps, rest) ∧ ps.flatMap Piece.units = us := by
  induction h with
  | nil => exact ⟨[], pieces_quote rest, rfl⟩
  | plain hc hquote hbackslash _ ih =>
      obtain ⟨ps, hps, rfl⟩ := ih
      exact ⟨.char _ :: ps, pieces_plain hps hc hquote hbackslash, List.flatMap_cons⟩
  | shorthand hc _ ih =>
      obtain ⟨ps, hps, rfl⟩ := ih
      exact ⟨.char _ :: ps, pieces_shorthand hps hc, List.flatMap_cons⟩
  | unit ha hb hc hd _ ih =>
      obtain ⟨ps, hps, rfl⟩ := ih
      have hn := hexUnit?_eq_some_iff.mpr ⟨_, _, _, _, ha, hb, hc, hd, rfl⟩
      exact ⟨.unit _ :: ps, pieces_unit hps hn, flatMap_units_unit _ ps⟩

theorem quotes_of_string {cs rest : List Char} {s : Option String}
    (h : string cs = some (s, rest)) : ∃ text, '"' :: cs = text ++ rest ∧ Quotes s text := by
  obtain ⟨⟨ps, rest'⟩, hps, h⟩ := Option.map_eq_some_iff.mp h
  obtain ⟨rfl, rfl⟩ := Prod.mk.inj h
  obtain ⟨hbound, body, rfl, hbody⟩ := quotable_of_pieces hps
  refine ⟨'"' :: (body ++ ['"']), by simp, ?_⟩
  cases hs : spelled? ps with
  | none =>
      refine .noText hbody fun cs hcs => ?_
      rw [(spelled?_eq_some_iff hbound).mpr hcs] at hs
      cases hs
  | some cs =>
      refine .text ?_
      rwa [String.toList_ofList, (spelled?_eq_some_iff hbound).mp hs]

theorem string_of_quotes {text : List Char} {s : Option String} (h : Quotes s text) :
    ∃ body, text = '"' :: body ∧ ∀ rest, string (body ++ rest) = some (s, rest) := by
  cases h with
  | @text s body h =>
      refine ⟨_, rfl, fun rest => ?_⟩
      obtain ⟨ps, hps, hunits⟩ := pieces_of_quotable h rest
      have hs := (spelled?_eq_some_iff (quotable_of_pieces hps).1).mpr hunits.symm
      simp [string, hps, hs]
  | @noText body us h hus =>
      refine ⟨_, rfl, fun rest => ?_⟩
      obtain ⟨ps, hps, rfl⟩ := pieces_of_quotable h rest
      have hs : spelled? ps = none := by
        rw [Option.eq_none_iff_forall_ne_some]
        exact fun cs hcs => hus cs ((spelled?_eq_some_iff (quotable_of_pieces hps).1).mp hcs)
      simp [string, hps, hs]

end Reader

end Scriptlet.Json
