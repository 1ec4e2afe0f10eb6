import Scriptlet.Config
import Scriptlet.Proofs.JsonReading

namespace Scriptlet

open Json

inductive ConfigText : List Char → Option Nat → Prop
  | emptyObject {cs : List Char} (h : Spaced [['\x7b'], ['\x7d']] cs) : ConfigText cs none
  | emptyArray {cs : List Char} (h : Spaced [['['], [']']] cs) : ConfigText cs none
  | object {key ds cs : List Char} (hkey : Quotes (some "max_call_depth") key) (hds : Whole ds)
      (hbound : Nat.ofDigitChars 10 ds 0 ≤ 0xffffffffffffffff)
      (h : Spaced [['\x7b'], key, [':'], ds, ['\x7d']] cs) :
      ConfigText cs (some (Nat.ofDigitChars 10 ds 0))
  | array {ds cs : List Char} (hds : Whole ds)
      (hbound : Nat.ofDigitChars 10 ds 0 ≤ 0xffffffffffffffff)
      (h : Spaced [['['], ds, [']']] cs) : ConfigText cs (some (Nat.ofDigitChars 10 ds 0))

namespace Json

variable {cs : List Char}

theorem spells_nat_iff {n : Nat} {word : List Char} :
    Token.Spells (.number ⟨false, n, none⟩) word ↔ word = Nat.toDigits 10 n := by
  rw [Token.spells_number_iff, figures_nat_iff]

theorem isText_emptyObject : IsText (.object []) cs ↔ Spaced [['\x7b'], ['\x7d']] cs := by
  simp [IsText, tokens, List.forall₂_cons_left_iff, Token.spells_mark_iff]

theorem isText_emptyArray : IsText (.array []) cs ↔ Spaced [['['], [']']] cs := by
  simp [IsText, tokens, List.forall₂_cons_left_iff, Token.spells_mark_iff]

theorem isText_object_nat {key : Option String} {n : Nat} :
    IsText (.object [(key, .nat n)]) cs ↔
      ∃ word, Quotes key word ∧
        Spaced [['\x7b'], word, [':'], Nat.toDigits 10 n, ['\x7d']] cs := by
  simp [IsText, tokens, tokensBehindMember, nat, List.forall₂_cons_left_iff, Token.spells_mark_iff,
    Token.spells_string_iff, spells_nat_iff]

theorem isText_array_nat {n : Nat} :
    IsText (.array [.nat n]) cs ↔ Spaced [['['], Nat.toDigits 10 n, [']']] cs := by
  simp [IsText, tokens, tokensBehindItem, nat, List.forall₂_cons_left_iff, Token.spells_mark_iff,
    spells_nat_iff]

theorem natBelow?_eq_some_iff {bound n : Nat} {j : Json} :
    j.natBelow? bound = some n ↔ j = .nat n ∧ n < bound := by
  constructor
  · intro h
    rw [natBelow?.eq_def] at h
    split at h
    · split at h
      · cases h
        exact ⟨rfl, ‹_›⟩
      · cases h
    · cases h
  · rintro ⟨rfl, hn⟩
    rw [nat, natBelow?, if_pos hn]

end Json

namespace ConfigText

variable {cs : List Char}

theorem none_iff : ConfigText cs none ↔ IsText (.object []) cs ∨ IsText (.array []) cs := by
  rw [isText_emptyObject, isText_emptyArray]
  constructor
  · intro h
    cases h with
    | emptyObject h => exact .inl h
    | emptyArray h => exact .inr h
  · rintro (h | h)
    · exact .emptyObject h
    · exact .emptyArray h

theorem some_iff {n : Nat} :
    ConfigText cs (some n) ↔
      n ≤ 0xffffffffffffffff ∧
        (IsText (.object [(some "max_call_depth", .nat n)]) cs ∨ IsText (.array [.nat n]) cs) := by
  rw [isText_object_nat, isText_array_nat]
  constructor
  · intro h
    cases h with
    | object hkey hds hbound h =>
        rw [hds.toDigits_eq]
        exact ⟨hbound, .inl ⟨_, hkey, h⟩⟩
    | array hds hbound h =>
        rw [hds.toDigits_eq]
        exact ⟨hbound, .inr h⟩
  · rintro ⟨hbound, ⟨key, hkey, h⟩ | h⟩
    · rw [← Nat.ofDigitChars_ten_toDigits (n := n)] at hbound ⊢
      exact .object hkey (whole_toDigits n) hbound h
    · rw [← Nat.ofDigitChars_ten_toDigits (n := n)] at hbound ⊢
      exact .array (whole_toDigits n) hbound h

end ConfigText

namespace Config

theorem ofLimit?_eq_some_iff {j : Json} {c : Config} :
    ofLimit? j = some c ↔ j = .nat c.maxCallDepth.toNat := by
  rw [ofLimit?, Option.map_eq_some_iff]
  simp only [natBelow?_eq_some_iff]
  constructor
  · rintro ⟨n, ⟨rfl, hn⟩, rfl⟩
    rw [Nat.toUInt64_eq, UInt64.toNat_ofNat_of_lt' hn]
  · intro hj
    exact ⟨_, ⟨hj, c.maxCallDepth.toNat_lt_size⟩, by simp⟩

theorem ofJson?_eq_some_iff {j : Json} {c : Config} :
    ofJson? j = some c ↔
      ((j = .object [] ∨ j = .array []) ∧ c.maxCallDepth.toNat = 200) ∨
        j = .object [(some "max_call_depth", .nat c.maxCallDepth.toNat)] ∨
          j = .array [.nat c.maxCallDepth.toNat] := by
  constructor
  · intro h
    rw [ofJson?.eq_def] at h
    split at h
    · cases h
      exact .inl ⟨.inl rfl, rfl⟩
    · next key j =>
        split at h
        · next hkey =>
            rw [hkey, ofLimit?_eq_some_iff.mp h]
            exact .inr (.inl rfl)
        · cases h
    · cases h
      exact .inl ⟨.inr rfl, rfl⟩
    · next j =>
        rw [ofLimit?_eq_some_iff.mp h]
        exact .inr (.inr rfl)
    · cases h
  · have hdefault (h : c.maxCallDepth.toNat = 200) : some ({} : Config) = some c := by
      obtain ⟨limit⟩ := c
      have hlimit : limit = 200 := UInt64.toNat_inj.mp h
      rw [hlimit]
    rintro (⟨rfl | rfl, h⟩ | rfl | rfl)
    · exact hdefault h
    · exact hdefault h
    · rw [ofJson?, if_pos rfl, ofLimit?_eq_some_iff]
    · rw [ofJson?, ofLimit?_eq_some_iff]

theorem parse?_eq_some_iff {t : String} {c : Config} :
    parse? t = some c ↔
      ∃ limit?, ConfigText t.toList limit? ∧ c.maxCallDepth.toNat = limit?.getD 200 := by
  simp only [parse?, Json.parse?, Option.bind_eq_some_iff, Reader.parse_eq_some_iff,
    ofJson?_eq_some_iff]
  constructor
  · have hbound : c.maxCallDepth.toNat ≤ 0xffffffffffffffff :=
      Nat.le_of_lt_succ c.maxCallDepth.toNat_lt
    rintro ⟨j, htext, ⟨rfl | rfl, hc⟩ | rfl | rfl⟩
    · exact ⟨none, ConfigText.none_iff.mpr (.inl htext), hc⟩
    · exact ⟨none, ConfigText.none_iff.mpr (.inr htext), hc⟩
    · exact ⟨some _, ConfigText.some_iff.mpr ⟨hbound, .inl htext⟩, rfl⟩
    · exact ⟨some _, ConfigText.some_iff.mpr ⟨hbound, .inr htext⟩, rfl⟩
  · rintro ⟨limit?, htext, hc⟩
    cases limit? with
    | none =>
        rcases ConfigText.none_iff.mp htext with h | h
        · exact ⟨_, h, .inl ⟨.inl rfl, hc⟩⟩
        · exact ⟨_, h, .inl ⟨.inr rfl, hc⟩⟩
    | some n =>
        obtain rfl : c.maxCallDepth.toNat = n := hc
        rcases (ConfigText.some_iff.mp htext).2 with h | h
        · exact ⟨_, h, .inr (.inl rfl)⟩
        · exact ⟨_, h, .inr (.inr rfl)⟩

end Config

theorem ConfigText.getD_lt {cs : List Char} {limit? : Option Nat} (h : ConfigText cs limit?) :
    limit?.getD 200 < UInt64.size := by
  cases limit? with
  | none => decide
  | some n =>
      have hbound := (some_iff.mp h).1
      exact Nat.lt_of_le_of_lt hbound (by decide)

/-- A text configures the interpreter if it has one of the four forms, and then with the limit that
it gives, or with the default if it gives none. -/
theorem configuration_texts_are_those_of_four_forms (t : String) :
    ((Config.parse? t).isSome = true ↔ ∃ limit?, ConfigText t.toList limit?) ∧
      ∀ c, Config.parse? t = some c ↔
        ∃ limit?, ConfigText t.toList limit? ∧ c.maxCallDepth.toNat = limit?.getD 200 := by
  refine ⟨?_, fun c => Config.parse?_eq_some_iff⟩
  rw [Option.isSome_iff_exists]
  constructor
  · rintro ⟨c, hc⟩
    obtain ⟨limit?, htext, -⟩ := Config.parse?_eq_some_iff.mp hc
    exact ⟨limit?, htext⟩
  · rintro ⟨limit?, htext⟩
    refine ⟨⟨(limit?.getD 200).toUInt64⟩, Config.parse?_eq_some_iff.mpr ⟨limit?, htext, ?_⟩⟩
    rw [Nat.toUInt64_eq, UInt64.toNat_ofNat_of_lt' htext.getD_lt]

end Scriptlet
