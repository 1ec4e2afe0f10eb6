import Scriptlet.Json.Writer
import Scriptlet.Proofs.JsonReading

namespace Scriptlet.Json

/-- A character is written as a letter behind a backslash, by its number, or as it is. -/
theorem escape_cases (c : Char) :
    (∃ e, escape c = ['\\', e] ∧ (e, c) ∈ shorthands ∧
        ¬(0x20 ≤ c.toNat ∧ c ≠ '"' ∧ c ≠ '\\')) ∨
      (escape c =
          ['\\', 'u', '0', '0', Nat.digitChar (c.toNat / 16), Nat.digitChar (c.toNat % 16)] ∧
        c.toNat < 0x20) ∨
      (escape c = [c] ∧ 0x20 ≤ c.toNat ∧ c ≠ '"' ∧ c ≠ '\\') := by
  rw [escape]
  iterate 7
    split
    · subst c
      exact .inl ⟨_, rfl, by decide, by decide⟩
  rename_i hquote hbackslash _ _ _ _ _
  split
  · next hc => exact .inr (.inl ⟨rfl, hc⟩)
  · next hc => exact .inr (.inr ⟨rfl, Nat.not_lt.mp hc, hquote, hbackslash⟩)

theorem escape_eq_self_iff {c : Char} :
    escape c = [c] ↔ 0x20 ≤ c.toNat ∧ c ≠ '"' ∧ c ≠ '\\' := by
  rcases escape_cases c with ⟨e, he, -, hc⟩ | ⟨he, hc⟩ | ⟨he, hc⟩
  · exact iff_of_false (by simp [he]) hc
  · exact iff_of_false (by simp [he]) fun h => Nat.not_lt.mpr h.1 hc
  · exact iff_of_true he hc

theorem hexDigit_digitChar {n : Nat} (hn : n < 16) : HexDigit n.digitChar n :=
  ⟨hn, .inl rfl⟩

theorem quotable_escape_append {cs : List Char} {us : List Nat} (h : Quotable cs us) (c : Char) :
    Quotable (escape c ++ cs) (units c ++ us) := by
  rcases escape_cases c with ⟨e, he, hmem, -⟩ | ⟨he, hc⟩ | ⟨he, hc, hquote, hbackslash⟩
  · rw [he]
    exact .shorthand hmem h
  · have hzero : HexDigit '0' 0 := hexDigit_digitChar (by decide)
    have hunit := Quotable.unit hzero hzero (hexDigit_digitChar (n := c.toNat / 16) (by omega))
      (hexDigit_digitChar (n := c.toNat % 16) (by omega)) h
    rw [show ((0 * 16 + 0) * 16 + c.toNat / 16) * 16 + c.toNat % 16 = c.toNat by omega] at hunit
    rw [he, units, if_pos (by omega)]
    exact hunit
  · rw [he]
    exact .plain hc hquote hbackslash h

theorem quotable_flatMap_escape (cs : List Char) : Quotable (cs.flatMap escape) (unitsOf cs) := by
  induction cs with
  | nil => exact .nil
  | cons c cs ih =>
      rw [List.flatMap_cons, unitsOf, List.flatMap_cons]
      exact quotable_escape_append ih c

theorem quotes_renderString (s : Option String) : Quotes s (renderString s) := by
  cases s with
  | some s => exact .text (quotable_flatMap_escape s.toList)
  | none =>
      have hbody : Quotable ['\\', 'u', 'd', '8', '0', '0'] [0xd800] :=
        .unit (hexDigit_digitChar (n := 13) (by decide)) (hexDigit_digitChar (n := 8) (by decide))
          (hexDigit_digitChar (n := 0) (by decide)) (hexDigit_digitChar (n := 0) (by decide)) .nil
      exact .noText hbody (unitsOf_ne_of_half rfl nofun)

theorem signed_toDigits (k : Int) :
    Signed ((if k < 0 then ['-'] else []) ++ Nat.toDigits 10 k.natAbs) k := by
  have hds := (whole_toDigits k.natAbs).1
  split
  · next hk =>
      have h := Signed.minus hds
      rwa [Nat.ofDigitChars_ten_toDigits, Int.ofNat_natAbs_of_nonpos (Int.le_of_lt hk),
        Int.neg_neg] at h
  · next hk =>
      have h := Signed.bare hds
      rwa [Nat.ofDigitChars_ten_toDigits, Int.natAbs_of_nonneg (Int.not_lt.mp hk)] at h

theorem figures_renderNumeral (n : Numeral) : Figures n (renderNumeral n) := by
  obtain ⟨negative, coefficient, power⟩ := n
  have hds := whole_toDigits coefficient
  cases power with
  | none =>
      have h := Figures.mk negative hds .absent .absent
      simpa [Nat.ofDigitChars_ten_toDigits, renderNumeral] using h
  | some k =>
      have h := Figures.mk negative hds .absent (.present (.inl rfl) (signed_toDigits k))
      simpa [Nat.ofDigitChars_ten_toDigits, renderNumeral] using h

def Token.written : Token → List Char
  | .mark c _ => [c]
  | .null => ['n', 'u', 'l', 'l']
  | .bool b => if b then ['t', 'r', 'u', 'e'] else ['f', 'a', 'l', 's', 'e']
  | .number n => renderNumeral n
  | .string s => renderString s

theorem Token.spells_written (t : Token) : t.Spells t.written := by
  cases t with
  | mark c h => exact .mark h
  | null => exact .null
  | bool b => exact .bool b
  | number n => exact .number (figures_renderNumeral n)
  | string s => exact .string (quotes_renderString s)

mutual

theorem render_eq : ∀ j : Json, render j = j.tokens.flatMap Token.written
  | .null => rfl
  | .bool b => by cases b <;> rfl
  | .number n => by simp [render, tokens, Token.written]
  | .string s => by simp [render, tokens, Token.written]
  | .array [] => rfl
  | .array (j :: js) => by simp [render, tokens, Token.written, render_eq j, renderItems_eq js]
  | .object [] => rfl
  | .object ((key, j) :: ms) => by
      simp [render, tokens, Token.written, render_eq j, renderMembers_eq ms]

theorem renderItems_eq : ∀ js : List Json,
    renderItems js = (tokensBehindItem js).flatMap Token.written
  | [] => rfl
  | j :: js => by
      simp [renderItems, tokensBehindItem, Token.written, render_eq j, renderItems_eq js]

theorem renderMembers_eq : ∀ ms : List (Option String × Json),
    renderMembers ms = (tokensBehindMember ms).flatMap Token.written
  | [] => rfl
  | (key, j) :: ms => by
      simp [renderMembers, tokensBehindMember, Token.written, render_eq j, renderMembers_eq ms]

end

theorem spaced_flatten (words : List (List Char)) : Spaced words words.flatten := by
  induction words with
  | nil => exact nofun
  | cons word words ih => exact ⟨[], words.flatten, nofun, ih, rfl⟩

theorem isText_render (j : Json) : IsText j (render j) := by
  refine ⟨j.tokens.map Token.written, ?_, ?_⟩
  · rw [List.forall₂_map_right_iff, List.forall₂_same]
    exact fun t _ => t.spells_written
  · rw [render_eq, List.flatMap_def]
    exact spaced_flatten _

theorem parse?_toText (j : Json) : parse? j.toText = some j := by
  rw [parse?, toText, String.toList_ofList, Reader.parse_eq_some_iff]
  exact isText_render j

variable {c : Char}

theorem not_control_of_isDigit (h : c.isDigit = true) : 0x20 ≤ c.toNat := by
  rw [Char.isDigit_iff_toNat] at h
  exact Nat.le_trans (by decide) h.1

theorem not_control_of_mem_escape {d : Char} (h : d ∈ escape c) : 0x20 ≤ d.toNat := by
  have hdigit : ∀ n < 16, 0x20 ≤ n.digitChar.toNat := by decide
  have hshorthand : ∀ p ∈ shorthands, 0x20 ≤ p.1.toNat := by decide
  rcases escape_cases c with ⟨e, he, hmem, -⟩ | ⟨he, hc⟩ | ⟨he, hc, -⟩
  · rw [he, List.mem_pair] at h
    rcases h with rfl | rfl
    · decide
    · exact hshorthand _ hmem
  · simp only [he, List.mem_cons, List.not_mem_nil, or_false] at h
    rcases h with rfl | rfl | rfl | rfl | rfl | rfl
    · decide
    · decide
    · decide
    · decide
    · exact hdigit _ (by omega)
    · exact hdigit _ (by omega)
  · rw [he, List.mem_singleton] at h
    exact h ▸ hc

theorem not_control_of_mem_renderString {s : Option String} (h : c ∈ renderString s) :
    0x20 ≤ c.toNat := by
  cases s with
  | some s =>
      simp only [renderString, List.mem_cons, List.mem_append, List.mem_flatMap, List.not_mem_nil,
        or_false] at h
      rcases h with rfl | ⟨d, -, hd⟩ | rfl
      · decide
      · exact not_control_of_mem_escape hd
      · decide
  | none =>
      have hnone : ∀ c ∈ renderString none, 0x20 ≤ c.toNat := by simp [renderString]
      exact hnone c h

theorem not_control_of_mem_renderNumeral {n : Numeral} (h : c ∈ renderNumeral n) :
    0x20 ≤ c.toNat := by
  have hsign {p : Prop} [Decidable p] (hc : c ∈ if p then ['-'] else []) : 0x20 ≤ c.toNat := by
    split at hc
    · exact List.mem_singleton.mp hc ▸ by decide
    · cases hc
  have hdigits {k : Nat} (hc : c ∈ Nat.toDigits 10 k) : 0x20 ≤ c.toNat :=
    not_control_of_isDigit ((whole_toDigits k).1.2 c hc)
  rw [renderNumeral, List.mem_append, List.mem_append] at h
  rcases h with (hc | hc) | hc
  · exact hsign hc
  · exact hdigits hc
  · split at hc
    · cases hc
    · rw [List.mem_cons, List.mem_append] at hc
      rcases hc with rfl | hc | hc
      · decide
      · exact hsign hc
      · exact hdigits hc

theorem not_control_of_mem_written {t : Token} (h : c ∈ t.written) : 0x20 ≤ c.toNat := by
  have hmarks : ∀ c ∈ marks, 0x20 ≤ c.toNat := by simp [marks]
  have hnull : ∀ c ∈ Token.null.written, 0x20 ≤ c.toNat := by simp [Token.written]
  have hbool (b : Bool) : ∀ c ∈ (Token.bool b).written, 0x20 ≤ c.toNat := by
    cases b <;> simp [Token.written]
  cases t with
  | mark d hd => exact List.mem_singleton.mp h ▸ hmarks d hd
  | null => exact hnull c h
  | bool b => exact hbool b c h
  | number n => exact not_control_of_mem_renderNumeral h
  | string s => exact not_control_of_mem_renderString h

theorem not_control_of_mem_render {j : Json} (h : c ∈ render j) : 0x20 ≤ c.toNat := by
  rw [render_eq, List.mem_flatMap] at h
  obtain ⟨t, -, ht⟩ := h
  exact not_control_of_mem_written ht

end Scriptlet.Json
