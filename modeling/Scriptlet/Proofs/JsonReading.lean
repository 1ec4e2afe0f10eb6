import Scriptlet.Proofs.JsonGrammar

namespace Scriptlet.Json.Reader

variable {cs rest word : List Char}

theorem after?_eq_some_iff : after? word cs = some rest ↔ cs = word ++ rest := by
  induction word generalizing cs with
  | nil => simp [after?]
  | cons w word ih =>
      cases cs with
      | nil => simp [after?]
      | cons c cs =>
          rw [after?, List.cons_append, List.cons.injEq]
          split
          · next h => simp [ih, h]
          · next h => simp [Ne.symm h]

/-- The scanners with a given fuel read nothing but texts. -/
structure ReadsTexts (fuel : Nat) : Prop where
  value {cs rest : List Char} {j : Json} (h : value fuel cs = some (j, rest)) :
    Reads j.tokens cs rest
  items {cs rest : List Char} {js : List Json} (h : items fuel cs = some (js, rest)) :
    ∃ j js', js = j :: js' ∧ Reads (j.tokens ++ tokensBehindItem js') cs rest
  members {cs rest : List Char} {ms : List (Option String × Json)}
    (h : members fuel cs = some (ms, rest)) :
    ∃ key j ms', ms = (key, j) :: ms' ∧
      Reads (.string key :: .mark ':' :: (j.tokens ++ tokensBehindMember ms')) cs rest

theorem spells_of_word? {c : Char} {j : Json} (h : word? c = some (word, j)) :
    ∃ t, j.tokens = [t] ∧ t.Spells (c :: word) := by
  rw [word?] at h
  split at h
  · next hc =>
      subst hc
      cases h
      exact ⟨.null, rfl, .null⟩
  · split at h
    · next hc =>
        subst hc
        cases h
        exact ⟨.bool true, rfl, .bool true⟩
    · split at h
      · next hc =>
          subst hc
          cases h
          exact ⟨.bool false, rfl, .bool false⟩
      · cases h

namespace ReadsTexts

variable {fuel : Nat}

theorem succ_value (ih : ReadsTexts fuel) {j : Json}
    (h : Reader.value (fuel + 1) cs = some (j, rest)) : Reads j.tokens cs rest := by
  rw [Reader.value] at h
  split at h
  · cases h
  · next c cs' hskip =>
      split at h
      · next hc =>
          subst hc
          obtain ⟨⟨s, rest'⟩, hs, h⟩ := Option.map_eq_some_iff.mp h
          cases h
          exact reads_string_cons_iff.mpr ⟨cs', rest, hskip, hs, rfl⟩
      · split at h
        · next hc =>
            subst hc
            split at h
            · next rest' hclose =>
                cases h
                refine reads_mark_cons_iff.mpr ⟨cs', hskip, ?_⟩
                exact reads_mark_cons_iff.mpr ⟨rest, after?_eq_some_iff.mp hclose, rfl⟩
            · obtain ⟨⟨js, rest'⟩, hjs, h⟩ := Option.map_eq_some_iff.mp h
              cases h
              obtain ⟨j, js', rfl, hread⟩ := ih.items hjs
              exact reads_mark_cons_iff.mpr ⟨cs', hskip, hread⟩
        · split at h
          · next hc =>
              subst hc
              split at h
              · next rest' hclose =>
                  cases h
                  refine reads_mark_cons_iff.mpr ⟨cs', hskip, ?_⟩
                  exact reads_mark_cons_iff.mpr
                    ⟨rest, after?_eq_some_iff.mp hclose, rfl⟩
              · obtain ⟨⟨ms, rest'⟩, hms, h⟩ := Option.map_eq_some_iff.mp h
                cases h
                obtain ⟨key, j, ms', rfl, hread⟩ := ih.members hms
                exact reads_mark_cons_iff.mpr ⟨cs', hskip, hread⟩
          · split at h
            · next letters j' hletters =>
                obtain ⟨rest', hafter, h⟩ := Option.map_eq_some_iff.mp h
                cases h
                obtain ⟨t, ht, hword⟩ := spells_of_word? hletters
                rw [ht]
                obtain rfl := after?_eq_some_iff.mp hafter
                exact ⟨c :: letters, rest, hword, hskip, rfl⟩
            · obtain ⟨⟨n, rest'⟩, hn, h⟩ := Option.map_eq_some_iff.mp h
              cases h
              obtain ⟨text, htext, hcs⟩ := figures_of_numeral hn
              exact ⟨text, rest, .number htext, hskip.trans hcs, rfl⟩

theorem succ_items (ih : ReadsTexts fuel) {js : List Json}
    (h : Reader.items (fuel + 1) cs = some (js, rest)) :
    ∃ j js', js = j :: js' ∧ Reads (j.tokens ++ tokensBehindItem js') cs rest := by
  rw [Reader.items] at h
  obtain ⟨⟨j, mid⟩, hj, h⟩ := Option.bind_eq_some_iff.mp h
  dsimp only at h
  split at h
  · cases h
  · next c cs' hskip =>
      split at h
      · next hc =>
          subst hc
          obtain ⟨⟨js', rest'⟩, hjs, h⟩ := Option.map_eq_some_iff.mp h
          cases h
          obtain ⟨j', js', rfl, hread⟩ := ih.items hjs
          refine ⟨j, j' :: js', rfl, reads_append.mpr ⟨mid, ih.value hj, ?_⟩⟩
          exact reads_mark_cons_iff.mpr ⟨cs', hskip, hread⟩
      · split at h
        · next hc =>
            subst hc
            cases h
            refine ⟨j, [], rfl, reads_append.mpr ⟨mid, ih.value hj, ?_⟩⟩
            exact reads_mark_cons_iff.mpr ⟨rest, hskip, rfl⟩
        · cases h

theorem succ_members (ih : ReadsTexts fuel) {ms : List (Option String × Json)}
    (h : Reader.members (fuel + 1) cs = some (ms, rest)) :
    ∃ key j ms', ms = (key, j) :: ms' ∧
      Reads (.string key :: .mark ':' :: (j.tokens ++ tokensBehindMember ms')) cs rest := by
  rw [Reader.members] at h
  obtain ⟨body, hquote, h⟩ := Option.bind_eq_some_iff.mp h
  obtain ⟨⟨key, mid₁⟩, hkey, h⟩ := Option.bind_eq_some_iff.mp h
  obtain ⟨mid₂, hcolon, h⟩ := Option.bind_eq_some_iff.mp h
  obtain ⟨⟨j, mid₃⟩, hj, h⟩ := Option.bind_eq_some_iff.mp h
  have hfield {us : List Token} (hus : Reads us mid₃ rest) :
      Reads (.string key :: .mark ':' :: (j.tokens ++ us)) cs rest := by
    refine reads_string_cons_iff.mpr ⟨body, mid₁, after?_eq_some_iff.mp hquote, hkey, ?_⟩
    refine reads_mark_cons_iff.mpr ⟨mid₂, after?_eq_some_iff.mp hcolon, ?_⟩
    exact reads_append.mpr ⟨mid₃, ih.value hj, hus⟩
  dsimp only at h
  split at h
  · cases h
  · next c cs' hskip =>
      split at h
      · next hc =>
          subst hc
          obtain ⟨⟨ms', rest'⟩, hms, h⟩ := Option.map_eq_some_iff.mp h
          cases h
          obtain ⟨key', j', ms', rfl, hread⟩ := ih.members hms
          refine ⟨key, j, (key', j') :: ms', rfl, hfield ?_⟩
          exact reads_mark_cons_iff.mpr ⟨cs', hskip, hread⟩
      · split at h
        · next hc =>
            subst hc
            cases h
            refine ⟨key, j, [], rfl, hfield ?_⟩
            exact reads_mark_cons_iff.mpr ⟨rest, hskip, rfl⟩
        · cases h

end ReadsTexts

theorem readsTexts (fuel : Nat) : ReadsTexts fuel := by
  induction fuel with
  | zero => exact ⟨nofun, nofun, nofun⟩
  | succ fuel ih => exact ⟨ih.succ_value, ih.succ_items, ih.succ_members⟩

/-- The scanners read every text whose tokens are within the fuel. A token is worth two units: a value
that is an item takes one for the list around it and one for itself. -/
structure ReadsWithin (fuel : Nat) : Prop where
  value {cs rest : List Char} {j : Json} (h : Reads j.tokens cs rest) (hrest : Ends rest)
    (hfuel : 2 * j.tokens.length ≤ fuel) : value fuel cs = some (j, rest)
  items {cs rest : List Char} {j : Json} {js : List Json}
    (h : Reads (j.tokens ++ tokensBehindItem js) cs rest)
    (hfuel : 2 * (j.tokens ++ tokensBehindItem js).length ≤ fuel) :
    items fuel cs = some (j :: js, rest)
  members {cs rest : List Char} {key : Option String} {j : Json} {ms : List (Option String × Json)}
    (h : Reads (.string key :: .mark ':' :: (j.tokens ++ tokensBehindMember ms)) cs rest)
    (hfuel : 2 * (j.tokens ++ tokensBehindMember ms).length ≤ fuel) :
    members fuel cs = some ((key, j) :: ms, rest)

theorem value_of_figures {n : Numeral} (h : Figures n word) (hrest : Ends rest)
    (hskip : skip cs = word ++ rest) (fuel : Nat) :
    value (fuel + 1) cs = some (.number n, rest) := by
  have hnumeral := numeral_append h hrest
  obtain ⟨c, word, rfl, hc⟩ := h.exists_cons
  have hne : ∀ d, d ≠ '-' → d.isDigit = false → c ≠ d := by
    rintro d hminus hdigit rfl
    simp [hminus, hdigit] at hc
  have hword : word? c = none := by
    rw [word?, if_neg (hne _ (by decide) rfl), if_neg (hne _ (by decide) rfl),
      if_neg (hne _ (by decide) rfl)]
  rw [value, hskip, List.cons_append]
  dsimp only
  rw [if_neg (hne _ (by decide) rfl), if_neg (hne _ (by decide) rfl),
    if_neg (hne _ (by decide) rfl), hword]
  dsimp only
  rw [← List.cons_append, hnumeral]
  rfl

namespace ReadsWithin

variable {fuel : Nat}

theorem succ_value (ih : ReadsWithin fuel) {j : Json} (h : Reads j.tokens cs rest)
    (hrest : Ends rest) (hfuel : 2 * j.tokens.length ≤ fuel + 1) :
    Reader.value (fuel + 1) cs = some (j, rest) := by
  match j with
  | .null =>
      obtain ⟨_, mid, ⟨⟩, hskip, rfl⟩ := h
      rw [Reader.value, hskip]
      rfl
  | .bool b =>
      obtain ⟨_, mid, ⟨⟩, hskip, rfl⟩ := h
      rw [Reader.value, hskip]
      cases b <;> rfl
  | .number n =>
      obtain ⟨word, mid, hword, hskip, rfl⟩ := h
      cases hword with
      | number hn => exact value_of_figures hn hrest hskip fuel
  | .string s =>
      obtain ⟨body, mid, hskip, hbody, rfl⟩ := reads_string_cons_iff.mp h
      rw [Reader.value, hskip]
      simp [hbody]
  | .array [] =>
      obtain ⟨mid, hopen, h⟩ := reads_mark_cons_iff.mp h
      obtain ⟨mid', hclose, rfl⟩ := reads_mark_cons_iff.mp h
      rw [Reader.value, hopen]
      simp [hclose, after?]
  | .array (j :: js) =>
      obtain ⟨mid, hopen, h⟩ := reads_mark_cons_iff.mp h
      have hitems := ih.items h (by simp [tokens] at hfuel ⊢; omega)
      have hclose : after? [']'] (skip mid) = none :=
        Option.eq_none_iff_forall_ne_some.mpr fun mid' hmid' =>
          h.skip_ne_bracket (after?_eq_some_iff.mp hmid')
      rw [Reader.value, hopen]
      simp [hclose, hitems]
  | .object [] =>
      obtain ⟨mid, hopen, h⟩ := reads_mark_cons_iff.mp h
      obtain ⟨mid', hclose, rfl⟩ := reads_mark_cons_iff.mp h
      rw [Reader.value, hopen]
      simp [hclose, after?]
  | .object ((key, j) :: ms) =>
      obtain ⟨mid, hopen, h⟩ := reads_mark_cons_iff.mp h
      have hmembers := ih.members h (by simp [tokens] at hfuel ⊢; omega)
      obtain ⟨body, mid', hkey, -⟩ := reads_string_cons_iff.mp h
      rw [Reader.value, hopen]
      simp [hkey, hmembers, after?]

theorem succ_items (ih : ReadsWithin fuel) {j : Json} {js : List Json}
    (h : Reads (j.tokens ++ tokensBehindItem js) cs rest)
    (hfuel : 2 * (j.tokens ++ tokensBehindItem js).length ≤ fuel + 1) :
    Reader.items (fuel + 1) cs = some (j :: js, rest) := by
  obtain ⟨mid, hj, hmid⟩ := reads_append.mp h
  rw [List.length_append] at hfuel
  cases js with
  | nil =>
      rw [tokensBehindItem] at hfuel hmid
      rw [List.length_singleton] at hfuel
      have hvalue := ih.value hj hmid.ends_of_mark (by omega)
      obtain ⟨mid', hclose, rfl⟩ := reads_mark_cons_iff.mp hmid
      simp [Reader.items, hvalue, hclose]
  | cons j' js =>
      rw [tokensBehindItem] at hfuel hmid
      rw [List.length_cons] at hfuel
      have hvalue := ih.value hj hmid.ends_of_mark (by omega)
      obtain ⟨mid', hcomma, hmid'⟩ := reads_mark_cons_iff.mp hmid
      simp [Reader.items, hvalue, hcomma, ih.items hmid' (by omega)]

theorem succ_members (ih : ReadsWithin fuel) {key : Option String} {j : Json}
    {ms : List (Option String × Json)}
    (h : Reads (.string key :: .mark ':' :: (j.tokens ++ tokensBehindMember ms)) cs rest)
    (hfuel : 2 * (j.tokens ++ tokensBehindMember ms).length ≤ fuel + 1) :
    Reader.members (fuel + 1) cs = some ((key, j) :: ms, rest) := by
  obtain ⟨body, mid₁, hquote, hkey, h⟩ := reads_string_cons_iff.mp h
  obtain ⟨mid₂, hcolon, h⟩ := reads_mark_cons_iff.mp h
  obtain ⟨mid, hj, hmid⟩ := reads_append.mp h
  rw [List.length_append] at hfuel
  cases ms with
  | nil =>
      rw [tokensBehindMember] at hfuel hmid
      rw [List.length_singleton] at hfuel
      have hvalue := ih.value hj hmid.ends_of_mark (by omega)
      obtain ⟨mid', hclose, rfl⟩ := reads_mark_cons_iff.mp hmid
      simp [Reader.members, after?, hquote, hkey, hcolon, hvalue, hclose]
  | cons m ms =>
      obtain ⟨key', j'⟩ := m
      rw [tokensBehindMember] at hfuel hmid
      simp only [List.length_cons] at hfuel
      have hvalue := ih.value hj hmid.ends_of_mark (by omega)
      obtain ⟨mid', hcomma, hmid'⟩ := reads_mark_cons_iff.mp hmid
      simp [Reader.members, after?, hquote, hkey, hcolon, hvalue, hcomma,
        ih.members hmid' (by omega)]

end ReadsWithin

theorem readsWithin (fuel : Nat) : ReadsWithin fuel := by
  induction fuel with
  | zero =>
      refine ⟨fun {_ _ j} _ _ hfuel => ?_, fun {_ _ j _} _ hfuel => ?_,
        fun {_ _ _ j _} _ hfuel => ?_⟩ <;>
      · obtain ⟨t, ts, hj, -⟩ := exists_tokens_eq_cons j
        simp [hj] at hfuel
  | succ fuel ih => exact ⟨ih.succ_value, ih.succ_items, ih.succ_members⟩

/-- Reading accepts the texts of data, and nothing else. -/
theorem parse_eq_some_iff {j : Json} : parse cs = some j ↔ IsText j cs := by
  rw [IsText, spaced_iff_reads]
  constructor
  · intro h
    obtain ⟨⟨j', rest⟩, hvalue, h⟩ := Option.bind_eq_some_iff.mp h
    dsimp only at h
    split at h
    · next hrest =>
        cases h
        exact ⟨rest, (readsTexts _).value hvalue, hrest⟩
    · cases h
  · rintro ⟨rest, h, hrest⟩
    have hends : Ends rest := .of_skip (by rw [hrest]; nofun)
    have hlength := h.length_le
    have hvalue := (readsWithin (2 * cs.length + 2)).value h hends (by omega)
    simp [parse, hvalue, hrest]

end Scriptlet.Json.Reader
