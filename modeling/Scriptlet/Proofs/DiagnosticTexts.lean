import Scriptlet.Diagnostic.Json
import Scriptlet.Proofs.JsonWriting

namespace Scriptlet

theorem Json.sole?_of_mem {ms : List (Option String × Json)} (hkeys : (ms.map Prod.fst).Nodup)
    {key : String} {j : Json} (h : (some key, j) ∈ ms) : sole? key ms = some j := by
  have hfilter : ms.filter (·.1 == some key) = [(some key, j)] := by
    induction ms with
    | nil => cases h
    | cons m ms ih =>
        rw [List.map_cons, List.nodup_cons] at hkeys
        rcases List.mem_cons.mp h with rfl | h
        · rw [List.filter_cons_of_pos (by simp), List.filter_eq_nil_iff.mpr]
          intro m hm
          rw [beq_iff_eq]
          intro hkey
          exact hkeys.1 (List.mem_map.mpr ⟨m, hm, hkey⟩)
        · rw [List.filter_cons_of_neg, ih hkeys.2 h]
          rw [beq_iff_eq]
          intro hkey
          exact hkeys.1 (List.mem_map.mpr ⟨_, h, hkey.symm⟩)
  rw [sole?, hfilter]

theorem Json.word16?_nat (w : UInt16) : (Json.nat w.toNat).word16? = some w := by
  simp [nat, word16?, natBelow?, w.toNat_lt_size]

theorem Json.word32?_nat (w : UInt32) : (Json.nat w.toNat).word32? = some w := by
  simp [nat, word32?, natBelow?, w.toNat_lt_size]

theorem Span.ofMembers?_of_subset {s : Span} {ms : List (Option String × Json)}
    (hkeys : (ms.map Prod.fst).Nodup) (h : s.jsonMembers ⊆ ms) : ofMembers? ms = some s := by
  have hfield (key : String) (w : UInt32) (hw : (some key, Json.nat w.toNat) ∈ s.jsonMembers) :
      (Json.sole? key ms).bind Json.word32? = some w := by
    rw [Json.sole?_of_mem hkeys (h hw), Option.bind_some, Json.word32?_nat]
  have hline := hfield "line" s.start.line (by simp [jsonMembers])
  have hcolumn := hfield "column" s.start.column (by simp [jsonMembers])
  have hendLine := hfield "end_line" s.stop.line (by simp [jsonMembers])
  have hendColumn := hfield "end_column" s.stop.column (by simp [jsonMembers])
  simp [ofMembers?, hline, hcolumn, hendLine, hendColumn]

theorem Span.ofJson?_toJson (s : Span) : ofJson? s.toJson = some s := by
  have hsome : s.jsonMembers.all (·.1.isSome) = true := rfl
  have hkeys : (s.jsonMembers.map Prod.fst).Nodup := by simp [jsonMembers]
  rw [toJson, ofJson?, if_pos hsome]
  exact ofMembers?_of_subset hkeys (List.Subset.refl _)

theorem ErrorCode.ofJson?_toJson (c : ErrorCode) : ofJson? c.toJson = some c := by
  rw [ofJson?, toJson, Json.word16?_nat, Option.map_some]

theorem Category.ofJson?_toJson (c : Category) : ofJson? c.toJson = some c :=
  ofText?_text c

theorem Numeral.isFinite_of_lt {n : Nat} (h : n < UInt32.size) :
    isFinite ⟨false, n, none⟩ = true := by
  have hcut : cut n 0 = (n, 0) := by
    rw [cut, if_pos (Nat.lt_trans h (by decide))]
  have hlog : n.log2 ≤ 52 := by
    rcases Nat.eq_zero_or_pos n with rfl | hpos
    · decide
    · exact Nat.le_of_lt_succ
        ((Nat.log2_lt (Nat.ne_of_gt hpos)).mpr (Nat.lt_trans h (by decide)))
  have hone : Binary64.nearest 1 = 1 := Binary64.nearest_eq_self (by decide)
  have hbound : n < Binary64.overflow := Nat.lt_trans h (by decide +kernel)
  simp [isFinite, hcut, maxPower, Binary64.nearest_eq_self hlog, hone, hbound]

theorem Json.isTame_nat {n : Nat} (h : n < UInt32.size) (depth : Nat) :
    (Json.nat n).isTame depth = true := by
  rw [nat, isTame]
  exact Numeral.isFinite_of_lt h

theorem Json.isTame_text (s : String) (depth : Nat) : (Json.text s).isTame depth = true := by
  rw [text, isTame]
  rfl

namespace Diagnostic

theorem isTame_toJson (d : Diagnostic) : d.toJson.isTame maxNesting = true := by
  have hword (w : UInt32) : (Json.nat w.toNat).isTame 126 = true := Json.isTame_nat w.toNat_lt 126
  have hcode : (Json.nat d.code.number.toNat).isTame 126 = true :=
    Json.isTame_nat (Nat.lt_trans d.code.number.toNat_lt (by decide)) 126
  simp [toJson, maxNesting, Json.isTame, Json.areTameMembers, Json.isTame_text, Category.toJson,
    ErrorCode.toJson, Span.jsonMembers, hword, hcode]

theorem ofJson?_toJson (d : Diagnostic) : ofJson? d.toJson = some d := by
  have htame := d.isTame_toJson
  rw [toJson] at htame ⊢
  generalize hms : [(some "file", Json.text d.file), (some "code", d.code.toJson),
     (some "category", d.category.toJson), (some "message", .text d.message)] ++
    d.span.jsonMembers ++ [(some "source_line", .text d.sourceLine)] = ms at htame ⊢
  have hkeys : (ms.map Prod.fst).Nodup := by simp [← hms, Span.jsonMembers]
  have hfield (key : String) (j : Json) (hj : (some key, j) ∈ ms) : Json.sole? key ms = some j :=
    Json.sole?_of_mem hkeys hj
  have hfile := hfield "file" (.text d.file) (by simp [← hms])
  have hcode := hfield "code" d.code.toJson (by simp [← hms])
  have hcategory := hfield "category" d.category.toJson (by simp [← hms])
  have hmessage := hfield "message" (.text d.message) (by simp [← hms])
  have hspan : Span.ofMembers? ms = some d.span :=
    Span.ofMembers?_of_subset hkeys fun m hm =>
      hms ▸ List.mem_append_left _ (List.mem_append_right _ hm)
  have hsourceLine := hfield "source_line" (.text d.sourceLine) (by simp [← hms])
  simp [ofJson?, htame, hfile, hcode, hcategory, hmessage, hspan, hsourceLine, Json.text,
    Json.text?, ErrorCode.ofJson?_toJson, Category.ofJson?_toJson]

end Diagnostic

/-- A diagnostic is written as a JSON text without control characters that reads back as it was,
whatever its fields hold. In its strings nothing but quotes, backslashes and control characters is
escaped. A span, a code and a category by themselves read back as well. -/
theorem diagnostics_survive_writing (d : Diagnostic) (s : Span) (e : ErrorCode) (c : Category) :
    Diagnostic.parse? d.toJson.toText = some d ∧
      (∀ ch ∈ d.toJson.toText.toList, 0x20 ≤ ch.toNat) ∧
      Json.IsText d.toJson d.toJson.toText.toList ∧
      (∀ ch, Json.escape ch = [ch] ↔ 0x20 ≤ ch.toNat ∧ ch ≠ '"' ∧ ch ≠ '\\') ∧
      (Json.parse? s.toJson.toText).bind Span.ofJson? = some s ∧
      (Json.parse? e.toJson.toText).bind ErrorCode.ofJson? = some e ∧
      (Json.parse? c.toJson.toText).bind Category.ofJson? = some c := by
  refine ⟨?_, ?_, ?_, fun ch => Json.escape_eq_self_iff, ?_, ?_, ?_⟩
  · rw [Diagnostic.parse?, Json.parse?_toText, Option.bind_some, Diagnostic.ofJson?_toJson]
  · rw [Json.toText, String.toList_ofList]
    exact fun ch => Json.not_control_of_mem_render
  · rw [Json.toText, String.toList_ofList]
    exact Json.isText_render d.toJson
  · rw [Json.parse?_toText, Option.bind_some, Span.ofJson?_toJson]
  · rw [Json.parse?_toText, Option.bind_some, ErrorCode.ofJson?_toJson]
  · rw [Json.parse?_toText, Option.bind_some, Category.ofJson?_toJson]

end Scriptlet
