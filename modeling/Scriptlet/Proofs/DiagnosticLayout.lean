import Mathlib.Data.List.Nodup
import Scriptlet.Proofs.DiagnosticTexts

namespace Scriptlet

variable {key : String} {ms ms' extras : List (Option String × Json)}

theorem Json.sole?_eq_none (h : ms.countP (·.1 == some key) ≠ 1) : sole? key ms = none := by
  rw [List.countP_eq_length_filter] at h
  rw [sole?]
  split
  · next hfilter => simp [hfilter] at h
  · rfl

theorem Json.sole?_congr (h : ms.Perm ms') : sole? key ms = sole? key ms' := by
  by_cases hcount : ms.countP (·.1 == some key) = 1
  · rw [List.countP_eq_length_filter, List.length_eq_one_iff] at hcount
    obtain ⟨m, hm⟩ := hcount
    have hm' : ms'.filter (·.1 == some key) = [m] :=
      List.perm_singleton.mp (hm ▸ h.symm.filter _)
    rw [sole?, sole?, hm, hm']
  · rw [sole?_eq_none hcount, sole?_eq_none (h.countP_eq _ ▸ hcount)]

theorem Json.sole?_append (h : ∀ m ∈ extras, m.1 ≠ some key) :
    sole? key (ms ++ extras) = sole? key ms := by
  have hnone : extras.filter (·.1 == some key) = [] :=
    List.filter_eq_nil_iff.mpr fun m hm => by simp [h m hm]
  rw [sole?, sole?, List.filter_append, hnone, List.append_nil]

theorem Json.areTameMembers_iff {depth : Nat} :
    areTameMembers depth ms = true ↔ ∀ m ∈ ms, m.1.isSome ∧ m.2.isTame depth = true := by
  induction ms with
  | nil => simp [areTameMembers]
  | cons m ms ih => simp [areTameMembers, ih, and_assoc]

namespace Diagnostic

def keys : List String :=
  ["file", "code", "category", "message", "line", "column", "end_line", "end_column", "source_line"]

def jsonMembers (d : Diagnostic) : List (Option String × Json) :=
  [(some "file", .text d.file), (some "code", d.code.toJson),
    (some "category", d.category.toJson), (some "message", .text d.message)] ++
    d.span.jsonMembers ++ [(some "source_line", .text d.sourceLine)]

/-- A member with another key, whose value is null, a truth value or a text. -/
def IsExtra (m : Option String × Json) : Prop :=
  (∃ key, m.1 = some key ∧ key ∉ keys) ∧
    (m.2 = .null ∨ (∃ b, m.2 = .bool b) ∨ ∃ s, m.2 = .text s)

theorem keys_jsonMembers (d : Diagnostic) : d.jsonMembers.map Prod.fst = keys.map some := rfl

theorem IsExtra.ne {m : Option String × Json} (h : IsExtra m) (hkey : key ∈ keys) :
    m.1 ≠ some key := by
  obtain ⟨⟨other, hother, hnot⟩, -⟩ := h
  rintro hm
  cases hother.symm.trans hm
  exact hnot hkey

theorem IsExtra.isTame {m : Option String × Json} (h : IsExtra m) (depth : Nat) :
    m.1.isSome ∧ m.2.isTame depth = true := by
  obtain ⟨⟨key, hkey, -⟩, hvalue⟩ := h
  refine ⟨hkey ▸ rfl, ?_⟩
  rcases hvalue with hnull | ⟨b, hbool⟩ | ⟨s, htext⟩
  · rw [hnull, Json.isTame]
  · rw [hbool, Json.isTame]
  · rw [htext, Json.isTame_text]

theorem countP_jsonMembers (d : Diagnostic) (hkey : key ∈ keys) :
    d.jsonMembers.countP (·.1 == some key) = 1 := by
  have hcount : (keys.map some).count (some key) = 1 :=
    List.count_eq_one_of_mem (by decide) (List.mem_map_of_mem hkey)
  rw [← keys_jsonMembers d, List.count, List.countP_map] at hcount
  exact hcount

theorem countP_extras (h : ∀ m ∈ extras, IsExtra m) (hkey : key ∈ keys) :
    extras.countP (·.1 == some key) = 0 :=
  List.countP_eq_zero.mpr fun m hm => by simp [(h m hm).ne hkey]

theorem ofJson?_congr
    (htame : (Json.object ms).isTame maxNesting = (Json.object ms').isTame maxNesting)
    (h : ∀ key ∈ keys, Json.sole? key ms = Json.sole? key ms') :
    ofJson? (.object ms) = ofJson? (.object ms') := by
  simp only [keys, List.forall_mem_cons] at h
  obtain ⟨hfile, hcode, hcategory, hmessage, hline, hcolumn, hendLine, hendColumn, hsource, -⟩ := h
  simp only [ofJson?, Span.ofMembers?, htame, hfile, hcode, hcategory, hmessage, hline, hcolumn,
    hendLine, hendColumn, hsource]

theorem ofJson?_eq_none (hkey : key ∈ keys) (h : ms.countP (·.1 == some key) ≠ 1) :
    ofJson? (.object ms) = none := by
  have hnone := Json.sole?_eq_none h
  simp only [keys, List.mem_cons, List.not_mem_nil, or_false] at hkey
  rcases hkey with rfl | rfl | rfl | rfl | rfl | rfl | rfl | rfl | rfl <;>
    simp [ofJson?, Span.ofMembers?, hnone]

theorem ofJson?_append_extras {d : Diagnostic} (hextras : ∀ m ∈ extras, IsExtra m)
    (h : ms.Perm (d.jsonMembers ++ extras)) : ofJson? (.object ms) = some d := by
  have htame : (Json.object ms).isTame maxNesting = true := by
    have hmembers := d.isTame_toJson
    rw [show d.toJson = .object d.jsonMembers from rfl, maxNesting, Json.isTame,
      Json.areTameMembers_iff] at hmembers
    rw [maxNesting, Json.isTame, Json.areTameMembers_iff]
    intro m hm
    rcases List.mem_append.mp (h.subset hm) with hm | hm
    · exact hmembers m hm
    · exact (hextras m hm).isTame _
  have hfound (key : String) (hkey : key ∈ keys) :
      Json.sole? key ms = Json.sole? key d.jsonMembers := by
    rw [Json.sole?_congr h, Json.sole?_append fun m hm => (hextras m hm).ne hkey]
  rw [← d.ofJson?_toJson]
  exact ofJson?_congr (htame.trans d.isTame_toJson.symm) hfound

end Diagnostic

/-- A diagnostic is read from any text of an object that has its nine members and others, in any
order, with white space anywhere; the other members may have any further keys, also one key several
times, and values that are null, truth values or strings that spell a text. If one of the nine
members is missing, or there is a second one with its key and any value, nothing is read. -/
theorem diagnostics_are_read_in_any_layout (d : Diagnostic)
    (extras ms : List (Option String × Json)) (t : String)
    (hextras : ∀ m ∈ extras, Diagnostic.IsExtra m)
    (ht : Json.IsText (.object ms) t.toList) :
    d.toJson = .object d.jsonMembers ∧
      (ms.Perm (d.jsonMembers ++ extras) → Diagnostic.parse? t = some d) ∧
      (∀ m kept, d.jsonMembers.Perm (m :: kept) → ms.Perm (kept ++ extras) →
        Diagnostic.parse? t = none) ∧
      (∀ m j, m ∈ d.jsonMembers → ms.Perm ((m.1, j) :: (d.jsonMembers ++ extras)) →
        Diagnostic.parse? t = none) := by
  have hread : Diagnostic.parse? t = Diagnostic.ofJson? (.object ms) := by
    rw [Diagnostic.parse?, Json.parse?, Json.Reader.parse_eq_some_iff.mpr ht, Option.bind_some]
  have hfield {m} (hm : m ∈ d.jsonMembers) : ∃ key ∈ Diagnostic.keys, m.1 = some key := by
    have hmem := List.mem_map_of_mem (f := Prod.fst) hm
    rw [d.keys_jsonMembers, List.mem_map] at hmem
    obtain ⟨key, hkey, heq⟩ := hmem
    exact ⟨key, hkey, heq.symm⟩
  rw [hread]
  refine ⟨rfl, Diagnostic.ofJson?_append_extras hextras, fun m kept hdropped hms => ?_,
    fun m j hm hms => ?_⟩
  · obtain ⟨key, hkey, hm⟩ := hfield (hdropped.symm.subset List.mem_cons_self)
    have hone := hdropped.countP_eq (·.1 == some key)
    rw [d.countP_jsonMembers hkey, List.countP_cons_of_pos (by simp [hm])] at hone
    refine Diagnostic.ofJson?_eq_none hkey ?_
    rw [hms.countP_eq, List.countP_append, Diagnostic.countP_extras hextras hkey]
    omega
  · obtain ⟨key, hkey, hm⟩ := hfield hm
    refine Diagnostic.ofJson?_eq_none hkey ?_
    rw [hms.countP_eq, List.countP_cons_of_pos (by simp [hm]), List.countP_append,
      d.countP_jsonMembers hkey, Diagnostic.countP_extras hextras hkey]
    omega

theorem diagnostics_are_read_in_any_layout_with_note :
    let d : Diagnostic := ⟨"a.loop", ⟨740⟩, .arithmetic, "division by zero", ⟨⟨1, 9⟩, ⟨1, 14⟩⟩, ""⟩
    let note : Option String × Json := (some "note", .text "line")
    Diagnostic.parse? (Json.object (note :: d.jsonMembers.reverse)).toText = some d ∧
      Diagnostic.parse? (Json.object (d.jsonMembers.tail ++ [note])).toText = none ∧
      Diagnostic.parse? (Json.object ((some "line", .null) :: (d.jsonMembers ++ [note]))).toText =
        none := by
  intro d note
  have hnote : ∀ m ∈ [note], Diagnostic.IsExtra m := by
    rintro m (_ | ⟨_, _ | _⟩)
    exact ⟨⟨"note", rfl, by decide⟩, .inr (.inr ⟨_, rfl⟩)⟩
  have htext (ms) : Json.IsText (.object ms) (Json.object ms).toText.toList := by
    rw [Json.toText, String.toList_ofList]
    exact Json.isText_render _
  have hread := diagnostics_are_read_in_any_layout d [note]
  refine ⟨(hread _ _ hnote (htext _)).2.1 ?_,
    (hread _ _ hnote (htext _)).2.2.1 _ _ (.refl _) (.refl _),
    (hread _ _ hnote (htext _)).2.2.2 (some "line", .nat 1) _ ?_ (.refl _)⟩
  · exact (d.jsonMembers.reverse_perm.cons note).trans (List.perm_append_singleton _ _).symm
  · exact .tail _ (.tail _ (.tail _ (.tail _ (.head _))))

end Scriptlet
