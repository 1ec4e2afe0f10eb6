import Scriptlet.Store.Lemmas

namespace Scriptlet.Store

/-- Every variable that a scope lists has its cell. -/
def Backed (s : Store) : Prop :=
  ∀ (i : ScopeId), ∀ b ∈ s.bindings i, b.2 < s.cells.size

structure Extends (s t : Store) : Prop where
  scopes : ∀ (i : ScopeId) scope, s.scopes[i]? = some scope → t.scopes[i]? = some scope
  cells : s.cells.size ≤ t.cells.size
  captured : ∀ (id : FunctionId) scope, s.captured[id]? = some scope → t.captured[id]? = some scope
  natives : t.natives = s.natives
  backed : s.Backed → t.Backed

variable {s t u : Store}

namespace Extends

theorem refl (s : Store) : s.Extends s :=
  ⟨fun _ _ h => h, Nat.le_refl _, fun _ _ h => h, rfl, fun h => h⟩

theorem trans (h : s.Extends t) (k : t.Extends u) : s.Extends u where
  scopes i scope hi := k.scopes i scope (h.scopes i scope hi)
  cells := Nat.le_trans h.cells k.cells
  captured id scope hi := k.captured id scope (h.captured id scope hi)
  natives := k.natives.trans h.natives
  backed hs := k.backed (h.backed hs)

theorem getElem?_scopes (h : s.Extends t) {i : ScopeId} (hi : i < s.scopes.size) :
    t.scopes[i]? = s.scopes[i]? := by
  rw [Array.getElem?_eq_getElem hi]
  exact h.scopes i _ (Array.getElem?_eq_getElem hi)

theorem size_scopes_le (h : s.Extends t) : s.scopes.size ≤ t.scopes.size := by
  apply Nat.le_of_not_lt
  intro hi
  have hnone := h.getElem?_scopes hi
  rw [Array.getElem?_eq_none (Nat.le_refl _), Array.getElem?_eq_getElem hi] at hnone
  cases hnone

theorem bindings_eq (h : s.Extends t) {i : ScopeId} (hi : i < s.scopes.size) :
    t.bindings i = s.bindings i := by
  simp only [bindings, h.getElem?_scopes hi]

theorem parent?_eq (h : s.Extends t) {i : ScopeId} (hi : i < s.scopes.size) :
    t.parent? i = s.parent? i := by
  simp only [parent?, h.getElem?_scopes hi]

end Extends

theorem le_of_mem_chain {i j : ScopeId} (h : j ∈ s.chain i) : j ≤ i := by
  induction i using Nat.strongRecOn with
  | ind i ih =>
      rw [chain_eq] at h
      rcases List.mem_cons.mp h with rfl | h
      · exact Nat.le_refl _
      · cases hp : s.parent? i with
        | none => simp [hp] at h
        | some p =>
            have hlt := lt_of_parent?_eq_some hp
            have hle := ih p hlt (by simpa [hp] using h)
            exact Nat.le_trans hle (Nat.le_of_lt hlt)

theorem chain_congr {i : ScopeId} (h : ∀ j ≤ i, t.parent? j = s.parent? j) :
    t.chain i = s.chain i := by
  induction i using Nat.strongRecOn with
  | ind i ih =>
      rw [chain_eq, chain_eq, h i (Nat.le_refl i)]
      cases hp : s.parent? i with
      | none => rfl
      | some p =>
          have hlt := lt_of_parent?_eq_some hp
          simpa using ih p hlt fun j hj => h j (Nat.le_trans hj (Nat.le_of_lt hlt))

theorem Extends.depth_eq (h : s.Extends t) {i : ScopeId} (hi : i < s.scopes.size) :
    t.depth i = s.depth i := by
  simp only [depth, chain_congr fun j hj => h.parent?_eq (Nat.lt_of_le_of_lt hj hi)]

theorem Extends.resolve_eq (h : s.Extends t) {i : ScopeId} (hi : i < s.scopes.size)
    (name : String) : t.resolve i name = s.resolve i name := by
  induction i using Nat.strongRecOn with
  | ind i ih =>
      rw [Store.resolve_eq, Store.resolve_eq s, h.bindings_eq hi, h.parent?_eq hi]
      cases hp : s.parent? i with
      | none => rfl
      | some p =>
          have hlt := lt_of_parent?_eq_some hp
          rw [Option.bind_some, Option.bind_some, ih p hlt (Nat.lt_trans hlt hi)]

theorem Backed.addScope (h : s.Backed) {bs : List (String × CellId)}
    (hbs : ∀ b ∈ bs, b.2 < s.cells.size) (parent : Option ScopeId) :
    (s.addScope bs parent).2.Backed := by
  intro i b hb
  rw [bindings_addScope] at hb
  split at hb
  · exact hbs b hb
  · exact h i b hb

theorem Backed.bind (h : s.Backed) (i : ScopeId) (name : String) (v : Value) :
    (s.bind i name v).Backed := by
  intro j b hb
  rw [cells_bind, Array.size_push]
  rw [bindings_bind] at hb
  split at hb
  · rcases List.mem_cons.mp hb with rfl | hb
    · exact Nat.lt_succ_self _
    · exact Nat.lt_succ_of_lt (h i b hb)
  · exact Nat.lt_succ_of_lt (h j b hb)

theorem Backed.define (h : s.Backed) (i : ScopeId) (name : String) (v : Value) :
    (s.define i name v).2.Backed :=
  (h.bind i name v).addScope ((h.bind i name v) i) (some i)

variable (s : Store)

theorem extends_child (i : ScopeId) : s.Extends (s.child i).2 where
  scopes j scope hj := by
    have hlt := (Array.getElem?_eq_some_iff.mp hj).1
    simp only [child, addScope, Array.getElem?_push]
    rw [if_neg (by omega), hj]
  cells := Nat.le_refl _
  captured _ _ h := h
  natives := rfl
  backed h := h.addScope (fun _ hb => absurd hb List.not_mem_nil) (some i)

theorem extends_set (c : CellId) (v : Value) : s.Extends (s.set c v) where
  scopes _ _ h := h
  cells := by simp [set]
  captured _ _ h := h
  natives := rfl
  backed h i b hb := by
    have hlt := h i b hb
    simpa [set] using hlt

theorem extends_addFunction (d : Declaration) (i : ScopeId) : s.Extends (s.addFunction d i).2 where
  scopes _ _ h := h
  cells := Nat.le_refl _
  captured id scope hid := by
    have hlt := (Array.getElem?_eq_some_iff.mp hid).1
    simp only [addFunction, Array.getElem?_push]
    rw [if_neg (by omega), hid]
  natives := rfl
  backed h := h

theorem Extends.bind {s t : Store} (h : s.Extends t) {i : ScopeId} (hi : s.scopes.size ≤ i)
    (name : String) (v : Value) : s.Extends (t.bind i name v) where
  scopes j scope hj := by
    have hlt : j < s.scopes.size := (Array.getElem?_eq_some_iff.mp hj).1
    have hne : i ≠ j := fun e => Nat.not_lt.mpr hi (e ▸ hlt)
    simp only [Store.bind, Array.getElem?_modify]
    rw [if_neg hne, h.scopes j scope hj]
  cells := by
    have hle := h.cells
    simp only [cells_bind, Array.size_push]
    omega
  captured := h.captured
  natives := h.natives
  backed hs := (h.backed hs).bind i name v

theorem frame_induction {P : Store → Prop} (i : ScopeId) (params : List Ident) (args : List Value)
    (child : P (s.child i).2)
    (bind : ∀ (t : Store), ∀ b ∈ params.zip args, P t →
      P (t.bind s.scopes.size b.1.name b.2)) :
    P (s.frame i params args).2 := by
  have hfold : ∀ (bs : List (Ident × Value)) (t : Store), bs ⊆ params.zip args → P t →
      P (bs.foldl (fun t b => t.bind s.scopes.size b.1.name b.2) t) := by
    intro bs
    induction bs with
    | nil => exact fun t _ h => h
    | cons b bs ih =>
        intro t hbs h
        obtain ⟨hb, hbs⟩ := List.cons_subset.mp hbs
        exact ih _ hbs (bind t b hb h)
  exact hfold _ _ (List.Subset.refl _) child

theorem extends_frame (i : ScopeId) (params : List Ident) (args : List Value) :
    s.Extends (s.frame i params args).2 := by
  apply s.frame_induction i params args (s.extends_child i)
  exact fun t b _ h => h.bind (Nat.le_refl _) b.1.name b.2

@[simp] theorem fst_frame (i : ScopeId) (params : List Ident) (args : List Value) :
    (s.frame i params args).1 = s.scopes.size :=
  rfl

theorem size_scopes_frame (i : ScopeId) (params : List Ident) (args : List Value) :
    (s.frame i params args).2.scopes.size = s.scopes.size + 1 := by
  apply s.frame_induction (P := fun t => t.scopes.size = s.scopes.size + 1) i params args
  · exact size_scopes_addScope s [] (some i)
  · exact fun t b _ h => (size_scopes_bind t _ b.1.name b.2).trans h

variable {i j : ScopeId} (name : String) (v : Value)

@[simp] theorem fst_define : (s.define i name v).1 = s.scopes.size :=
  size_scopes_bind s i name v

@[simp] theorem size_scopes_define : (s.define i name v).2.scopes.size = s.scopes.size + 1 := by
  simp [define]

@[simp] theorem cells_define : (s.define i name v).2.cells = s.cells.push v :=
  rfl

theorem getElem?_scopes_define_of_ne (hj : j < s.scopes.size) (hne : j ≠ i) :
    (s.define i name v).2.scopes[j]? = s.scopes[j]? := by
  have hlast : j ≠ (s.bind i name v).scopes.size := by
    rw [size_scopes_bind]
    exact Nat.ne_of_lt hj
  simp only [define, addScope, Array.getElem?_push, if_neg hlast]
  simp only [Store.bind, Array.getElem?_modify, if_neg (Ne.symm hne)]

theorem bindings_define (hi : i < s.scopes.size) (hj : j = i ∨ j = s.scopes.size) :
    (s.define i name v).2.bindings j = (name, s.cells.size) :: s.bindings i := by
  have hown : (s.bind i name v).bindings i = (name, s.cells.size) :: s.bindings i := by
    rw [bindings_bind, if_pos ⟨rfl, hi⟩]
  simp only [define, bindings_addScope, size_scopes_bind]
  rcases hj with rfl | rfl
  · rw [if_neg (Nat.ne_of_lt hi), hown]
  · rw [if_pos rfl, hown]

theorem bindings_define_of_ne (hj : j < s.scopes.size) (hne : j ≠ i) :
    (s.define i name v).2.bindings j = s.bindings j := by
  simp only [bindings, getElem?_scopes_define_of_ne s name v hj hne]

theorem parent?_define (hj : j < s.scopes.size) :
    (s.define i name v).2.parent? j = s.parent? j := by
  simp only [define, parent?_addScope, size_scopes_bind]
  rw [if_neg (Nat.ne_of_lt hj), parent?_bind]

theorem parent?_define_new (hi : i < s.scopes.size) :
    (s.define i name v).2.parent? s.scopes.size = some i := by
  simp only [define, parent?_addScope, size_scopes_bind]
  simpa using hi

theorem Extends.define {s t : Store} (h : s.Extends t) {i : ScopeId} (hi : s.scopes.size ≤ i)
    (name : String) (v : Value) : s.Extends (t.define i name v).2 where
  scopes j scope hj := by
    have hlt : j < s.scopes.size := (Array.getElem?_eq_some_iff.mp hj).1
    have hne : j ≠ i := fun e => Nat.not_lt.mpr hi (e ▸ hlt)
    rw [getElem?_scopes_define_of_ne t name v (Nat.lt_of_lt_of_le hlt h.size_scopes_le) hne]
    exact h.scopes j scope hj
  cells := (h.bind hi name v).cells
  captured := h.captured
  natives := h.natives
  backed hs := (h.backed hs).define i name v

/-- Scopes stay and keep their parents, variables stay, and functions keep the scopes they captured.
A scope's own list may have grown. -/
structure Evolves (s t : Store) : Prop where
  scopes : s.scopes.size ≤ t.scopes.size
  cells : s.cells.size ≤ t.cells.size
  parent : ∀ i < s.scopes.size, t.parent? i = s.parent? i
  captured : ∀ (id : FunctionId) scope, s.captured[id]? = some scope → t.captured[id]? = some scope
  backed : s.Backed → t.Backed

theorem Evolves.refl : s.Evolves s :=
  ⟨Nat.le_refl _, Nat.le_refl _, fun _ _ => rfl, fun _ _ h => h, fun h => h⟩

theorem Evolves.trans {s t u : Store} (h : s.Evolves t) (k : t.Evolves u) : s.Evolves u where
  scopes := Nat.le_trans h.scopes k.scopes
  cells := Nat.le_trans h.cells k.cells
  parent i hi := (k.parent i (Nat.lt_of_lt_of_le hi h.scopes)).trans (h.parent i hi)
  captured id scope hid := k.captured id scope (h.captured id scope hid)
  backed hs := k.backed (h.backed hs)

theorem Evolves.size_captured_le {s t : Store} (h : s.Evolves t) :
    s.captured.size ≤ t.captured.size := by
  apply Nat.le_of_not_lt
  intro hlt
  have hlast := h.captured t.captured.size _ (Array.getElem?_eq_getElem hlt)
  simp at hlast

theorem Evolves.capturedScope_eq {s t : Store} (h : s.Evolves t) {id : FunctionId}
    {scope : ScopeId} (hid : s.captured[id]? = some scope) : t.capturedScope id = scope := by
  rw [capturedScope, Array.getD_eq_getD_getElem?, h.captured id scope hid]
  rfl

theorem Extends.evolves {s t : Store} (h : s.Extends t) : s.Evolves t :=
  ⟨h.size_scopes_le, h.cells, fun _ hi => h.parent?_eq hi, h.captured, h.backed⟩

theorem evolves_define (i : ScopeId) : s.Evolves (s.define i name v).2 where
  scopes := by simp
  cells := by simp
  parent _ hj := parent?_define s name v hj
  captured _ _ h := h
  backed h := h.define i name v

end Scriptlet.Store
