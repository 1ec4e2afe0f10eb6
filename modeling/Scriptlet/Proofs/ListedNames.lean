import Scriptlet.Proofs.StoreEvents

namespace Scriptlet

namespace Store

/-- The cell that a scope itself has under a name. -/
def listed? (s : Store) (i : ScopeId) (name : String) : Option CellId :=
  (s.bindings i).lookup name

variable {s : Store} {i j : ScopeId} {name x : String} {c : CellId}

theorem listed?_eq_none_of_size_le (h : s.scopes.size ≤ i) : s.listed? i name = none := by
  rw [listed?, s.bindings_eq_nil_of_size_le i h, List.lookup_nil]

theorem Backed.listed?_lt (h : s.Backed) (hc : s.listed? i name = some c) : c < s.cells.size := by
  obtain ⟨before, after, hlist, -⟩ := List.lookup_eq_some_iff.mp hc
  exact h i (name, c) (by simp [hlist])

theorem exists_listed?_of_resolve (h : s.resolve i name = some c) :
    ∃ j ∈ s.chain i, s.listed? j name = some c := by
  rw [resolve_eq_findSome?] at h
  exact List.exists_of_findSome?_eq_some h

theorem listed?_bind (hi : i < s.scopes.size) (v : Value) :
    (s.bind i x v).listed? j name =
      if j = i ∧ name = x then some s.cells.size else s.listed? j name := by
  rw [listed?, bindings_bind]
  by_cases hj : j = i
  · subst hj
    rw [if_pos ⟨rfl, hi⟩, List.lookup_cons]
    by_cases hx : name = x
    · simp [hx]
    · simp [hx, listed?, beq_false_of_ne hx]
  · simp [hj, listed?]

theorem listed?_bind_of_ne (hx : name ≠ x) (i j : ScopeId) (v : Value) :
    (s.bind i x v).listed? j name = s.listed? j name := by
  rw [listed?, bindings_bind]
  split
  · next hj => rw [List.lookup_cons, beq_false_of_ne hx, hj.1, listed?]
  · rfl

theorem listed?_of_bind {v : Value} (h : (s.bind i x v).listed? j name = some c) :
    s.listed? j name = some c ∨ c = s.cells.size := by
  rw [listed?, bindings_bind] at h
  split at h
  · next hj =>
      rw [List.lookup_cons] at h
      split at h
      · exact .inr (Option.some.inj h).symm
      · exact .inl (hj.1 ▸ h)
  · exact .inl h

theorem listed?_addScope (bs : List (String × CellId)) (parent : Option ScopeId) :
    (s.addScope bs parent).2.listed? i name =
      if i = s.scopes.size then bs.lookup name else s.listed? i name := by
  rw [listed?, bindings_addScope]
  split <;> rfl

theorem listed?_define (i : ScopeId) (v : Value) :
    (s.define i x v).2.listed? j name =
      (s.bind i x v).listed? (if j = s.scopes.size then i else j) name := by
  simp only [define, listed?_addScope, size_scopes_bind]
  split <;> rfl

end Store

namespace Event

variable {s : Store} {scope i : ScopeId} {name : String} {c : CellId} {e : Event}

theorem listed?_apply_of_not_declares (h : name ∉ e.binds) (hd : e.declares = false)
    (scope i : ScopeId) : (e.apply scope s).listed? i name = s.listed? i name := by
  have hchild (p i : ScopeId) : (s.child p).2.listed? i name = s.listed? i name := by
    rw [Store.child, Store.listed?_addScope]
    split
    · next hi => rw [hi, Store.listed?_eq_none_of_size_le (Nat.le_refl _), List.lookup_nil]
    · rfl
  cases e with
  | none => rfl
  | assign x v =>
      simp only [apply]
      cases s.resolve scope x <;> rfl
  | block => exact hchild scope i
  | call id d args =>
      refine s.frame_induction (P := fun t => ∀ i, t.listed? i name = s.listed? i name)
        (s.capturedScope id) d.params args (hchild _) (fun t b hb ht i => ?_) i
      have hx : name ≠ b.1.name := fun he =>
        h (he ▸ List.mem_map_of_mem (List.of_mem_zip hb).1)
      rw [Store.listed?_bind_of_ne hx, ht]
  | declare | function => cases hd

theorem listed?_apply_of_declares (h : name ∉ e.binds) (hd : e.declares = true)
    (scope i : ScopeId) :
    (e.apply scope s).listed? i name =
      s.listed? (if i = s.scopes.size then scope else i) name := by
  cases e with
  | none | assign | block | call => cases hd
  | declare x v =>
      rw [apply, Store.listed?_define, Store.listed?_bind_of_ne (List.ne_of_not_mem_cons h)]
  | function d =>
      simp only [apply]
      rw [Store.listed?_define, Store.listed?_bind_of_ne (List.ne_of_not_mem_cons h)]
      rfl

/-- A cell comes under a name only if it was there before, in some scope, or if it is new. -/
theorem listed?_of_apply (h : (e.apply scope s).listed? i name = some c) :
    (∃ j, s.listed? j name = some c) ∨ s.cells.size ≤ c := by
  have hbind {t : Store} (hsize : s.cells.size ≤ t.cells.size)
      (ht : ∀ j, t.listed? j name = some c → (∃ j, s.listed? j name = some c) ∨ s.cells.size ≤ c)
      {j k : ScopeId} {x : String} {v : Value} (hj : (t.bind k x v).listed? j name = some c) :
      (∃ j, s.listed? j name = some c) ∨ s.cells.size ≤ c := by
    rcases Store.listed?_of_bind hj with hj | rfl
    · exact ht j hj
    · exact .inr hsize
  cases e with
  | none => exact .inl ⟨i, h⟩
  | assign x v =>
      simp only [apply] at h
      cases hr : s.resolve scope x with
      | none => exact .inl ⟨i, by simpa [hr] using h⟩
      | some d =>
          rw [hr] at h
          exact .inl ⟨i, h⟩
  | block =>
      simp only [apply, Store.child, Store.listed?_addScope] at h
      split at h
      · cases h
      · exact .inl ⟨i, h⟩
  | call id d args =>
      refine (s.frame_induction (P := fun t => s.cells.size ≤ t.cells.size ∧ ∀ i,
        t.listed? i name = some c → (∃ j, s.listed? j name = some c) ∨ s.cells.size ≤ c)
        (s.capturedScope id) d.params args ⟨Nat.le_refl _, fun i hi => ?_⟩
        fun t b hb ht => ⟨?_, fun i hi => hbind ht.1 ht.2 hi⟩).2 i h
      · rw [Store.child, Store.listed?_addScope] at hi
        split at hi
        · cases hi
        · exact .inl ⟨i, hi⟩
      · rw [Store.cells_bind, Array.size_push]
        exact Nat.le_succ_of_le ht.1
  | declare x v =>
      rw [apply, Store.listed?_define] at h
      exact hbind (Nat.le_refl _) (fun j hj => .inl ⟨j, hj⟩) h
  | function d =>
      simp only [apply, Store.listed?_define] at h
      exact hbind (t := (s.addFunction d scope).2) (Nat.le_refl _) (fun j hj => .inl ⟨j, hj⟩) h

end Event

end Scriptlet
