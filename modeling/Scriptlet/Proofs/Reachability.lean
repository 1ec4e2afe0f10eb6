import Mathlib.Logic.Relation
import Scriptlet.Proofs.StoreExtension

namespace Scriptlet

inductive Node where
  | scope (i : ScopeId)
  | cell (c : CellId)
  | callable (f : Callable)

def Value.nodes : Value → List Node
  | .callable f => [.callable f]
  | _ => []

def Value.Within (W : Node → Prop) (v : Value) : Prop :=
  ∀ n ∈ v.nodes, W n

namespace Store

/-- One node leads to another. Host functions lead to the values that they hold. -/
inductive Link (s : Store) (holds : NativeId → List Value) : Node → Node → Prop
  | listed {i : ScopeId} {b : String × CellId} (h : b ∈ s.bindings i) :
    Link s holds (.scope i) (.cell b.2)
  | enclosing {i p : ScopeId} (h : s.parent? i = some p) : Link s holds (.scope i) (.scope p)
  | value {c : CellId} {f : Callable} (h : s.cells[c]? = some (.callable f)) :
    Link s holds (.cell c) (.callable f)
  | captured (id : FunctionId) (d : Declaration) :
    Link s holds (.callable (.function id d)) (.scope (s.capturedScope id))
  | held {id : NativeId} {name : String} {arity : Nat} {f : Callable}
      (h : .callable f ∈ holds id) : Link s holds (.callable (.native id name arity)) (.callable f)

def Reaches (s : Store) (holds : NativeId → List Value) (roots : List Node) (n : Node) : Prop :=
  ∃ r ∈ roots, Relation.ReflTransGen (s.Link holds) r n

variable {s t : Store} {holds : NativeId → List Value} {roots : List Node} {R : Node → Prop}

theorem Reaches.root {r : Node} (h : r ∈ roots) : s.Reaches holds roots r :=
  ⟨r, h, .refl⟩

theorem Reaches.link {a b : Node} (h : s.Reaches holds roots a) (hl : s.Link holds a b) :
    s.Reaches holds roots b := by
  obtain ⟨r, hr, hpath⟩ := h
  exact ⟨r, hr, hpath.tail hl⟩

theorem Reaches.of_closed {n : Node} (h : s.Reaches holds roots n) (hroots : ∀ r ∈ roots, R r)
    (hclosed : ∀ a b, R a → s.Link holds a b → R b) : R n := by
  obtain ⟨r, hr, hpath⟩ := h
  induction hpath with
  | refl => exact hroots r hr
  | tail _ hl ih => exact hclosed _ _ ih hl

end Store

/-- The node is none of the earlier store. A function is one of the later store. -/
def Node.New (s t : Store) : Node → Prop
  | .scope i => s.scopes.size ≤ i
  | .cell c => s.cells.size ≤ c
  | .callable (.function id _) => s.captured.size ≤ id ∧ id < t.captured.size
  | .callable (.native _ _ _) => False

namespace Store

theorem size_captured_addFunction (s : Store) (d : Declaration) (i : ScopeId) :
    (s.addFunction d i).2.captured.size = s.captured.size + 1 :=
  Array.size_push i

theorem capturedScope_addFunction (s : Store) (d : Declaration) (i : ScopeId) (id : FunctionId) :
    (s.addFunction d i).2.capturedScope id =
      if id = s.captured.size then i else s.capturedScope id := by
  simp only [addFunction, capturedScope, Array.getD_eq_getD_getElem?, Array.getElem?_push]
  split <;> rfl

theorem captured_frame (s : Store) (i : ScopeId) (params : List Ident) (args : List Value) :
    (s.frame i params args).2.captured = s.captured := by
  apply s.frame_induction (P := fun t => t.captured = s.captured) i params args rfl
  exact fun _ _ _ h => h

def Within (s : Store) (R : Node → Prop) (t : Store) (n : Node) : Prop :=
  R n ∨ n.New s t

variable {s t u : Store} {holds : NativeId → List Value} {R : Node → Prop}

theorem Within.mono (h : t.captured.size ≤ u.captured.size) {n : Node} (hn : s.Within R t n) :
    s.Within R u n := by
  refine hn.imp_right fun hnew => ?_
  cases n with
  | scope | cell => exact hnew
  | callable f =>
      cases f with
      | function id d => exact ⟨hnew.1, Nat.lt_of_lt_of_le hnew.2 h⟩
      | native => exact hnew

/-- What differs between the two stores lies within the region, and no link leads out of it. -/
structure Confines (holds : NativeId → List Value) (R : Node → Prop) (s t : Store) : Prop where
  closed : ∀ a b, s.Within R t a → t.Link holds a b → s.Within R t b
  cells : ∀ c : CellId, t.cells[c]? ≠ s.cells[c]? → s.Within R t (.cell c)
  bindings : ∀ i : ScopeId, t.bindings i ≠ s.bindings i → s.Within R t (.scope i)
  size_scopes : s.scopes.size ≤ t.scopes.size
  size_cells : s.cells.size ≤ t.cells.size
  size_captured : s.captured.size ≤ t.captured.size

namespace Confines

theorem refl (h : ∀ a b, R a → s.Link holds a b → R b) : s.Confines holds R s where
  closed a b ha hl := by
    rcases ha with ha | ha
    · exact .inl (h a b ha hl)
    -- nothing is listed, enclosed or held beyond the end of the store
    · cases hl with
      | listed hb =>
          rw [s.bindings_eq_nil_of_size_le _ ha] at hb
          cases hb
      | enclosing hp =>
          rw [s.parent?_eq_none_of_size_le _ ha] at hp
          cases hp
      | value hv =>
          rw [Array.getElem?_eq_none ha] at hv
          cases hv
      | captured id d => exact absurd ha.2 (Nat.not_lt.mpr ha.1)
      | held => exact absurd ha id
  cells _ h := absurd rfl h
  bindings _ h := absurd rfl h
  size_scopes := Nat.le_refl _
  size_cells := Nat.le_refl _
  size_captured := Nat.le_refl _

variable (h : s.Confines holds R t)

include h

theorem resolve {i : ScopeId} {name : String} {c : CellId} (hi : s.Within R t (.scope i))
    (hc : t.resolve i name = some c) : s.Within R t (.cell c) := by
  induction i using Nat.strongRecOn with
  | ind i ih =>
      rw [resolve_eq, Option.or_eq_some_iff] at hc
      rcases hc with hc | ⟨-, hc⟩
      · obtain ⟨before, after, hlist, -⟩ := List.lookup_eq_some_iff.mp hc
        have hmem : (name, c) ∈ t.bindings i := by simp [hlist]
        exact h.closed _ _ hi (.listed hmem)
      · obtain ⟨p, hp, hc⟩ := Option.bind_eq_some_iff.mp hc
        exact ih p (lt_of_parent?_eq_some hp) (h.closed _ _ hi (.enclosing hp)) hc

theorem get? {i : ScopeId} {name : String} {v : Value} (hi : s.Within R t (.scope i))
    (hv : t.get? i name = some v) : v.Within (s.Within R t) := by
  obtain ⟨c, hc, hv⟩ := Option.bind_eq_some_iff.mp hv
  cases v with
  | callable f => exact List.forall_mem_singleton.mpr (h.closed _ _ (h.resolve hi hc) (.value hv))
  | number | string | bool | nil => exact List.forall_mem_nil _

theorem set {c : CellId} (hc : s.Within R t (.cell c)) {v : Value}
    (hv : v.Within (s.Within R t)) : s.Confines holds R (t.set c v) where
  closed a b ha hl := by
    cases hl with
    | listed hb => exact h.closed _ _ ha (.listed hb)
    | enclosing hp => exact h.closed _ _ ha (.enclosing hp)
    | captured id d => exact h.closed _ _ ha (.captured id d)
    | held hf => exact h.closed _ _ ha (.held hf)
    | @value d f hf =>
        rw [Store.set, Array.getElem?_setIfInBounds] at hf
        split at hf
        · split at hf
          · cases hf
            exact hv _ List.mem_cons_self
          · cases hf
        · exact h.closed _ _ ha (.value hf)
  cells d hne := by
    by_cases hcd : c = d
    · exact hcd ▸ hc
    · rw [Store.set, Array.getElem?_setIfInBounds_ne hcd] at hne
      exact h.cells d hne
  bindings := h.bindings
  size_scopes := h.size_scopes
  size_cells := by simpa [Store.set] using h.size_cells
  size_captured := h.size_captured

theorem bind {i : ScopeId} (hi : s.Within R t (.scope i)) (name : String) {v : Value}
    (hv : v.Within (s.Within R t)) : s.Confines holds R (t.bind i name v) where
  closed a b ha hl := by
    cases hl with
    | @listed j b hb =>
        rw [bindings_bind] at hb
        split at hb
        · rcases List.mem_cons.mp hb with rfl | hb
          · exact .inr h.size_cells
          · exact h.closed _ _ hi (.listed hb)
        · exact h.closed _ _ ha (.listed hb)
    | enclosing hp =>
        rw [parent?_bind] at hp
        exact h.closed _ _ ha (.enclosing hp)
    | captured id d => exact h.closed _ _ ha (.captured id d)
    | held hf => exact h.closed _ _ ha (.held hf)
    | @value d f hf =>
        rw [cells_bind, Array.getElem?_push] at hf
        split at hf
        · cases hf
          exact hv _ List.mem_cons_self
        · exact h.closed _ _ ha (.value hf)
  cells c hne := by
    rw [cells_bind, Array.getElem?_push] at hne
    split at hne
    · next hc => exact .inr (hc ▸ h.size_cells)
    · exact h.cells c hne
  bindings j hne := by
    rw [bindings_bind] at hne
    split at hne
    · next hj => exact hj.1 ▸ hi
    · exact h.bindings j hne
  size_scopes := by simpa using h.size_scopes
  size_cells := by
    rw [cells_bind, Array.size_push]
    exact Nat.le_succ_of_le h.size_cells
  size_captured := h.size_captured

theorem addScope {bs : List (String × CellId)} {parent : Option ScopeId}
    (hbs : ∀ b ∈ bs, s.Within R t (.cell b.2)) (hp : ∀ p ∈ parent, s.Within R t (.scope p)) :
    s.Confines holds R (t.addScope bs parent).2 where
  closed a b ha hl := by
    cases hl with
    | @listed j b hb =>
        rw [bindings_addScope] at hb
        split at hb
        · exact hbs b hb
        · exact h.closed _ _ ha (.listed hb)
    | @enclosing j p hj =>
        rw [parent?_addScope] at hj
        split at hj
        · exact hp p (Option.filter_eq_some_iff.mp hj).1
        · exact h.closed _ _ ha (.enclosing hj)
    | captured id d => exact h.closed _ _ ha (.captured id d)
    | held hf => exact h.closed _ _ ha (.held hf)
    | value hf => exact h.closed _ _ ha (.value hf)
  cells := h.cells
  bindings j hne := by
    rw [bindings_addScope] at hne
    split at hne
    · next hj => exact .inr (hj ▸ h.size_scopes)
    · exact h.bindings j hne
  size_scopes := by
    rw [size_scopes_addScope]
    exact Nat.le_succ_of_le h.size_scopes
  size_cells := h.size_cells
  size_captured := h.size_captured

theorem child {i : ScopeId} (hi : s.Within R t (.scope i)) : s.Confines holds R (t.child i).2 := by
  refine h.addScope (List.forall_mem_nil _) fun p hp => ?_
  cases hp
  exact hi

theorem define {i : ScopeId} (hi : s.Within R t (.scope i)) (name : String) {v : Value}
    (hv : v.Within (s.Within R t)) : s.Confines holds R (t.define i name v).2 := by
  have hbind := h.bind hi name hv
  refine hbind.addScope (fun b hb => hbind.closed _ _ hi (.listed hb)) fun p hp => ?_
  cases hp
  exact hi

theorem frame {i : ScopeId} (hi : s.Within R t (.scope i)) (params : List Ident)
    {args : List Value} (hargs : ∀ v ∈ args, v.Within (s.Within R t)) :
    s.Confines holds R (t.frame i params args).2 := by
  suffices s.Confines holds R (t.frame i params args).2 ∧
      (t.frame i params args).2.captured = t.captured from this.1
  -- no functions are made, so the values stay within the region from one variable to the next
  apply t.frame_induction (P := fun u => s.Confines holds R u ∧ u.captured = t.captured)
  · exact ⟨h.child hi, rfl⟩
  · rintro u b hb ⟨hu, hcaptured⟩
    refine ⟨hu.bind (.inr h.size_scopes) b.1.name fun n hn => ?_, hcaptured⟩
    exact (hargs b.2 (List.of_mem_zip hb).2 n hn).mono (Nat.le_of_eq (congrArg Array.size hcaptured.symm))

theorem addFunction (d : Declaration) {i : ScopeId} (hi : s.Within R t (.scope i)) :
    s.Confines holds R (t.addFunction d i).2 where
  closed a b ha hl := by
    have hsize : t.captured.size ≤ (t.addFunction d i).2.captured.size := by
      rw [size_captured_addFunction]
      exact Nat.le_succ _
    cases hl with
    | listed hb => exact h.closed _ _ ha (.listed hb)
    | enclosing hp => exact h.closed _ _ ha (.enclosing hp)
    | value hf => exact (h.closed _ _ ha (.value hf)).mono hsize
    | held hf => exact (h.closed _ _ ha (.held hf)).mono hsize
    | captured id e =>
        rw [capturedScope_addFunction]
        split
        · exact hi
        · next hid =>
            have ha' : s.Within R t (.callable (.function id e)) := by
              refine ha.imp_right fun hnew => ⟨hnew.1, ?_⟩
              have hlt : id < t.captured.size + 1 := size_captured_addFunction t d i ▸ hnew.2
              exact Nat.lt_of_le_of_ne (Nat.le_of_lt_succ hlt) hid
            exact h.closed _ _ ha' (.captured id e)
  cells := h.cells
  bindings := h.bindings
  size_scopes := h.size_scopes
  size_cells := h.size_cells
  size_captured := by
    rw [size_captured_addFunction]
    exact Nat.le_succ_of_le h.size_captured

end Confines

end Store

end Scriptlet
