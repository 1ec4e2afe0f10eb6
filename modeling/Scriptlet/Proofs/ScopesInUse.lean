import Scriptlet.Proofs.Moment
import Scriptlet.Proofs.ScopeFrame

namespace Scriptlet

open Step

def Task.scope? : Task → Option ScopeId
  | .leave scope | .finish scope => some scope
  | _ => none

namespace Moment

variable {σ : Type}

/-- The scopes that blocks and calls come back to, the innermost first. -/
def waiting (m : Moment σ) : List ScopeId :=
  m.tasks.filterMap Task.scope?

def inUse (m : Moment σ) : List ScopeId :=
  m.scope :: m.waiting

/-- The name that is declared by the step from this moment to the next. -/
def declaration? (m : Moment σ) : Option String :=
  match m.focus, m.tasks with
  | .stmt (.declare x none _), _ => some x.name
  | .stmt (.function f _ _ _ _), _ => some f.name
  | .done (.ok _), .declare name :: _ => some name
  | _, _ => none

inductive Passes (m m' : Moment σ) : Prop
  | stay (store : m.machine.store.Extends m'.machine.store) (inUse : m'.inUse = m.inUse)
  | back (store : m.machine.store.Extends m'.machine.store) (inUse : m'.inUse = m.waiting)
  | enter (store : m.machine.store.Extends m'.machine.store)
      (size : m.machine.store.scopes.size < m'.machine.store.scopes.size)
      (inUse : m'.inUse = m.machine.store.scopes.size :: m.inUse)

variable (m : Moment σ)

theorem look_passes {focus : Focus} {task : Task} (h : task.scope? = none) :
    Passes m (m.look focus task) :=
  .stay (.refl _) (by simp [look, inUse, waiting, h])

theorem focus_passes (focus : Focus) : Passes m { m with focus } :=
  .stay (.refl _) rfl

theorem act_passes {x : Step (Cursor σ) Value} (h : Preserves Cursor.Stays x) :
    Passes m (m.act x) := by
  obtain ⟨hs, hm⟩ := h ⟨m.scope, m.machine⟩
  refine .stay hm.store ?_
  simp only [act, inUse, waiting, hs]

theorem here_passes {f : ScopeId → Step (Machine σ) Value}
    (h : ∀ i, Preserves Machine.Grows (f i)) : Passes m (m.act (Cursor.here f)) :=
  m.act_passes (Cursor.here_stays h)

theorem apply_passes (c : Callable) (args : List Value) (paren : Span) :
    Passes m (m.apply c args paren) := by
  unfold apply
  split
  · cases c with
    | native id name arity => exact m.here_passes fun _ => Machine.invoke_grows id name args paren
    | function id d =>
        dsimp only
        split
        · refine .enter (m.machine.store.extends_frame _ _ _) ?_ rfl
          simp only [enter, Store.size_scopes_frame]
          omega
        · exact m.here_passes fun _ => .fail .refl _ paren
  · exact m.here_passes fun _ => .fail .refl _ paren

theorem gather_passes (c : Callable) (done : List Value) (paren : Span) (rest : List Expr) :
    Passes m (m.gather c done paren rest) := by
  cases rest with
  | nil => exact m.apply_passes c done paren
  | cons a rest => exact m.look_passes rfl

theorem visit_passes (e : Expr) : Passes m (m.visit e) := by
  cases e with
  | literal a _ => exact m.act_passes (.pure .refl _)
  | grouping e _ => exact m.focus_passes _
  | var x _ => exact m.here_passes fun scope => Machine.read_grows scope x
  | assign | logical | conditional | unary | binary | call => exact m.look_passes rfl

theorem back_passes {task : Task} {tasks : List Task} (h : m.tasks = task :: tasks) :
    Passes m ({ m with tasks }.back task) := by
  cases task with
  | leave scope => exact .back (.refl _) (by simp only [waiting, h]; rfl)
  | finish scope => exact .back (.refl _) (by simp only [waiting, h]; rfl)
  | _ => exact .stay (.refl _) (by simp only [inUse, waiting, h]; rfl)

theorem Passes.of_pop {m m' : Moment σ} {task : Task} {tasks : List Task}
    (h : m.tasks = task :: tasks) (ht : task.scope? = none) (k : Passes { m with tasks } m') :
    Passes m m' := by
  have hw : m.waiting = ({ m with tasks } : Moment σ).waiting := by
    simp only [waiting, h, List.filterMap_cons, ht]
  cases k with
  | stay hs hu => exact .stay hs (by simpa only [inUse, hw] using hu)
  | back hs hu => exact .back hs (by simpa only [inUse, hw] using hu)
  | enter hs hsize hu => exact .enter hs hsize (by simpa only [inUse, hw] using hu)

theorem start_passes {s : Stmt} (h : m.focus = .stmt s) (hd : m.declaration? = none) :
    Passes m (m.start s) := by
  cases s with
  | expr e _ => exact m.focus_passes _
  | print | ifElse | whileLoop => exact m.look_passes rfl
  | declare x e _ =>
      cases e with
      | none => simp [declaration?, h] at hd
      | some e => exact m.look_passes rfl
  | block body _ =>
      refine .enter (m.machine.store.extends_child m.scope) ?_ rfl
      simp [start, enter, Store.child]
  | forLoop => exact m.act_passes (.fail .refl _ _)
  | function => simp [declaration?, h] at hd

/-- What a step does that declares a name: the current scope goes out of use. -/
structure Declares (name : String) (m m' : Moment σ) : Prop where
  store : ∃ (s : Store) (v : Value), m.machine.store.Extends s ∧
    s.scopes = m.machine.store.scopes ∧ m'.machine.store = (s.define m.scope name v).2
  inUse : m'.inUse = m.machine.store.scopes.size :: m.waiting

namespace Declares

variable {m} {m' : Moment σ} {name : String} (h : Declares name m m')

include h

theorem size_scopes : m'.machine.store.scopes.size = m.machine.store.scopes.size + 1 := by
  obtain ⟨s, v, -, hs, hm⟩ := h.store
  rw [hm, Store.size_scopes_define, hs]

theorem evolves : m.machine.store.Evolves m'.machine.store := by
  obtain ⟨s, v, hext, -, hm⟩ := h.store
  rw [hm]
  exact hext.evolves.trans (s.evolves_define name v m.scope)

theorem parent?_new (hm : m.scope < m.machine.store.scopes.size) :
    m'.machine.store.parent? m.machine.store.scopes.size = some m.scope := by
  obtain ⟨s, v, -, hs, hstore⟩ := h.store
  rw [hstore, ← hs]
  exact s.parent?_define_new name v (hs ▸ hm)

theorem bindings_eq {j : ScopeId} (hj : j < m.machine.store.scopes.size) (hne : j ≠ m.scope) :
    m'.machine.store.bindings j = m.machine.store.bindings j := by
  obtain ⟨s, v, hext, hs, hm⟩ := h.store
  rw [hm, Store.bindings_define_of_ne s name v (hs ▸ hj) hne, hext.bindings_eq hj]

theorem bindings_scope (hm : m.scope < m.machine.store.scopes.size) :
    ∃ c, m.machine.store.cells.size ≤ c ∧
      m'.machine.store.bindings m.scope = (name, c) :: m.machine.store.bindings m.scope := by
  obtain ⟨s, v, hext, hs, hstore⟩ := h.store
  refine ⟨s.cells.size, hext.cells, ?_⟩
  rw [hstore, Store.bindings_define s name v (hs ▸ hm) (.inl rfl), hext.bindings_eq hm]

end Declares

theorem Passes.store {m m' : Moment σ} (h : Passes m m') :
    m.machine.store.Extends m'.machine.store := by
  cases h with
  | stay hs _ | back hs _ | enter hs _ _ => exact hs

/-- The scopes in use are pairwise different scopes of the store. -/
structure Orderly (m : Moment σ) : Prop where
  nodup : m.inUse.Nodup
  lt : ∀ i ∈ m.inUse, i < m.machine.store.scopes.size
  backed : m.machine.store.Backed

theorem Orderly.scope_lt {m : Moment σ} (h : m.Orderly) : m.scope < m.machine.store.scopes.size :=
  h.lt m.scope List.mem_cons_self

variable [Sink σ]

theorem resume_passes {v : Value} {task : Task} {tasks : List Task}
    (hf : m.focus = .done (.ok v)) (ht : m.tasks = task :: tasks) (hd : m.declaration? = none) :
    Passes m ({ m with tasks }.resume v task) := by
  have hr := Machine.Grows.refl (σ := σ)
  have ht' := Machine.Grows.trans (σ := σ)
  cases task with
  | assign x =>
      exact .of_pop ht rfl (here_passes _ fun i =>
        (Machine.write_grows i x v).bind ht' fun _ => .pure hr v)
  | logical op r =>
      apply Passes.of_pop ht rfl
      simp only [resume]
      split
      · exact .stay (.refl _) rfl
      · exact focus_passes _ _
  | choose | again => exact .of_pop ht rfl (focus_passes _ _)
  | unary op => exact .of_pop ht rfl (here_passes _ fun _ => .blame hr op.span _)
  | right => exact .of_pop ht rfl (look_passes _ rfl)
  | binary op l => exact .of_pop ht rfl (here_passes _ fun _ => .blame hr op.span _)
  | callee args paren =>
      apply Passes.of_pop ht rfl
      cases v with
      | callable c => exact gather_passes _ c [] paren args
      | number | string | bool | nil => exact here_passes _ fun _ => .fail hr _ paren
  | argument c done rest paren => exact .of_pop ht rfl (gather_passes _ c _ paren rest)
  | print =>
      refine .of_pop ht rfl (act_passes _ ?_)
      exact (Cursor.here_stays fun _ => Machine.println_grows v.text).bind Cursor.Stays.trans
        fun _ => .pure .refl _
  | declare name => simp [declaration?, hf, ht] at hd
  | branch t e =>
      apply Passes.of_pop ht rfl
      simp only [resume]
      split
      · exact look_passes _ rfl
      · cases e with
        | none => exact act_passes _ (.pure .refl _)
        | some e => exact look_passes _ rfl
  | discard => exact .of_pop ht rfl (act_passes _ (.pure .refl _))
  | test c body span =>
      apply Passes.of_pop ht rfl
      simp only [resume]
      split
      · exact look_passes _ rfl
      · exact act_passes _ (.pure .refl _)
  | rest body =>
      cases body with
      | nil => exact .of_pop ht rfl (.stay (.refl _) rfl)
      | cons s body => exact .of_pop ht rfl (look_passes _ rfl)
  | leave scope => exact m.back_passes ht
  | finish scope => exact m.back_passes ht

theorem next_passes (hd : m.declaration? = none) : Passes m m.next := by
  unfold next
  split
  · next e _ => exact m.visit_passes e
  · next s hf => exact m.start_passes hf hd
  · next o hf =>
      split
      · exact .stay (.refl _) rfl
      · next task tasks ht =>
          cases o with
          | ok v => exact m.resume_passes hf ht hd
          | error | outOfFuel => exact m.back_passes ht

theorem next_declares {m : Moment σ} {name : String} (h : m.declaration? = some name) :
    Declares name m m.next := by
  unfold declaration? at h
  split at h
  · next x span hf =>
      cases h
      simp only [next, hf]
      exact ⟨⟨m.machine.store, .nil, .refl _, rfl, rfl⟩,
        congrArg (· :: m.waiting) (Store.fst_define m.machine.store x.name .nil)⟩
  · next f params body declSpan span hf =>
      cases h
      simp only [next, hf]
      let r := m.machine.store.addFunction ⟨f, params, body, declSpan⟩ m.scope
      exact ⟨⟨r.2, .callable r.1, m.machine.store.extends_addFunction _ m.scope, rfl, rfl⟩,
        congrArg (· :: m.waiting) (Store.fst_define r.2 f.name (.callable r.1))⟩
  · next v name tasks hf ht =>
      cases h
      simp only [next, hf, ht]
      have hw : m.waiting = tasks.filterMap Task.scope? := by
        simp only [waiting, ht]
        rfl
      refine ⟨⟨m.machine.store, v, .refl _, rfl, rfl⟩, ?_⟩
      rw [hw]
      exact congrArg (· :: tasks.filterMap Task.scope?)
        (Store.fst_define m.machine.store name v)
  · cases h

namespace Orderly

variable {m}

theorem next (h : m.Orderly) : m.next.Orderly := by
  have hnodup : m.waiting.Nodup := (List.nodup_cons.mp h.nodup).2
  have hfresh : m.machine.store.scopes.size ∉ m.inUse := fun hm =>
    absurd (h.lt _ hm) (Nat.lt_irrefl _)
  have hlt : ∀ i ∈ m.waiting, i < m.machine.store.scopes.size := fun i hi =>
    h.lt i (List.mem_cons_of_mem _ hi)
  cases hd : m.declaration? with
  | none =>
      cases m.next_passes hd with
      | stay hs hu =>
          exact ⟨hu ▸ h.nodup, fun i hi => Nat.lt_of_lt_of_le (h.lt i (hu ▸ hi)) hs.size_scopes_le,
            hs.backed h.backed⟩
      | back hs hu =>
          exact ⟨hu ▸ hnodup, fun i hi => Nat.lt_of_lt_of_le (hlt i (hu ▸ hi)) hs.size_scopes_le,
            hs.backed h.backed⟩
      | enter hs hsize hu =>
          refine ⟨hu ▸ List.nodup_cons.mpr ⟨hfresh, h.nodup⟩, fun i hi => ?_, hs.backed h.backed⟩
          rcases List.mem_cons.mp (hu ▸ hi) with rfl | hi
          · exact hsize
          · exact Nat.lt_trans (h.lt i hi) hsize
  | some name =>
      have hn := next_declares hd
      refine ⟨?_, fun i hi => ?_, hn.evolves.backed h.backed⟩
      · rw [hn.inUse]
        exact List.nodup_cons.mpr ⟨fun hm => hfresh (List.mem_cons_of_mem _ hm), hnodup⟩
      · rw [hn.size_scopes]
        rcases List.mem_cons.mp (hn.inUse ▸ hi) with rfl | hi
        · exact Nat.lt_succ_self _
        · exact Nat.lt_succ_of_lt (hlt i hi)

theorem iterate (h : m.Orderly) (t : Nat) : (Moment.next^[t] m).Orderly := by
  induction t with
  | zero => exact h
  | succ t ih =>
      rw [Function.iterate_succ_apply']
      exact ih.next

end Orderly

theorem evolves_next : m.machine.store.Evolves m.next.machine.store := by
  cases hd : m.declaration? with
  | none => exact (m.next_passes hd).store.evolves
  | some name => exact (next_declares hd).evolves

theorem natives_next : m.next.machine.store.natives = m.machine.store.natives := by
  cases hd : m.declaration? with
  | none => exact (m.next_passes hd).store.natives
  | some name =>
      obtain ⟨s, v, hs, -, hnext⟩ := (next_declares hd).store
      rw [hnext, ← hs.natives]
      rfl

theorem bindings_next {j : ScopeId} (hj : j < m.machine.store.scopes.size)
    (h : m.declaration? = none ∨ j ≠ m.scope) :
    m.next.machine.store.bindings j = m.machine.store.bindings j := by
  cases hd : m.declaration? with
  | none => exact (m.next_passes hd).store.bindings_eq hj
  | some name =>
      have hne := h.resolve_left (by simp [hd])
      exact (next_declares hd).bindings_eq hj hne

theorem declaration_not_inUse {m : Moment σ} (h : m.Orderly) {name : String}
    (hd : m.declaration? = some name) : m.scope ∉ m.next.inUse := by
  rw [(next_declares hd).inUse]
  intro hm
  rcases List.mem_cons.mp hm with he | hm
  · exact absurd h.scope_lt (he ▸ Nat.lt_irrefl _)
  · exact (List.nodup_cons.mp h.nodup).1 hm

theorem not_inUse_next {m : Moment σ} {j : ScopeId} (hj : j < m.machine.store.scopes.size)
    (h : j ∉ m.inUse) : j ∉ m.next.inUse := by
  have hne : j ≠ m.machine.store.scopes.size := Nat.ne_of_lt hj
  have hw : j ∉ m.waiting := fun hm => h (List.mem_cons_of_mem _ hm)
  cases hd : m.declaration? with
  | none =>
      cases m.next_passes hd with
      | stay _ hu => exact hu ▸ h
      | back _ hu => exact hu ▸ hw
      | enter _ _ hu => exact hu ▸ List.not_mem_cons_of_ne_of_not_mem hne h
  | some name => exact (next_declares hd).inUse ▸ List.not_mem_cons_of_ne_of_not_mem hne hw

end Moment

end Scriptlet
