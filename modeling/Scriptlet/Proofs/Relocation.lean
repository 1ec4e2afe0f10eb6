import Scriptlet.Proofs.StoreEvents

namespace Scriptlet

variable {σ : Type} {f : ScopeId → ScopeId}

namespace Store

/-- What is at hand in the scope `i` of one store is at hand in the scope `f i` of the other, and
new scopes and functions will be numbered accordingly. -/
structure Agrees (f : ScopeId → ScopeId) (i : ScopeId) (s t : Store) : Prop where
  resolve : ∀ name, t.resolve (f i) name = s.resolve i name
  cells : t.cells = s.cells
  natives : t.natives = s.natives
  size_captured : t.captured.size = s.captured.size
  size_scopes : t.scopes.size = f s.scopes.size

variable {s t : Store} {i : ScopeId}

theorem Agrees.get? (h : s.Agrees f i t) (name : String) : t.get? (f i) name = s.get? i name := by
  rw [Store.get?, Store.get?, h.resolve, h.cells]

theorem Agrees.nativeBody (h : s.Agrees f i t) (id : NativeId) :
    t.nativeBody id = s.nativeBody id := by
  rw [Store.nativeBody, Store.nativeBody, h.natives]

end Store

def Task.relocate (f : ScopeId → ScopeId) : Task → Task
  | .leave scope => .leave (f scope)
  | .finish scope => .finish (f scope)
  | task => task

namespace Moment

/-- The moment with its scopes renumbered, on another store and with further tasks at the bottom. -/
def relocate (f : ScopeId → ScopeId) (bottom : List Task) (t : Store) (m : Moment σ) : Moment σ :=
  ⟨m.focus, f m.scope, m.tasks.map (Task.relocate f) ++ bottom, { m.machine with store := t }⟩

variable {bottom : List Task} {t : Store} {m : Moment σ}

theorem attempt?_relocate (hm : ¬m.Halted) : (m.relocate f bottom t).attempt? = m.attempt? := by
  obtain ⟨focus, scope, tasks, machine⟩ := m
  cases focus with
  | expr | stmt => rfl
  | done o =>
      cases tasks with
      | nil => exact absurd ⟨⟨o, rfl⟩, rfl⟩ hm
      | cons task tasks =>
          cases o with
          | error | outOfFuel => rfl
          | ok v =>
              cases task with
              | callee args paren => cases v <;> cases args <;> rfl
              | argument c done rest paren => cases v <;> cases rest <;> rfl
              | _ => cases v <;> rfl

theorem event_relocate (hm : ¬m.Halted) : (m.relocate f bottom t).event = m.event := by
  rw [event, event, attempt?_relocate hm]
  cases m.attempt? with
  | some call => rfl
  | none =>
      obtain ⟨focus, scope, tasks, machine⟩ := m
      cases focus with
      | expr e => rfl
      | stmt s =>
          cases s with
          | declare x e _ => cases e <;> rfl
          | _ => rfl
      | done o =>
          cases tasks with
          | nil => exact absurd ⟨⟨o, rfl⟩, rfl⟩ hm
          | cons task tasks =>
              cases o with
              | error | outOfFuel => rfl
              | ok v => cases task <;> rfl

theorem blame_relocate (span : Span) (r : Except Fault Value) :
    ∃ u, (m.relocate f bottom t).act (Cursor.here fun _ => Step.blame span r) =
      (m.act (Cursor.here fun _ => Step.blame span r)).relocate f bottom u := by
  cases r <;> exact ⟨t, rfl⟩

theorem declare_relocate (hs : m.machine.store.Agrees f m.scope t) (name : String) (v : Value) :
    ∃ u, (m.relocate f bottom t).act (Cursor.declare name v) =
      (m.act (Cursor.declare name v)).relocate f bottom u := by
  refine ⟨(t.define (f m.scope) name v).2, ?_⟩
  simp only [act, Cursor.declare, relocate, Store.fst_define, hs.size_scopes]

theorem apply_relocate (hs : m.machine.store.Agrees f m.scope t) (c : Callable) (args : List Value)
    (paren : Span) : ∃ u, (m.relocate f bottom t).apply c args paren =
      (m.apply c args paren).relocate f bottom u := by
  unfold apply
  split
  · cases c with
    | native id name arity =>
        have hbody := hs.nativeBody id
        simp only [act, Cursor.here, Machine.invoke, relocate, hbody]
        cases m.machine.store.nativeBody id args <;> exact ⟨t, rfl⟩
    | function id d =>
        by_cases hroom : m.machine.callDepth < m.machine.config.maxCallDepth
        · refine ⟨(t.frame (t.capturedScope id) d.params args).2, ?_⟩
          simp only [relocate, enter, hroom, if_true, Store.fst_frame, hs.size_scopes]
          rfl
        · simp only [relocate, hroom, if_false]
          exact ⟨t, rfl⟩
  · exact ⟨t, rfl⟩

theorem gather_relocate (hs : m.machine.store.Agrees f m.scope t) (c : Callable) (done : List Value)
    (paren : Span) (rest : List Expr) : ∃ u, (m.relocate f bottom t).gather c done paren rest =
      (m.gather c done paren rest).relocate f bottom u := by
  cases rest with
  | nil => exact apply_relocate hs c done paren
  | cons a rest => exact ⟨t, rfl⟩

theorem visit_relocate (hs : m.machine.store.Agrees f m.scope t) (e : Expr) :
    ∃ u, (m.relocate f bottom t).visit e = (m.visit e).relocate f bottom u := by
  cases e with
  | var x _ =>
      have hget := hs.get? x.name
      simp only [visit, act, Cursor.here, Machine.read, relocate, hget]
      cases m.machine.store.get? m.scope x.name <;> exact ⟨t, rfl⟩
  | _ => exact ⟨t, rfl⟩

theorem start_relocate (hs : m.machine.store.Agrees f m.scope t) (s : Stmt) :
    ∃ u, (m.relocate f bottom t).start s = (m.start s).relocate f bottom u := by
  cases s with
  | declare x e _ =>
      cases e with
      | none => exact declare_relocate hs x.name .nil
      | some e => exact ⟨t, rfl⟩
  | block body _ =>
      refine ⟨(t.child (f m.scope)).2, ?_⟩
      simp only [start, enter, relocate, Store.child, Store.fst_addScope, hs.size_scopes]
      rfl
  | function g params body declSpan _ =>
      refine ⟨(Event.function ⟨g, params, body, declSpan⟩).apply (f m.scope) t, ?_⟩
      simp only [start, act, Step.bind_apply, Cursor.here, Machine.onStore, Cursor.declare,
        relocate, Event.apply, Store.fst_define, Store.addFunction, hs.size_scopes,
        hs.size_captured]
  | _ => exact ⟨t, rfl⟩

theorem back_relocate (task : Task) :
    (m.relocate f bottom t).back (task.relocate f) = (m.back task).relocate f bottom t := by
  cases task <;> rfl

variable [Sink σ]

theorem resume_relocate (hs : m.machine.store.Agrees f m.scope t) (v : Value) (task : Task) :
    ∃ u, (m.relocate f bottom t).resume v (task.relocate f) =
      (m.resume v task).relocate f bottom u := by
  cases task with
  | assign x =>
      have hresolve := hs.resolve x.name
      simp only [Task.relocate, resume, act, Cursor.here, Step.bind_apply, Machine.write, relocate,
        hresolve]
      cases m.machine.store.resolve m.scope x.name <;> exact ⟨_, rfl⟩
  | logical op r =>
      simp only [Task.relocate, resume]
      split <;> exact ⟨t, rfl⟩
  | unary op => exact blame_relocate op.span _
  | binary op l => exact blame_relocate op.span _
  | callee args paren =>
      cases v with
      | callable c => exact gather_relocate hs c [] paren args
      | number | string | bool | nil => exact ⟨t, rfl⟩
  | argument c done rest paren => exact gather_relocate hs c (done ++ [v]) paren rest
  | declare name => exact declare_relocate hs name v
  | branch s e =>
      simp only [Task.relocate, resume]
      split
      · exact ⟨t, rfl⟩
      · cases e <;> exact ⟨t, rfl⟩
  | test c body span =>
      simp only [Task.relocate, resume]
      split <;> exact ⟨t, rfl⟩
  | rest body => cases body <;> exact ⟨t, rfl⟩
  | choose | right | print | discard | again | leave | finish => exact ⟨t, rfl⟩

/-- The step is the same but for the numbers of the scopes, and so is what happens to the store. -/
theorem next_relocate (hs : m.machine.store.Agrees f m.scope t) (hm : ¬m.Halted) :
    (m.relocate f bottom t).next =
      m.next.relocate f bottom (m.event.apply (f m.scope) t) := by
  suffices ∃ u, (m.relocate f bottom t).next = m.next.relocate f bottom u by
    obtain ⟨u, hu⟩ := this
    have hstore := (m.relocate f bottom t).store_next
    rw [hu, event_relocate hm] at hstore
    have hu' : u = m.event.apply (f m.scope) t := hstore
    rw [hu, hu']
  obtain ⟨focus, scope, tasks, machine⟩ := m
  cases focus with
  | expr e => exact visit_relocate hs e
  | stmt s => exact start_relocate hs s
  | done o =>
      cases tasks with
      | nil => exact absurd ⟨⟨o, rfl⟩, rfl⟩ hm
      | cons task tasks =>
          let rest : Moment σ := ⟨.done o, scope, tasks, machine⟩
          cases o with
          | ok v => exact resume_relocate (m := rest) hs v task
          | error | outOfFuel => exact ⟨t, back_relocate (m := rest) task⟩

end Moment

end Scriptlet
