import Scriptlet.Proofs.Evaluation
import Scriptlet.Proofs.ScopesInUse

namespace Scriptlet

inductive Event where
  | none
  | assign (name : String) (v : Value)
  | block
  | call (id : FunctionId) (d : Declaration) (args : List Value)
  | declare (name : String) (v : Value)
  | function (d : Declaration)

namespace Event

def apply (scope : ScopeId) (s : Store) : Event → Store
  | .none => s
  | .assign name v => (s.resolve scope name).elim s (s.set · v)
  | .block => (s.child scope).2
  | .call id d args => (s.frame (s.capturedScope id) d.params args).2
  | .declare name v => (s.define scope name v).2
  | .function d =>
    let r := s.addFunction d scope
    (r.2.define scope d.name.name (.callable r.1)).2

def binds : Event → List String
  | .call _ d _ => d.params.map Ident.name
  | .declare name _ => [name]
  | .function d => [d.name.name]
  | .none | .assign _ _ | .block => []

def declares : Event → Bool
  | .declare _ _ | .function _ => true
  | .none | .assign _ _ | .block | .call _ _ _ => false

def overwrites? (scope : ScopeId) (s : Store) : Event → Option CellId
  | .assign name _ => s.resolve scope name
  | _ => Option.none

theorem getElem?_cells_apply {s : Store} {c : CellId} (hc : c < s.cells.size) (scope : ScopeId)
    {e : Event} (h : e.overwrites? scope s ≠ some c) :
    (e.apply scope s).cells[c]? = s.cells[c]? := by
  have hpush (v : Value) : (s.cells.push v)[c]? = s.cells[c]? := by
    rw [Array.getElem?_push, if_neg (Nat.ne_of_lt hc)]
  cases e with
  | none | block => rfl
  | assign name v =>
      simp only [apply]
      cases hd : s.resolve scope name with
      | none => rfl
      | some d =>
          have hne : d ≠ c := fun he => h (he ▸ hd)
          simp only [Option.elim_some, Store.set, Array.getElem?_setIfInBounds_ne hne]
  | call id d args =>
      suffices hframe : s.cells.size ≤ ((call id d args).apply scope s).cells.size ∧
          ((call id d args).apply scope s).cells[c]? = s.cells[c]? from hframe.2
      apply s.frame_induction
        (P := fun t => s.cells.size ≤ t.cells.size ∧ t.cells[c]? = s.cells[c]?)
      · exact ⟨Nat.le_refl _, rfl⟩
      · rintro t b - ⟨hle, ht⟩
        have hne : c ≠ t.cells.size := Nat.ne_of_lt (Nat.lt_of_lt_of_le hc hle)
        rw [Store.cells_bind, Array.size_push, Array.getElem?_push, if_neg hne]
        exact ⟨Nat.le_succ_of_le hle, ht⟩
  | declare name v => exact hpush v
  | function d => exact hpush _

end Event

namespace Moment

variable {σ : Type}

/-- A call opens a scope only if it gets as far as the body of a function. -/
def callEvent (m : Moment σ) (args : List Value) : Callable → Event
  | .native _ _ _ => .none
  | .function id d =>
    if args.length = d.params.length ∧ m.machine.callDepth < m.machine.config.maxCallDepth then
      .call id d args
    else .none

/-- What the step from this moment to the next does to the store. -/
def event (m : Moment σ) : Event :=
  match m.attempt? with
  | some (c, args, _) => m.callEvent args c
  | none =>
    match m.focus, m.tasks with
    | .stmt (.declare x none _), _ => .declare x.name .nil
    | .stmt (.block _ _), _ => .block
    | .stmt (.function f params body declSpan _), _ => .function ⟨f, params, body, declSpan⟩
    | .done (.ok v), .assign x :: _ => .assign x.name v
    | .done (.ok v), .declare name :: _ => .declare name v
    | _, _ => .none

theorem attempt?_of_event_call {m : Moment σ} {id : FunctionId} {d : Declaration}
    {args : List Value} (h : m.event = .call id d args) :
    ∃ paren, m.attempt? = some (.function id d, args, paren) ∧ args.length = d.params.length ∧
      m.machine.callDepth < m.machine.config.maxCallDepth := by
  unfold event at h
  split at h
  · next c args' paren hcall =>
      cases c with
      | native => cases h
      | function id' d' =>
          simp only [callEvent] at h
          split at h
          · next henter =>
              cases h
              exact ⟨paren, hcall, henter⟩
          · cases h
  · split at h
    all_goals cases h

theorem declares_event (m : Moment σ) :
    m.event.declares = m.declaration?.isSome := by
  cases hd : m.declaration? with
  | some name =>
      unfold declaration? at hd
      split at hd
      · next hf => simp [event, attempt?, hf, Event.declares]
      · next hf => simp [event, attempt?, hf, Event.declares]
      · next hf ht => simp [event, attempt?, hf, ht, Event.declares]
      · cases hd
  | none =>
      unfold event
      split
      · next c args paren _ =>
          cases c with
          | native => rfl
          | function id d =>
              simp only [callEvent]
              split <;> rfl
      · split
        · next hf => simp [declaration?, hf] at hd
        · rfl
        · next hf => simp [declaration?, hf] at hd
        · rfl
        · next hf ht => simp [declaration?, hf, ht] at hd
        · rfl

section

variable (m : Moment σ)

theorem store_blame (span : Span) (r : Except Fault Value) :
    (m.act (Cursor.here fun _ => Step.blame span r)).machine.store = m.machine.store := by
  cases r <;> rfl

theorem store_visit (e : Expr) : (m.visit e).machine.store = m.machine.store := by
  cases e with
  | var x _ =>
      simp only [visit, act, Cursor.here, Machine.read]
      cases m.machine.store.get? m.scope x.name <;> rfl
  | _ => rfl

theorem store_write (x : Ident) (v : Value) :
    (m.act (Cursor.here fun scope => do
      Machine.write scope x v
      return v)).machine.store = (Event.assign x.name v).apply m.scope m.machine.store := by
  simp only [act, Cursor.here, Step.bind_apply, Machine.write, Event.apply]
  cases m.machine.store.resolve m.scope x.name <;> rfl

theorem store_apply (c : Callable) (args : List Value) (paren : Span) :
    (m.apply c args paren).machine.store =
      (m.callEvent args c).apply m.scope m.machine.store := by
  unfold apply
  cases c with
  | native id name arity =>
      dsimp only
      split
      · exact m.store_blame paren _
      · rfl
  | function id d =>
      simp only [Callable.arity, callEvent]
      split
      · next harity =>
          split
          · next hroom => rw [if_pos ⟨harity, hroom⟩]; rfl
          · next hfull => rw [if_neg fun h => hfull h.2]; rfl
      · next harity => rw [if_neg fun h => harity h.1]; rfl

end

variable [Sink σ] {m : Moment σ}

theorem store_resume {v : Value} {task : Task} {tasks : List Task}
    (hf : m.focus = .done (.ok v)) (ht : m.tasks = task :: tasks) (hcall : m.attempt? = none) :
    ({ m with tasks }.resume v task).machine.store = m.event.apply m.scope m.machine.store := by
  simp only [event, hcall, hf, ht]
  cases task with
  | assign x => exact store_write { m with tasks } x v
  | unary op => exact store_blame { m with tasks } op.span _
  | binary op l => exact store_blame { m with tasks } op.span _
  | callee args paren =>
      cases v with
      | callable c =>
          cases args with
          | nil => simp [attempt?, hf, ht] at hcall
          | cons a args => rfl
      | number | string | bool | nil => rfl
  | argument c done rest paren =>
      cases rest with
      | nil => simp [attempt?, hf, ht] at hcall
      | cons a rest => rfl
  | logical op r =>
      simp only [resume]
      split <;> rfl
  | branch t e =>
      simp only [resume]
      split
      · rfl
      · cases e <;> rfl
  | test c body span =>
      simp only [resume]
      split <;> rfl
  | rest body => cases body <;> rfl
  | choose | again | right | print | declare | discard | leave | finish => rfl

theorem store_next (m : Moment σ) :
    m.next.machine.store = m.event.apply m.scope m.machine.store := by
  cases hcall : m.attempt? with
  | some call =>
      obtain ⟨c, args, paren⟩ := call
      rw [next_of_attempt? hcall, store_apply, event, hcall]
      rfl
  | none =>
      unfold next
      split
      · next e hf =>
          rw [store_visit, event, hcall, hf]
          rfl
      · next s hf =>
          simp only [event, hcall, hf]
          cases s with
          | declare x e _ => cases e <;> rfl
          | _ => rfl
      · next o hf =>
          split
          · next ht =>
              simp only [event, hcall, hf, ht]
              cases o <;> rfl
          · next task tasks ht =>
              cases o with
              | ok v => exact store_resume hf ht hcall
              | error | outOfFuel =>
                  simp only [event, hcall, hf]
                  cases task <;> rfl

def overwrites? (m : Moment σ) : Option CellId :=
  m.event.overwrites? m.scope m.machine.store

theorem getElem?_cells_next {c : CellId} (hc : c < m.machine.store.cells.size)
    (h : m.overwrites? ≠ some c) : m.next.machine.store.cells[c]? = m.machine.store.cells[c]? := by
  rw [store_next]
  exact Event.getElem?_cells_apply hc m.scope h

end Moment

end Scriptlet
