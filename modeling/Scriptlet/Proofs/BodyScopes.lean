import Scriptlet.Proofs.CallDepth
import Scriptlet.Proofs.SessionMoments
import Scriptlet.Proofs.StoreEvents

namespace Scriptlet

open Step

variable {σ : Type}

namespace Store

variable {s t : Store} {i j k : ScopeId}

theorem lt_size_of_parent? (h : s.parent? i = some j) : i < s.scopes.size := by
  apply Nat.lt_of_not_le
  intro hle
  rw [s.parent?_eq_none_of_size_le i hle] at h
  cases h

theorem mem_chain_self (s : Store) (i : ScopeId) : i ∈ s.chain i := by
  rw [chain_eq]
  exact List.mem_cons_self

theorem mem_chain_of_parent? (h : s.parent? i = some j) (hk : k ∈ s.chain j) : k ∈ s.chain i := by
  rw [chain_eq, h]
  exact List.mem_cons_of_mem i hk

theorem chain_of_parent? (h : s.parent? i = some j) : ∃ outer, s.chain i = i :: j :: outer := by
  rw [chain_eq, h, Option.elim_some, chain_eq]
  exact ⟨_, rfl⟩

theorem Evolves.chain_eq (h : s.Evolves t) (hi : i < s.scopes.size) : t.chain i = s.chain i :=
  chain_congr fun j hj => h.parent j (Nat.lt_of_le_of_lt hj hi)

theorem parent?_child (hi : i < s.scopes.size) :
    (s.child i).2.parent? s.scopes.size = some i := by
  rw [child, parent?_addScope, if_pos rfl]
  simpa using hi

theorem parent?_fst_define (hi : i < s.scopes.size) (name : String) (v : Value) :
    (s.define i name v).2.parent? (s.define i name v).1 = some i := by
  rw [fst_define]
  exact s.parent?_define_new name v hi

theorem parent?_frame (hi : i < s.scopes.size) (params : List Ident) (args : List Value) :
    (s.frame i params args).2.parent? s.scopes.size = some i := by
  apply s.frame_induction (P := fun t => t.parent? s.scopes.size = some i) i params args
  · exact parent?_child hi
  · exact fun t b _ h => (parent?_bind t _ _ b.1.name b.2).trans h

theorem chain_eq_append (h : k ∈ s.chain i) :
    ∃ inner, s.chain i = inner ++ s.chain k ∧ ∀ j ∈ inner, k < j := by
  induction i using Nat.strongRecOn with
  | ind i ih =>
      rw [chain_eq] at h
      rcases List.mem_cons.mp h with rfl | h
      · exact ⟨[], rfl, List.forall_mem_nil _⟩
      · cases hp : s.parent? i with
        | none => simp [hp] at h
        | some p =>
            rw [hp] at h
            have hlt := lt_of_parent?_eq_some hp
            obtain ⟨inner, hc, hinner⟩ := ih p hlt h
            have hk : k < i := Nat.lt_of_le_of_lt (le_of_mem_chain h) hlt
            refine ⟨i :: inner, ?_, List.forall_mem_cons.mpr ⟨hk, hinner⟩⟩
            rw [chain_eq, hp, Option.elim_some, hc, List.cons_append]

theorem resolve_of_chain {name : String} {c : CellId} {inner outer : List ScopeId}
    (hchain : s.chain j = inner ++ i :: outer)
    (hinner : ∀ k ∈ inner, (s.bindings k).lookup name = none)
    (hi : (s.bindings i).lookup name = some c) : s.resolve j name = some c := by
  rw [resolve_eq_findSome?, hchain, List.findSome?_append, List.findSome?_eq_none_iff.mpr hinner,
    Option.none_or, List.findSome?_cons, hi]

end Store

namespace Moment

def returns (m : Moment σ) : List Task :=
  m.tasks.filter fun task => task.scope?.isSome

/-- What a step does to the current scope and to those it comes back to. -/
inductive Turn (m m' : Moment σ) : Prop
  | stay (scope : m'.scope = m.scope) (returns : m'.returns = m.returns)
  | declare (parent : m'.machine.store.parent? m'.scope = some m.scope)
      (returns : m'.returns = m.returns)
  | block (parent : m'.machine.store.parent? m'.scope = some m.scope)
      (returns : m'.returns = .leave m.scope :: m.returns)
  | call (returns : m'.returns = .finish m.scope :: m.returns)
  | back (task : Task) (scope : task.scope? = some m'.scope)
      (returns : m.returns = task :: m'.returns)

section

variable (m : Moment σ)

theorem look_turn {focus : Focus} {task : Task} (h : task.scope? = none) :
    Turn m (m.look focus task) :=
  .stay rfl (by simp [look, returns, h])

theorem here_turn (f : ScopeId → Step (Machine σ) Value) : Turn m (m.act (Cursor.here f)) :=
  .stay rfl rfl

theorem declare_turn (hm : m.scope < m.machine.store.scopes.size) (name : String) (v : Value) :
    Turn m (m.act (Cursor.declare name v)) :=
  .declare (Store.parent?_fst_define hm name v) rfl

theorem apply_turn (c : Callable) (args : List Value) (paren : Span) :
    Turn m (m.apply c args paren) := by
  unfold apply
  split
  · cases c with
    | native => exact m.here_turn _
    | function id d =>
        dsimp only
        split
        · exact .call rfl
        · exact m.here_turn _
  · exact m.here_turn _

theorem gather_turn (c : Callable) (done : List Value) (paren : Span) (rest : List Expr) :
    Turn m (m.gather c done paren rest) := by
  cases rest with
  | nil => exact m.apply_turn c done paren
  | cons a rest => exact m.look_turn rfl

theorem visit_turn (e : Expr) : Turn m (m.visit e) := by
  cases e with
  | literal | grouping => exact .stay rfl rfl
  | var => exact m.here_turn _
  | assign | logical | conditional | unary | binary | call => exact m.look_turn rfl

theorem start_turn (hm : m.scope < m.machine.store.scopes.size) (s : Stmt) :
    Turn m (m.start s) := by
  cases s with
  | expr | forLoop => exact .stay rfl rfl
  | print | ifElse | whileLoop => exact m.look_turn rfl
  | declare x e _ =>
      cases e with
      | none => exact m.declare_turn hm x.name .nil
      | some e => exact m.look_turn rfl
  | block body _ => exact .block (Store.parent?_child hm) rfl
  | function f params body declSpan _ =>
      exact .declare (Store.parent?_fst_define
        (s := (m.machine.store.addFunction ⟨f, params, body, declSpan⟩ m.scope).2) hm f.name _) rfl

theorem back_turn {task : Task} {tasks : List Task} (h : m.tasks = task :: tasks) :
    Turn m ({ m with tasks }.back task) := by
  cases task with
  | leave scope => exact .back (.leave scope) rfl (by simp only [returns, h]; rfl)
  | finish scope => exact .back (.finish scope) rfl (by simp only [returns, h]; rfl)
  | _ => exact .stay rfl (by simp only [returns, h]; rfl)

end

theorem Turn.of_pop {m m' : Moment σ} {task : Task} {tasks : List Task}
    (h : m.tasks = task :: tasks) (ht : task.scope? = none) (k : Turn { m with tasks } m') :
    Turn m m' := by
  have hr : ({ m with tasks } : Moment σ).returns = m.returns := by
    simp [returns, h, ht]
  cases k with
  | stay hs hk => exact .stay hs (hk.trans hr)
  | declare hp hk => exact .declare hp (hk.trans hr)
  | block hp hk => exact .block hp (hk.trans (congrArg _ hr))
  | call hk => exact .call (hk.trans (congrArg _ hr))
  | back task hs hk => exact .back task hs (hr.symm.trans hk)

variable [Sink σ]

theorem resume_turn {m : Moment σ} (hm : m.scope < m.machine.store.scopes.size) (v : Value)
    {task : Task} {tasks : List Task} (ht : m.tasks = task :: tasks) :
    Turn m ({ m with tasks }.resume v task) := by
  cases task with
  | assign | unary | binary => exact .of_pop ht rfl (here_turn _ _)
  | choose | again | discard | print => exact .of_pop ht rfl (.stay rfl rfl)
  | logical op r =>
      apply Turn.of_pop ht rfl
      simp only [resume]
      split
      · exact .stay rfl rfl
      · exact .stay rfl rfl
  | right => exact .of_pop ht rfl (look_turn _ rfl)
  | callee args paren =>
      apply Turn.of_pop ht rfl
      cases v with
      | callable c => exact gather_turn _ c [] paren args
      | number | string | bool | nil => exact here_turn _ _
  | argument c done rest paren => exact .of_pop ht rfl (gather_turn _ c _ paren rest)
  | declare name => exact .of_pop ht rfl (declare_turn { m with tasks } hm name v)
  | branch t e =>
      apply Turn.of_pop ht rfl
      simp only [resume]
      split
      · exact look_turn _ rfl
      · cases e with
        | none => exact .stay rfl rfl
        | some e => exact look_turn _ rfl
  | test c body span =>
      apply Turn.of_pop ht rfl
      simp only [resume]
      split
      · exact look_turn _ rfl
      · exact .stay rfl rfl
  | rest body =>
      cases body with
      | nil => exact .of_pop ht rfl (.stay rfl rfl)
      | cons s body => exact .of_pop ht rfl (look_turn _ rfl)
  | leave | finish => exact m.back_turn ht

theorem next_turn {m : Moment σ} (hm : m.scope < m.machine.store.scopes.size) : Turn m m.next := by
  unfold next
  split
  · next e _ => exact m.visit_turn e
  · next s _ => exact m.start_turn hm s
  · next o _ =>
      split
      · exact .stay rfl rfl
      · next task tasks ht =>
          cases o with
          | ok v => exact resume_turn hm v ht
          | error | outOfFuel => exact m.back_turn ht

end Moment

/-- `P` holds of the scopes that the outermost of the bodies under way works in. These are the ones
from the last way back from a call on. -/
def Task.BodyScopes (P : ScopeId → Prop) (scope : ScopeId) : List Task → Prop
  | [] => P scope
  | task :: tasks =>
    ((task :: tasks).any Task.isFinish = false → P scope) ∧
      BodyScopes P (task.scope?.getD scope) tasks

namespace Task.BodyScopes

variable {P P' : ScopeId → Prop} {scope scope' : ScopeId} {tasks : List Task}

theorem current (h : BodyScopes P scope tasks) (ht : tasks.any Task.isFinish = false) :
    P scope := by
  cases tasks with
  | nil => exact h
  | cons task tasks => exact h.1 ht

theorem imp (h : BodyScopes P scope tasks) (hscope : P scope → P' scope')
    (himp : ∀ i, P i → P' i) : BodyScopes P' scope' tasks := by
  induction tasks generalizing scope scope' with
  | nil => exact hscope h
  | cons task tasks ih =>
      refine ⟨fun ht => hscope (h.1 ht), ih h.2 ?_⟩
      cases task.scope? with
      | none => exact hscope
      | some i => exact himp i

end Task.BodyScopes

namespace Moment

/-- The body of a function that was called from the scope `caller` is under way, and its own code
works within the scope `k`. -/
def Inside (k caller : ScopeId) (rest : List Task) (m : Moment σ) : Prop :=
  ∃ own, m.returns = own ++ .finish caller :: rest ∧
    Task.BodyScopes (fun i => i < m.machine.store.scopes.size ∧ k ∈ m.machine.store.chain i)
      m.scope own

variable {m : Moment σ} {k caller : ScopeId} {rest : List Task}

theorem active_eq_countP_returns (m : Moment σ) : m.active = m.returns.countP Task.isFinish := by
  rw [active, returns, List.countP_filter]
  refine List.countP_congr fun task _ => ?_
  cases task <;> simp [Task.isFinish, Task.scope?]

theorem Inside.mem_chain_of_active (h : m.Inside k caller rest)
    (hm : m.active = rest.countP Task.isFinish + 1) : k ∈ m.machine.store.chain m.scope := by
  obtain ⟨own, hr, hown⟩ := h
  refine (hown.current ?_).2
  rw [active_eq_countP_returns, hr, List.countP_append, Task.countP_finish, Nat.add_eq_right] at hm
  rw [List.any_eq_false]
  exact List.countP_eq_zero.mp hm

theorem returns_tail {c : Callable} {args : List Value} {paren : Span}
    (h : m.attempt? = some (c, args, paren)) :
    (m.tasks.tail.filter fun task => task.scope?.isSome) = m.returns := by
  unfold attempt? at h
  split at h
  · next ht => simp [returns, ht, Task.scope?]
  · next ht => simp [returns, ht, Task.scope?]
  · cases h

theorem not_halted_of_attempt? {c : Callable} {args : List Value} {paren : Span}
    (h : m.attempt? = some (c, args, paren)) : ¬m.Halted := by
  rintro ⟨-, ht⟩
  simp [attempt?, ht] at h

theorem not_halted_of_event_call {id : FunctionId} {d : Declaration} {args : List Value}
    (h : m.event = .call id d args) : ¬m.Halted := by
  obtain ⟨paren, hcall, -⟩ := attempt?_of_event_call h
  exact not_halted_of_attempt? hcall

theorem not_halted_of_active {n : Nat} (h : n < m.active) : ¬m.Halted := by
  rintro ⟨-, ht⟩
  simp [active, ht] at h

variable [Sink σ]

theorem Inside.next (h : m.Inside k caller rest) (hm : m.Orderly)
    (hactive : rest.countP Task.isFinish < m.next.active) : m.next.Inside k caller rest := by
  obtain ⟨own, hr, hown⟩ := h
  have hev := m.evolves_next
  have hkeep : ∀ i, i < m.machine.store.scopes.size ∧ k ∈ m.machine.store.chain i →
      i < m.next.machine.store.scopes.size ∧ k ∈ m.next.machine.store.chain i := by
    rintro i ⟨hi, hk⟩
    exact ⟨Nat.lt_of_lt_of_le hi hev.scopes, hev.chain_eq hi ▸ hk⟩
  have hinward (hp : m.next.machine.store.parent? m.next.scope = some m.scope)
      (hi : m.scope < m.machine.store.scopes.size ∧ k ∈ m.machine.store.chain m.scope) :
      m.next.scope < m.next.machine.store.scopes.size ∧
        k ∈ m.next.machine.store.chain m.next.scope :=
    ⟨Store.lt_size_of_parent? hp, Store.mem_chain_of_parent? hp (hkeep _ hi).2⟩
  cases next_turn hm.scope_lt with
  | stay hs hn =>
      exact ⟨own, hn.trans hr, hown.imp (fun hi => hs ▸ hkeep _ hi) hkeep⟩
  | declare hp hn => exact ⟨own, hn.trans hr, hown.imp (hinward hp) hkeep⟩
  | block hp hn =>
      refine ⟨.leave m.scope :: own, by rw [hn, hr, List.cons_append], fun ht => ?_,
        hown.imp (hkeep _) hkeep⟩
      exact hinward hp (hown.current (by simpa [Task.isFinish] using ht))
  | call hn =>
      refine ⟨.finish m.scope :: own, by rw [hn, hr, List.cons_append], fun ht => ?_,
        hown.imp (hkeep _) hkeep⟩
      simp [Task.isFinish] at ht
  | back task hs hn =>
      rw [hr] at hn
      cases own with
      | nil =>
          rw [active_eq_countP_returns, ← (List.cons.inj hn).2] at hactive
          exact absurd hactive (Nat.lt_irrefl _)
      | cons first own =>
          obtain ⟨rfl, htasks⟩ := List.cons.inj hn
          refine ⟨own, htasks.symm, ?_⟩
          have htail := hown.2
          rw [hs, Option.getD_some] at htail
          exact htail.imp (hkeep _) hkeep

theorem next_of_event_call {id : FunctionId} {d : Declaration} {args : List Value}
    (h : m.event = .call id d args)
    (hid : m.machine.store.capturedScope id < m.machine.store.scopes.size) :
    m.next.scope = m.machine.store.scopes.size ∧
      m.next.machine.store.parent? m.machine.store.scopes.size =
        some (m.machine.store.capturedScope id) ∧
      m.next.returns = .finish m.scope :: m.returns := by
  obtain ⟨paren, hcall, harity, hroom⟩ := attempt?_of_event_call h
  rw [next_of_attempt? hcall]
  simp only [apply, Callable.arity, harity, hroom, if_true]
  exact ⟨rfl, Store.parent?_frame hid d.params args, congrArg _ (returns_tail hcall)⟩

theorem Inside.of_event_call {id : FunctionId} {d : Declaration} {args : List Value}
    (h : m.event = .call id d args)
    (hid : m.machine.store.capturedScope id < m.machine.store.scopes.size) :
    m.next.Inside m.machine.store.scopes.size m.scope m.returns := by
  obtain ⟨hscope, hparent, hreturns⟩ := next_of_event_call h hid
  refine ⟨[], hreturns, ?_⟩
  rw [hscope]
  exact ⟨Store.lt_size_of_parent? hparent, Store.mem_chain_self _ _⟩

end Moment

/-- The body that is entered by the step from `u` to the next is under way at the later time `w`,
and it is its own code that is at work then, not that of a function it has called in turn. -/
structure Session.RunsBody [Sink σ] (s : Session σ) (u w : Nat) : Prop where
  later : u < w
  underway : ∀ v, u < v → v ≤ w → (s.after u).moment.active < (s.after v).moment.active
  own : (s.after w).moment.active = (s.after u).moment.active + 1

namespace Session

variable [Sink σ] {s : Session σ} {u w : Nat} {id : FunctionId} {d : Declaration}
  {args : List Value}

theorem moment_after_succ (h : ¬(s.after u).moment.Halted) :
    (s.after (u + 1)).moment = (s.after u).moment.next := by
  rw [after_succ, next_of_not_halted h]

/-- The code of a body works within the scope that the function captured, in scopes that have been
made since the call. -/
theorem RunsBody.exists_chain_eq (h : s.RunsBody u w) (hs : s.moment.Orderly)
    (hcall : (s.after u).moment.event = .call id d args)
    (hid : (s.after u).moment.machine.store.capturedScope id <
      (s.after u).moment.machine.store.scopes.size) :
    ∃ inner outer, (s.after w).moment.machine.store.chain (s.after w).moment.scope =
        inner ++ (s.after u).moment.machine.store.capturedScope id :: outer ∧
      ∀ j ∈ inner, (s.after u).moment.machine.store.scopes.size ≤ j := by
  have hfirst := moment_after_succ (Moment.not_halted_of_event_call hcall)
  have hinside : ∀ v, u < v → v ≤ w →
      (s.after v).moment.Inside (s.after u).moment.machine.store.scopes.size
        (s.after u).moment.scope (s.after u).moment.returns ∧
      (s.after (u + 1)).moment.machine.store.Evolves (s.after v).moment.machine.store := by
    intro v huv
    induction huv with
    | refl => exact fun _ => ⟨hfirst ▸ .of_event_call hcall hid, .refl _⟩
    | @step v huv ih =>
        intro hvw
        obtain ⟨hin, hev⟩ := ih (Nat.le_of_succ_le hvw)
        have hv := h.underway v huv (Nat.le_of_succ_le hvw)
        have hnext := h.underway (v + 1) (Nat.lt_succ_of_lt huv) hvw
        rw [moment_after_succ (Moment.not_halted_of_active hv)] at hnext ⊢
        rw [Moment.active_eq_countP_returns (s.after u).moment] at hnext
        exact ⟨hin.next (orderly_after hs v) hnext, hev.trans (Moment.evolves_next _)⟩
  obtain ⟨hin, hev⟩ := hinside w h.later (Nat.le_refl w)
  obtain ⟨inner, hchain, hinner⟩ := Store.chain_eq_append (hin.mem_chain_of_active (by
    rw [h.own, Moment.active_eq_countP_returns]))
  have hparent := (Moment.next_of_event_call hcall hid).2.1
  rw [← hfirst] at hparent
  rw [← hev.parent _ (Store.lt_size_of_parent? hparent)] at hparent
  obtain ⟨outer, hscope⟩ := Store.chain_of_parent? hparent
  refine ⟨inner ++ [(s.after u).moment.machine.store.scopes.size], outer, ?_, fun j hj => ?_⟩
  · rw [hchain, hscope, List.append_assoc, List.singleton_append]
  · rcases List.mem_append.mp hj with hj | hj
    · exact Nat.le_of_lt (hinner j hj)
    · exact Nat.le_of_eq (List.mem_singleton.mp hj).symm

end Session

end Scriptlet
