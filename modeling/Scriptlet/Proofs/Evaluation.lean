import Scriptlet.Proofs.RunMoments

namespace Scriptlet

variable {σ : Type}

inductive Job where
  | expr (e : Expr) (scope : ScopeId)
  | stmt (s : Stmt) (scope : ScopeId)
  | block (body : List Stmt) (scope : ScopeId)
  | call (c : Callable) (args : List Value) (paren : Span)

namespace Job

/-- The moment at which a job begins. For a call, callee and arguments have their values then. It
does not matter from where it is made, so the scope that it is about to make stands for that. -/
def start (m : Machine σ) : Job → Moment σ
  | .expr e scope => ⟨.expr e, scope, [], m⟩
  | .stmt s scope => ⟨.stmt s, scope, [], m⟩
  | .block body scope => ⟨.done (.ok .nil), scope, [.rest body], m⟩
  | .call c args paren =>
    match args.getLast? with
    | none => ⟨.done (.ok (.callable c)), m.store.scopes.size, [.callee [] paren], m⟩
    | some v => ⟨.done (.ok v), m.store.scopes.size, [.argument c args.dropLast [] paren], m⟩

variable [Sink σ]

def perform (fuel : Nat) : Job → Step (Machine σ) Value
  | .expr e scope => evalExpr fuel e scope
  | .stmt s scope => Machine.within scope (execStmt fuel s)
  | .block body scope => Machine.within scope (execBlock fuel body)
  | .call c args paren => Scriptlet.call fuel c args paren

def moment (job : Job) (m : Machine σ) (t : Nat) : Moment σ :=
  Moment.next^[t] (job.start m)

end Job

namespace Moment

/-- The call that is made by the step from this moment to the next. -/
def attempt? (m : Moment σ) : Option (Callable × List Value × Span) :=
  match m.focus, m.tasks with
  | .done (.ok (.callable c)), .callee [] paren :: _ => some (c, [], paren)
  | .done (.ok v), .argument c done [] paren :: _ => some (c, done ++ [v], paren)
  | _, _ => none

variable [Sink σ] {m : Moment σ} {e : EvalError}

/-- The error comes up in the step from this moment to the next. -/
def Raises (m : Moment σ) (e : EvalError) : Prop :=
  m.focus ≠ .done (.error e) ∧ m.next.focus = .done (.error e)

theorem next_of_attempt? {c : Callable} {args : List Value} {paren : Span}
    (h : m.attempt? = some (c, args, paren)) :
    m.next = { m with tasks := m.tasks.tail }.apply c args paren := by
  unfold attempt? at h
  split at h
  · next hf ht =>
      cases h
      simp only [next, hf, ht]
      rfl
  · next hf ht =>
      cases h
      simp only [next, hf, ht]
      rfl
  · cases h

theorem halted_of_error (h : m.focus = .done (.error e)) :
    (next^[m.tasks.length] m).Halted ∧ (next^[m.tasks.length] m).focus = .done (.error e) := by
  obtain ⟨focus, scope, tasks, machine⟩ := m
  cases h
  induction tasks generalizing scope machine with
  | nil => exact ⟨⟨⟨_, rfl⟩, rfl⟩, rfl⟩
  | cons task tasks ih =>
      rw [List.length_cons, Function.iterate_succ_apply]
      cases task with
      | leave i => exact ih i machine
      | finish i => exact ih i { machine with callDepth := machine.callDepth - 1 }
      | _ => exact ih scope machine

end Moment

namespace Job

variable {job : Job} {m : Machine σ} {fuel t : Nat}

theorem attempt?_start_call (c : Callable) (args : List Value) (paren : Span) (m : Machine σ) :
    ((call c args paren).start m).attempt? = some (c, args, paren) := by
  cases h : args.getLast? with
  | none =>
      rw [List.getLast?_eq_none_iff.mp h]
      rfl
  | some v =>
      obtain ⟨done, rfl⟩ := List.getLast?_eq_some_iff.mp h
      simp [start, Moment.attempt?]

theorem start_call (c : Callable) (args : List Value) (paren : Span) (m : Machine σ) :
    ∃ v task,
      (call c args paren).start m = ⟨.done (.ok v), m.store.scopes.size, [task], m⟩ := by
  simp only [start]
  split <;> exact ⟨_, _, rfl⟩

theorem machine_start (job : Job) (m : Machine σ) : (job.start m).machine = m := by
  cases job with
  | expr | stmt | block => rfl
  | call c args paren =>
      obtain ⟨v, task, h⟩ := start_call c args paren m
      rw [h]

theorem focus_start_ne_error (job : Job) (m : Machine σ) (e : EvalError) :
    (job.start m).focus ≠ .done (.error e) := by
  cases job with
  | expr | stmt | block => simp [start]
  | call c args paren =>
      obtain ⟨v, task, h⟩ := start_call c args paren m
      simp [h]

variable [Sink σ]

theorem moment_succ : job.moment m (t + 1) = (job.moment m t).next :=
  Function.iterate_succ_apply' _ _ _

theorem answers (job : Job) (fuel : Nat) (m : Machine σ) : ∃ scope,
    Moment.Answers fuel (job.start m) []
      ((job.perform fuel m).1, ⟨scope, (job.perform fuel m).2⟩) := by
  cases job with
  | expr e scope => exact ⟨scope, (Moment.follows fuel).expr e [] ⟨scope, m⟩⟩
  | stmt s scope => exact ⟨_, (Moment.follows fuel).stmt s [] ⟨scope, m⟩⟩
  | block body scope => exact ⟨_, ((Moment.follows fuel).body body .nil [] ⟨scope, m⟩).weaken⟩
  | call c args paren =>
      have hnext := Moment.next_of_attempt? (attempt?_start_call c args paren m)
      obtain ⟨v, task, hstart⟩ := start_call c args paren m
      rw [hstart] at hnext ⊢
      refine ⟨m.store.scopes.size, (Moment.Answers.step ?_ ?_).weaken⟩
      · rintro ⟨-, ht⟩
        cases ht
      · rw [hnext]
        exact (Moment.follows fuel).call c args paren ⟨_, m.store.scopes.size, [], m⟩

/-- A job that ends does so at one of its moments, and stays there. -/
theorem moment_of_perform (h : (job.perform fuel m).1 ≠ .outOfFuel) :
    ∃ t scope, ∀ u ≥ t, job.moment m u =
      ⟨.done (job.perform fuel m).1, scope, [], (job.perform fuel m).2⟩ := by
  obtain ⟨scope, hanswers⟩ := job.answers fuel m
  obtain ⟨t, ht⟩ := hanswers.reaches h
  refine ⟨t, scope, fun u hu => ?_⟩
  rw [moment, ← Nat.sub_add_cancel hu, Function.iterate_add_apply, ht]
  exact Moment.Halted.iterate ⟨⟨_, rfl⟩, rfl⟩ _

theorem perform_of_moment (h : (job.moment m t).Halted) :
    (job.moment m t).focus = .done (job.perform (t + 1) m).1 := by
  obtain ⟨scope, hanswers⟩ := job.answers (t + 1) m
  have hfuel : (job.perform (t + 1) m).1 ≠ .outOfFuel := fun hr =>
    hanswers.busy hr t (Nat.lt_succ_self t) h
  obtain ⟨u, scope, hu⟩ := moment_of_perform hfuel
  have hlast := hu (u + t) (Nat.le_add_right u t)
  rw [moment, Function.iterate_add_apply] at hlast
  rw [← (h.iterate u), moment, hlast]

theorem error_iff_raises (job : Job) (m : Machine σ) (e : EvalError) :
    (∃ fuel, (job.perform fuel m).1 = .error e) ↔ ∃ t, (job.moment m t).Raises e := by
  constructor
  · rintro ⟨fuel, hfuel⟩
    obtain ⟨u, scope, hu⟩ := moment_of_perform (hfuel ▸ Outcome.error_ne_outOfFuel e)
    have hlast : (job.moment m u).focus = .done (.error e) := by
      rw [hu u (Nat.le_refl u), hfuel]
    -- the first moment that shows the error comes right after the one that raises it
    clear hu
    induction u with
    | zero => exact absurd hlast (job.focus_start_ne_error m e)
    | succ u ih =>
        rw [moment_succ] at hlast
        by_cases h : (job.moment m u).focus = .done (.error e)
        · exact ih h
        · exact ⟨u, h, hlast⟩
  · rintro ⟨t, -, ht⟩
    obtain ⟨hhalted, hfocus⟩ := Moment.halted_of_error ht
    rw [← moment_succ, moment, ← Function.iterate_add_apply] at hhalted hfocus
    exact ⟨_, Focus.done.inj ((perform_of_moment hhalted).symm.trans hfocus)⟩

end Job

end Scriptlet
