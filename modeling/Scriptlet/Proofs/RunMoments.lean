import Scriptlet.Proofs.Computation
import Scriptlet.Proofs.Moment

namespace Scriptlet

variable {σ α : Type}

theorem Cursor.here_bind (x : ScopeId → Step (Machine σ) α)
    (f : α → ScopeId → Step (Machine σ) Value) :
    Cursor.here (fun i => x i >>= fun a => f a i) =
      (Cursor.here x >>= fun a => Cursor.here (f a) : Step (Cursor σ) Value) := by
  funext c
  simp only [Cursor.here, Step.bind_apply]
  obtain ⟨o, m⟩ := x c.scope c.machine
  cases o <;> rfl

namespace Moment

variable [Sink σ]

def Busy (n : Nat) (m : Moment σ) : Prop :=
  ∀ t < n, ¬(next^[t] m).Halted

theorem Busy.of_next {n : Nat} {m : Moment σ} (h : ¬m.Halted) (k : Busy n m.next) :
    Busy (n + 1) m := by
  intro t ht
  cases t with
  | zero => exact h
  | succ t =>
      rw [Function.iterate_succ_apply]
      exact k t (by omega)

theorem Busy.of_iterate {n t : Nat} {m : Moment σ} (h : Busy n (next^[t] m)) : Busy n m := by
  intro u hu halted
  rcases Nat.le_total u t with hut | htu
  · have hsplit : next^[t] m = next^[u] m := by
      rw [← Nat.sub_add_cancel hut, Function.iterate_add_apply, halted.iterate]
    exact h 0 (by omega) (hsplit ▸ halted)
  · rw [← Nat.sub_add_cancel htu, Function.iterate_add_apply] at halted
    exact h (u - t) (by omega) halted

/-- From `m` the waiting tasks get to see the result `r`, unless `n` units of fuel were too few for
it. -/
structure Answers (n : Nat) (m : Moment σ) (tasks : List Task) (r : Outcome Value × Cursor σ) :
    Prop where
  reaches : r.1 ≠ .outOfFuel → ∃ t, next^[t] m = ⟨.done r.1, r.2.scope, tasks, r.2.machine⟩
  busy : r.1 = .outOfFuel → Busy n m

namespace Answers

variable {n : Nat} {m : Moment σ} {tasks : List Task} {r : Outcome Value × Cursor σ}

theorem zero (c : Cursor σ) : Answers 0 m tasks (.outOfFuel, c) :=
  ⟨fun h => absurd rfl h, fun _ t ht => absurd ht (Nat.not_lt_zero t)⟩

theorem step (h : ¬m.Halted) (k : Answers n m.next tasks r) : Answers (n + 1) m tasks r where
  reaches hr := by
    obtain ⟨t, ht⟩ := k.reaches hr
    exact ⟨t + 1, by rw [Function.iterate_succ_apply, ht]⟩
  busy hr := .of_next h (k.busy hr)

theorem weaken (h : Answers (n + 1) m tasks r) : Answers n m tasks r :=
  ⟨h.reaches, fun hr t ht => h.busy hr t (by omega)⟩

theorem of_iterate {t : Nat} (h : Answers n (next^[t] m) tasks r) : Answers n m tasks r where
  reaches hr := by
    obtain ⟨u, hu⟩ := h.reaches hr
    exact ⟨u + t, by rw [Function.iterate_add_apply, hu]⟩
  busy hr := .of_iterate (h.busy hr)

theorem act {x : Step (Cursor σ) Value} (h : x.Fuelless) :
    Answers n (m.act x) m.tasks (x ⟨m.scope, m.machine⟩) :=
  ⟨fun _ => ⟨0, rfl⟩, fun hr => absurd hr (h _)⟩

theorem pass {task : Task} {o : Outcome Value} {c : Cursor σ}
    (h : Answers n (next ⟨.done o, c.scope, task :: tasks, c.machine⟩) tasks r) :
    Answers n (⟨.done o, c.scope, task :: tasks, c.machine⟩ : Moment σ) tasks r :=
  (h.step (by rintro ⟨-, ht⟩; cases ht)).weaken

theorem bind {task : Task} (htask : ∀ m : Moment σ, m.back task = m) {x : Step (Cursor σ) Value}
    {f : Value → Step (Cursor σ) Value} {c : Cursor σ}
    (hx : Answers n m (task :: tasks) (x c))
    (hf : ∀ v (d : Cursor σ),
      Answers n ⟨.done (.ok v), d.scope, task :: tasks, d.machine⟩ tasks (f v d)) :
    Answers n m tasks ((x >>= f) c) := by
  rw [Step.bind_apply]
  generalize x c = r at hx
  obtain ⟨o, d⟩ := r
  cases o with
  | ok v =>
      obtain ⟨t, ht⟩ := hx.reaches nofun
      exact .of_iterate (t := t) (ht ▸ hf v d)
  | error e =>
      obtain ⟨t, ht⟩ := hx.reaches nofun
      refine .of_iterate (t := t) (ht ▸ pass (c := d) ?_)
      exact ⟨fun _ => ⟨0, htask _⟩, nofun⟩
  | outOfFuel => exact ⟨fun h => absurd rfl h, fun _ => hx.busy rfl⟩

theorem back {task : Task} {d : Cursor σ} (h : Answers n m (task :: tasks) r)
    (hback : ∀ o, next ⟨.done o, r.2.scope, task :: tasks, r.2.machine⟩ =
      (⟨.done o, d.scope, tasks, d.machine⟩ : Moment σ)) :
    Answers n m tasks (r.1, d) where
  reaches hr := by
    obtain ⟨t, ht⟩ := h.reaches hr
    exact ⟨t + 1, by rw [Function.iterate_succ_apply', ht, hback]⟩
  busy := h.busy

end Answers

/-- What one level of fuel computes is what the moments arrive at. -/
structure Follows (σ : Type) [Sink σ] (n : Nat) : Prop where
  expr (e : Expr) (tasks : List Task) (c : Cursor σ) :
    Answers n ⟨.expr e, c.scope, tasks, c.machine⟩ tasks (Cursor.here (evalExpr n e) c)
  stmt (s : Stmt) (tasks : List Task) (c : Cursor σ) :
    Answers n ⟨.stmt s, c.scope, tasks, c.machine⟩ tasks (execStmt n s c)
  call (f : Callable) (args : List Value) (paren : Span) (m : Moment σ) :
    Answers n (m.apply f args paren) m.tasks
      (Cursor.here (fun _ => Scriptlet.call n f args paren) ⟨m.scope, m.machine⟩)

namespace Follows

variable {n : Nat}

theorem body (h : Follows σ n) (body : List Stmt) (v : Value) (tasks : List Task) (c : Cursor σ) :
    Answers (n + 1) ⟨.done (.ok v), c.scope, .rest body :: tasks, c.machine⟩ tasks
      (body.foldlM (fun _ s => execStmt n s) v c) := by
  induction body generalizing v c with
  | nil => exact .step (by rintro ⟨-, ht⟩; cases ht) ⟨fun _ => ⟨0, rfl⟩, nofun⟩
  | cons s body ih =>
      refine .step (by rintro ⟨-, ht⟩; cases ht) ?_
      rw [List.foldlM_cons]
      exact (h.stmt s (.rest body :: tasks) c).bind (fun _ => rfl) fun w d => (ih w d).weaken

theorem gather (h : Follows σ n) (f : Callable) (paren : Span) (rest : List Expr)
    (done : List Value) (m : Moment σ) :
    Answers n (m.gather f done paren rest) m.tasks
      (Cursor.here (fun scope => do
        let vs ← rest.mapM fun a => evalExpr n a scope
        Scriptlet.call n f (done ++ vs) paren) ⟨m.scope, m.machine⟩) := by
  induction rest generalizing done m with
  | nil => simpa [Moment.gather] using h.call f done paren m
  | cons a rest ih =>
      simp only [List.mapM_cons, bind_assoc, pure_bind, Cursor.here_bind]
      refine (h.expr a (.argument f done rest paren :: m.tasks) ⟨m.scope, m.machine⟩).bind
        (fun _ => rfl) fun v d => .pass ?_
      have hrest := ih (done ++ [v]) ⟨.done (.ok v), d.scope, m.tasks, d.machine⟩
      simp only [List.append_assoc, List.singleton_append, Cursor.here_bind] at hrest
      exact hrest

theorem succ_expr (h : Follows σ n) (e : Expr) (tasks : List Task) (c : Cursor σ) :
    Answers (n + 1) ⟨.expr e, c.scope, tasks, c.machine⟩ tasks
      (Cursor.here (evalExpr (n + 1) e) c) := by
  refine .step (by rintro ⟨⟨o, ho⟩, -⟩; cases ho) ?_
  cases e with
  | literal a _ => exact .act (.pure _)
  | grouping e _ => exact h.expr e tasks c
  | var x _ => exact .act (.here fun scope => Machine.read_fuelless scope x)
  | assign x e _ =>
      simp only [evalExpr]
      rw [Cursor.here_bind]
      refine (h.expr e (.assign x :: tasks) c).bind (fun _ => rfl) fun v d => .pass ?_
      exact .act (.here fun i => (Machine.write_fuelless i x v).bind fun _ => .pure v)
  | logical l op r _ =>
      simp only [evalExpr]
      rw [Cursor.here_bind]
      refine (h.expr l (.logical op.node r :: tasks) c).bind (fun _ => rfl) fun v d => .pass ?_
      simp only [next, resume]
      split
      · exact ⟨fun _ => ⟨0, rfl⟩, nofun⟩
      · exact h.expr r tasks d
  | conditional cond t e _ =>
      simp only [evalExpr]
      rw [Cursor.here_bind]
      refine (h.expr cond (.choose t e :: tasks) c).bind (fun _ => rfl) fun v d => .pass ?_
      simp only [next, resume]
      split
      · exact h.expr t tasks d
      · exact h.expr e tasks d
  | unary op e _ =>
      simp only [evalExpr]
      rw [Cursor.here_bind]
      refine (h.expr e (.unary op :: tasks) c).bind (fun _ => rfl) fun v d => .pass ?_
      exact .act (.here fun _ => .blame op.span _)
  | binary l op r _ =>
      simp only [evalExpr]
      rw [Cursor.here_bind]
      refine (h.expr l (.right op r :: tasks) c).bind (fun _ => rfl) fun v d => .pass ?_
      rw [Cursor.here_bind]
      refine (h.expr r (.binary op v :: tasks) d).bind (fun _ => rfl) fun w d => .pass ?_
      exact .act (.here fun _ => .blame op.span _)
  | call f args paren _ =>
      simp only [evalExpr]
      rw [Cursor.here_bind]
      refine (h.expr f (.callee args paren :: tasks) c).bind (fun _ => rfl) fun v d => .pass ?_
      cases v with
      | callable g => exact h.gather g paren args [] ⟨_, d.scope, tasks, d.machine⟩
      | number | string | bool | nil => exact .act (.here fun _ => .fail _ paren)

theorem succ_stmt (h : Follows σ n) (s : Stmt) (tasks : List Task) (c : Cursor σ) :
    Answers (n + 1) ⟨.stmt s, c.scope, tasks, c.machine⟩ tasks (execStmt (n + 1) s c) := by
  refine .step (by rintro ⟨⟨o, ho⟩, -⟩; cases ho) ?_
  cases s with
  | expr e _ => exact h.expr e tasks c
  | print e _ =>
      simp only [execStmt]
      refine (h.expr e (.print :: tasks) c).bind (fun _ => rfl) fun v d => .pass ?_
      exact .act (.bind (.here fun _ => Machine.println_fuelless v.text) fun _ => .pure _)
  | declare x e _ =>
      cases e with
      | none => exact .act (Cursor.declare_fuelless x.name .nil)
      | some e =>
          simp only [execStmt]
          refine (h.expr e (.declare x.name :: tasks) c).bind (fun _ => rfl) fun v d => .pass ?_
          exact .act (Cursor.declare_fuelless x.name v)
  | block body _ =>
      let s := c.machine.store.child c.scope
      let inner : Cursor σ := ⟨s.1, { c.machine with store := s.2 }⟩
      let last := (body.foldlM (fun _ s => execStmt n s) Value.nil inner).2.machine
      have hbody := (h.body body .nil (.leave c.scope :: tasks) inner).back
        (d := ⟨c.scope, last⟩) fun o => by cases o <;> rfl
      exact hbody.weaken
  | ifElse cond t e _ =>
      simp only [execStmt]
      refine (h.expr cond (.branch t e :: tasks) c).bind (fun _ => rfl) fun v d => .pass ?_
      have hdiscard (s : Stmt) : Answers n ⟨.stmt s, d.scope, .discard :: tasks, d.machine⟩ tasks
          ((execStmt n s >>= fun _ => pure .nil) d) :=
        (h.stmt s (.discard :: tasks) d).bind (fun _ => rfl) fun _ d' => .pass (.act (.pure _))
      simp only [next, resume]
      split
      · exact hdiscard t
      · cases e with
        | none => exact .act (.pure _)
        | some e => exact hdiscard e
  | whileLoop cond body span =>
      simp only [execStmt]
      refine (h.expr cond (.test cond body span :: tasks) c).bind (fun _ => rfl)
        fun v d => .pass ?_
      simp only [next, resume]
      split
      · exact (h.stmt body (.again cond body span :: tasks) d).bind (fun _ => rfl)
          fun _ d' => .pass (h.stmt (.whileLoop cond body span) tasks d')
      · exact .act (.pure _)
  | forLoop => exact .act (.fail _ _)
  | function f params body declSpan _ =>
      exact .act (.bind (.here fun _ => Machine.onStore_fuelless _)
        fun c => Cursor.declare_fuelless f.name (.callable c))

theorem succ_call (h : Follows σ n) (f : Callable) (args : List Value) (paren : Span)
    (m : Moment σ) :
    Answers (n + 1) (m.apply f args paren) m.tasks
      (Cursor.here (fun _ => Scriptlet.call (n + 1) f args paren) ⟨m.scope, m.machine⟩) := by
  unfold apply Scriptlet.call
  split
  · cases f with
    | native id name arity => exact .act (.here fun _ => Machine.invoke_fuelless id name args paren)
    | function id d =>
        by_cases hdepth : m.machine.callDepth < m.machine.config.maxCallDepth
        · let s := m.machine.store.frame (m.machine.store.capturedScope id) d.params args
          let inner : Cursor σ :=
            ⟨s.1, { m.machine with store := s.2, callDepth := m.machine.callDepth + 1 }⟩
          let last := (d.body.foldlM (fun _ s => execStmt n s) Value.nil inner).2.machine
          have hbody := (h.body d.body .nil (.finish m.scope :: m.tasks) inner).back
            (d := ⟨m.scope, { last with callDepth := last.callDepth - 1 }⟩)
            fun o => by cases o <;> rfl
          simp only [Cursor.here, Step.bind_apply, Machine.checkDepth, hdepth, if_true]
          exact hbody
        · simp only [Cursor.here, Step.bind_apply, Machine.checkDepth, hdepth, if_false]
          exact .act (.here fun _ => .fail _ paren)
  · exact .act (.here fun _ => .fail _ paren)

end Follows

theorem follows (n : Nat) : Follows σ n := by
  induction n with
  | zero => exact ⟨fun _ _ _ => .zero _, fun _ _ _ => .zero _, fun _ _ _ _ => .zero _⟩
  | succ n ih => exact ⟨ih.succ_expr, ih.succ_stmt, ih.succ_call⟩

end Moment

namespace Interpreter

variable [Sink σ]

def lastMoment (r : Outcome Value × Interpreter σ) : Moment σ :=
  ⟨.done r.1, r.2.environment, [], r.2.machine⟩

theorem run_answers (fuel : Nat) (program : List Stmt) (i : Interpreter σ) :
    Moment.Answers (fuel + 1) (i.moment program 0) []
      ((run fuel program i).1, ⟨(run fuel program i).2.environment, (run fuel program i).2.machine⟩) :=
  (Moment.follows fuel).body program .nil [] ⟨i.environment, i.machine⟩

theorem moment_of_run {fuel : Nat} {program : List Stmt} {i : Interpreter σ}
    (h : (run fuel program i).1 ≠ .outOfFuel) :
    ∃ t, ∀ u ≥ t, i.moment program u = lastMoment (run fuel program i) := by
  obtain ⟨t, ht⟩ := (run_answers fuel program i).reaches h
  refine ⟨t, fun u hu => ?_⟩
  have hlast : i.moment program t = lastMoment (run fuel program i) := ht
  have hhalt : (lastMoment (run fuel program i)).Halted := ⟨⟨_, rfl⟩, rfl⟩
  rw [← Nat.sub_add_cancel hu, moment_add, hlast]
  exact hhalt.iterate _

/-- Moments that come to a halt belong to a run that ends. -/
theorem run_of_moment {program : List Stmt} {i : Interpreter σ} {t : Nat}
    (h : (i.moment program t).Halted) :
    (run t program i).1 ≠ .outOfFuel ∧ i.moment program t = lastMoment (run t program i) := by
  have hfuel : (run t program i).1 ≠ .outOfFuel := fun hr =>
    (run_answers t program i).busy hr t (Nat.lt_succ_self t) h
  obtain ⟨u, hu⟩ := moment_of_run hfuel
  refine ⟨hfuel, ?_⟩
  rw [← hu (u + t) (Nat.le_add_right u t), moment_add]
  exact (h.iterate u).symm

end Interpreter

end Scriptlet
