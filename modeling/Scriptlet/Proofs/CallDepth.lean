import Scriptlet.Proofs.Evaluation
import Scriptlet.Proofs.Faults
import Scriptlet.Proofs.ScopeFrame
import Scriptlet.Proofs.Session

namespace Scriptlet

open Step

variable {σ : Type}

def Task.isFinish : Task → Bool
  | .finish _ => true
  | _ => false

theorem Task.countP_finish (scope : ScopeId) (tasks : List Task) :
    (Task.finish scope :: tasks).countP Task.isFinish = tasks.countP Task.isFinish + 1 :=
  List.countP_cons_of_pos rfl

def Cursor.SameLimits (c d : Cursor σ) : Prop :=
  d.machine.config = c.machine.config ∧ d.machine.callDepth = c.machine.callDepth

theorem Cursor.here_sameLimits {f : ScopeId → Step (Machine σ) Value}
    (h : ∀ i, Preserves Machine.Grows (f i)) : Preserves Cursor.SameLimits (Cursor.here f) :=
  fun c => ⟨(h c.scope c.machine).config, (h c.scope c.machine).callDepth⟩

namespace Moment

/-- The number of function bodies that have begun and are not over. -/
def active (m : Moment σ) : Nat :=
  m.tasks.countP Task.isFinish

/-- A step that begins no body, ends none and refuses no call. -/
structure Keeps (m m' : Moment σ) : Prop where
  config : m'.machine.config = m.machine.config
  callDepth : m'.machine.callDepth = m.machine.callDepth
  active : m'.active = m.active
  calm : ∀ e, m'.focus = .done (.error e) → e.IsOverflow → m.focus = m'.focus

abbrev Calm (x : Step (Cursor σ) Value) : Prop :=
  Faults (fun _ => True) (fun e => ¬e.IsOverflow) x

section

variable (m : Moment σ)

theorem focus_keeps {focus : Focus} (h : ∀ o, focus ≠ .done o) :
    Keeps m { m with focus } :=
  ⟨rfl, rfl, rfl, fun e he => absurd he (h (.error e))⟩

theorem look_keeps {focus : Focus} {task : Task} (h : ∀ o, focus ≠ .done o)
    (ht : task.isFinish = false) : Keeps m (m.look focus task) :=
  ⟨rfl, rfl, by simp [active, look, ht], fun e he => absurd he (h (.error e))⟩

theorem act_keeps {x : Step (Cursor σ) Value} (hx : Preserves Cursor.SameLimits x)
    (hf : Calm x) : Keeps m (m.act x) := by
  obtain ⟨hconfig, hdepth⟩ := hx ⟨m.scope, m.machine⟩
  refine ⟨hconfig, hdepth, rfl, fun e he hover => ?_⟩
  exact absurd hover (hf ⟨m.scope, m.machine⟩ trivial e (Focus.done.inj he))

theorem pure_keeps (v : Value) : Keeps m (m.act (pure v)) :=
  m.act_keeps (fun _ => ⟨rfl, rfl⟩) (.pure v)

theorem here_keeps {f : ScopeId → Step (Machine σ) Value} (h : ∀ i, Preserves Machine.Grows (f i))
    (hf : ∀ i, Faults (fun _ => True) (fun e => ¬e.IsOverflow) (f i)) :
    Keeps m (m.act (Cursor.here f)) :=
  m.act_keeps (Cursor.here_sameLimits h) (.here (I := fun _ => True) hf)

theorem declare_keeps (name : String) (v : Value) : Keeps m (m.act (Cursor.declare name v)) :=
  m.act_keeps (fun _ => ⟨rfl, rfl⟩) (Cursor.declare_faults name v)

theorem visit_keeps (e : Expr) : Keeps m (m.visit e) := by
  cases e with
  | literal a _ => exact m.pure_keeps _
  | grouping e _ => exact m.focus_keeps (Focus.expr_ne_done e)
  | var x _ =>
      exact m.here_keeps (fun i => Machine.read_grows i x) fun i => Machine.read_faults (by simp)
  | assign | logical | conditional | unary | binary | call =>
      exact m.look_keeps (Focus.expr_ne_done _) rfl

theorem start_keeps (s : Stmt) : Keeps m (m.start s) := by
  cases s with
  | expr e _ => exact m.focus_keeps (Focus.expr_ne_done e)
  | print | ifElse | whileLoop => exact m.look_keeps (Focus.expr_ne_done _) rfl
  | declare x e _ =>
      cases e with
      | none => exact m.declare_keeps x.name .nil
      | some e => exact m.look_keeps (Focus.expr_ne_done e) rfl
  | block body _ => exact ⟨rfl, rfl, rfl, nofun⟩
  | forLoop => exact m.act_keeps (fun _ => ⟨rfl, rfl⟩) (.fail (by simp))
  | function => exact ⟨rfl, rfl, rfl, nofun⟩

end

theorem Keeps.of_pop {m m' : Moment σ} {task : Task} {tasks : List Task}
    (h : m.tasks = task :: tasks) (ht : task.isFinish = false) (k : Keeps { m with tasks } m') :
    Keeps m m' :=
  ⟨k.config, k.callDepth, k.active.trans (by simp [Moment.active, h, ht]), k.calm⟩

inductive Counts (m m' : Moment σ) : Prop
  | keep (h : Keeps m m')
  | refuse (id : FunctionId) (d : Declaration) (args : List Value) (paren : Span)
      (attempt : m.attempt? = some (.function id d, args, paren))
      (arity : args.length = d.params.length)
      (full : ¬m.machine.callDepth < m.machine.config.maxCallDepth)
      (machine : m'.machine = m.machine) (active : m'.active = m.active)
      (focus : m'.focus = .done (.error ⟨.stackOverflow m.machine.config.maxCallDepth, paren⟩))
  | enter (room : m.machine.callDepth < m.machine.config.maxCallDepth)
      (config : m'.machine.config = m.machine.config)
      (callDepth : m'.machine.callDepth = m.machine.callDepth + 1)
      (active : m'.active = m.active + 1) (focus : m'.focus = .done (.ok .nil))
  | finish (config : m'.machine.config = m.machine.config)
      (callDepth : m'.machine.callDepth = m.machine.callDepth - 1)
      (active : m'.active + 1 = m.active) (focus : m'.focus = m.focus)

variable {m : Moment σ}

theorem back_counts {task : Task} {tasks : List Task} (h : m.tasks = task :: tasks) :
    Counts m ({ m with tasks }.back task) := by
  cases task with
  | finish scope =>
      have hm : m.active = tasks.countP Task.isFinish + 1 := by rw [active, h, Task.countP_finish]
      exact .finish rfl rfl hm.symm rfl
  | _ => exact .keep (.of_pop h rfl ⟨rfl, rfl, rfl, fun _ _ _ => rfl⟩)

theorem active_tail {c : Callable} {args : List Value} {paren : Span}
    (h : m.attempt? = some (c, args, paren)) : m.tasks.tail.countP Task.isFinish = m.active := by
  unfold attempt? at h
  split at h
  · next ht => simp [active, ht, Task.isFinish]
  · next ht => simp [active, ht, Task.isFinish]
  · cases h

variable [Sink σ]

theorem attempt_counts {c : Callable} {args : List Value} {paren : Span}
    (h : m.attempt? = some (c, args, paren)) : Counts m m.next := by
  have hactive := active_tail h
  rw [next_of_attempt? h]
  unfold apply
  split
  · next harity =>
      cases c with
      | native id name arity =>
          have hk := here_keeps { m with tasks := m.tasks.tail }
            (fun _ => Machine.invoke_grows id name args paren)
            fun _ => Machine.invoke_faults (by simp)
          exact .keep ⟨hk.config, hk.callDepth, hk.active.trans hactive, hk.calm⟩
      | function id d =>
          dsimp only
          split
          · next hroom =>
              refine .enter hroom rfl rfl ?_ rfl
              rw [← hactive]
              exact Task.countP_finish m.scope m.tasks.tail
          · next hfull => exact .refuse id d args paren h harity hfull rfl hactive rfl
  · refine .keep ⟨rfl, rfl, hactive, fun e he hover => absurd hover ?_⟩
    cases he
    simp

theorem resume_keeps {v : Value} {task : Task} {tasks : List Task}
    (hf : m.focus = .done (.ok v)) (ht : m.tasks = task :: tasks) (hcall : m.attempt? = none)
    (htask : task.isFinish = false) : Keeps m ({ m with tasks }.resume v task) := by
  have hr := Machine.Grows.refl (σ := σ)
  apply Keeps.of_pop ht htask
  cases task with
  | assign x =>
      refine here_keeps _ (fun i => ?_) fun i => ?_
      · exact (Machine.write_grows i x v).bind Machine.Grows.trans fun _ => .pure hr v
      · exact (Machine.write_faults (by simp)).bind .trivial fun _ _ => .pure v
  | logical op r =>
      simp only [resume]
      split
      · exact ⟨rfl, rfl, rfl, fun _ _ _ => rfl⟩
      · exact focus_keeps _ (Focus.expr_ne_done r)
  | choose => exact focus_keeps _ (Focus.expr_ne_done _)
  | again => exact focus_keeps _ (Focus.stmt_ne_done _)
  | unary op =>
      refine here_keeps _ (fun _ => .blame hr op.span _) fun _ => .blame fun fault h => ?_
      obtain ⟨-, message, rfl⟩ := UnaryOp.fault_of_apply h
      simp
  | right op r => exact look_keeps _ (Focus.expr_ne_done r) rfl
  | binary op l =>
      refine here_keeps _ (fun _ => .blame hr op.span _) fun _ => .blame fun fault h => ?_
      rcases BinaryOp.fault_of_apply h with ⟨-, message, rfl⟩ | ⟨-, rfl⟩
      · simp
      · simp
  | callee args paren =>
      cases v with
      | callable c =>
          cases args with
          | nil => simp [attempt?, hf, ht] at hcall
          | cons a args => exact look_keeps _ (Focus.expr_ne_done a) rfl
      | number | string | bool | nil =>
          exact here_keeps _ (fun _ => .fail hr _ paren) fun _ => .fail (by simp)
  | argument c done rest paren =>
      cases rest with
      | nil => simp [attempt?, hf, ht] at hcall
      | cons a rest => exact look_keeps _ (Focus.expr_ne_done a) rfl
  | print =>
      refine act_keeps _ (fun _ => ⟨rfl, rfl⟩) (.bind_pure ?_)
      exact .here (I := fun _ => True) fun _ => Machine.println_faults v.text
  | declare name => exact declare_keeps _ name v
  | branch t e =>
      simp only [resume]
      split
      · exact look_keeps _ (Focus.stmt_ne_done t) rfl
      · cases e with
        | none => exact pure_keeps _ _
        | some e => exact look_keeps _ (Focus.stmt_ne_done e) rfl
  | discard => exact pure_keeps _ _
  | test c body span =>
      simp only [resume]
      split
      · exact look_keeps _ (Focus.stmt_ne_done body) rfl
      · exact pure_keeps _ _
  | rest body =>
      cases body with
      | nil => exact ⟨rfl, rfl, rfl, fun _ _ _ => rfl⟩
      | cons s body => exact look_keeps _ (Focus.stmt_ne_done s) rfl
  | leave scope => exact ⟨rfl, rfl, rfl, fun _ _ _ => rfl⟩
  | finish scope => cases htask

theorem next_counts (m : Moment σ) : Counts m m.next := by
  cases hcall : m.attempt? with
  | some call => exact attempt_counts hcall
  | none =>
      unfold next
      split
      · next e _ => exact .keep (m.visit_keeps e)
      · next s _ => exact .keep (m.start_keeps s)
      · next o hf =>
          split
          · exact .keep ⟨rfl, rfl, rfl, fun _ _ _ => rfl⟩
          · next task tasks ht =>
              cases o with
              | ok v =>
                  cases htask : task.isFinish with
                  | false => exact .keep (resume_keeps hf ht hcall htask)
                  | true =>
                      cases task with
                      | finish scope => exact back_counts ht
                      | _ => cases htask
              | error | outOfFuel => exact back_counts ht

end Moment

theorem toNat_add_one_of_lt {a b : UInt64} (h : a < b) : (a + 1).toNat = a.toNat + 1 := by
  have hlt := UInt64.lt_iff_toNat_lt.mp h
  have hb := b.toNat_lt
  rw [UInt64.toNat_add]
  exact Nat.mod_eq_of_lt (by simp; omega)

namespace Moment

/-- The count is that of the active bodies on top of `base`, and within the limit. -/
structure Accounted (base : Nat) (limits : Config) (m : Moment σ) : Prop where
  config : m.machine.config = limits
  callDepth : m.machine.callDepth.toNat = base + m.active
  le : m.machine.callDepth ≤ limits.maxCallDepth

variable {m : Moment σ} {base : Nat} {limits : Config}

namespace Accounted

variable [Sink σ]

theorem next (h : m.Accounted base limits) : m.next.Accounted base limits := by
  obtain ⟨rfl, hdepth, hle⟩ := h
  cases m.next_counts with
  | keep k =>
      exact ⟨k.config, by rw [k.callDepth, k.active, hdepth], by rw [k.callDepth]; exact hle⟩
  | refuse id d args paren _ _ _ hm hactive _ =>
      exact ⟨by rw [hm], by rw [hm, hactive, hdepth], by rw [hm]; exact hle⟩
  | enter hroom hconfig hcall hactive _ =>
      have hsucc := toNat_add_one_of_lt hroom
      have hlt := UInt64.lt_iff_toNat_lt.mp hroom
      refine ⟨hconfig, ?_, ?_⟩
      · rw [hcall, hactive, hsucc, hdepth, Nat.add_assoc]
      · rw [hcall, UInt64.le_iff_toNat_le, hsucc]
        exact hlt
  | finish hconfig hcall hactive _ =>
      have hone : (1 : UInt64).toNat = 1 := rfl
      have hpos : 1 ≤ m.machine.callDepth := by
        rw [UInt64.le_iff_toNat_le]
        omega
      have hpred := UInt64.toNat_sub_of_le m.machine.callDepth 1 hpos
      rw [UInt64.le_iff_toNat_le] at hle
      refine ⟨hconfig, ?_, ?_⟩
      · rw [hcall, hpred]
        omega
      · rw [hcall, UInt64.le_iff_toNat_le, hpred]
        omega

theorem iterate (h : m.Accounted base limits) (t : Nat) :
    (Moment.next^[t] m).Accounted base limits := by
  induction t with
  | zero => exact h
  | succ t ih =>
      rw [Function.iterate_succ_apply']
      exact ih.next

theorem raises_overflow_iff (h : m.Accounted base limits) (limit : UInt64) (span : Span) :
    m.Raises ⟨.stackOverflow limit, span⟩ ↔
      limit = limits.maxCallDepth ∧ m.machine.callDepth = limit ∧
        ∃ id d args, m.attempt? = some (.function id d, args, span) ∧
          args.length = d.params.length := by
  obtain ⟨rfl, -, hle⟩ := h
  constructor
  · rintro ⟨hold, hnew⟩
    cases m.next_counts with
    | keep k => exact absurd ((k.calm _ hnew ⟨limit, rfl⟩).trans hnew) hold
    | refuse id d args paren hattempt harity hfull _ _ hfocus =>
        cases hfocus.symm.trans hnew
        have hdepth := UInt64.le_antisymm hle (UInt64.not_lt.mp hfull)
        exact ⟨rfl, hdepth, id, d, args, hattempt, harity⟩
    | enter _ _ _ _ hfocus => cases hfocus.symm.trans hnew
    | finish _ _ _ hfocus => exact absurd (hfocus.symm.trans hnew) hold
  · rintro ⟨rfl, hdepth, id, d, args, hattempt, harity⟩
    have hfull : ¬m.machine.callDepth < m.machine.config.maxCallDepth := by
      rw [hdepth]
      exact UInt64.lt_irrefl _
    constructor
    · intro hold
      simp [attempt?, hold] at hattempt
    · rw [next_of_attempt? hattempt]
      simp only [apply, Callable.arity, harity, if_true, hfull, if_false]
      rfl

end Accounted

end Moment

theorem Job.accounted [Sink σ] (job : Job) {m : Machine σ}
    (h : m.callDepth ≤ m.config.maxCallDepth) (t : Nat) :
    (job.moment m t).Accounted m.callDepth.toNat m.config := by
  refine Moment.Accounted.iterate ?_ t
  cases job with
  | expr | stmt | block => exact ⟨rfl, rfl, h⟩
  | call c args paren =>
      simp only [start]
      split <;> exact ⟨rfl, rfl, h⟩

theorem Job.callDepth_perform [Sink σ] (job : Job) (fuel : Nat) (m : Machine σ) :
    (job.perform fuel m).2.callDepth = m.callDepth := by
  cases job with
  | expr e scope => exact ((frames fuel).expr e scope m).callDepth
  | stmt s scope => exact ((frames fuel).stmt s ⟨scope, m⟩).limits.2
  | block body scope =>
      obtain ⟨names, h⟩ := (frames fuel).body body ⟨scope, m⟩
      exact h.limits.2
  | call c args paren => exact ((frames fuel).call c args paren m).callDepth

section

variable {ρ : Type} [Sink σ] [Reporter ρ]

theorem Request.callDepth_perform (request : Request) (fuel : Nat) :
    Preserves (fun s t : ρ × Interpreter σ => t.2.machine.callDepth = s.2.machine.callDepth)
      (request.perform fuel) := by
  cases request with
  | run program =>
      refine .map _ fun s => ?_
      exact (Job.block program s.2.environment).callDepth_perform fuel s.2.machine
  | interpret program =>
      refine .map _ fun s => ?_
      rw [Interpreter.snd_snd_interpret]
      exact (Job.block program s.2.environment).callDepth_perform fuel s.2.machine
  | evaluate e =>
      refine .map _ fun s => ?_
      exact (Job.expr e s.2.environment).callDepth_perform fuel s.2.machine
  | provide | function | native | rebind => exact fun _ => rfl

theorem callDepth_sessionState (fuel : Nat) (requests : List Request) (s : ρ × Interpreter σ) :
    (sessionState fuel requests s).2.machine.callDepth = s.2.machine.callDepth := by
  refine List.foldlRecOn
    (motive := fun t : ρ × Interpreter σ => t.2.machine.callDepth = s.2.machine.callDepth)
    requests _ rfl ?_
  exact fun t ht request _ => (request.callDepth_perform fuel t).trans ht

/-- However a job ends, the count of active bodies is then what it was. At each of its moments the
count has grown by the number of bodies that are active, all of it below or at the limit, so that
counting one more never wraps around and counting one less never starts from zero. An overflow is
raised by nothing but a call of a program function with the right number of arguments, made when
the limit is reached. Between the requests of a session no body is active. -/
theorem count_is_that_of_active_bodies (job : Job) (m : Machine σ)
    (h : m.callDepth ≤ m.config.maxCallDepth) (fuel : Nat) (reporter : ρ) (sink : σ)
    (config : Config) (source : Option Source) (requests : List Request) :
    let r := job.perform fuel m
    r.2.callDepth = m.callDepth ∧
    (r.1 ≠ .outOfFuel → ∃ last scope, ∀ t ≥ last, job.moment m t = ⟨.done r.1, scope, [], r.2⟩) ∧
    (∀ t, let now := job.moment m t
      now.machine.callDepth.toNat = m.callDepth.toNat + now.active ∧
      now.machine.callDepth ≤ m.config.maxCallDepth ∧
      (now.active < now.next.active → now.machine.callDepth.toNat + 1 < UInt64.size) ∧
      (now.next.active < now.active → 0 < now.machine.callDepth.toNat) ∧
      ∀ limit span, now.Raises ⟨.stackOverflow limit, span⟩ ↔
        limit = m.config.maxCallDepth ∧ now.machine.callDepth = limit ∧
          ∃ id d args, now.attempt? = some (.function id d, args, span) ∧
            args.length = d.params.length) ∧
    (∀ e, (∃ fuel, (job.perform fuel m).1 = .error e) ↔ ∃ t, (job.moment m t).Raises e) ∧
    (sessionState fuel requests
      (reporter, Interpreter.new sink config source)).2.machine.callDepth = 0 := by
  intro r
  refine ⟨job.callDepth_perform fuel m, Job.moment_of_perform, fun t => ?_,
    job.error_iff_raises m, callDepth_sessionState fuel requests _⟩
  intro now
  have hnow : now.Accounted m.callDepth.toNat m.config := job.accounted h t
  have hnext := hnow.next
  refine ⟨hnow.callDepth, hnow.le, fun hmore => ?_, fun hless => ?_, hnow.raises_overflow_iff⟩
  · have hlt := now.next.machine.callDepth.toNat_lt
    have hcount := hnow.callDepth
    have hcount' := hnext.callDepth
    change _ < 2 ^ 64
    omega
  · have hcount := hnow.callDepth
    omega

end

/-- A function that calls itself, under a limit of two: the third call is refused while two bodies
are active. -/
theorem count_is_that_of_active_bodies_runaway :
    let f : Ident := ⟨"f", {}⟩
    let call : Expr := .call (.var f {}) [] {} {}
    let i := (Interpreter.run 9 [.function f [] [.expr call {}] {} {}]
      (Interpreter.new ({} : Buffer) { maxCallDepth := 2 })).2
    let job : Job := .expr call i.environment
    i.machine.callDepth ≤ i.machine.config.maxCallDepth ∧
      (job.perform 20 i.machine).1 = .error ⟨.stackOverflow 2, {}⟩ ∧
      (job.perform 20 i.machine).2.callDepth = 0 ∧
      ∃ t, (job.moment i.machine t).Raises ⟨.stackOverflow 2, {}⟩ ∧
        (job.moment i.machine t).machine.callDepth = 2 ∧ (job.moment i.machine t).active = 2 := by
  intro f call i job
  have h : i.machine.callDepth ≤ i.machine.config.maxCallDepth := by decide +kernel
  have hover : (job.perform 20 i.machine).1 = .error ⟨.stackOverflow 2, {}⟩ := by decide +kernel
  obtain ⟨hafter, -, hmoments, hraises, -⟩ := count_is_that_of_active_bodies job i.machine h 20
    ({} : DiagnosticLog) ({} : Buffer) {} none []
  obtain ⟨t, ht⟩ := (hraises _).mp ⟨20, hover⟩
  obtain ⟨hcount, -, -, -, hoverflow⟩ := hmoments t
  have hdepth := ((hoverflow 2 {}).mp ht).2.1
  have hzero : i.machine.callDepth = 0 := by decide +kernel
  rw [hdepth, hzero] at hcount
  refine ⟨h, hover, hafter.trans hzero, t, ht, hdepth, ?_⟩
  exact (Nat.zero_add _).symm.trans hcount.symm

end Scriptlet
