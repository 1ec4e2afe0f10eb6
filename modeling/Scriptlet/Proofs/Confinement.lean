import Scriptlet.Proofs.Evaluation
import Scriptlet.Proofs.Fragment
import Scriptlet.Proofs.Reachability
import Scriptlet.Proofs.ScopesInUse

namespace Scriptlet

open Step

variable {σ : Type} {W W' : Node → Prop}

theorem Value.Within.mono (h : ∀ n, W n → W' n) {v : Value} (hv : v.Within W) : v.Within W' :=
  fun n hn => h n (hv n hn)

theorem Value.within_of_callable?_eq_none {v : Value} (h : v.callable? = none) : v.Within W := by
  cases v with
  | callable f => cases h
  | number | string | bool | nil => exact List.forall_mem_nil _

def Task.Within (W : Node → Prop) : Task → Prop
  | .leave scope | .finish scope => W (.scope scope)
  | .binary _ left => left.Within W
  | .argument c done _ _ => W (.callable c) ∧ ∀ v ∈ done, v.Within W
  | _ => True

theorem Task.Within.mono (h : ∀ n, W n → W' n) {task : Task} (ht : task.Within W) :
    task.Within W' := by
  cases task with
  | leave | finish => exact h _ ht
  | binary => exact Value.Within.mono h ht
  | argument => exact ⟨h _ ht.1, fun v hv => (ht.2 v hv).mono h⟩
  | _ => trivial

namespace Moment

/-- Everything at hand lies within the region, and so does all that has changed since the store
was `s`. -/
structure Confined (holds : NativeId → List Value) (R : Node → Prop) (s : Store) (m : Moment σ) :
    Prop where
  store : s.Confines holds R m.machine.store
  scope : s.Within R m.machine.store (.scope m.scope)
  focus : ∀ v, m.focus = .done (.ok v) → v.Within (s.Within R m.machine.store)
  tasks : ∀ task ∈ m.tasks, task.Within (s.Within R m.machine.store)

/-- A host function that is called now gives back no function but one that can be got at from its
arguments or from itself. -/
def Tame (holds : NativeId → List Value) (m : Moment σ) : Prop :=
  ∀ id name arity args paren f, m.attempt? = some (.native id name arity, args, paren) →
    args.length = arity → m.machine.store.nativeBody id args = .ok (.callable f) →
      m.machine.store.Reaches holds
        (.callable (.native id name arity) :: args.flatMap Value.nodes) (.callable f)

variable {holds : NativeId → List Value} {R : Node → Prop} {s : Store} {m : Moment σ}

theorem tame_of_natives (h : ∀ body ∈ m.machine.store.natives, NativeBody.Tame body) :
    m.Tame holds := by
  intro id name arity args paren f _ _ hf
  have hmem := Store.nativeBody_tame h id args f hf
  exact .root (List.mem_cons_of_mem _ (List.mem_flatMap.mpr ⟨_, hmem, List.mem_cons_self⟩))

namespace Confined

section

variable (h : m.Confined holds R s)

include h

theorem pop {tasks : List Task} (ht : tasks ⊆ m.tasks) :
    ({ m with tasks } : Moment σ).Confined holds R s :=
  ⟨h.store, h.scope, h.focus, fun task htask => h.tasks task (ht htask)⟩

theorem refocus {focus : Focus} (hf : ∀ o, focus ≠ .done o) :
    ({ m with focus } : Moment σ).Confined holds R s :=
  ⟨h.store, h.scope, fun v hv => absurd hv (hf (.ok v)), h.tasks⟩

theorem look {focus : Focus} (hf : ∀ o, focus ≠ .done o) {task : Task}
    (ht : task.Within (s.Within R m.machine.store)) : (m.look focus task).Confined holds R s :=
  ⟨h.store, h.scope, fun v hv => absurd hv (hf (.ok v)), List.forall_mem_cons.mpr ⟨ht, h.tasks⟩⟩

theorem done {o : Outcome Value} (ho : ∀ v, o = .ok v → v.Within (s.Within R m.machine.store))
    {machine : Machine σ} (hm : machine.store = m.machine.store) :
    (⟨.done o, m.scope, m.tasks, machine⟩ : Moment σ).Confined holds R s where
  store := hm ▸ h.store
  scope := hm ▸ h.scope
  focus v hv := hm ▸ ho v (Focus.done.inj hv)
  tasks := hm ▸ h.tasks

theorem fail {e : EvalError} :
    (⟨.done (.error e), m.scope, m.tasks, m.machine⟩ : Moment σ).Confined holds R s := by
  refine h.done (fun v hv => ?_) rfl
  cases hv

theorem pure {v : Value} (hv : v.callable? = none) : (m.act (Pure.pure v)).Confined holds R s := by
  refine h.done (fun w hw => ?_) rfl
  cases hw
  exact Value.within_of_callable?_eq_none hv

theorem here {f : ScopeId → Step (Machine σ) Value}
    (hf : Maintains (fun n : Machine σ => n.store = m.machine.store)
      (Value.Within (s.Within R m.machine.store)) (f m.scope)) :
    (m.act (Cursor.here f)).Confined holds R s :=
  have hr := hf m.machine rfl
  h.done hr.2 hr.1

theorem read (x : Ident) :
    (m.act (Cursor.here fun scope => Machine.read scope x)).Confined holds R s := by
  refine h.here fun n hn => ?_
  unfold Machine.read
  cases hv : n.store.get? m.scope x.name with
  | none => exact ⟨hn, nofun⟩
  | some v =>
      refine ⟨hn, fun w hw => ?_⟩
      cases hw
      exact h.store.get? h.scope (hn ▸ hv)

theorem write (x : Ident) {v : Value} (hv : v.Within (s.Within R m.machine.store)) :
    (m.act (Cursor.here fun scope => do
      Machine.write scope x v
      return v)).Confined holds R s := by
  simp only [Moment.act, Cursor.here, bind_apply, Machine.write]
  cases hc : m.machine.store.resolve m.scope x.name with
  | none => exact h.fail
  | some c =>
      refine ⟨h.store.set (h.store.resolve h.scope hc) hv, h.scope, fun w hw => ?_, h.tasks⟩
      cases hw
      exact hv

theorem declare (name : String) {v : Value} (hv : v.Within (s.Within R m.machine.store)) :
    (m.act (Cursor.declare name v)).Confined holds R s where
  store := h.store.define h.scope name hv
  scope := by
    refine .inr ?_
    change s.scopes.size ≤ (m.machine.store.define m.scope name v).1
    rw [Store.fst_define]
    exact h.store.size_scopes
  focus w hw := by
    cases hw
    exact hv
  tasks := h.tasks

theorem addFunction (d : Declaration) :
    ({ m with machine.store := (m.machine.store.addFunction d m.scope).2 } : Moment σ).Confined
      holds R s := by
  have hmono (n : Node) (hn : s.Within R m.machine.store n) :
      s.Within R (m.machine.store.addFunction d m.scope).2 n :=
    hn.mono (by simp [Store.size_captured_addFunction])
  exact ⟨h.store.addFunction d h.scope, h.scope, fun v hv => (h.focus v hv).mono hmono,
    fun task ht => (h.tasks task ht).mono hmono⟩

theorem enter {body : List Stmt} {back : Task} {machine : Machine σ}
    (hstore : s.Confines holds R machine.store)
    (hc : machine.store.captured = m.machine.store.captured)
    (hback : back.Within (s.Within R m.machine.store)) :
    (m.enter body back m.machine.store.scopes.size machine).Confined holds R s := by
  have hmono (n : Node) (hn : s.Within R m.machine.store n) : s.Within R machine.store n :=
    hn.mono (Nat.le_of_eq (congrArg Array.size hc.symm))
  refine ⟨hstore, .inr h.store.size_scopes, fun v hv => ?_, ?_⟩
  · cases hv
    exact List.forall_mem_nil _
  · refine List.forall_mem_cons.mpr ⟨trivial, List.forall_mem_cons.mpr ⟨hback.mono hmono, ?_⟩⟩
    exact fun task ht => (h.tasks task ht).mono hmono

theorem visit (e : Expr) : (m.visit e).Confined holds R s := by
  cases e with
  | literal a _ =>
      refine h.pure ?_
      cases a <;> rfl
  | grouping e _ => exact h.refocus (Focus.expr_ne_done _)
  | var x _ => exact h.read x
  | assign | logical | conditional | unary | binary | call =>
      exact h.look (Focus.expr_ne_done _) trivial

theorem start (stmt : Stmt) : (m.start stmt).Confined holds R s := by
  cases stmt with
  | expr e _ => exact h.refocus (Focus.expr_ne_done _)
  | print | ifElse | whileLoop => exact h.look (Focus.expr_ne_done _) trivial
  | declare x e _ =>
      cases e with
      | none => exact h.declare x.name (List.forall_mem_nil _)
      | some e => exact h.look (Focus.expr_ne_done _) trivial
  | block body _ => exact h.enter (h.store.child h.scope) rfl h.scope
  | forLoop => exact h.fail
  | function f params body declSpan _ =>
      refine (h.addFunction ⟨f, params, body, declSpan⟩).declare f.name ?_
      refine List.forall_mem_singleton.mpr (.inr ⟨h.store.size_captured, ?_⟩)
      simp [Store.size_captured_addFunction]

theorem back {task : Task} (ht : task.Within (s.Within R m.machine.store)) :
    (m.back task).Confined holds R s := by
  cases task with
  | leave scope | finish scope => exact ⟨h.store, ht, h.focus, h.tasks⟩
  | _ => exact h

theorem invoke {id : NativeId} {name : String} {args : List Value} {paren : Span}
    (hv : ∀ v, m.machine.store.nativeBody id args = .ok v →
      v.Within (s.Within R m.machine.store)) :
    (m.act (Cursor.here fun _ => Machine.invoke id name args paren)).Confined holds R s := by
  refine h.here fun n hn => ?_
  refine Maintains.blame (I := fun n : Machine σ => n.store = m.machine.store) paren ?_ n hn
  intro v hbody
  rw [hn] at hbody
  cases hr : m.machine.store.nativeBody id args with
  | error message =>
      rw [hr] at hbody
      cases hbody
  | ok w =>
      rw [hr] at hbody
      cases hbody
      exact hv v hr

theorem of_attempt? {c : Callable} {args : List Value} {paren : Span}
    (hcall : m.attempt? = some (c, args, paren)) :
    s.Within R m.machine.store (.callable c) ∧
      ∀ v ∈ args, v.Within (s.Within R m.machine.store) := by
  unfold attempt? at hcall
  split at hcall
  · next hf ht =>
      cases hcall
      exact ⟨h.focus _ hf _ List.mem_cons_self, List.forall_mem_nil _⟩
  · next v c done paren tasks hf ht =>
      cases hcall
      obtain ⟨hc, hdone⟩ := h.tasks (.argument c done [] paren) (ht ▸ List.mem_cons_self)
      refine ⟨hc, fun w hw => ?_⟩
      rcases List.mem_append.mp hw with hw | hw
      · exact hdone w hw
      · rw [List.mem_singleton.mp hw]
        exact h.focus v hf
  · cases hcall

end

variable [Sink σ]

theorem call (h : m.Confined holds R s) (htame : m.Tame holds) {c : Callable} {args : List Value}
    {paren : Span} (hcall : m.attempt? = some (c, args, paren)) : m.next.Confined holds R s := by
  obtain ⟨hc, hargs⟩ := h.of_attempt? hcall
  have htail := h.pop fun _ htask => List.mem_of_mem_tail htask
  rw [next_of_attempt? hcall]
  unfold Moment.apply
  split
  · next harity =>
      cases c with
      | native id name arity =>
          refine htail.invoke fun v hv => ?_
          cases v with
          | callable f =>
              have hreach := htame id name arity args paren f hcall harity hv
              refine List.forall_mem_singleton.mpr (hreach.of_closed ?_ h.store.closed)
              refine List.forall_mem_cons.mpr ⟨hc, fun n hn => ?_⟩
              obtain ⟨v, hv, hn⟩ := List.mem_flatMap.mp hn
              exact hargs v hv n hn
          | number | string | bool | nil => exact List.forall_mem_nil _
      | function id d =>
          dsimp only
          split
          · have hscope := h.store.closed _ _ hc (.captured id d)
            exact htail.enter (h.store.frame hscope d.params hargs)
              (m.machine.store.captured_frame _ _ _) h.scope
          · exact htail.fail
  · exact htail.fail

theorem resume (h : m.Confined holds R s) {v : Value} {task : Task} {tasks : List Task}
    (hf : m.focus = .done (.ok v)) (ht : m.tasks = task :: tasks) (hcall : m.attempt? = none) :
    ({ m with tasks }.resume v task).Confined holds R s := by
  have hv := h.focus v hf
  have htask := h.tasks task (ht ▸ List.mem_cons_self)
  replace h := h.pop (ht ▸ List.subset_cons_self task tasks)
  cases task with
  | assign x => exact h.write x hv
  | logical op r =>
      simp only [Moment.resume]
      split
      · exact h
      · exact h.refocus (Focus.expr_ne_done r)
  | choose => exact h.refocus (Focus.expr_ne_done _)
  | again => exact h.refocus (Focus.stmt_ne_done _)
  | unary op =>
      exact h.here (.blame op.span fun w hw =>
        Value.within_of_callable?_eq_none (UnaryOp.callable?_of_apply hw))
  | right op r => exact h.look (Focus.expr_ne_done r) hv
  | binary op l =>
      refine h.here (.blame op.span fun w hw => ?_)
      rcases BinaryOp.callable?_of_apply hw with hw | rfl
      · exact Value.within_of_callable?_eq_none hw
      · exact hv
  | callee args paren =>
      cases v with
      | callable c =>
          cases args with
          | nil => simp [attempt?, hf, ht] at hcall
          | cons a rest =>
              refine h.look (Focus.expr_ne_done a) ⟨hv _ List.mem_cons_self, ?_⟩
              exact List.forall_mem_nil _
      | number | string | bool | nil => exact h.fail
  | argument c done rest paren =>
      cases rest with
      | nil => simp [attempt?, hf, ht] at hcall
      | cons a rest =>
          refine h.look (Focus.expr_ne_done a) ⟨htask.1, fun w hw => ?_⟩
          rcases List.mem_append.mp hw with hw | hw
          · exact htask.2 w hw
          · rw [List.mem_singleton.mp hw]
            exact hv
  | print => exact h.done (fun w hw => by cases hw; exact List.forall_mem_nil _) rfl
  | declare name => exact h.declare name hv
  | branch t e =>
      simp only [Moment.resume]
      split
      · exact h.look (Focus.stmt_ne_done t) trivial
      · cases e with
        | none => exact h.pure rfl
        | some e => exact h.look (Focus.stmt_ne_done e) trivial
  | discard => exact h.pure rfl
  | test c body span =>
      simp only [Moment.resume]
      split
      · exact h.look (Focus.stmt_ne_done body) trivial
      · exact h.pure rfl
  | rest body =>
      cases body with
      | nil => exact h
      | cons s body => exact h.look (Focus.stmt_ne_done s) trivial
  | leave scope | finish scope => exact h.back htask

/-- One step leads out of the region neither in the store nor with what it has at hand. -/
theorem next (h : m.Confined holds R s) (htame : m.Tame holds) : m.next.Confined holds R s := by
  cases hcall : m.attempt? with
  | some attempt => exact h.call htame hcall
  | none =>
      unfold Moment.next
      split
      · next e _ => exact h.visit e
      · next stmt _ => exact h.start stmt
      · next o hf =>
          split
          · exact h
          · next task tasks ht =>
              have htask := h.tasks task (ht ▸ List.mem_cons_self)
              cases o with
              | ok v => exact h.resume hf ht hcall
              | error | outOfFuel =>
                  exact (h.pop (ht ▸ List.subset_cons_self task tasks)).back htask

end Confined

end Moment

namespace Job

def roots : Job → List Node
  | .expr _ scope | .stmt _ scope | .block _ scope => [.scope scope]
  | .call c args _ => .callable c :: args.flatMap Value.nodes

variable {holds : NativeId → List Value} {job : Job} {m : Machine σ}

theorem start_confined (job : Job) (m : Machine σ) :
    (job.start m).Confined holds (m.store.Reaches holds job.roots) m.store := by
  have hstore : m.store.Confines holds (m.store.Reaches holds job.roots) m.store :=
    .refl fun _ _ => .link
  cases job with
  | expr e scope =>
      refine ⟨hstore, .inl (.root List.mem_cons_self), fun v hv => ?_, List.forall_mem_nil _⟩
      exact absurd hv (Focus.expr_ne_done e _)
  | stmt s scope =>
      refine ⟨hstore, .inl (.root List.mem_cons_self), fun v hv => ?_, List.forall_mem_nil _⟩
      exact absurd hv (Focus.stmt_ne_done s _)
  | block body scope =>
      refine ⟨hstore, .inl (.root List.mem_cons_self), fun v hv => ?_,
        List.forall_mem_singleton.mpr trivial⟩
      cases hv
      exact List.forall_mem_nil _
  | call c args paren =>
      have hc : (Value.callable c).Within
          (m.store.Within (m.store.Reaches holds (call c args paren).roots) m.store) :=
        List.forall_mem_singleton.mpr (.inl (.root List.mem_cons_self))
      have hargs : ∀ v ∈ args, v.Within
          (m.store.Within (m.store.Reaches holds (call c args paren).roots) m.store) :=
        fun v hv n hn => .inl (.root (List.mem_cons_of_mem _ (List.mem_flatMap.mpr ⟨v, hv, hn⟩)))
      simp only [start]
      split
      · refine ⟨hstore, .inr (Nat.le_refl _), fun v hv => ?_, List.forall_mem_singleton.mpr trivial⟩
        cases hv
        exact hc
      · next v hlast =>
          refine ⟨hstore, .inr (Nat.le_refl _), fun w hw => ?_, List.forall_mem_singleton.mpr
            ⟨hc _ List.mem_cons_self, fun w hw => hargs w (args.dropLast_sublist.subset hw)⟩⟩
          cases hw
          exact hargs v (List.mem_of_getLast? hlast)

variable [Sink σ]

theorem moment_confined (h : ∀ t, (job.moment m t).Tame holds) (t : Nat) :
    (job.moment m t).Confined holds (m.store.Reaches holds job.roots) m.store := by
  induction t with
  | zero => exact job.start_confined m
  | succ t ih =>
      rw [moment_succ]
      exact ih.next (h t)

theorem natives_moment (job : Job) (m : Machine σ) (t : Nat) :
    (job.moment m t).machine.store.natives = m.store.natives := by
  induction t with
  | zero => rw [moment, Function.iterate_zero_apply, machine_start]
  | succ t ih => rw [moment_succ, Moment.natives_next, ih]

theorem tame_moment (h : ∀ body ∈ m.store.natives, NativeBody.Tame body) (t : Nat) :
    (job.moment m t).Tame holds := by
  apply Moment.tame_of_natives
  rw [job.natives_moment m t]
  exact h

end Job

/-- If host functions give back no functions but those that can be got at from their arguments or
from themselves, then a job that ends, with a result or an error, has changed no variable and no
scope's list but those that could be got at before from where it began. A function it ends with
could be got at too, or the job has made it. -/
theorem changes_are_confined [Sink σ] (holds : NativeId → List Value) (job : Job) (m : Machine σ)
    (fuel : Nat) (h : (job.perform fuel m).1 ≠ .outOfFuel)
    (htame : ∀ t, (job.moment m t).Tame holds) :
    let r := job.perform fuel m
    let Reached := m.store.Reaches holds job.roots
    (∀ c < m.store.cells.size, r.2.store.cells[c]? ≠ m.store.cells[c]? → Reached (.cell c)) ∧
    (∀ i < m.store.scopes.size, r.2.store.bindings i ≠ m.store.bindings i → Reached (.scope i)) ∧
    (∀ f, r.1 = .ok (.callable f) → Reached (.callable f) ∨
      ∃ id d, f = .function id d ∧ m.store.captured.size ≤ id ∧ id < r.2.store.captured.size) := by
  intro r Reached
  obtain ⟨t, scope, ht⟩ := Job.moment_of_perform h
  have hlast := job.moment_confined htame t
  rw [ht t (Nat.le_refl t)] at hlast
  refine ⟨fun c hc hne => ?_, fun i hi hne => ?_, fun f hf => ?_⟩
  · exact (hlast.store.cells c hne).resolve_right (Nat.not_le.mpr hc)
  · exact (hlast.store.bindings i hne).resolve_right (Nat.not_le.mpr hi)
  · have hwithin := hlast.focus (.callable f) (congrArg Focus.done hf) _ List.mem_cons_self
    refine hwithin.imp_right fun hnew => ?_
    cases f with
    | function id d => exact ⟨id, d, rfl, hnew.1, hnew.2⟩
    | native => exact absurd hnew id

/-- A function that went through a host function changes a variable that only it still sees, and
fails. -/
theorem changes_are_confined_hidden_variable :
    let f : Ident := ⟨"f", {}⟩
    let g : Ident := ⟨"g", {}⟩
    let n : Ident := ⟨"n", {}⟩
    let text (s : String) : Expr := .literal (.string s) {}
    let hide : Stmt := .block
      [.declare n (some (text "old")) {},
        .function g [] [.expr (.assign n (text "new") {}) {}, .expr (.var ⟨"x", {}⟩ {}) {}] {} {},
        .expr (.assign f (.var g {}) {}) {}] {}
    let same : HostFunction := ⟨"same", 1, fun args => .ok (args.headD .nil)⟩
    let start : DiagnosticLog × Interpreter Buffer := ({}, .new {})
    let requests : List Request := [.provide same, .run [.declare f none {}, hide]]
    let i := (sessionState 9 requests start).2
    let job : Job := .expr (.call (.call (.var ⟨"same", {}⟩ {}) [.var f {}] {} {}) [] {} {})
      i.environment
    let holds : NativeId → List Value := fun _ => []
    let r := job.perform 9 i.machine
    (∀ t, (job.moment i.machine t).Tame holds) ∧
      r.1 = .error ⟨.undefinedVariable "x", {}⟩ ∧
      i.machine.store.cells[2]?.map Value.text = some "old" ∧
      r.2.store.cells[2]?.map Value.text = some "new" ∧
      i.machine.store.Reaches holds job.roots (.cell 2) := by
  intro f g n text hide same start requests i job holds r
  have htame : same.body.Tame := by
    intro args c hc
    cases args with
    | nil => cases hc
    | cons v args =>
        cases hc
        exact List.mem_cons_self
  have hrequests : ∀ request ∈ requests, request.Avoids fun _ => false :=
    List.forall_mem_cons.mpr ⟨htame, List.forall_mem_singleton.mpr (Stmt.avoidsAll_iff.mp rfl)⟩
  have hstart : start.2.Avoids fun _ => false := Interpreter.new_avoids _ _ _
  have hi : i.Avoids fun _ => false := by
    dsimp only [i]
    exact avoids_sessionState 9 hrequests hstart
  have hmoments : ∀ t, (job.moment i.machine t).Tame holds := Job.tame_moment hi.natives
  have herror : r.1 = .error ⟨.undefinedVariable "x", {}⟩ := by decide +kernel
  have hbefore : i.machine.store.cells[2]?.map Value.text = some "old" := by decide +kernel
  have hafter : r.2.store.cells[2]?.map Value.text = some "new" := by decide +kernel
  have hchanged : r.2.store.cells[2]? ≠ i.machine.store.cells[2]? := by
    intro hsame
    rw [hsame, hbefore] at hafter
    simp at hafter
  have hlt : 2 < i.machine.store.cells.size := by decide +kernel
  have hconfined := changes_are_confined holds job i.machine 9
    (herror ▸ Outcome.error_ne_outOfFuel _) hmoments
  exact ⟨hmoments, herror, hbefore, hafter, hconfined.1 2 hlt hchanged⟩

end Scriptlet
