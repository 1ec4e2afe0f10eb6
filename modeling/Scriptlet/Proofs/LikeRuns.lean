import Scriptlet.Proofs.DepthLimit
import Scriptlet.Proofs.Likeness
import Scriptlet.Proofs.Session

namespace Scriptlet

variable {S T σ α α' β β' : Type} {l : Leeway}

inductive Outcome.Alike (E : EvalError → EvalError → Prop) (P : α → β → Prop) :
    Outcome α → Outcome β → Prop
  | ok {a b} : P a b → Outcome.Alike E P (.ok a) (.ok b)
  | error {e e'} : E e e' → Outcome.Alike E P (.error e) (.error e')

theorem Outcome.Alike.imp {E E' : EvalError → EvalError → Prop} {P Q : α → β → Prop}
    {o : Outcome α} {o' : Outcome β} (h : Outcome.Alike E P o o') (he : ∀ e e', E e e' → E' e e')
    (hp : ∀ a b, P a b → Q a b) : Outcome.Alike E' Q o o' := by
  cases h with
  | ok h => exact .ok (hp _ _ h)
  | error h => exact .error (he _ _ h)

theorem Outcome.Alike.ne_outOfFuel {E : EvalError → EvalError → Prop} {P : α → β → Prop}
    {o : Outcome α} {o' : Outcome β} (h : Outcome.Alike E P o o') :
    o ≠ .outOfFuel ∧ o' ≠ .outOfFuel := by
  cases h with
  | ok => exact ⟨ok_ne_outOfFuel _, ok_ne_outOfFuel _⟩
  | error => exact ⟨error_ne_outOfFuel _, error_ne_outOfFuel _⟩

namespace Step

/-- If the first computation ends, then so does the second, with any fuel that is enough: from
related states they come to corresponding outcomes and related states. -/
def Follows (l : Leeway) (R : S → T → Prop) (P : α → β → Prop) (x : Step S α)
    (y : Nat → Step T β) : Prop :=
  ∀ s t, R s t → (x s).1 ≠ .outOfFuel → ∃ n q, (∀ k ≥ n, y k t = q) ∧
    Outcome.Alike (EvalError.Alike l) P (x s).1 q.1 ∧ R (x s).2 q.2

namespace Follows

variable {R : S → T → Prop} {P : α → β → Prop} {Q : α' → β' → Prop}

theorem outOfFuel {y : Nat → Step T β} : Follows l R P Step.outOfFuel y :=
  fun _ _ _ h => absurd rfl h

theorem of_fuelless {x : Step S α} {y : Step T β}
    (h : ∀ s t, R s t →
      Outcome.Alike (EvalError.Alike l) P (x s).1 (y t).1 ∧ R (x s).2 (y t).2) :
    Follows l R P x fun _ => y :=
  fun s t hst _ => ⟨0, y t, fun _ _ => rfl, h s t hst⟩

theorem pure {a : α} {b : β} (h : P a b) :
    Follows l R P (Pure.pure a : Step S α) fun _ => (Pure.pure b : Step T β) :=
  of_fuelless fun _ _ hst => ⟨.ok h, hst⟩

theorem fail {fault fault' : Fault} (h : fault.Alike l fault') (span : Span) :
    Follows l R P (Step.fail fault span : Step S α)
      fun _ => (Step.fail fault' span : Step T β) :=
  of_fuelless fun _ _ hst => ⟨.error ⟨h, rfl⟩, hst⟩

theorem blame (span : Span) {r : Except Fault α} {r' : Except Fault β}
    (h : Except.Alike (Fault.Alike l) P r r') :
    Follows l R P (Step.blame span r : Step S α)
      fun _ => (Step.blame span r' : Step T β) := by
  cases h with
  | ok h => exact pure h
  | error h => exact fail h span

theorem ite {x x' : Step S α} {y y' : Nat → Step T β} {c : Prop} [Decidable c]
    (h : Follows l R P x y) (h' : Follows l R P x' y') :
    Follows l R P (if c then x else x') fun k => if c then y k else y' k := by
  by_cases hc : c
  · simpa only [if_pos hc] using h
  · simpa only [if_neg hc] using h'

theorem succ {x : Step S α} {y : Nat → Step T β} (h : Follows l R P x fun k => y (k + 1)) :
    Follows l R P x y := by
  intro s t hst hend
  obtain ⟨n, q, hn, hq⟩ := h s t hst hend
  refine ⟨n + 1, q, fun k hk => ?_, hq⟩
  obtain ⟨k, rfl⟩ := Nat.exists_eq_add_of_le hk
  rw [Nat.add_right_comm]
  exact hn (n + k) (Nat.le_add_right n k)

theorem bind {x : Step S α} {y : Nat → Step T β} {f : α → Step S α'} {g : Nat → β → Step T β'}
    (h : Follows l R P x y) (hf : ∀ a b, P a b → Follows l R Q (f a) fun k => g k b) :
    Follows l R Q (x >>= f) fun k => y k >>= g k := by
  intro s t hst hend
  have hx := h s t hst
  rw [bind_apply] at hend ⊢
  simp only [bind_apply]
  generalize x s = r at hend hx ⊢
  obtain ⟨o, s'⟩ := r
  cases o with
  | outOfFuel => exact absurd rfl hend
  | error e =>
      obtain ⟨n, ⟨o', t'⟩, hn, ho, hst'⟩ := hx (Outcome.error_ne_outOfFuel e)
      cases ho with
      | @error _ e' he =>
          refine ⟨n, (.error e', t'), fun k hk => ?_, .error he, hst'⟩
          rw [hn k hk]
  | ok a =>
      obtain ⟨n, ⟨o', t'⟩, hn, ho, hst'⟩ := hx (Outcome.ok_ne_outOfFuel a)
      cases ho with
      | @ok _ b hab =>
          obtain ⟨n', q, hn', hq⟩ := hf a b hab s' t' hst' hend
          refine ⟨max n n', q, fun k hk => ?_, hq⟩
          rw [hn k (Nat.le_trans (Nat.le_max_left n n') hk)]
          exact hn' k (Nat.le_trans (Nat.le_max_right n n') hk)

theorem mapM {f : α → Step S α'} {g : Nat → β → Step T β'}
    (h : ∀ a b, P a b → Follows l R Q (f a) fun k => g k b) {as : List α} {bs : List β}
    (hs : List.Forall₂ P as bs) :
    Follows l R (List.Forall₂ Q) (as.mapM f) fun k => bs.mapM (g k) := by
  induction hs with
  | nil => exact pure .nil
  | cons hab _ ih =>
      simp only [List.mapM_cons]
      exact (h _ _ hab).bind fun _ _ hc => ih.bind fun _ _ hcs => pure (.cons hc hcs)

theorem foldlM {f : α' → α → Step S α'} {g : Nat → β' → β → Step T β'}
    (h : ∀ a b, P a b → ∀ c d, Follows l R Q (f c a) fun k => g k d b) {as : List α}
    {bs : List β} (hs : List.Forall₂ P as bs) {c : α'} {d : β'} (hcd : Q c d) :
    Follows l R Q (as.foldlM f c) fun k => bs.foldlM (g k) d := by
  induction hs generalizing c d with
  | nil => exact pure hcd
  | cons hab _ ih =>
      simp only [List.foldlM_cons]
      exact (h _ _ hab c d).bind fun _ _ hcd' => ih hcd'

end Follows

end Step

structure Machine.Alike (l : Leeway) (m m' : Machine σ) : Prop where
  sink : m'.sink = m.sink
  store : m.store.Alike l m'.store
  config : m'.config = m.config
  callDepth : m'.callDepth = m.callDepth

def Cursor.Alike (l : Leeway) (c c' : Cursor σ) : Prop :=
  c'.scope = c.scope ∧ c.machine.Alike l c'.machine

theorem Machine.Alike.flip {m m' : Machine σ} (h : m.Alike l m') : m'.Alike l.flip m :=
  ⟨h.sink.symm, h.store.flip, h.config.symm, h.callDepth.symm⟩

abbrev Machine.Follows (l : Leeway) (P : α → β → Prop) (x : Step (Machine σ) α)
    (y : Nat → Step (Machine σ) β) : Prop :=
  Step.Follows l (Machine.Alike l) P x y

abbrev Cursor.Follows (l : Leeway) (P : α → β → Prop) (x : Step (Cursor σ) α)
    (y : Nat → Step (Cursor σ) β) : Prop :=
  Step.Follows l (Cursor.Alike l) P x y

namespace Machine

open Step

theorem read_follows (scope : ScopeId) {x x' : Ident} (hx : Ident.Rel l.name Eq x x') :
    Follows l (Value.Alike l) (read scope x : Step (Machine σ) Value)
      fun _ => read scope x' := by
  refine .of_fuelless fun m m' h => ?_
  have hget := h.store.get? scope hx.1
  simp only [read]
  generalize m.store.get? scope x.name = o at hget ⊢
  generalize m'.store.get? scope x'.name = o' at hget ⊢
  cases hget with
  | none => exact ⟨.error ⟨.undefinedVariable hx.1, hx.2⟩, h⟩
  | some hv => exact ⟨.ok hv, h⟩

theorem write_follows (scope : ScopeId) {x x' : Ident} (hx : Ident.Rel l.name Eq x x')
    {v v' : Value} (hv : v.Alike l v') :
    Follows l (fun _ _ => True) (write scope x v : Step (Machine σ) Unit)
      fun _ => write scope x' v' := by
  refine .of_fuelless fun m m' h => ?_
  simp only [write, h.store.resolve_eq scope hx.1]
  cases m.store.resolve scope x.name with
  | none => exact ⟨.error ⟨.undefinedVariable hx.1, hx.2⟩, h⟩
  | some c => exact ⟨.ok trivial, h.sink, h.store.set c hv, h.config, h.callDepth⟩

theorem println_follows [Sink σ] {line line' : String} (h : line' = line) :
    Follows l (fun _ _ => True) (println line : Step (Machine σ) Unit)
      fun _ => println line' := by
  refine .of_fuelless fun m m' hm => ⟨.ok trivial, ?_, hm.store, hm.config, hm.callDepth⟩
  rw [println, println, h, hm.sink]

theorem invoke_follows (id : NativeId) (name : String) {args args' : List Value}
    (h : List.Forall₂ (Value.Alike l) args args') (paren : Span) :
    Follows l (Value.Alike l) (invoke id name args paren : Step (Machine σ) Value)
      fun _ => invoke id name args' paren := by
  refine .of_fuelless fun m m' hm => ?_
  have hbody := hm.store.nativeBody_respects id h
  simp only [invoke]
  generalize m.store.nativeBody id args = r at hbody ⊢
  generalize m'.store.nativeBody id args' = r' at hbody ⊢
  cases hbody with
  | ok hv => exact ⟨.ok hv, hm⟩
  | error he =>
      cases he
      exact ⟨.error ⟨.same rfl, rfl⟩, hm⟩

theorem checkDepth_follows (paren : Span) :
    Follows l (fun _ _ => True) (checkDepth paren : Step (Machine σ) Unit)
      fun _ => checkDepth paren := by
  refine .of_fuelless fun m m' h => ?_
  simp only [checkDepth, h.config, h.callDepth]
  split
  · exact ⟨.ok trivial, h⟩
  · exact ⟨.error ⟨.same rfl, rfl⟩, h⟩

theorem onStore_follows {P : α → β → Prop} {f : Store → α × Store} {g : Store → β × Store}
    (h : ∀ s s', s.Alike l s' → P (f s).1 (g s').1 ∧ (f s).2.Alike l (g s').2) :
    Follows l P (onStore f : Step (Machine σ) α) fun _ => onStore g := by
  refine .of_fuelless fun m m' hm => ?_
  obtain ⟨hP, hstore⟩ := h m.store m'.store hm.store
  exact ⟨.ok hP, hm.sink, hstore, hm.config, hm.callDepth⟩

theorem nested_follows {P : α → β → Prop} {x : Step (Machine σ) α} {y : Nat → Step (Machine σ) β}
    (h : Follows l P x y) : Follows l P (nested x) fun k => nested (y k) := by
  intro m m' hm hend
  obtain ⟨n, q, hn, ho, hq⟩ := h { m with callDepth := m.callDepth + 1 }
    { m' with callDepth := m'.callDepth + 1 }
    ⟨hm.sink, hm.store, hm.config, congrArg (· + 1) hm.callDepth⟩ hend
  refine ⟨n, (q.1, { q.2 with callDepth := q.2.callDepth - 1 }), fun k hk => ?_, ho,
    hq.sink, hq.store, hq.config, congrArg (· - 1) hq.callDepth⟩
  simp only [nested, hn k hk]

theorem within_follows {P : α → β → Prop} {x : Step (Cursor σ) α} {y : Nat → Step (Cursor σ) β}
    (h : Cursor.Follows l P x y) (scope : ScopeId) :
    Follows l P (within scope x) fun k => within scope (y k) := by
  intro m m' hm hend
  obtain ⟨n, q, hn, ho, -, hq⟩ := h ⟨scope, m⟩ ⟨scope, m'⟩ ⟨rfl, hm⟩ hend
  refine ⟨n, (q.1, q.2.machine), fun k hk => ?_, ho, hq⟩
  simp only [within, hn k hk]

end Machine

namespace Cursor

open Step

theorem here_follows {P : α → β → Prop} {f : ScopeId → Step (Machine σ) α}
    {g : Nat → ScopeId → Step (Machine σ) β}
    (h : ∀ i, Machine.Follows l P (f i) fun k => g k i) :
    Follows l P (here f) fun k => here (g k) := by
  rintro ⟨i, m⟩ ⟨_, m'⟩ ⟨hscope, hm⟩ hend
  cases hscope
  obtain ⟨n, q, hn, ho, hq⟩ := h i m m' hm hend
  refine ⟨n, (q.1, ⟨i, q.2⟩), fun k hk => ?_, ho, rfl, hq⟩
  simp only [here, hn k hk]

theorem declare_follows {x x' : String} (hx : l.name x x') {v v' : Value} (hv : v.Alike l v') :
    Follows l (Value.Alike l) (declare x v : Step (Cursor σ) Value) fun _ => declare x' v' := by
  refine .of_fuelless ?_
  rintro ⟨i, m⟩ ⟨_, m'⟩ ⟨hscope, hm⟩
  cases hscope
  refine ⟨.ok hv, ?_, hm.sink, hm.store.define i hx hv, hm.config, hm.callDepth⟩
  simp only [declare, Store.fst_define, hm.store.size_scopes]

end Cursor

variable [Sink σ]

/-- What is alike is followed, with whatever fuel it is evaluated. -/
structure FollowsOn (l : Leeway) (σ : Type) [Sink σ] (n : Nat) : Prop where
  expr {e e' : Expr} (h : e.Alike l e') (scope : ScopeId) :
    Machine.Follows l (Value.Alike l) (evalExpr n e scope : Step (Machine σ) Value)
      fun k => evalExpr k e' scope
  stmt {s s' : Stmt} (h : s.Alike l s') :
    Cursor.Follows l (Value.Alike l) (execStmt n s : Step (Cursor σ) Value)
      fun k => execStmt k s'
  call {c c' : Callable} {args args' : List Value} (h : c.Alike l c')
    (hargs : List.Forall₂ (Value.Alike l) args args') (paren : Span) :
    Machine.Follows l (Value.Alike l) (call n c args paren : Step (Machine σ) Value)
      fun k => Scriptlet.call k c' args' paren

namespace FollowsOn

open Step

variable {n : Nat}

theorem here (h : FollowsOn l σ n) {e e' : Expr} (he : e.Alike l e') :
    Cursor.Follows l (Value.Alike l) (Cursor.here (evalExpr n e) : Step (Cursor σ) Value)
      fun k => Cursor.here (evalExpr k e') :=
  Cursor.here_follows fun i => h.expr he i

theorem body (h : FollowsOn l σ n) {body body' : List Stmt}
    (hbody : List.Forall₂ (Stmt.Alike l) body body') :
    Cursor.Follows l (Value.Alike l)
      (body.foldlM (fun _ s => execStmt n s) Value.nil : Step (Cursor σ) Value)
      fun k => body'.foldlM (fun _ s => execStmt k s) Value.nil :=
  .foldlM (P := Stmt.Alike l) (fun _ _ hs _ _ => h.stmt hs) hbody .nil

theorem succ_expr (h : FollowsOn l σ n) {e e' : Expr} (he : e.Alike l e') (scope : ScopeId) :
    Machine.Follows l (Value.Alike l) (evalExpr (n + 1) e scope : Step (Machine σ) Value)
      fun k => evalExpr k e' scope := by
  -- parentheses on the left use up fuel, those on the right are taken off one by one
  induction hsize : sizeOf e' using Nat.strongRecOn generalizing e e' with
  | ind size ih =>
      cases he with
      | left _ he => exact h.expr he scope
      | right _ he =>
          refine .succ (ih _ ?_ he rfl)
          simp only [← hsize, Expr.grouping.sizeOf_spec]
          omega
      | grouping he _ => exact .succ (h.expr he scope)
      | literal _ => exact .succ (.pure (.ofLiteral _))
      | var hx _ => exact .succ (Machine.read_follows scope hx)
      | assign hx he _ =>
          exact .succ <| (h.expr he scope).bind fun v v' hv =>
            (Machine.write_follows scope hx hv).bind fun _ _ _ => .pure hv
      | @logical _ _ op _ _ _ _ ha hb _ =>
          refine .succ <| (h.expr ha scope).bind fun v v' hv => ?_
          simp only [op.node.isSettledBy_eq hv]
          exact .ite (.pure hv) (h.expr hb scope)
      | conditional hc ht he _ =>
          refine .succ <| (h.expr hc scope).bind fun v v' hv => ?_
          simp only [hv.isTruthy_eq]
          exact .ite (h.expr ht scope) (h.expr he scope)
      | @unary op _ _ _ _ he _ =>
          exact .succ <| (h.expr he scope).bind fun v v' hv =>
            .blame op.span (op.node.apply_alike hv)
      | @binary _ _ op _ _ _ _ ha hb _ =>
          exact .succ <| (h.expr ha scope).bind fun v v' hv =>
            (h.expr hb scope).bind fun w w' hw => .blame op.span (op.node.apply_alike hv hw)
      | @call _ _ _ _ paren _ _ hf hargs _ =>
          refine .succ <| (h.expr hf scope).bind fun v v' hv => ?_
          cases hv with
          | callable hc =>
              have hvalues := Follows.mapM (P := Expr.Alike l) (fun _ _ ha => h.expr ha scope) hargs
              exact hvalues.bind fun vs vs' hvs => h.call hc hvs paren
          | number | string | bool | nil => exact .fail (.same rfl) paren

theorem succ_stmt (h : FollowsOn l σ n) {s s' : Stmt} (hs : s.Alike l s') :
    Cursor.Follows l (Value.Alike l) (execStmt (n + 1) s : Step (Cursor σ) Value)
      fun k => execStmt k s' := by
  refine .succ ?_
  cases hs with
  | expr he _ => exact h.here he
  | print he _ =>
      refine (h.here he).bind fun v v' hv => ?_
      exact (Cursor.here_follows fun _ => Machine.println_follows hv.text_eq).bind
        fun _ _ _ => .pure .nil
  | declare hx he _ =>
      cases he with
      | none => exact Cursor.declare_follows hx.1 .nil
      | some he => exact (h.here he).bind fun v v' hv => Cursor.declare_follows hx.1 hv
  | block hbody _ =>
      simp only [execStmt]
      refine Cursor.here_follows fun scope => ?_
      refine (Machine.onStore_follows (P := Eq) fun s s' hs => ?_).bind fun inner inner' hi => ?_
      · exact ⟨hs.size_scopes.symm, hs.child scope⟩
      · cases hi
        exact Machine.within_follows (h.body hbody) inner
  | ifElse hc ht he _ =>
      refine (h.here hc).bind fun v v' hv => ?_
      simp only [hv.isTruthy_eq]
      refine Follows.bind (.ite (h.stmt ht) ?_) fun _ _ _ => .pure .nil
      cases he with
      | none => exact .pure .nil
      | some he => exact h.stmt he
  | whileLoop hc hbody hspan =>
      refine (h.here hc).bind fun v v' hv => ?_
      simp only [hv.isTruthy_eq]
      exact .ite ((h.stmt hbody).bind fun _ _ _ => h.stmt (.whileLoop hc hbody hspan))
        (.pure .nil)
  | forLoop => exact .fail (.same rfl) _
  | function hf hparams hbody hdecl _ =>
      simp only [execStmt]
      refine (Cursor.here_follows (P := Callable.Alike l) fun scope =>
        Machine.onStore_follows fun s s' hs => ?_).bind fun c c' hc =>
          Cursor.declare_follows hf.1.2 (.callable hc)
      refine ⟨?_, hs.addFunction _ _ scope⟩
      simp only [Store.addFunction, hs.captured]
      exact .function ⟨hf, hparams, hbody, hdecl⟩

theorem succ_call (h : FollowsOn l σ n) {c c' : Callable} {args args' : List Value}
    (hc : c.Alike l c') (hargs : List.Forall₂ (Value.Alike l) args args') (paren : Span) :
    Machine.Follows l (Value.Alike l)
      (Scriptlet.call (n + 1) c args paren : Step (Machine σ) Value)
      fun k => Scriptlet.call k c' args' paren := by
  refine .succ ?_
  simp only [Scriptlet.call, hc.arity_eq, ← hargs.length_eq]
  refine .ite ?_ (.fail (.same rfl) paren)
  cases hc with
  | native => exact Machine.invoke_follows _ _ hargs paren
  | function hd =>
      refine (Machine.checkDepth_follows paren).bind fun _ _ _ =>
        (Machine.onStore_follows (P := Eq) fun s s' hs => ?_).bind fun scope scope' hscope => ?_
      · rw [hs.capturedScope_eq]
        exact ⟨hs.size_scopes.symm, hs.frame _ hd.params hargs⟩
      · cases hscope
        exact Machine.nested_follows (Machine.within_follows (h.body hd.body) scope)

end FollowsOn

theorem followsOn (l : Leeway) (σ : Type) [Sink σ] (n : Nat) : FollowsOn l σ n := by
  induction n with
  | zero => exact ⟨fun _ _ => .outOfFuel, fun _ => .outOfFuel, fun _ _ _ => .outOfFuel⟩
  | succ n ih => exact ⟨ih.succ_expr, ih.succ_stmt, ih.succ_call⟩

namespace Interpreter

omit [Sink σ] in
theorem alike_new (sink : σ) (config : Config) (source : Option Source) :
    (new sink config source).machine.Alike l (new sink config source).machine :=
  ⟨rfl, Store.alike_empty.addScope .nil none, rfl, rfl⟩

omit [Sink σ] in
theorem alike_equip {i : Interpreter σ} (h : i.machine.Alike l i.machine)
    {natives : List HostFunction}
    (hn : ∀ f ∈ natives, l.name f.name f.name ∧ f.body.Respects (Value.Alike l)) :
    (i.equip natives).machine.Alike l (i.equip natives).machine := by
  induction natives generalizing i with
  | nil => exact h
  | cons f natives ih =>
      obtain ⟨hname, hbody⟩ := hn f List.mem_cons_self
      refine ih ?_ fun g hg => hn g (List.mem_cons_of_mem f hg)
      refine ⟨h.sink, ?_, h.config, h.callDepth⟩
      exact (h.store.addNative f.name f.arity hbody).bind i.globals hname (.callable .native)

variable {i : Interpreter σ} {program program' : List Stmt}

theorem run_eq_of_forall_ge {fuel n : Nat} {o : Outcome Value} {printed : σ}
    (hend : (run fuel program i).1 ≠ .outOfFuel)
    (h : ∀ k ≥ n, (run k program i).1 = o ∧ (run k program i).2.machine.sink = printed) :
    (run fuel program i).1 = o ∧ (run fuel program i).2.machine.sink = printed := by
  have hmore := (run_approximates (Nat.le_max_right n fuel) program i).resolve_left hend
  rw [← hmore]
  exact h (max n fuel) (Nat.le_max_left n fuel)

theorem run_follows (h : i.machine.Alike l i.machine)
    (hp : List.Forall₂ (Stmt.Alike l) program program') {fuel : Nat}
    (hend : (run fuel program i).1 ≠ .outOfFuel) :
    ∃ n o, (∀ k ≥ n, (run k program' i).1 = o ∧
        (run k program' i).2.machine.sink = (run fuel program i).2.machine.sink) ∧
      Outcome.Alike (EvalError.Alike l) (Value.Alike l) (run fuel program i).1 o := by
  obtain ⟨n, q, hn, ho, -, hq⟩ := (followsOn l σ fuel).body hp ⟨i.environment, i.machine⟩
    ⟨i.environment, i.machine⟩ ⟨rfl, h⟩ hend
  refine ⟨n, q.1, fun k hk => ⟨congrArg Prod.fst (hn k hk), ?_⟩, ho⟩
  exact (congrArg (·.2.machine.sink) (hn k hk)).trans hq.sink

/-- Alike programs run forever both, or they print the same and their outcomes correspond. -/
theorem run_alike (h : i.machine.Alike l i.machine)
    (hp : List.Forall₂ (Stmt.Alike l) program program') :
    (∀ fuel, (run fuel program i).1 = .outOfFuel ∧ (run fuel program' i).1 = .outOfFuel) ∨
    ∃ n o o' printed, Outcome.Alike (EvalError.Alike l) (Value.Alike l) o o' ∧ ∀ fuel ≥ n,
      ((run fuel program i).1 = o ∧ (run fuel program i).2.machine.sink = printed) ∧
      (run fuel program' i).1 = o' ∧ (run fuel program' i).2.machine.sink = printed := by
  by_cases hend : ∃ fuel, (run fuel program i).1 ≠ .outOfFuel
  · obtain ⟨fuel, hfuel⟩ := hend
    obtain ⟨n, o, hn, ho⟩ := run_follows h hp hfuel
    refine .inr ⟨max fuel n, _, o, (run fuel program i).2.machine.sink, ho, fun k hk => ⟨?_, ?_⟩⟩
    · have hk : fuel ≤ k := Nat.le_trans (Nat.le_max_left fuel n) hk
      rw [← (run_approximates hk program i).resolve_left hfuel]
      exact ⟨rfl, rfl⟩
    · exact hn k (Nat.le_trans (Nat.le_max_right fuel n) hk)
  · have hnever : ∀ fuel, (run fuel program i).1 = .outOfFuel := by simpa using hend
    refine .inl fun fuel => ⟨hnever fuel, ?_⟩
    by_contra hfuel
    -- the first program would have to follow the second one
    obtain ⟨n, o, hn, ho⟩ := run_follows h.flip (Stmt.Alike.flipAll hp) hfuel
    exact ho.ne_outOfFuel.2 ((hn n (Nat.le_refl n)).1.symm.trans (hnever n))

end Interpreter

end Scriptlet
