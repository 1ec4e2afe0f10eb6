import Scriptlet.Proofs.Evaluation
import Scriptlet.Proofs.LexicalStability
import Scriptlet.Proofs.ScopeForest
import Scriptlet.Proofs.Session

namespace Scriptlet

variable {σ : Type}

theorem Store.Grounded.isSome_get?_iff {s : Store} (h : s.Grounded) (i : ScopeId) (name : String) :
    (s.get? i name).isSome ↔ s.contains i name = true := by
  rw [Store.get?, Store.contains]
  cases hc : s.resolve i name with
  | none => simp
  | some c =>
      rw [Store.resolve_eq_findSome?] at hc
      obtain ⟨j, -, hj⟩ := List.exists_of_findSome?_eq_some hc
      simpa using h.backed.lookup_lt hj

theorem Machine.read_eq_ok_iff {m : Machine σ} {i : ScopeId} {x : Ident} :
    (∃ v, (Machine.read i x m).1 = .ok v) ↔ (m.store.get? i x.name).isSome := by
  rw [Machine.read]
  cases m.store.get? i x.name with
  | none => simp [Step.fail]
  | some v => simp

def Callable.Known (s : Store) : Callable → Prop
  | .function id _ => s.capturedScope id < s.scopes.size
  | .native .. => True

theorem Store.Grounded.known {s : Store} (h : s.Grounded) {i : ScopeId} (hi : i < s.scopes.size)
    (c : Callable) : c.Known s := by
  cases c with
  | function id d => exact h.capturedScope_lt (Nat.zero_lt_of_lt hi) id
  | native => trivial

abbrev Store.Has (i : ScopeId) (s : Store) : Prop :=
  i < s.scopes.size

def Machine.Accrues (P : Store → Prop) (m m' : Machine σ) : Prop :=
  m.store.Grounded → P m.store → m.store.Accrues m'.store

def Cursor.Accrues (c c' : Cursor σ) : Prop :=
  c.machine.store.Grounded → c.scope < c.machine.store.scopes.size →
    c.machine.store.Accrues c'.machine.store ∧ c'.scope < c'.machine.store.scopes.size

open Step

section

variable {α : Type} {P : Store → Prop} {i : ScopeId}

theorem Machine.Accrues.refl (P : Store → Prop) (m : Machine σ) : m.Accrues P m :=
  fun _ _ => .refl _

theorem Machine.Accrues.trans (m m' m'' : Machine σ) (h : m.Accrues (Store.Has i) m')
    (k : m'.Accrues (Store.Has i) m'') : m.Accrues (Store.Has i) m'' := by
  intro hm hi
  have hfirst := h hm hi
  exact hfirst.trans (k (hfirst.grounded hm) (Nat.lt_of_lt_of_le hi hfirst.size_le))

theorem Cursor.Accrues.refl (c : Cursor σ) : c.Accrues c :=
  fun _ hi => ⟨.refl _, hi⟩

theorem Cursor.Accrues.trans (c c' c'' : Cursor σ) (h : c.Accrues c') (k : c'.Accrues c'') :
    c.Accrues c'' := by
  intro hc hi
  obtain ⟨hfirst, hi'⟩ := h hc hi
  obtain ⟨hsecond, hi''⟩ := k (hfirst.grounded hc) hi'
  exact ⟨hfirst.trans hsecond, hi''⟩

theorem Machine.read_accrues (x : Ident) (m : Machine σ) : m.Accrues P (read i x m).2 := by
  rw [read]
  split <;> exact .refl P m

theorem Machine.write_accrues (x : Ident) (v : Value) (m : Machine σ) :
    m.Accrues P (write i x v m).2 := by
  rw [write]
  split
  · exact fun _ _ => m.store.accrues_set _ v
  · exact .refl P m

theorem Machine.println_accrues [Sink σ] (line : String) (m : Machine σ) :
    m.Accrues P (println line m).2 :=
  .refl P m

theorem Machine.checkDepth_accrues {x : Step (Machine σ) α} (h : Preserves (Accrues P) x)
    (paren : Span) : Preserves (Accrues P) (checkDepth paren >>= fun _ => x) := by
  intro m
  rw [bind_apply, checkDepth]
  by_cases hroom : m.callDepth < m.config.maxCallDepth
  · rw [if_pos hroom]
    exact h m
  · rw [if_neg hroom]
    exact .refl P m

theorem Machine.open_accrues {f : Store → ScopeId × Store} {x : ScopeId → Step (Machine σ) α}
    (hf : ∀ s, P s → s.Accrues (f s).2) (hlt : ∀ s, (f s).1 < (f s).2.scopes.size)
    (hx : ∀ i, Preserves (Accrues (Store.Has i)) (x i)) :
    Preserves (Accrues P) (onStore f >>= x) := by
  intro m hm hP
  have hfirst := hf m.store hP
  have hrest := hx (f m.store).1 { m with store := (f m.store).2 }
  exact hfirst.trans (hrest (hfirst.grounded hm) (hlt m.store))

theorem Machine.within_accrues {x : Step (Cursor σ) α} (h : Preserves Cursor.Accrues x) :
    Preserves (Accrues (Store.Has i)) (within i x) :=
  fun m hm hi => (h ⟨i, m⟩ hm hi).1

theorem Machine.nested_accrues {x : Step (Machine σ) α} (h : Preserves (Accrues P) x) :
    Preserves (Accrues P) (nested x) :=
  fun m => h { m with callDepth := m.callDepth + 1 }

theorem Cursor.here_accrues {f : ScopeId → Step (Machine σ) α}
    (h : ∀ i, Preserves (Machine.Accrues (Store.Has i)) (f i)) :
    Preserves Cursor.Accrues (here f) := by
  intro c hc hi
  have hfirst := h c.scope c.machine hc hi
  exact ⟨hfirst, Nat.lt_of_lt_of_le hi hfirst.size_le⟩

theorem Cursor.declare_accrues (name : String) (v : Value) :
    Preserves Cursor.Accrues (declare name v : Step (Cursor σ) Value) := by
  intro c _ hi
  refine ⟨c.machine.store.accrues_define hi name v, ?_⟩
  simp [declare]

end

variable [Sink σ]

/-- With a given fuel, evaluation in a scope of the store only adds to the store. -/
structure AccruesOn (σ : Type) [Sink σ] (n : Nat) : Prop where
  expr (e : Expr) (i : ScopeId) :
    Preserves (Machine.Accrues (Store.Has i)) (evalExpr n e i : Step (Machine σ) Value)
  stmt (s : Stmt) : Preserves Cursor.Accrues (execStmt n s : Step (Cursor σ) Value)
  call (c : Callable) (args : List Value) (paren : Span) :
    Preserves (Machine.Accrues c.Known) (call n c args paren : Step (Machine σ) Value)

namespace AccruesOn

variable {n : Nat}

theorem body (h : AccruesOn σ n) (body : List Stmt) :
    Preserves Cursor.Accrues
      (body.foldlM (fun _ s => execStmt n s) Value.nil : Step (Cursor σ) Value) :=
  .foldlM Cursor.Accrues.refl Cursor.Accrues.trans (fun _ s => h.stmt s) body .nil

theorem here (h : AccruesOn σ n) (e : Expr) :
    Preserves Cursor.Accrues (Cursor.here (evalExpr n e) : Step (Cursor σ) Value) :=
  Cursor.here_accrues fun i => h.expr e i

theorem callAt (h : AccruesOn σ n) (c : Callable) (args : List Value) (paren : Span)
    (i : ScopeId) :
    Preserves (Machine.Accrues (Store.Has i))
      (Scriptlet.call n c args paren : Step (Machine σ) Value) :=
  fun m hm hi => h.call c args paren m hm (hm.known hi c)

theorem succ_expr (h : AccruesOn σ n) (e : Expr) (i : ScopeId) :
    Preserves (Machine.Accrues (Store.Has i)) (evalExpr (n + 1) e i : Step (Machine σ) Value) := by
  have hr := Machine.Accrues.refl (σ := σ) (Store.Has i)
  have ht := Machine.Accrues.trans (σ := σ) (i := i)
  cases e with
  | literal a _ => exact hr
  | grouping e _ => exact h.expr e i
  | var x _ => exact Machine.read_accrues x
  | assign x e _ =>
      exact .bind ht (h.expr e i) fun v => .bind ht (Machine.write_accrues x v) fun _ => hr
  | logical l op r _ =>
      refine .bind ht (h.expr l i) fun v => ?_
      split
      · exact hr
      · exact h.expr r i
  | conditional c t e _ =>
      refine .bind ht (h.expr c i) fun v => ?_
      split
      · exact h.expr t i
      · exact h.expr e i
  | unary op e _ => exact .bind ht (h.expr e i) fun v => .blame hr op.span _
  | binary l op r _ =>
      exact .bind ht (h.expr l i) fun v => .bind ht (h.expr r i) fun w => .blame hr op.span _
  | call f args paren _ =>
      refine .bind ht (h.expr f i) fun v => ?_
      cases v with
      | callable c =>
          exact .bind ht (.mapM hr ht (fun a => h.expr a i) args) fun vs => h.callAt c vs paren i
      | number | string | bool | nil => exact hr

theorem succ_stmt (h : AccruesOn σ n) (s : Stmt) :
    Preserves Cursor.Accrues (execStmt (n + 1) s : Step (Cursor σ) Value) := by
  have hr := Cursor.Accrues.refl (σ := σ)
  have ht := Cursor.Accrues.trans (σ := σ)
  cases s with
  | expr e _ => exact h.here e
  | print e _ =>
      exact .bind ht (h.here e) fun v =>
        .bind ht (Cursor.here_accrues fun _ => Machine.println_accrues v.text) fun _ => hr
  | declare x e _ =>
      cases e with
      | none => exact Cursor.declare_accrues x.name .nil
      | some e => exact .bind ht (h.here e) fun v => Cursor.declare_accrues x.name v
  | block body _ =>
      simp only [execStmt]
      refine Cursor.here_accrues fun i => ?_
      exact Machine.open_accrues (fun s hi => s.accrues_child hi) (fun s => by simp [Store.child])
        fun inner => Machine.within_accrues (h.body body)
  | ifElse c t e _ =>
      refine .bind ht (h.here c) fun v => .bind ht ?_ fun _ => hr
      split
      · exact h.stmt t
      · cases e with
        | none => exact hr
        | some e => exact h.stmt e
  | whileLoop c body span =>
      refine .bind ht (h.here c) fun v => ?_
      split
      · exact .bind ht (h.stmt body) fun _ => h.stmt (.whileLoop c body span)
      · exact hr
  | forLoop => exact hr
  | function f params body declSpan _ =>
      simp only [execStmt]
      refine .bind ht (Cursor.here_accrues fun i m _ hi => ?_) fun c =>
        Cursor.declare_accrues f.name (.callable c)
      exact m.store.accrues_addFunction ⟨f, params, body, declSpan⟩ hi

theorem succ_call (h : AccruesOn σ n) (c : Callable) (args : List Value) (paren : Span) :
    Preserves (Machine.Accrues c.Known)
      (Scriptlet.call (n + 1) c args paren : Step (Machine σ) Value) := by
  have hr := Machine.Accrues.refl (σ := σ) c.Known
  simp only [Scriptlet.call]
  split
  · cases c with
    | native id name arity => exact fun m => Preserves.blame hr paren _ m
    | function id d =>
        refine Machine.checkDepth_accrues (Machine.open_accrues ?_ ?_ fun scope => ?_) paren
        · exact fun s hknown => s.accrues_frame hknown d.params args
        · exact fun s => by simp [Store.size_scopes_frame]
        · exact Machine.nested_accrues (Machine.within_accrues (h.body d.body))
  · exact hr

end AccruesOn

theorem accruesOn (σ : Type) [Sink σ] (n : Nat) : AccruesOn σ n := by
  induction n with
  | zero =>
      exact ⟨fun _ i => Machine.Accrues.refl (Store.Has i), fun _ => Cursor.Accrues.refl,
        fun c _ _ => Machine.Accrues.refl c.Known⟩
  | succ n ih => exact ⟨ih.succ_expr, ih.succ_stmt, ih.succ_call⟩

namespace Job

def Applies (s : Store) : Job → Prop
  | .expr _ i | .stmt _ i | .block _ i => i < s.scopes.size
  | .call (.function id _) _ _ => id < s.captured.size
  | .call (.native ..) _ _ => True

instance decidableApplies (s : Store) : (job : Job) → Decidable (job.Applies s)
  | .expr _ i | .stmt _ i | .block _ i => inferInstanceAs (Decidable (i < s.scopes.size))
  | .call (.function id _) _ _ => inferInstanceAs (Decidable (id < s.captured.size))
  | .call (.native ..) _ _ => isTrue trivial

theorem perform_accrues (fuel : Nat) {job : Job} {m : Machine σ} (hm : m.store.Grounded)
    (h : job.Applies m.store) : m.store.Accrues (job.perform fuel m).2.store := by
  have hfuel := accruesOn σ fuel
  cases job with
  | expr e i => exact hfuel.expr e i m hm h
  | stmt s i => exact Machine.within_accrues (hfuel.stmt s) m hm h
  | block body i => exact Machine.within_accrues (hfuel.body body) m hm h
  | call c args paren =>
      cases c with
      | native id name arity => exact hfuel.call _ args paren m hm trivial
      | function id d =>
          refine hfuel.call _ args paren m hm (?_ : m.store.capturedScope id < _)
          have hid : id < m.store.captured.size := h
          exact hm.captured _ (by simp [Store.capturedScope, hid])

end Job

/-- What a host can do with the scopes and functions it holds. Each evaluation has an evaluator to
itself, with a configuration of its own. -/
inductive Operation where
  | global
  | child (scope : ScopeId)
  | define (scope : ScopeId) (name : String) (v : Value)
  | assign (scope : ScopeId) (x : Ident) (v : Value)
  | get (scope : ScopeId) (x : Ident)
  | function (d : Declaration) (scope : ScopeId)
  | native (f : HostFunction)
  | rebind (id : FunctionId) (scope : ScopeId)
  | evaluate (config : Config) (job : Job)

namespace Operation

def Applies (s : Store) : Operation → Prop
  | .global | .native _ => True
  | .child i | .define i _ _ | .assign i _ _ | .get i _ | .function _ i | .rebind _ i =>
    i < s.scopes.size
  | .evaluate _ job => job.Applies s

instance decidableApplies (s : Store) : (op : Operation) → Decidable (op.Applies s)
  | .global | .native _ => isTrue trivial
  | .child i | .define i _ _ | .assign i _ _ | .get i _ | .function _ i | .rebind _ i =>
    inferInstanceAs (Decidable (i < s.scopes.size))
  | .evaluate _ job => job.decidableApplies s

def perform (fuel : Nat) (m : Machine σ) : Operation → Machine σ
  | .global => { m with store := m.store.global.2 }
  | .child i => { m with store := (m.store.child i).2 }
  | .define i name v => { m with store := (m.store.define i name v).2 }
  | .assign i x v => (Machine.write i x v m).2
  | .get i x => (Machine.read i x m).2
  | .function d i => { m with store := (m.store.addFunction d i).2 }
  | .native f => { m with store := (m.store.addNative f.name f.arity f.body).2 }
  | .rebind id i => { m with store := m.store.rebind id i }
  | .evaluate config job => (job.perform fuel { m with config, callDepth := 0 }).2

theorem perform_accrues (fuel : Nat) {op : Operation} {m : Machine σ} (hm : m.store.Grounded)
    (h : op.Applies m.store) : m.store.Accrues (op.perform fuel m).store := by
  cases op with
  | global => exact m.store.accrues_global
  | child i => exact m.store.accrues_child h
  | define i name v => exact m.store.accrues_define h name v
  | assign i x v => exact Machine.write_accrues (P := Store.Has i) x v m hm h
  | get i x => exact Machine.read_accrues (P := Store.Has i) x m hm h
  | function d i => exact m.store.accrues_addFunction d h
  | native f => exact m.store.accrues_addNative f.name f.arity f.body
  | rebind id i => exact m.store.accrues_rebind id h
  | evaluate config job =>
      exact Job.perform_accrues fuel (m := { m with config, callDepth := 0 }) hm h

end Operation

namespace Machine

def operate (fuel : Nat) (ops : List Operation) (m : Machine σ) : Machine σ :=
  ops.foldl (Operation.perform fuel) m

/-- Each operation applies when its turn comes. -/
def Permits (fuel : Nat) : List Operation → Machine σ → Prop
  | [], _ => True
  | op :: ops, m => op.Applies m.store ∧ Permits fuel ops (op.perform fuel m)

instance decidablePermits (fuel : Nat) :
    (ops : List Operation) → (m : Machine σ) → Decidable (m.Permits fuel ops)
  | [], _ => isTrue trivial
  | op :: ops, m =>
    have := decidablePermits fuel ops (op.perform fuel m)
    inferInstanceAs (Decidable (op.Applies m.store ∧ _))

theorem operate_append (fuel : Nat) (ops more : List Operation) (m : Machine σ) :
    m.operate fuel (ops ++ more) = (m.operate fuel ops).operate fuel more :=
  List.foldl_append

theorem permits_append {fuel : Nat} {ops more : List Operation} {m : Machine σ} :
    m.Permits fuel (ops ++ more) ↔ m.Permits fuel ops ∧ (m.operate fuel ops).Permits fuel more := by
  induction ops generalizing m with
  | nil => simp [Permits, operate]
  | cons op ops ih => simp [Permits, operate, ih, and_assoc]

theorem operate_accrues {fuel : Nat} {ops : List Operation} {m : Machine σ}
    (hm : m.store.Grounded) (h : m.Permits fuel ops) :
    m.store.Accrues (m.operate fuel ops).store := by
  induction ops generalizing m with
  | nil => exact .refl _
  | cons op ops ih =>
      have hfirst := op.perform_accrues fuel hm h.1
      exact hfirst.trans (ih (hfirst.grounded hm) h.2)

end Machine

/-- Whatever a host does, one operation after the other, the scopes are a forest: the chain of each
follows the links outward to one that has none, and its depth counts the scopes on the way. Of
what was there at an earlier time every scope still has its place and its depth. It lists what it
listed, in the same order and the same cells, behind what has been added, so a name that was known
in it is known and can be read. -/
theorem host_use_keeps_scopes (fuel : Nat) (sink : σ) (ops more : List Operation)
    (h : ({ sink } : Machine σ).Permits fuel (ops ++ more)) :
    let m := ({ sink } : Machine σ).operate fuel ops
    let m' := ({ sink } : Machine σ).operate fuel (ops ++ more)
    let s := m.store
    let t := m'.store
    (∀ i < t.scopes.size,
      (t.chain i).head? = some i ∧
      (t.chain i).IsChain (fun j p => t.enclosing? j = some p ∧ p < t.scopes.size) ∧
      (∃ root, (t.chain i).getLast? = some root ∧ t.enclosing? root = none) ∧
      t.depth i = 1 + (t.enclosing? i).elim 0 t.depth) ∧
    ∀ i < s.scopes.size,
      i < t.scopes.size ∧ t.enclosing? i = s.enclosing? i ∧ t.depth i = s.depth i ∧
      s.bindings i <:+ t.bindings i ∧
      ∀ x : Ident, (s.contains i x.name = true → t.contains i x.name = true) ∧
        ((∃ v, (Machine.read i x m).1 = .ok v) → ∃ v, (Machine.read i x m').1 = .ok v) := by
  intro m m' s t
  have hempty : ({ sink } : Machine σ).store.Grounded := .empty
  obtain ⟨hops, hmore⟩ := Machine.permits_append.mp h
  have hs : s.Grounded := (Machine.operate_accrues hempty hops).grounded hempty
  have hst : s.Accrues t := by
    change s.Accrues (Machine.operate fuel (ops ++ more) _).store
    rw [Machine.operate_append]
    exact Machine.operate_accrues hs hmore
  have ht : t.Grounded := hst.grounded hs
  refine ⟨fun i _ => ⟨?_, ?_, (ht.chain_ends i).2, ht.depth_eq i⟩, fun i hi => ?_⟩
  · rw [Store.chain_eq, List.head?_cons]
  · exact (ht.chain_ends i).1.imp fun j p hp => ⟨hp, ht.enclosing?_lt_size hp⟩
  · refine ⟨Nat.lt_of_lt_of_le hi hst.size_le, hst.enclosing?_eq i hi, hst.depth_eq hi,
      hst.suffix i hi, fun x => ⟨hst.contains hi, fun hread => ?_⟩⟩
    rw [Machine.read_eq_ok_iff, ht.isSome_get?_iff]
    rw [Machine.read_eq_ok_iff, hs.isSome_get?_iff] at hread
    exact hst.contains hi hread

/-- A host declares twice in one scope, has a function declared in that old scope, points it at a
later one and calls it, and runs a block that fails. -/
theorem host_use_keeps_scopes_old_handle :
    let a : Ident := ⟨"a", {}⟩
    let f : Ident := ⟨"f", {}⟩
    let ops : List Operation := [.global, .define 0 "a" (.bool true), .child 0]
    let more : List Operation := [.define 0 "a" (.bool false), .global,
      .evaluate {} (.stmt (.function f [a] [.declare a none {}] {} {}) 0), .rebind 0 3,
      .evaluate {} (.call (.function 0 ⟨f, [a], [.declare a none {}], {}⟩) [.nil] {}),
      .evaluate {} (.block [.declare a none {}, .expr (.var ⟨"x", {}⟩ {}) {}] 2)]
    let m := ({ sink := {} } : Machine Buffer).operate 9 ops
    let m' := ({ sink := {} } : Machine Buffer).operate 9 (ops ++ more)
    ({ sink := {} } : Machine Buffer).Permits 9 (ops ++ more) ∧
      m.store.bindings 0 = [("a", 0)] ∧
      m'.store.bindings 0 = [("f", 2), ("a", 1), ("a", 0)] ∧
      m.store.bindings 0 <:+ m'.store.bindings 0 ∧ m'.store.depth 2 = m.store.depth 2 ∧
      ∃ v, (Machine.read 2 a m').1 = .ok v := by
  intro a f ops more m m'
  have h : ({ sink := {} } : Machine Buffer).Permits 9 (ops ++ more) := by decide +kernel
  have hread : ∃ v, (Machine.read 2 a m).1 = .ok v :=
    Machine.read_eq_ok_iff.mpr (by decide +kernel)
  obtain ⟨-, hkept⟩ := host_use_keeps_scopes 9 ({} : Buffer) ops more h
  obtain ⟨-, -, -, hlist, -⟩ := hkept 0 (by decide +kernel)
  obtain ⟨-, -, hdepth, -, hname⟩ := hkept 2 (by decide +kernel)
  exact ⟨h, by decide +kernel, by decide +kernel, hlist, hdepth, (hname a).2 hread⟩

end Scriptlet
