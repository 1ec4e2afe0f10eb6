import Scriptlet.Eval
import Scriptlet.Proofs.Growth

namespace Scriptlet

variable {σ α β : Type}

open Step

theorem Step.snd_bind_pure {S : Type} (x : Step S α) (b : β) (s : S) :
    ((x >>= fun _ => pure b) s).2 = (x s).2 := by
  rw [bind_apply]
  obtain ⟨o, t⟩ := x s
  cases o <;> rfl

namespace Cursor

def Valid (c : Cursor σ) : Prop :=
  c.scope < c.machine.store.scopes.size

structure Stays (c d : Cursor σ) : Prop where
  scope : d.scope = c.scope
  machine : c.machine.Grows d.machine

theorem Stays.refl (c : Cursor σ) : c.Stays c :=
  ⟨rfl, .refl _⟩

theorem Stays.trans (c d e : Cursor σ) (h : c.Stays d) (k : d.Stays e) : c.Stays e :=
  ⟨k.scope.trans h.scope, h.machine.trans _ _ _ k.machine⟩

theorem Stays.valid {c d : Cursor σ} (h : c.Stays d) (hc : c.Valid) : d.Valid := by
  rw [Valid, h.scope]
  exact Nat.lt_of_lt_of_le hc h.machine.store.size_scopes_le

theorem here_stays {f : ScopeId → Step (Machine σ) α} (h : ∀ i, Preserves Machine.Grows (f i)) :
    Preserves Stays (here f) :=
  fun c => ⟨rfl, h c.scope c.machine⟩

/-- The declarations of `names` completed one after the other, with nothing but growth around
them. -/
inductive Advances : List String → Cursor σ → Cursor σ → Prop
  | stay {c d : Cursor σ} (h : c.Stays d) : Advances [] c d
  | declare {c d e : Cursor σ} {names : List String} (h : c.Stays d) (name : String) (v : Value)
      (rest : Advances names (Cursor.declare name v d).2 e) : Advances (name :: names) c e

namespace Advances

variable {c d e : Cursor σ} {names more : List String}

theorem after (h : c.Stays d) (k : Advances names d e) : Advances names c e := by
  cases k with
  | stay k => exact .stay (h.trans _ _ _ k)
  | declare k name v rest => exact .declare (h.trans _ _ _ k) name v rest

theorem append (h : Advances names c d) (k : Advances more d e) :
    Advances (names ++ more) c e := by
  induction h with
  | stay h => exact after h k
  | declare h name v _ ih => exact .declare h name v (ih k)

theorem grows {m : Machine σ} (h : Advances names c d) (hm : m.Grows c.machine)
    (hc : m.store.scopes.size ≤ c.scope) : m.Grows d.machine := by
  induction h with
  | stay h => exact hm.trans _ _ _ h.machine
  | @declare c d e names h name v rest ih =>
      have hd := hm.trans _ _ _ h.machine
      have hle : m.store.scopes.size ≤ d.scope := h.scope ▸ hc
      refine ih ⟨hd.store.define hle name v, hd.config, hd.callDepth⟩ ?_
      simpa [Cursor.declare] using hd.store.size_scopes_le

theorem limits (h : Advances names c d) :
    d.machine.config = c.machine.config ∧ d.machine.callDepth = c.machine.callDepth := by
  induction h with
  | stay h => exact ⟨h.machine.config, h.machine.callDepth⟩
  | declare h _ _ _ ih =>
      exact ⟨ih.1.trans h.machine.config, ih.2.trans h.machine.callDepth⟩

theorem getElem?_scopes (h : Advances names c d) {j : ScopeId}
    (hj : j < c.machine.store.scopes.size) (hne : j ≠ c.scope) :
    d.machine.store.scopes[j]? = c.machine.store.scopes[j]? := by
  induction h with
  | stay h => exact h.machine.store.getElem?_scopes hj
  | @declare c d e names h name v rest ih =>
      have hjd := Nat.lt_of_lt_of_le hj h.machine.store.size_scopes_le
      have hne' : j ≠ d.scope := fun he => hne (he.trans h.scope)
      rw [ih (by simpa [Cursor.declare] using Nat.lt_succ_of_lt hjd)
        (by simpa [Cursor.declare] using Nat.ne_of_lt hjd)]
      exact (Store.getElem?_scopes_define_of_ne _ name v hjd hne').trans
        (h.machine.store.getElem?_scopes hj)

theorem bindings_eq (h : Advances names c d) {j : ScopeId}
    (hj : j < c.machine.store.scopes.size) (hne : j ≠ c.scope) :
    d.machine.store.bindings j = c.machine.store.bindings j := by
  simp only [Store.bindings, h.getElem?_scopes hj hne]

theorem bindings_scope (h : Advances names c d) (hc : c.Valid) :
    ∃ new : List (String × CellId), new.map Prod.fst = names.take 1 ∧
      d.machine.store.bindings c.scope = new ++ c.machine.store.bindings c.scope := by
  cases h with
  | stay h => exact ⟨[], rfl, h.machine.store.bindings_eq hc⟩
  | @declare _ e _ names h name v rest =>
      have he : e.Valid := h.valid hc
      refine ⟨[(name, e.machine.store.cells.size)], rfl, ?_⟩
      have hrest := rest.bindings_eq (j := e.scope)
        (by simpa [Cursor.declare] using Nat.lt_succ_of_lt he)
        (by simpa [Cursor.declare] using Nat.ne_of_lt he)
      have hnew : (Cursor.declare name v e).2.machine.store.bindings e.scope =
          (name, e.machine.store.cells.size) :: e.machine.store.bindings e.scope :=
        Store.bindings_define _ name v he (.inl rfl)
      rw [← h.scope, hrest, hnew, h.scope, h.machine.store.bindings_eq hc]
      rfl

theorem localNames_scope (h : Advances names c d) (hc : c.Valid) :
    d.machine.store.localNames d.scope =
      names.reverse ++ c.machine.store.localNames c.scope := by
  induction h with
  | stay h => simp [Store.localNames, h.scope, h.machine.store.bindings_eq hc]
  | @declare c d e names h name v rest ih =>
      have hd : d.Valid := h.valid hc
      have hnew : (Cursor.declare name v d).2.machine.store.bindings
          (Cursor.declare name v d).2.scope =
          (name, d.machine.store.cells.size) :: d.machine.store.bindings d.scope :=
        Store.bindings_define _ name v hd (.inr (Store.fst_define ..))
      rw [ih (by simp [Valid, Cursor.declare])]
      simp [Store.localNames, hnew, h.scope, h.machine.store.bindings_eq hc]

theorem depth_scope (h : Advances names c d) (hc : c.Valid) :
    d.machine.store.depth d.scope = c.machine.store.depth c.scope + names.length := by
  induction h with
  | stay h => simp [h.scope, h.machine.store.depth_eq hc]
  | @declare c d e names h name v rest ih =>
      have hd : d.Valid := h.valid hc
      have hold : (d.machine.store.define d.scope name v).2.depth d.scope =
          c.machine.store.depth c.scope := by
        rw [Store.depth, Store.chain_congr fun j hj =>
          Store.parent?_define _ name v (Nat.lt_of_le_of_lt hj hd)]
        rw [h.scope]
        exact h.machine.store.depth_eq hc
      have hnew : (Cursor.declare name v d).2.machine.store.depth
          (Cursor.declare name v d).2.scope =
          1 + c.machine.store.depth c.scope := by
        simp only [Cursor.declare, Store.fst_define]
        rw [Store.depth_eq, Store.parent?_define_new _ name v hd, Option.elim_some, hold]
      rw [ih (by simp [Valid, Cursor.declare]), hnew, List.length_cons]
      omega

end Advances

end Cursor

variable [Sink σ]

/-- The names that a statement declares from a given cursor, in the order in which the declarations
complete. What is declared inside blocks and calls does not count. -/
def declaredNames : Nat → Stmt → Cursor σ → List String
  | 0, _, _ => []
  | n + 1, s, c =>
    match s with
    | .declare x none _ => [x.name]
    | .declare x (some e) _ =>
      match Cursor.here (evalExpr n e) c with
      | (.ok _, _) => [x.name]
      | _ => []
    | .function f _ _ _ _ => [f.name]
    | .ifElse cond t e _ =>
      match Cursor.here (evalExpr n cond) c with
      | (.ok v, c) =>
        if v.isTruthy then declaredNames n t c else e.elim [] fun s => declaredNames n s c
      | _ => []
    | .whileLoop cond body span =>
      match Cursor.here (evalExpr n cond) c with
      | (.ok v, c) =>
        if v.isTruthy then
          declaredNames n body c ++
            match execStmt n body c with
            | (.ok _, c) => declaredNames n (.whileLoop cond body span) c
            | _ => []
        else []
      | _ => []
    | .expr _ _ | .print _ _ | .block _ _ | .forLoop _ _ _ _ _ => []

/-- The effect on scopes of everything that is evaluated with a given fuel. -/
structure Frames (σ : Type) [Sink σ] (n : Nat) : Prop where
  expr (e : Expr) (scope : ScopeId) :
    Preserves Machine.Grows (evalExpr n e scope : Step (Machine σ) Value)
  stmt (s : Stmt) (c : Cursor σ) : Cursor.Advances (declaredNames n s c) c (execStmt n s c).2
  call (c : Callable) (args : List Value) (paren : Span) :
    Preserves Machine.Grows (call n c args paren : Step (Machine σ) Value)

namespace Frames

variable {n : Nat}

theorem here (h : Frames σ n) (e : Expr) :
    Preserves Cursor.Stays (Cursor.here (evalExpr n e) : Step (Cursor σ) Value) :=
  Cursor.here_stays fun i => h.expr e i

theorem body (h : Frames σ n) (body : List Stmt) (c : Cursor σ) :
    ∃ names, Cursor.Advances names c (body.foldlM (fun _ s => execStmt n s) Value.nil c).2 := by
  refine Preserves.foldlM (R := fun c d => ∃ names, Cursor.Advances names c d)
    (fun c => ⟨[], .stay (.refl c)⟩) ?_ (fun _ s c => ⟨_, h.stmt s c⟩) body .nil c
  rintro c d e ⟨names, hcd⟩ ⟨more, hde⟩
  exact ⟨names ++ more, hcd.append hde⟩

theorem within (h : Frames σ n) (body : List Stmt) {m m' : Machine σ} (hm : m.Grows m') :
    m.Grows (Machine.within m.store.scopes.size
      (body.foldlM (fun _ s => execStmt n s) Value.nil) m').2 := by
  obtain ⟨names, hb⟩ := h.body body ⟨m.store.scopes.size, m'⟩
  exact hb.grows hm (Nat.le_refl _)

theorem succ_expr (h : Frames σ n) (e : Expr) (scope : ScopeId) :
    Preserves Machine.Grows (evalExpr (n + 1) e scope : Step (Machine σ) Value) := by
  have hr := Machine.Grows.refl (σ := σ)
  have ht := Machine.Grows.trans (σ := σ)
  cases e with
  | literal a _ => exact .pure hr _
  | grouping e _ => exact h.expr e scope
  | var x _ => exact Machine.read_grows scope x
  | assign x e _ =>
      exact (h.expr e scope).bind ht fun v =>
        (Machine.write_grows scope x v).bind ht fun _ => .pure hr v
  | logical l op r _ =>
      refine (h.expr l scope).bind ht fun v => ?_
      split
      · exact .pure hr v
      · exact h.expr r scope
  | conditional c t e _ =>
      refine (h.expr c scope).bind ht fun v => ?_
      split
      · exact h.expr t scope
      · exact h.expr e scope
  | unary op e _ => exact (h.expr e scope).bind ht fun v => .blame hr op.span _
  | binary l op r _ =>
      exact (h.expr l scope).bind ht fun v => (h.expr r scope).bind ht fun w => .blame hr op.span _
  | call f args paren _ =>
      refine (h.expr f scope).bind ht fun v => ?_
      cases v with
      | callable c =>
          exact (Preserves.mapM hr ht (fun a => h.expr a scope) args).bind ht fun vs =>
            h.call c vs paren
      | number | string | bool | nil => exact .fail hr .notCallable paren

theorem succ_call (h : Frames σ n) (c : Callable) (args : List Value) (paren : Span) :
    Preserves Machine.Grows (Scriptlet.call (n + 1) c args paren : Step (Machine σ) Value) := by
  have hr := Machine.Grows.refl (σ := σ)
  have ht := Machine.Grows.trans (σ := σ)
  unfold Scriptlet.call
  split
  · cases c with
    | native id name arity => exact Machine.invoke_grows id name args paren
    | function id d =>
        refine (Machine.checkDepth_grows paren).bind ht fun _ m => ?_
        let s := m.store.frame (m.store.capturedScope id) d.params args
        let m' : Machine σ := { m with store := s.2, callDepth := m.callDepth + 1 }
        have hm : Machine.Grows { m with callDepth := m.callDepth + 1 } m' :=
          ⟨m.store.extends_frame _ _ _, rfl, rfl⟩
        obtain ⟨hs, hc, hd⟩ := h.within d.body hm
        exact ⟨hs, hc, (congrArg (· - 1) hd).trans (UInt64.add_sub_cancel m.callDepth 1)⟩
  · exact .fail hr _ paren

theorem succ_stmt (h : Frames σ n) (s : Stmt) (c : Cursor σ) :
    Cursor.Advances (declaredNames (n + 1) s c) c (execStmt (n + 1) s c).2 := by
  have hr := Cursor.Stays.refl (σ := σ)
  have ht := Cursor.Stays.trans (σ := σ)
  cases s with
  | expr e _ => exact .stay (h.here e c)
  | print e _ =>
      refine .stay ((h.here e).bind ht (fun v => ?_) c)
      exact (Cursor.here_stays fun _ => Machine.println_grows v.text).bind ht fun _ => .pure hr _
  | declare x e _ =>
      cases e with
      | none => exact .declare (hr c) x.name .nil (.stay (hr _))
      | some e =>
          have he := h.here e c
          simp only [declaredNames, execStmt, bind_apply]
          generalize Cursor.here (evalExpr n e) c = r at he ⊢
          obtain ⟨o, d⟩ := r
          cases o with
          | ok v => exact .declare he x.name v (.stay (hr _))
          | error | outOfFuel => exact .stay he
  | block body _ =>
      refine .stay (Cursor.here_stays (fun scope m => ?_) c)
      exact h.within body ⟨m.store.extends_child scope, rfl, rfl⟩
  | ifElse cond t e _ =>
      have hc := h.here cond c
      simp only [declaredNames, execStmt, bind_apply]
      generalize Cursor.here (evalExpr n cond) c = r at hc ⊢
      obtain ⟨o, d⟩ := r
      cases o with
      | ok v =>
          apply Cursor.Advances.after hc
          change Cursor.Advances _ d (((if v.isTruthy then execStmt n t
            else e.elim (pure .nil) (execStmt n)) >>= fun _ => pure Value.nil) d).2
          rw [Step.snd_bind_pure]
          cases hv : v.isTruthy with
          | true => simpa [hv] using h.stmt t d
          | false =>
              cases e with
              | none => simpa [hv, pure_apply] using Cursor.Advances.stay (hr d)
              | some e => simpa [hv] using h.stmt e d
      | error | outOfFuel => exact .stay hc
  | whileLoop cond body span =>
      have hc := h.here cond c
      simp only [declaredNames, execStmt, bind_apply]
      generalize Cursor.here (evalExpr n cond) c = r at hc ⊢
      obtain ⟨o, d⟩ := r
      cases o with
      | ok v =>
          apply Cursor.Advances.after hc
          cases hv : v.isTruthy with
          | true =>
              have hb := h.stmt body d
              simp only [hv, if_true, bind_apply]
              generalize execStmt n body d = r at hb ⊢
              obtain ⟨o, d'⟩ := r
              cases o with
              | ok _ => exact hb.append (h.stmt (.whileLoop cond body span) d')
              | error | outOfFuel => simpa using hb
          | false => simpa [hv, pure_apply] using Cursor.Advances.stay (hr d)
      | error | outOfFuel => exact .stay hc
  | forLoop => exact .stay (hr c)
  | function f params body declSpan _ =>
      have hf : Preserves Cursor.Stays (Cursor.here fun scope => Machine.onStore fun s =>
          s.addFunction ⟨f, params, body, declSpan⟩ scope : Step (Cursor σ) Callable) :=
        Cursor.here_stays fun scope => Machine.onStore_grows fun s => s.extends_addFunction _ scope
      let id := c.machine.store.captured.size
      exact .declare (hf c) f.name (.callable (.function id ⟨f, params, body, declSpan⟩))
        (.stay (hr _))

end Frames

theorem frames (n : Nat) : Frames σ n := by
  induction n with
  | zero =>
      exact ⟨fun _ _ => .outOfFuel .refl, fun _ c => .stay (.refl c), fun _ _ _ => .outOfFuel .refl⟩
  | succ n ih => exact ⟨ih.succ_expr, ih.succ_stmt, ih.succ_call⟩

/-- However an evaluation ends, an expression or a call leaves the list of every scope as it found
it. A statement leaves every list but that of the current scope, which gains at most one variable;
it moves on by one scope for every declaration that completes, and the names of these stand, the
latest first, before those of the scope where it began. -/
theorem evaluation_keeps_scopes (fuel : Nat) (e : Expr) (scope : ScopeId) (f : Callable)
    (args : List Value) (paren : Span) (m : Machine σ) (s : Stmt) (c : Cursor σ)
    (hc : c.scope < c.machine.store.scopes.size) :
    let old := c.machine.store
    let r := (execStmt fuel s c).2
    let names := declaredNames fuel s c
    (∀ i < m.store.scopes.size,
      (evalExpr fuel e scope m).2.store.bindings i = m.store.bindings i ∧
        (call fuel f args paren m).2.store.bindings i = m.store.bindings i) ∧
    (∀ i < old.scopes.size, i ≠ c.scope → r.machine.store.bindings i = old.bindings i) ∧
    (∃ new : List (String × CellId), new.length ≤ 1 ∧
      r.machine.store.bindings c.scope = new ++ old.bindings c.scope) ∧
    r.machine.store.depth r.scope = old.depth c.scope + names.length ∧
    r.machine.store.localNames r.scope = names.reverse ++ old.localNames c.scope ∧
    (names = [] → r.scope = c.scope) ∧
    (∀ e body span, s = .expr e span ∨ s = .print e span ∨ s = .block body span →
      r.scope = c.scope) := by
  intro old r names
  have hs : Cursor.Advances names c r := (frames fuel).stmt s c
  have hstill : names = [] → r.scope = c.scope := by
    intro hn
    rw [hn] at hs
    cases hs with
    | stay h => exact h.scope
  refine ⟨?_, fun i hi hne => hs.bindings_eq hi hne, ?_, hs.depth_scope hc, hs.localNames_scope hc,
    hstill, ?_⟩
  · intro i hi
    exact ⟨((frames fuel).expr e scope m).store.bindings_eq hi,
      ((frames fuel).call f args paren m).store.bindings_eq hi⟩
  · obtain ⟨new, hnew, hb⟩ := hs.bindings_scope hc
    have hlen := congrArg List.length hnew
    rw [List.length_map, List.length_take] at hlen
    exact ⟨new, by omega, hb⟩
  · intro e body span h
    apply hstill
    rcases h with rfl | rfl | rfl <;> cases fuel <;> rfl

/-- A loop that declares a variable in its first round and fails in its second. -/
theorem evaluation_keeps_scopes_failing_loop :
    let c : Cursor Buffer :=
      ⟨0, { sink := {}, store := (Store.global {}).2.bind 0 "x" (.bool true) }⟩
    let loop : Stmt := .whileLoop (.literal (.bool true) {})
      (.ifElse (.var ⟨"x", {}⟩ {}) (.declare ⟨"x", {}⟩ none {})
        (some (.expr (.var ⟨"y", {}⟩ {}) {})) {}) {}
    let r := execStmt 9 loop c
    c.scope < c.machine.store.scopes.size ∧ r.1 = .error ⟨.undefinedVariable "y", {}⟩ ∧
      r.2.machine.store.depth r.2.scope = c.machine.store.depth c.scope + 1 ∧
      r.2.machine.store.localNames r.2.scope = ["x", "x"] := by
  intro c loop r
  have hc : c.scope < c.machine.store.scopes.size := by decide
  have hnames : declaredNames 9 loop c = ["x"] := by decide +kernel
  have herror : r.1 = .error ⟨.undefinedVariable "y", {}⟩ := by decide +kernel
  obtain ⟨-, -, -, hdepth, hlocal, -⟩ := evaluation_keeps_scopes 9 (.literal .nil {}) 0
    (.native 0 "f" 0) [] {} c.machine loop c hc
  rw [hnames] at hdepth hlocal
  exact ⟨hc, herror, hdepth, hlocal⟩

end Scriptlet
