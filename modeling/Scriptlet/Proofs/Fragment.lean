import Scriptlet.Proofs.Computation
import Scriptlet.Proofs.Session

namespace Scriptlet

mutual

/-- Neither the statement nor any inside it is of the given kind. -/
def Stmt.avoids (p : Stmt → Bool) : Stmt → Bool
  | s@(.expr _ _) | s@(.print _ _) | s@(.declare _ _ _) => !p s
  | s@(.block body _) => !p s && Stmt.avoidsAll p body
  | s@(.ifElse _ t e _) => !p s && t.avoids p && Stmt.avoidsOptional p e
  | s@(.whileLoop _ body _) => !p s && body.avoids p
  | s@(.forLoop initial _ _ body _) => !p s && Stmt.avoidsOptional p initial && body.avoids p
  | s@(.function _ _ body _ _) => !p s && Stmt.avoidsAll p body

def Stmt.avoidsAll (p : Stmt → Bool) : List Stmt → Bool
  | [] => true
  | s :: body => s.avoids p && Stmt.avoidsAll p body

def Stmt.avoidsOptional (p : Stmt → Bool) : Option Stmt → Bool
  | none => true
  | some s => s.avoids p

end

variable {σ α : Type} {p : Stmt → Bool}

theorem Stmt.avoidsAll_iff {body : List Stmt} :
    Stmt.avoidsAll p body = true ↔ ∀ s ∈ body, s.avoids p = true := by
  induction body with
  | nil => simp [avoidsAll]
  | cons s body ih => simp [avoidsAll, ih]

/-- A function of the program has no statement of the given kind in it and is not made by one. -/
def Value.Avoids (p : Stmt → Bool) : Value → Prop
  | .callable (.function _ d) =>
    ∃ span, (Stmt.function d.name d.params d.body d.span span).avoids p = true
  | _ => True

/-- A host function that returns a function has it from its arguments. -/
def NativeBody.Tame (body : NativeBody) : Prop :=
  ∀ args c, body args = .ok (.callable c) → .callable c ∈ args

theorem NativeBody.Tame.avoids {body : NativeBody} (h : body.Tame) {args : List Value} {v : Value}
    (hargs : ∀ a ∈ args, a.Avoids p) (hv : body args = .ok v) : v.Avoids p := by
  cases v with
  | callable c => exact hargs _ (h args c hv)
  | number | string | bool | nil => trivial

theorem Value.avoids_of_callable?_eq_none {v : Value} (h : v.callable? = none) : v.Avoids p := by
  cases v with
  | callable c => cases h
  | number | string | bool | nil => trivial

theorem Value.avoids_ofLiteral (a : Literal) : (Value.ofLiteral a).Avoids p := by
  cases a <;> trivial

theorem UnaryOp.callable?_of_apply {op : UnaryOp} {v w : Value} (h : op.apply v = .ok w) :
    w.callable? = none := by
  cases op with
  | neg =>
      cases v with
      | number x =>
          cases h
          rfl
      | string | bool | nil | callable => cases h
  | not =>
      cases h
      rfl

theorem UnaryOp.avoids_of_apply {op : UnaryOp} {v w : Value} (h : op.apply v = .ok w) :
    w.Avoids p :=
  Value.avoids_of_callable?_eq_none (callable?_of_apply h)

section

variable {a b w : Value}

theorem Value.callable?_of_add (h : a.add b = .ok w) : w.callable? = none := by
  simp only [add] at h
  split at h
  · cases h; rfl
  · cases h; rfl
  · cases h; rfl
  · cases h

theorem Value.callable?_of_div (h : a.div b = .ok w) : w.callable? = none := by
  simp only [div] at h
  cases hn : numbers a b with
  | error e => rw [hn] at h; cases h
  | ok xy =>
      rw [hn] at h
      change (if xy.2 == 0.0 then .error Fault.divisionByZero else .ok (.number (xy.1 / xy.2))) =
        Except.ok w at h
      split at h
      · cases h
      · cases h; rfl

theorem Value.callable?_of_arithmetic {f : Float → Float → Float}
    (h : Value.arithmetic f a b = .ok w) : w.callable? = none := by
  simp only [arithmetic] at h
  cases hn : numbers a b with
  | error e => rw [hn] at h; cases h
  | ok xy => rw [hn] at h; cases h; rfl

theorem Value.callable?_of_comparison {f : Float → Float → Bool}
    (h : Value.comparison f a b = .ok w) : w.callable? = none := by
  simp only [comparison] at h
  cases hn : numbers a b with
  | error e => rw [hn] at h; cases h
  | ok xy => rw [hn] at h; cases h; rfl

theorem BinaryOp.callable?_of_apply {op : BinaryOp} (h : op.apply a b = .ok w) :
    w.callable? = none ∨ w = b := by
  cases op with
  | add => exact .inl (Value.callable?_of_add h)
  | sub | mul => exact .inl (Value.callable?_of_arithmetic h)
  | div => exact .inl (Value.callable?_of_div h)
  | greater | greaterEq | less | lessEq =>
      rw [apply] at h
      exact .inl (Value.callable?_of_comparison h)
  | eq | notEq => cases h; exact .inl rfl
  | comma => cases h; exact .inr rfl

end

theorem BinaryOp.avoids_of_apply {op : BinaryOp} {u v w : Value} (hv : v.Avoids p)
    (h : op.apply u v = .ok w) : w.Avoids p := by
  rcases callable?_of_apply h with hw | rfl
  · exact Value.avoids_of_callable?_eq_none hw
  · exact hv

theorem Store.forall_nativeBody {P : NativeBody → Prop} {s : Store} (hnil : P fun _ => .ok .nil)
    (h : ∀ body ∈ s.natives, P body) (id : NativeId) : P (s.nativeBody id) := by
  rw [Store.nativeBody, Array.getD_eq_getD_getElem?]
  cases hid : s.natives[id]? with
  | none => exact hnil
  | some body => exact h body (Array.mem_of_getElem? hid)

theorem Store.nativeBody_tame {s : Store} (h : ∀ body ∈ s.natives, NativeBody.Tame body)
    (id : NativeId) : NativeBody.Tame (s.nativeBody id) :=
  forall_nativeBody nofun h id

/-- No function at hand has a statement of the given kind in it, and host functions bring none. -/
structure Store.Avoids (p : Stmt → Bool) (s : Store) : Prop where
  cells : ∀ v ∈ s.cells, v.Avoids p
  natives : ∀ body ∈ s.natives, NativeBody.Tame body

namespace Store.Avoids

variable {s : Store}

theorem get? (h : s.Avoids p) {i : ScopeId} {name : String} {v : Value}
    (hv : s.get? i name = some v) : v.Avoids p := by
  obtain ⟨c, -, hc⟩ := Option.bind_eq_some_iff.mp hv
  exact h.cells v (Array.mem_of_getElem? hc)

theorem set (h : s.Avoids p) (c : CellId) {v : Value} (hv : v.Avoids p) : (s.set c v).Avoids p := by
  refine ⟨fun w hw => ?_, h.natives⟩
  rcases Array.mem_or_eq_of_mem_setIfInBounds hw with hw | rfl
  · exact h.cells w hw
  · exact hv

theorem bind (h : s.Avoids p) (i : ScopeId) (name : String) {v : Value} (hv : v.Avoids p) :
    (s.bind i name v).Avoids p := by
  refine ⟨fun w hw => ?_, h.natives⟩
  rcases Array.mem_push.mp hw with hw | rfl
  · exact h.cells w hw
  · exact hv

theorem define (h : s.Avoids p) (i : ScopeId) (name : String) {v : Value} (hv : v.Avoids p) :
    (s.define i name v).2.Avoids p :=
  ⟨(h.bind i name hv).cells, h.natives⟩

theorem frame (h : s.Avoids p) (i : ScopeId) (params : List Ident) {args : List Value}
    (hargs : ∀ v ∈ args, v.Avoids p) : (s.frame i params args).2.Avoids p := by
  apply s.frame_induction i params args ⟨h.cells, h.natives⟩
  exact fun t b hb ht => ht.bind _ b.1.name (hargs b.2 (List.of_mem_zip hb).2)

theorem addNative (h : s.Avoids p) (name : String) (arity : Nat) {body : NativeBody}
    (hb : body.Tame) : (s.addNative name arity body).2.Avoids p := by
  refine ⟨h.cells, fun b hmem => ?_⟩
  rcases Array.mem_push.mp hmem with hmem | rfl
  · exact h.natives b hmem
  · exact hb

theorem nativeBody (h : s.Avoids p) (id : NativeId) : NativeBody.Tame (s.nativeBody id) :=
  nativeBody_tame h.natives id

end Store.Avoids

namespace Interpreter

theorem new_avoids (sink : σ) (config : Config) (source : Option Source) :
    (new sink config source).machine.store.Avoids p :=
  ⟨fun _ hv => absurd hv (Array.not_mem_empty _), fun _ hb => absurd hb (Array.not_mem_empty _)⟩

theorem defineNative_avoids {i : Interpreter σ} (h : i.machine.store.Avoids p) (name : String)
    (arity : Nat) {body : NativeBody} (hb : body.Tame) :
    (i.defineNative name arity body).machine.store.Avoids p :=
  (h.addNative name arity hb).bind i.globals name trivial

end Interpreter

open Step

abbrev Machine.Avoids (p : Stmt → Bool) (m : Machine σ) : Prop :=
  m.store.Avoids p

abbrev Cursor.Avoids (p : Stmt → Bool) (c : Cursor σ) : Prop :=
  c.machine.store.Avoids p

namespace Machine

theorem read_maintains (scope : ScopeId) (x : Ident) :
    Maintains (Machine.Avoids p) (Value.Avoids p) (read scope x : Step (Machine σ) Value) := by
  intro m hm
  unfold read
  cases hv : m.store.get? scope x.name with
  | none => exact ⟨hm, nofun⟩
  | some v =>
      refine ⟨hm, fun w hw => ?_⟩
      cases hw
      exact hm.get? hv

theorem write_maintains (scope : ScopeId) (x : Ident) {v : Value} (hv : v.Avoids p) :
    Maintains (Machine.Avoids p) (fun _ => True) (write scope x v : Step (Machine σ) Unit) := by
  intro m hm
  unfold write
  cases m.store.resolve scope x.name with
  | none => exact ⟨hm, nofun⟩
  | some c => exact ⟨hm.set c hv, fun _ _ => trivial⟩

theorem invoke_maintains (id : NativeId) (name : String) {args : List Value} (paren : Span)
    (hargs : ∀ v ∈ args, v.Avoids p) :
    Maintains (Machine.Avoids p) (Value.Avoids p)
      (invoke id name args paren : Step (Machine σ) Value) := by
  intro m hm
  refine Maintains.blame (I := Machine.Avoids p) paren (fun v hv => ?_) m hm
  cases hbody : m.store.nativeBody id args with
  | error e => rw [hbody] at hv; cases hv
  | ok w =>
      rw [hbody] at hv
      cases hv
      exact (hm.nativeBody id).avoids hargs hbody

theorem checkDepth_maintains (paren : Span) :
    Maintains (Machine.Avoids p) (fun _ => True) (checkDepth paren : Step (Machine σ) Unit) := by
  intro m hm
  unfold checkDepth
  split
  · exact ⟨hm, fun _ _ => trivial⟩
  · exact ⟨hm, nofun⟩

theorem nested_maintains {P : α → Prop} {x : Step (Machine σ) α}
    (h : Maintains (Machine.Avoids p) P x) : Maintains (Machine.Avoids p) P (nested x) :=
  fun m hm => h { m with callDepth := m.callDepth + 1 } hm

end Machine

theorem Cursor.declare_maintains (name : String) {v : Value} (hv : v.Avoids p) :
    Maintains (Cursor.Avoids p) (Value.Avoids p)
      (Cursor.declare name v : Step (Cursor σ) Value) := by
  intro c hc
  refine ⟨Store.Avoids.define hc c.scope name hv, fun w hw => ?_⟩
  cases hw
  exact hv

variable [Sink σ]

structure StaysWithin (p : Stmt → Bool) (σ : Type) [Sink σ] (n : Nat) : Prop where
  expr (e : Expr) (scope : ScopeId) :
    Maintains (Machine.Avoids p) (Value.Avoids p) (evalExpr n e scope : Step (Machine σ) Value)
  stmt {s : Stmt} (hs : s.avoids p = true) :
    Maintains (Cursor.Avoids p) (Value.Avoids p) (execStmt n s : Step (Cursor σ) Value)
  call {c : Callable} {args : List Value} (paren : Span) (hc : (Value.callable c).Avoids p)
    (hargs : ∀ v ∈ args, v.Avoids p) :
    Maintains (Machine.Avoids p) (Value.Avoids p) (call n c args paren : Step (Machine σ) Value)

namespace StaysWithin

variable {n : Nat}

theorem here (h : StaysWithin p σ n) (e : Expr) :
    Maintains (Cursor.Avoids p) (Value.Avoids p)
      (Cursor.here (evalExpr n e) : Step (Cursor σ) Value) :=
  .here fun scope => h.expr e scope

theorem body (h : StaysWithin p σ n) {body : List Stmt} (hb : Stmt.avoidsAll p body = true) :
    Maintains (Cursor.Avoids p) (Value.Avoids p)
      (body.foldlM (fun _ s => execStmt n s) Value.nil : Step (Cursor σ) Value) :=
  .foldlM (fun s hs _ => h.stmt (Stmt.avoidsAll_iff.mp hb s hs)) trivial

theorem succ_expr (h : StaysWithin p σ n) (e : Expr) (scope : ScopeId) :
    Maintains (Machine.Avoids p) (Value.Avoids p)
      (evalExpr (n + 1) e scope : Step (Machine σ) Value) := by
  cases e with
  | literal a _ => exact .pure (Value.avoids_ofLiteral a)
  | grouping e _ => exact h.expr e scope
  | var x _ => exact Machine.read_maintains scope x
  | assign x e _ =>
      exact (h.expr e scope).bind fun v hv =>
        (Machine.write_maintains scope x hv).bind fun _ _ => .pure hv
  | logical l op r _ =>
      refine (h.expr l scope).bind fun v hv => ?_
      split
      · exact .pure hv
      · exact h.expr r scope
  | conditional c t e _ =>
      refine (h.expr c scope).bind fun v _ => ?_
      split
      · exact h.expr t scope
      · exact h.expr e scope
  | unary op e _ =>
      exact (h.expr e scope).bind fun v _ => .blame op.span fun _ => UnaryOp.avoids_of_apply
  | binary l op r _ =>
      exact (h.expr l scope).bind fun v _ => (h.expr r scope).bind fun w hw =>
        .blame op.span fun _ => BinaryOp.avoids_of_apply hw
  | call f args paren _ =>
      refine (h.expr f scope).bind fun v hv => ?_
      cases v with
      | callable c =>
          exact (Maintains.mapM (fun a => h.expr a scope) args).bind fun vs hvs =>
            h.call paren hv hvs
      | number | string | bool | nil => exact .fail .notCallable paren

theorem succ_stmt (h : StaysWithin p σ n) {s : Stmt} (hs : s.avoids p = true) :
    Maintains (Cursor.Avoids p) (Value.Avoids p)
      (execStmt (n + 1) s : Step (Cursor σ) Value) := by
  cases s with
  | expr e _ => exact h.here e
  | print e _ =>
      refine (h.here e).bind fun v _ => ?_
      refine Maintains.bind (P := fun _ => True) ?_ fun _ _ => .pure trivial
      exact .here (I := Machine.Avoids p) fun _ m hm => ⟨hm, fun _ _ => trivial⟩
  | declare x e _ =>
      cases e with
      | none => exact Cursor.declare_maintains x.name trivial
      | some e => exact (h.here e).bind fun v hv => Cursor.declare_maintains x.name hv
  | block body _ =>
      simp only [Stmt.avoids, Bool.and_eq_true] at hs
      refine .here (I := Machine.Avoids p) fun scope => Maintains.bind (P := fun _ => True) ?_
        fun inner _ => (h.body hs.2).within inner
      exact fun m hm => ⟨⟨hm.cells, hm.natives⟩, fun _ _ => trivial⟩
  | ifElse c t e _ =>
      simp only [Stmt.avoids, Bool.and_eq_true] at hs
      obtain ⟨⟨-, ht⟩, he⟩ := hs
      refine (h.here c).bind fun v _ => ?_
      refine Maintains.bind (P := Value.Avoids p) ?_ fun _ _ => .pure trivial
      split
      · exact h.stmt ht
      · cases e with
        | none => exact .pure trivial
        | some e => exact h.stmt he
  | whileLoop c body span =>
      have hbody : body.avoids p = true := by
        simp only [Stmt.avoids, Bool.and_eq_true] at hs
        exact hs.2
      refine (h.here c).bind fun v _ => ?_
      split
      · exact (h.stmt hbody).bind fun _ _ => h.stmt hs
      · exact .pure trivial
  | forLoop => exact .fail _ _
  | function f params body declSpan span =>
      refine Maintains.bind (P := fun c => (Value.callable c).Avoids p) ?_
        fun c hc => Cursor.declare_maintains f.name hc
      refine .here (I := Machine.Avoids p) fun scope m hm => ⟨⟨hm.cells, hm.natives⟩, ?_⟩
      intro c hc
      cases hc
      exact ⟨span, hs⟩

theorem succ_call (h : StaysWithin p σ n) {c : Callable} {args : List Value} (paren : Span)
    (hc : (Value.callable c).Avoids p) (hargs : ∀ v ∈ args, v.Avoids p) :
    Maintains (Machine.Avoids p) (Value.Avoids p)
      (Scriptlet.call (n + 1) c args paren : Step (Machine σ) Value) := by
  unfold Scriptlet.call
  split
  · cases c with
    | native id name arity => exact Machine.invoke_maintains id name paren hargs
    | function id d =>
        obtain ⟨span, hd⟩ := hc
        simp only [Stmt.avoids, Bool.and_eq_true] at hd
        refine (Machine.checkDepth_maintains paren).bind fun _ _ =>
          Maintains.bind (P := fun _ => True) ?_ fun scope _ =>
            Machine.nested_maintains ((h.body hd.2).within scope)
        exact fun m hm => ⟨hm.frame _ d.params hargs, fun _ _ => trivial⟩
  · exact .fail _ paren

end StaysWithin

theorem staysWithin (p : Stmt → Bool) (n : Nat) : StaysWithin p σ n := by
  induction n with
  | zero => exact ⟨fun _ _ => .outOfFuel, fun _ => .outOfFuel, fun _ _ _ => .outOfFuel⟩
  | succ n ih => exact ⟨ih.succ_expr, ih.succ_stmt, ih.succ_call⟩

/-- Nothing of the given kind is handed to a program. -/
def Request.Avoids (p : Stmt → Bool) : Request → Prop
  | .run program | .interpret program => ∀ s ∈ program, s.avoids p = true
  | .provide f | .native f => f.body.Tame
  | .evaluate _ | .rebind _ _ => True
  -- host functions make no functions, so they hand this one to no program
  | .function _ _ => True

abbrev Interpreter.Avoids (p : Stmt → Bool) (i : Interpreter σ) : Prop :=
  i.machine.store.Avoids p

namespace Interpreter

variable {ρ : Type}

omit [Sink σ] in
theorem atTop_maintains {P : α → Prop} {x : Step (Cursor σ) α}
    (h : Maintains (Cursor.Avoids p) P x) : Maintains (Interpreter.Avoids p) P (atTop x) :=
  fun i hi => h ⟨i.environment, i.machine⟩ hi

theorem run_maintains (fuel : Nat) {program : List Stmt}
    (hp : ∀ s ∈ program, s.avoids p = true) :
    Maintains (Interpreter.Avoids p) (Value.Avoids p)
      (run fuel program : Step (Interpreter σ) Value) :=
  atTop_maintains ((staysWithin p fuel).body (Stmt.avoidsAll_iff.mpr hp))

end Interpreter

theorem Request.perform_maintains {ρ : Type} [Reporter ρ] {request : Request}
    (h : request.Avoids p) (fuel : Nat) :
    Maintains (fun s : ρ × Interpreter σ => s.2.Avoids p) (fun _ => True)
      (request.perform fuel) := by
  have second {x : Step (Interpreter σ) Value}
      (hx : Maintains (Interpreter.Avoids p) (Value.Avoids p) x) :
      Maintains (fun s : ρ × Interpreter σ => s.2.Avoids p) (fun _ => True)
        (Answer.value <$> Step.second x) :=
    Maintains.map (fun s hs => hx s.2 hs) fun _ _ => trivial
  cases request with
  | run program => exact second (Interpreter.run_maintains fuel h)
  | interpret program =>
      refine Maintains.map (P := fun _ => True) ?_ fun _ _ => trivial
      intro s hs
      have hrun := (Interpreter.run_maintains fuel h s.2 hs).1
      rw [← Interpreter.snd_snd_interpret] at hrun
      exact ⟨hrun, fun _ _ => trivial⟩
  | evaluate e =>
      exact second (Interpreter.atTop_maintains ((staysWithin p fuel).here e))
  | provide f =>
      exact fun s hs => ⟨Interpreter.defineNative_avoids hs f.name f.arity h, fun _ _ => trivial⟩
  | native f => exact fun s hs => ⟨hs.addNative f.name f.arity h, fun _ _ => trivial⟩
  | function | rebind => exact fun s hs => ⟨⟨hs.cells, hs.natives⟩, fun _ _ => trivial⟩

theorem avoids_sessionState {ρ : Type} [Reporter ρ] (fuel : Nat) {requests : List Request}
    (h : ∀ request ∈ requests, request.Avoids p) {s : ρ × Interpreter σ} (hs : s.2.Avoids p) :
    (sessionState fuel requests s).2.Avoids p := by
  refine List.foldlRecOn (motive := fun t : ρ × Interpreter σ => t.2.Avoids p) requests _ hs ?_
  exact fun t ht request hrequest => (request.perform_maintains (h request hrequest) fuel t ht).1

end Scriptlet
