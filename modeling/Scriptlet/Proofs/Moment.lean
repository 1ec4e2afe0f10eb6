import Mathlib.Logic.Function.Iterate
import Scriptlet.Interpreter

namespace Scriptlet

/-- What is to be done once the part under evaluation has its outcome. -/
inductive Task where
  | assign (x : Ident)
  | logical (op : LogicalOp) (right : Expr)
  | choose (thenBranch elseBranch : Expr)
  | unary (op : Located UnaryOp)
  | right (op : Located BinaryOp) (right : Expr)
  | binary (op : Located BinaryOp) (left : Value)
  | callee (args : List Expr) (paren : Span)
  | argument (c : Callable) (done : List Value) (rest : List Expr) (paren : Span)
  | print
  | declare (name : String)
  | branch (thenBranch : Stmt) (elseBranch : Option Stmt)
  | discard
  | test (condition : Expr) (body : Stmt) (span : Span)
  | again (condition : Expr) (body : Stmt) (span : Span)
  | rest (body : List Stmt)
  | leave (scope : ScopeId)
  | finish (scope : ScopeId)

inductive Focus where
  | expr (e : Expr)
  | stmt (s : Stmt)
  | done (o : Outcome Value)

theorem Focus.expr_ne_done (e : Expr) (o : Outcome Value) : Focus.expr e ≠ .done o :=
  nofun

theorem Focus.stmt_ne_done (s : Stmt) (o : Outcome Value) : Focus.stmt s ≠ .done o :=
  nofun

/-- A step of a run: the part under evaluation, the current scope, the tasks that wait for the
outcome of that part, the innermost first, and the machine. -/
structure Moment (σ : Type) where
  focus : Focus
  scope : ScopeId
  tasks : List Task
  machine : Machine σ

namespace Moment

variable {σ : Type}

def look (m : Moment σ) (focus : Focus) (task : Task) : Moment σ :=
  { m with focus, tasks := task :: m.tasks }

def act (m : Moment σ) (x : Step (Cursor σ) Value) : Moment σ :=
  let r := x ⟨m.scope, m.machine⟩
  ⟨.done r.1, r.2.scope, m.tasks, r.2.machine⟩

def enter (m : Moment σ) (body : List Stmt) (back : Task) (scope : ScopeId)
    (machine : Machine σ) : Moment σ :=
  ⟨.done (.ok .nil), scope, .rest body :: back :: m.tasks, machine⟩

def apply (m : Moment σ) (c : Callable) (args : List Value) (paren : Span) : Moment σ :=
  if args.length = c.arity then
    match c with
    | .native id name _ => m.act (Cursor.here fun _ => Machine.invoke id name args paren)
    | .function id d =>
      if m.machine.callDepth < m.machine.config.maxCallDepth then
        let r := m.machine.store.frame (m.machine.store.capturedScope id) d.params args
        m.enter d.body (.finish m.scope) r.1
          { m.machine with store := r.2, callDepth := m.machine.callDepth + 1 }
      else
        m.act (Cursor.here fun _ =>
          Step.fail (.stackOverflow m.machine.config.maxCallDepth) paren)
  else m.act (Cursor.here fun _ => Step.fail (.arityMismatch c.arity args.length) paren)

def gather (m : Moment σ) (c : Callable) (done : List Value) (paren : Span) :
    List Expr → Moment σ
  | [] => m.apply c done paren
  | a :: rest => m.look (.expr a) (.argument c done rest paren)

def visit (m : Moment σ) : Expr → Moment σ
  | .literal a _ => m.act (pure (Value.ofLiteral a))
  | .grouping e _ => { m with focus := .expr e }
  | .var x _ => m.act (Cursor.here fun scope => Machine.read scope x)
  | .assign x e _ => m.look (.expr e) (.assign x)
  | .logical l op r _ => m.look (.expr l) (.logical op.node r)
  | .conditional c t e _ => m.look (.expr c) (.choose t e)
  | .unary op e _ => m.look (.expr e) (.unary op)
  | .binary l op r _ => m.look (.expr l) (.right op r)
  | .call f args paren _ => m.look (.expr f) (.callee args paren)

def start (m : Moment σ) : Stmt → Moment σ
  | .expr e _ => { m with focus := .expr e }
  | .print e _ => m.look (.expr e) .print
  | .declare x none _ => m.act (Cursor.declare x.name .nil)
  | .declare x (some e) _ => m.look (.expr e) (.declare x.name)
  | .block body _ =>
    let r := m.machine.store.child m.scope
    m.enter body (.leave m.scope) r.1 { m.machine with store := r.2 }
  | .ifElse c t e _ => m.look (.expr c) (.branch t e)
  | .whileLoop c body span => m.look (.expr c) (.test c body span)
  | .forLoop _ _ _ _ span => m.act (Step.fail (.unsupported "For loops") span)
  | .function f params body declSpan _ => m.act do
    let c ← Cursor.here fun scope =>
      Machine.onStore (·.addFunction ⟨f, params, body, declSpan⟩ scope)
    Cursor.declare f.name (.callable c)

def back (m : Moment σ) : Task → Moment σ
  | .leave scope => { m with scope }
  | .finish scope =>
    { m with scope, machine := { m.machine with callDepth := m.machine.callDepth - 1 } }
  | _ => m

variable [Sink σ]

def resume (m : Moment σ) (v : Value) : Task → Moment σ
  | .assign x => m.act (Cursor.here fun scope => do
      Machine.write scope x v
      return v)
  | .logical op r => if op.isSettledBy v then m else { m with focus := .expr r }
  | .choose t e => { m with focus := .expr (if v.isTruthy then t else e) }
  | .unary op => m.act (Cursor.here fun _ => Step.blame op.span (op.node.apply v))
  | .right op r => m.look (.expr r) (.binary op v)
  | .binary op left => m.act (Cursor.here fun _ => Step.blame op.span (op.node.apply left v))
  | .callee args paren =>
    match v with
    | .callable c => m.gather c [] paren args
    | _ => m.act (Cursor.here fun _ => Step.fail .notCallable paren)
  | .argument c done rest paren => m.gather c (done ++ [v]) paren rest
  | .print => m.act (do
      Cursor.here fun _ => Machine.println v.text
      return .nil)
  | .declare name => m.act (Cursor.declare name v)
  | .branch t e =>
    if v.isTruthy then m.look (.stmt t) .discard
    else e.elim (m.act (pure .nil)) fun s => m.look (.stmt s) .discard
  | .discard => m.act (pure .nil)
  | .test c body span =>
    if v.isTruthy then m.look (.stmt body) (.again c body span) else m.act (pure .nil)
  | .again c body span => { m with focus := .stmt (.whileLoop c body span) }
  | .rest [] => m
  | .rest (s :: body) => m.look (.stmt s) (.rest body)
  | .leave scope => m.back (.leave scope)
  | .finish scope => m.back (.finish scope)

def next (m : Moment σ) : Moment σ :=
  match m.focus with
  | .expr e => m.visit e
  | .stmt s => m.start s
  | .done o =>
    match m.tasks with
    | [] => m
    | task :: tasks =>
      match o with
      | .ok v => { m with tasks }.resume v task
      | _ => { m with tasks }.back task

def Halted (m : Moment σ) : Prop :=
  (∃ o, m.focus = .done o) ∧ m.tasks = []

theorem Halted.next {m : Moment σ} (h : m.Halted) : m.next = m := by
  obtain ⟨⟨o, ho⟩, ht⟩ := h
  simp only [Moment.next, ho, ht]

theorem Halted.iterate {m : Moment σ} (h : m.Halted) (t : Nat) : Moment.next^[t] m = m :=
  Function.iterate_fixed h.next t

end Moment

namespace Interpreter

variable {σ : Type} [Sink σ]

def moment (i : Interpreter σ) (program : List Stmt) (t : Nat) : Moment σ :=
  Moment.next^[t] ⟨.done (.ok .nil), i.environment, [.rest program], i.machine⟩

variable (i : Interpreter σ) (program : List Stmt)

theorem moment_succ (t : Nat) : i.moment program (t + 1) = (i.moment program t).next :=
  Function.iterate_succ_apply' _ _ _

theorem moment_add (u t : Nat) :
    i.moment program (u + t) = Moment.next^[u] (i.moment program t) :=
  Function.iterate_add_apply _ _ _ _

end Interpreter

end Scriptlet
