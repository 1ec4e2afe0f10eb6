import Scriptlet.Machine
import Scriptlet.Operator

namespace Scriptlet

variable {σ : Type} [Sink σ]

mutual

/-- Every step into a part costs one unit of fuel, as does every further round of a loop, so a run
that comes to an end needs only finitely much. -/
def evalExpr : Nat → Expr → ScopeId → Step (Machine σ) Value
  | 0, _, _ => Step.outOfFuel
  | n + 1, e, scope =>
    match e with
    | .literal a _ => pure (Value.ofLiteral a)
    | .grouping e _ => evalExpr n e scope
    | .var x _ => Machine.read scope x
    | .assign x e _ => do
      let v ← evalExpr n e scope
      Machine.write scope x v
      return v
    | .logical l op r _ => do
      let v ← evalExpr n l scope
      if op.node.isSettledBy v then return v else evalExpr n r scope
    | .conditional c t e _ => do
      let v ← evalExpr n c scope
      if v.isTruthy then evalExpr n t scope else evalExpr n e scope
    | .unary op e _ => do
      let v ← evalExpr n e scope
      Step.blame op.span (op.node.apply v)
    | .binary l op r _ => do
      let v ← evalExpr n l scope
      let w ← evalExpr n r scope
      Step.blame op.span (op.node.apply v w)
    | .call f args paren _ => do
      match ← evalExpr n f scope with
      | .callable c => do
        let vs ← args.mapM fun a => evalExpr n a scope
        call n c vs paren
      | _ => Step.fail .notCallable paren

/-- Runs one statement. What it yields is the value of a block or body that ends with it. -/
def execStmt : Nat → Stmt → Step (Cursor σ) Value
  | 0, _ => Step.outOfFuel
  | n + 1, s =>
    match s with
    | .expr e _ => Cursor.here (evalExpr n e)
    | .print e _ => do
      let v ← Cursor.here (evalExpr n e)
      Cursor.here fun _ => Machine.println v.text
      return .nil
    | .declare x none _ => Cursor.declare x.name .nil
    | .declare x (some e) _ => do
      let v ← Cursor.here (evalExpr n e)
      Cursor.declare x.name v
    | .block body _ => Cursor.here fun scope => do
      let inner ← Machine.onStore (·.child scope)
      Machine.within inner (body.foldlM (fun _ s => execStmt n s) .nil)
    | .ifElse c t e _ => do
      let v ← Cursor.here (evalExpr n c)
      let _ ← (if v.isTruthy then execStmt n t else e.elim (pure .nil) (execStmt n))
      return .nil
    | .whileLoop c body span => do
      let v ← Cursor.here (evalExpr n c)
      if v.isTruthy then
        let _ ← execStmt n body
        execStmt n (.whileLoop c body span)
      else
        return .nil
    | .forLoop _ _ _ _ span => Step.fail (.unsupported "For loops") span
    | .function f params body declSpan _ => do
      let c ← Cursor.here fun scope =>
        Machine.onStore (·.addFunction ⟨f, params, body, declSpan⟩ scope)
      Cursor.declare f.name (.callable c)

def call : Nat → Callable → List Value → Span → Step (Machine σ) Value
  | 0, _, _, _ => Step.outOfFuel
  | n + 1, c, args, paren =>
    if args.length = c.arity then
      match c with
      | .native id name _ => Machine.invoke id name args paren
      | .function id d => do
        Machine.checkDepth paren
        let scope ← Machine.onStore fun s => s.frame (s.capturedScope id) d.params args
        Machine.nested (Machine.within scope (d.body.foldlM (fun _ s => execStmt n s) .nil))
    else Step.fail (.arityMismatch c.arity args.length) paren

end

def execBlock (fuel : Nat) (body : List Stmt) : Step (Cursor σ) Value :=
  body.foldlM (fun _ s => execStmt fuel s) .nil

end Scriptlet
