import Scriptlet.Eval
import Scriptlet.Step.Approximation

namespace Scriptlet

open Step.Approximates

variable {σ : Type} [Sink σ]

structure Settles (σ : Type) [Sink σ] (n : Nat) : Prop where
  expr (e : Expr) (scope : ScopeId) :
    (evalExpr n e scope : Step (Machine σ) Value).Approximates (evalExpr (n + 1) e scope)
  stmt (s : Stmt) : (execStmt n s : Step (Cursor σ) Value).Approximates (execStmt (n + 1) s)
  call (c : Callable) (args : List Value) (paren : Span) :
    (call n c args paren : Step (Machine σ) Value).Approximates (call (n + 1) c args paren)

theorem Settles.body {n : Nat} (h : Settles σ n) (body : List Stmt) :
    (body.foldlM (fun _ s => execStmt n s) .nil : Step (Cursor σ) Value).Approximates
      (body.foldlM (fun _ s => execStmt (n + 1) s) .nil) :=
  foldlM (fun _ s => h.stmt s) body .nil

theorem Settles.succ_expr {n : Nat} (h : Settles σ n) (e : Expr) (scope : ScopeId) :
    (evalExpr (n + 1) e scope : Step (Machine σ) Value).Approximates
      (evalExpr (n + 2) e scope) := by
  cases e with
  | literal | var => exact refl _
  | grouping e _ => exact h.expr e scope
  | assign x e _ => exact (h.expr e scope).bind fun v => refl _
  | logical l op r _ =>
      refine (h.expr l scope).bind fun v => ?_
      split
      · exact refl _
      · exact h.expr r scope
  | conditional c t e _ =>
      refine (h.expr c scope).bind fun v => ?_
      split
      · exact h.expr t scope
      · exact h.expr e scope
  | unary op e _ => exact (h.expr e scope).bind fun v => refl _
  | binary l op r _ =>
      exact (h.expr l scope).bind fun v => (h.expr r scope).bind fun w => refl _
  | call f args paren _ =>
      refine (h.expr f scope).bind fun v => ?_
      cases v with
      | callable c => exact (mapM (fun a => h.expr a scope) args).bind fun vs => h.call c vs paren
      | number | string | bool | nil => exact refl _

theorem Settles.succ_stmt {n : Nat} (h : Settles σ n) (s : Stmt) :
    (execStmt (n + 1) s : Step (Cursor σ) Value).Approximates (execStmt (n + 2) s) := by
  have value (e : Expr) : (Cursor.here (evalExpr n e) : Step (Cursor σ) Value).Approximates
      (Cursor.here (evalExpr (n + 1) e)) := here fun i => h.expr e i
  cases s with
  | expr e _ => exact value e
  | print e _ => exact (value e).bind fun v => refl _
  | declare x e _ =>
      cases e with
      | none => exact refl _
      | some e => exact (value e).bind fun v => refl _
  | block body _ => exact here fun i => (refl _).bind fun j => (h.body body).within j
  | ifElse c t e _ =>
      refine (value c).bind fun v => Step.Approximates.bind ?_ fun _ => refl _
      split
      · exact h.stmt t
      · cases e with
        | none => exact refl _
        | some e => exact h.stmt e
  | whileLoop c body span =>
      refine (value c).bind fun v => ?_
      split
      · exact (h.stmt body).bind fun _ => h.stmt (.whileLoop c body span)
      · exact refl _
  | forLoop | function => exact refl _

theorem Settles.succ_call {n : Nat} (h : Settles σ n) (c : Callable) (args : List Value)
    (paren : Span) :
    (Scriptlet.call (n + 1) c args paren : Step (Machine σ) Value).Approximates
      (Scriptlet.call (n + 2) c args paren) := by
  unfold Scriptlet.call
  split
  · cases c with
    | native => exact refl _
    | function id d =>
        exact (refl _).bind fun _ => (refl _).bind fun scope => ((h.body d.body).within scope).nested
  · exact refl _

theorem settles (n : Nat) : Settles σ n := by
  induction n with
  | zero => exact ⟨fun _ _ => outOfFuel _, fun _ => outOfFuel _, fun _ _ _ => outOfFuel _⟩
  | succ n ih => exact ⟨ih.succ_expr, ih.succ_stmt, ih.succ_call⟩

theorem execStmt_approximates {n k : Nat} (h : n ≤ k) (s : Stmt) :
    (execStmt n s : Step (Cursor σ) Value).Approximates (execStmt k s) := by
  induction h with
  | refl => exact refl _
  | step _ ih => exact ih.trans ((settles _).stmt s)

theorem execBlock_approximates {n k : Nat} (h : n ≤ k) (body : List Stmt) :
    (execBlock n body : Step (Cursor σ) Value).Approximates (execBlock k body) :=
  foldlM (fun _ s => execStmt_approximates h s) body .nil

end Scriptlet
