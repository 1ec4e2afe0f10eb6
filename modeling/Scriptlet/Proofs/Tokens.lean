import Scriptlet.Proofs.Fragment

namespace Scriptlet

inductive Token where
  | name (x : Ident)
  | unary (op : Located UnaryOp)
  | binary (op : Located BinaryOp)
  | paren (span : Span)
  | forLoop (span : Span)
  deriving DecidableEq

mutual

def Expr.tokens : Expr → List Token
  | .literal _ _ => []
  | .grouping e _ => e.tokens
  | .var x _ => [.name x]
  | .assign x e _ => .name x :: e.tokens
  | .logical l _ r _ => l.tokens ++ r.tokens
  | .conditional c t e _ => c.tokens ++ t.tokens ++ e.tokens
  | .unary op e _ => .unary op :: e.tokens
  | .binary l op r _ => l.tokens ++ .binary op :: r.tokens
  | .call f args paren _ => f.tokens ++ Expr.tokensAll args ++ [.paren paren]

def Expr.tokensAll : List Expr → List Token
  | [] => []
  | e :: es => e.tokens ++ Expr.tokensAll es

end

mutual

def Stmt.tokens : Stmt → List Token
  | .expr e _ | .print e _ => e.tokens
  | .declare _ e _ => e.elim [] Expr.tokens
  | .block body _ | .function _ _ body _ _ => Stmt.tokensAll body
  | .ifElse c t e _ => c.tokens ++ t.tokens ++ Stmt.tokensOptional e
  | .whileLoop c body _ => c.tokens ++ body.tokens
  | .forLoop initial c increment body span =>
    .forLoop span :: (Stmt.tokensOptional initial ++ c.elim [] Expr.tokens ++
      increment.elim [] Expr.tokens ++ body.tokens)

def Stmt.tokensAll : List Stmt → List Token
  | [] => []
  | s :: body => s.tokens ++ Stmt.tokensAll body

def Stmt.tokensOptional : Option Stmt → List Token
  | none => []
  | some s => s.tokens

end

theorem Expr.mem_tokensAll {es : List Expr} {t : Token} :
    t ∈ Expr.tokensAll es ↔ ∃ e ∈ es, t ∈ e.tokens := by
  induction es with
  | nil => simp [tokensAll]
  | cons e es ih => simp [tokensAll, ih]

/-- The tokens of a statement without those of the statements in it. -/
def Stmt.ownTokens : Stmt → List Token
  | .expr e _ | .print e _ => e.tokens
  | .declare _ e _ => e.elim [] Expr.tokens
  | .block _ _ | .function _ _ _ _ _ => []
  | .ifElse c _ _ _ | .whileLoop c _ _ => c.tokens
  | .forLoop _ c increment _ span =>
    .forLoop span :: (c.elim [] Expr.tokens ++ increment.elim [] Expr.tokens)

def Stmt.strays (given : List Token) (s : Stmt) : Bool :=
  s.ownTokens.any (· ∉ given)

variable {given : List Token}

theorem Stmt.strays_eq_false {s : Stmt} : s.strays given = false ↔ s.ownTokens ⊆ given := by
  simp [strays, List.subset_def]

theorem Stmt.ownTokens_subset {s : Stmt} (h : s.avoids (Stmt.strays given) = true) :
    s.ownTokens ⊆ given := by
  rw [← strays_eq_false]
  cases s with
  | expr | print | declare => simpa [avoids] using h
  | block | whileLoop | function =>
      simp only [avoids, Bool.and_eq_true, Bool.not_eq_true'] at h
      exact h.1
  | ifElse | forLoop =>
      simp only [avoids, Bool.and_eq_true, Bool.not_eq_true'] at h
      exact h.1.1

mutual

theorem Stmt.avoids_strays (s : Stmt) (h : s.tokens ⊆ given) :
    s.avoids (Stmt.strays given) = true := by
  cases s with
  | expr | print | declare =>
      simp only [avoids, Bool.not_eq_true', strays_eq_false]
      exact h
  | block body | function _ _ body =>
      simp only [avoids, Bool.and_eq_true, Bool.not_eq_true', strays_eq_false]
      exact ⟨List.nil_subset _, Stmt.avoidsAll_strays body h⟩
  | ifElse c t e =>
      simp only [Stmt.tokens, List.append_subset] at h
      simp only [avoids, Bool.and_eq_true, Bool.not_eq_true', strays_eq_false]
      exact ⟨⟨h.1.1, Stmt.avoids_strays t h.1.2⟩, Stmt.avoidsOptional_strays e h.2⟩
  | whileLoop c body =>
      simp only [Stmt.tokens, List.append_subset] at h
      simp only [avoids, Bool.and_eq_true, Bool.not_eq_true', strays_eq_false]
      exact ⟨h.1, Stmt.avoids_strays body h.2⟩
  | forLoop initial c increment body span =>
      simp only [Stmt.tokens, List.cons_subset, List.append_subset] at h
      obtain ⟨hspan, ⟨⟨hinitial, hc⟩, hincrement⟩, hbody⟩ := h
      simp only [avoids, Bool.and_eq_true, Bool.not_eq_true', strays_eq_false]
      refine ⟨⟨?_, Stmt.avoidsOptional_strays initial hinitial⟩, Stmt.avoids_strays body hbody⟩
      exact List.cons_subset.mpr ⟨hspan, List.append_subset.mpr ⟨hc, hincrement⟩⟩

theorem Stmt.avoidsAll_strays (body : List Stmt) (h : Stmt.tokensAll body ⊆ given) :
    Stmt.avoidsAll (Stmt.strays given) body = true := by
  cases body with
  | nil => rfl
  | cons s body =>
      simp only [Stmt.tokensAll, List.append_subset] at h
      simp only [avoidsAll, Bool.and_eq_true]
      exact ⟨Stmt.avoids_strays s h.1, Stmt.avoidsAll_strays body h.2⟩

theorem Stmt.avoidsOptional_strays (s : Option Stmt) (h : Stmt.tokensOptional s ⊆ given) :
    Stmt.avoidsOptional (Stmt.strays given) s = true := by
  cases s with
  | none => rfl
  | some s => exact Stmt.avoids_strays s h

end

def Stmt.isFor : Stmt → Bool
  | .forLoop _ _ _ _ _ => true
  | _ => false

variable (span : Span)

mutual

theorem Expr.forLoop_not_mem_tokens (e : Expr) : .forLoop span ∉ e.tokens := by
  cases e with
  | literal | var => simp [Expr.tokens]
  | grouping e _ => exact e.forLoop_not_mem_tokens
  | assign x e _ | unary op e _ => simpa [Expr.tokens] using e.forLoop_not_mem_tokens
  | logical l op r _ | binary l op r _ =>
      simp [Expr.tokens, l.forLoop_not_mem_tokens, r.forLoop_not_mem_tokens]
  | conditional c t e _ =>
      simp [Expr.tokens, c.forLoop_not_mem_tokens, t.forLoop_not_mem_tokens,
        e.forLoop_not_mem_tokens]
  | call f args paren _ =>
      simp [Expr.tokens, f.forLoop_not_mem_tokens, Expr.forLoop_not_mem_tokensAll args]

theorem Expr.forLoop_not_mem_tokensAll (es : List Expr) : .forLoop span ∉ Expr.tokensAll es := by
  cases es with
  | nil => exact List.not_mem_nil
  | cons e es =>
      simp [Expr.tokensAll, e.forLoop_not_mem_tokens, Expr.forLoop_not_mem_tokensAll es]

end

theorem Expr.forLoop_not_mem_optional (e : Option Expr) :
    .forLoop span ∉ e.elim [] Expr.tokens := by
  cases e with
  | none => exact List.not_mem_nil
  | some e => exact e.forLoop_not_mem_tokens span

mutual

theorem Stmt.forLoop_not_mem_tokens (s : Stmt) (h : s.avoids Stmt.isFor = true) :
    .forLoop span ∉ s.tokens := by
  cases s with
  | expr e _ | print e _ => exact e.forLoop_not_mem_tokens span
  | declare x e _ => exact Expr.forLoop_not_mem_optional span e
  | block body _ | function _ _ body _ _ =>
      simp only [avoids, Bool.and_eq_true] at h
      exact Stmt.forLoop_not_mem_tokensAll body h.2
  | ifElse c t e _ =>
      simp only [avoids, Bool.and_eq_true] at h
      simp [Stmt.tokens, c.forLoop_not_mem_tokens, Stmt.forLoop_not_mem_tokens t h.1.2,
        Stmt.forLoop_not_mem_tokensOptional e h.2]
  | whileLoop c body _ =>
      simp only [avoids, Bool.and_eq_true] at h
      simp [Stmt.tokens, c.forLoop_not_mem_tokens, Stmt.forLoop_not_mem_tokens body h.2]
  | forLoop => simp [avoids, isFor] at h

theorem Stmt.forLoop_not_mem_tokensAll (body : List Stmt)
    (h : Stmt.avoidsAll Stmt.isFor body = true) : .forLoop span ∉ Stmt.tokensAll body := by
  cases body with
  | nil => exact List.not_mem_nil
  | cons s body =>
      simp only [avoidsAll, Bool.and_eq_true] at h
      simp [Stmt.tokensAll, Stmt.forLoop_not_mem_tokens s h.1,
        Stmt.forLoop_not_mem_tokensAll body h.2]

theorem Stmt.forLoop_not_mem_tokensOptional (s : Option Stmt)
    (h : Stmt.avoidsOptional Stmt.isFor s = true) : .forLoop span ∉ Stmt.tokensOptional s := by
  cases s with
  | none => exact List.not_mem_nil
  | some s => exact Stmt.forLoop_not_mem_tokens s h

end

end Scriptlet
