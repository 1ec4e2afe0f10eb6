import Scriptlet.Proofs.ScopeFrame
import Scriptlet.Proofs.Tokens
import Scriptlet.Proofs.VariableEffects

namespace Scriptlet

open Step

variable {σ : Type}

namespace Machine

/-- The two scopes are scopes of the store, and each of the names denotes the same in both. -/
structure AgreeOn (names : List Token) (i j : ScopeId) (m : Machine σ) : Prop where
  left : i < m.store.scopes.size
  right : j < m.store.scopes.size
  resolve_eq : ∀ x : Ident, .name x ∈ names → m.store.resolve i x.name = m.store.resolve j x.name

variable {names : List Token} {i j : ScopeId} {x : Ident}

theorem AgreeOn.grows (m m' : Machine σ) (h : m.AgreeOn names i j) (k : m.Grows m') :
    m'.AgreeOn names i j where
  left := Nat.lt_of_lt_of_le h.left k.store.size_scopes_le
  right := Nat.lt_of_lt_of_le h.right k.store.size_scopes_le
  resolve_eq x hx := by
    rw [k.store.resolve_eq h.left, k.store.resolve_eq h.right]
    exact h.resolve_eq x hx

theorem read_simulates (hx : .name x ∈ names) :
    Simulates (AgreeOn names i j) Eq (read i x : Step (Machine σ) Value) (read j x) := by
  rintro m _ hm rfl
  simp only [read, Store.get?, hm.resolve_eq x hx, and_self]

theorem write_simulates (hx : .name x ∈ names) (v : Value) :
    Simulates (AgreeOn names i j) Eq (write i x v : Step (Machine σ) Unit) (write j x v) := by
  rintro m _ hm rfl
  simp only [write, hm.resolve_eq x hx, and_self]

end Machine

theorem Step.Simulates.rfl {S α : Type} {I : S → Prop} (x : Step S α) : Simulates I Eq x x := by
  rintro s _ _ ⟨⟩
  exact ⟨Eq.refl _, Eq.refl _⟩

variable [Sink σ]

theorem evalExpr_maintains_agreeOn (n : Nat) (names : List Token) (i j k : ScopeId) (e : Expr) :
    Maintains (Machine.AgreeOn names i j) (fun _ => True)
      (evalExpr n e k : Step (Machine σ) Value) :=
  .of_preserves ((frames n).expr e k) Machine.AgreeOn.grows

theorem evalExpr_simulates {names : List Token} (i j : ScopeId) (n : Nat) (e : Expr)
    (he : e.tokens ⊆ names) :
    Simulates (Machine.AgreeOn names i j) Eq (evalExpr n e i : Step (Machine σ) Value)
      (evalExpr n e j) := by
  induction n generalizing e with
  | zero => exact .outOfFuel
  | succ n ih =>
      have keeps := evalExpr_maintains_agreeOn (σ := σ) n names i j i
      cases e with
      | literal a _ => exact .pure _
      | grouping e _ => exact ih e he
      | var x _ => exact Machine.read_simulates (he List.mem_cons_self)
      | assign x e _ =>
          obtain ⟨hx, he⟩ := List.cons_subset.mp he
          refine (ih e he).bind (keeps e) fun v _ => ?_
          exact (Machine.write_simulates hx v).bind
            (.of_preserves (Machine.write_grows i x v) Machine.AgreeOn.grows) fun _ _ => .pure v
      | logical l op r _ =>
          obtain ⟨hl, hr⟩ := List.append_subset.mp he
          refine (ih l hl).bind (keeps l) fun v _ => ?_
          split
          · exact .pure v
          · exact ih r hr
      | conditional c t e _ =>
          obtain ⟨hct, he⟩ := List.append_subset.mp he
          obtain ⟨hc, ht⟩ := List.append_subset.mp hct
          refine (ih c hc).bind (keeps c) fun v _ => ?_
          split
          · exact ih t ht
          · exact ih e he
      | unary op e _ =>
          refine (ih e (List.cons_subset.mp he).2).bind (keeps e) fun v _ => ?_
          exact .blame op.span _
      | binary l op r _ =>
          obtain ⟨hl, hr⟩ := List.append_subset.mp he
          refine (ih l hl).bind (keeps l) fun v _ => ?_
          refine (ih r (List.cons_subset.mp hr).2).bind (keeps r) fun w _ => ?_
          exact .blame op.span _
      | call f args paren _ =>
          obtain ⟨hfargs, -⟩ := List.append_subset.mp he
          obtain ⟨hf, hargs⟩ := List.append_subset.mp hfargs
          refine (ih f hf).bind (keeps f) fun v _ => ?_
          cases v with
          | callable c =>
              have heach (a : Expr) (ha : a ∈ args) : a.tokens ⊆ names := fun t ht =>
                hargs (Expr.mem_tokensAll.mpr ⟨a, ha, ht⟩)
              refine (Simulates.mapM (fun a ha => ih a (heach a ha)) keeps).bind
                (.mapM keeps args) fun vs _ => ?_
              -- from here on the scope plays no part: the body runs where the function was made
              exact .rfl _
          | number | string | bool | nil => exact .fail .notCallable paren

/-- Two scopes in which every name of an expression denotes the same variable, or none, can stand in
for each other: the expression yields the same value or error, prints the same lines and leaves the
same store, or goes on for ever in both. The scope of a declaration and the one that takes over from
it are two such scopes, for any expression. -/
theorem scopes_matter_through_names_only (e : Expr) (m : Machine σ) (i j : ScopeId)
    (hi : i < m.store.scopes.size) (hj : j < m.store.scopes.size)
    (h : ∀ x : Ident, .name x ∈ e.tokens → m.store.resolve i x.name = m.store.resolve j x.name) :
    (∀ fuel, evalExpr fuel e i m = evalExpr fuel e j m) ∧
    ((∀ fuel, (evalExpr fuel e i m).1 = .outOfFuel) ↔
      ∀ fuel, (evalExpr fuel e j m).1 = .outOfFuel) ∧
    ∀ name v e' fuel,
      let r := m.store.define i name v
      let m' := { m with store := r.2 }
      evalExpr fuel e' r.1 m' = evalExpr fuel e' i m' := by
  have hsame (e : Expr) (i j : ScopeId) (m : Machine σ) (h : m.AgreeOn e.tokens i j) (fuel : Nat) :
      evalExpr fuel e i m = evalExpr fuel e j m :=
    Prod.ext_iff.mpr (evalExpr_simulates i j fuel e (List.Subset.refl _) m m h rfl)
  have hboth := hsame e i j m ⟨hi, hj, h⟩
  refine ⟨hboth, ?_, fun name v e' fuel => hsame e' _ i _ ⟨?_, ?_, fun x _ => ?_⟩ fuel⟩
  · simp only [hboth]
  · rw [Store.fst_define, Store.size_scopes_define]
    exact Nat.lt_succ_self _
  · rw [Store.size_scopes_define]
    exact Nat.lt_succ_of_lt hi
  · rw [Store.fst_define]
    exact Store.resolve_define_new hi

/-- The argument assigns a variable that the body assigns again. The inner scope declares a `y` that
the outer one does not know. -/
theorem scopes_matter_through_names_only_call :
    let f : Ident := ⟨"f", {}⟩
    let x : Ident := ⟨"x", {}⟩
    let y : Ident := ⟨"y", {}⟩
    let i := (Interpreter.run 9 [.declare x none {},
      .function f [y] [.expr (.assign x (.literal (.string "set") {}) {}) {},
        .print (.var y {}) {}] {} {}] (Interpreter.new ({} : Buffer))).2
    let e : Expr := .call (.var f {}) [.assign x (.literal (.string "given") {}) {}] {} {}
    let m := i.machine.operate 0 [.child i.environment, .define 3 "y" .nil]
    m.store.resolve i.environment "y" = none ∧ m.store.resolve 3 "y" = some 2 ∧
      evalExpr 9 e i.environment m = evalExpr 9 e 3 m ∧
      (evalExpr 9 e 3 m).2.sink.lines = #["given"] ∧
      ((evalExpr 9 e 3 m).2.store.get? 3 "x").map Value.text = some "set" := by
  intro f x y i e m
  have h (z : Ident) (hz : .name z ∈ e.tokens) :
      m.store.resolve i.environment z.name = m.store.resolve 3 z.name := by
    have htokens : e.tokens = [.name f, .name x, .paren {}] := rfl
    rw [htokens, List.mem_cons, List.mem_cons, List.mem_singleton] at hz
    obtain hz | hz | hz := hz
    · rw [Token.name.inj hz]
      decide +kernel
    · rw [Token.name.inj hz]
      decide +kernel
    · cases hz
  obtain ⟨hboth, -⟩ := scopes_matter_through_names_only e m i.environment 3 (by decide +kernel)
    (by decide +kernel) h
  exact ⟨by decide +kernel, by decide +kernel, hboth 9, by decide +kernel, by decide +kernel⟩

end Scriptlet
