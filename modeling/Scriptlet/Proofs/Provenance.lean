import Scriptlet.Proofs.Faults
import Scriptlet.Proofs.Tokens

namespace Scriptlet

open Step

/-- The error is blamed on one of the tokens, of a kind that can have this fault. -/
def EvalError.PointsAt (tokens : List Token) (e : EvalError) : Prop :=
  match e.fault with
  | .undefinedVariable name => .name ⟨name, e.span⟩ ∈ tokens
  | .typeMismatch _ => .unary ⟨.neg, e.span⟩ ∈ tokens ∨
    ∃ op, op.isTyped = true ∧ .binary ⟨op, e.span⟩ ∈ tokens
  | .divisionByZero => .binary ⟨.div, e.span⟩ ∈ tokens
  | .notCallable | .arityMismatch _ _ | .stackOverflow _ | .nativeFailure _ _ =>
    .paren e.span ∈ tokens
  | .unsupported _ => .forLoop e.span ∈ tokens

variable {σ : Type} {given : List Token}

theorem UnaryOp.pointsAt_of_apply {op : Located UnaryOp} (h : .unary op ∈ given) {v : Value}
    (fault : Fault) (hf : op.node.apply v = .error fault) :
    EvalError.PointsAt given ⟨fault, op.span⟩ := by
  obtain ⟨node, span⟩ := op
  obtain ⟨rfl, message, rfl⟩ := UnaryOp.fault_of_apply hf
  exact .inl h

theorem BinaryOp.pointsAt_of_apply {op : Located BinaryOp} (h : .binary op ∈ given) {v w : Value}
    (fault : Fault) (hf : op.node.apply v w = .error fault) :
    EvalError.PointsAt given ⟨fault, op.span⟩ := by
  obtain ⟨node, span⟩ := op
  rcases BinaryOp.fault_of_apply hf with ⟨htyped, message, rfl⟩ | ⟨rfl, rfl⟩
  · exact .inr ⟨node, htyped, h⟩
  · exact h

abbrev Machine.Traced (given : List Token) (x : Step (Machine σ) Value) : Prop :=
  Faults (Machine.Avoids (Stmt.strays given)) (EvalError.PointsAt given) x

abbrev Cursor.Traced (given : List Token) (x : Step (Cursor σ) Value) : Prop :=
  Faults (Cursor.Avoids (Stmt.strays given)) (EvalError.PointsAt given) x

variable [Sink σ]

/-- With a given fuel, code that keeps to the tokens fails only with errors that point at them. -/
structure Traces (given : List Token) (σ : Type) [Sink σ] (n : Nat) : Prop where
  expr {e : Expr} (he : e.tokens ⊆ given) (scope : ScopeId) :
    Machine.Traced given (evalExpr n e scope : Step (Machine σ) Value)
  stmt {s : Stmt} (hs : s.avoids (Stmt.strays given) = true) :
    Cursor.Traced given (execStmt n s : Step (Cursor σ) Value)
  call {c : Callable} {args : List Value} {paren : Span} (hparen : .paren paren ∈ given)
    (hc : (Value.callable c).Avoids (Stmt.strays given))
    (hargs : ∀ v ∈ args, v.Avoids (Stmt.strays given)) :
    Machine.Traced given (call n c args paren : Step (Machine σ) Value)

namespace Traces

variable {n : Nat}

theorem here (h : Traces given σ n) {e : Expr} (he : e.tokens ⊆ given) :
    Cursor.Traced given (Cursor.here (evalExpr n e) : Step (Cursor σ) Value) :=
  .here fun scope => h.expr he scope

theorem body (h : Traces given σ n) {body : List Stmt}
    (hb : Stmt.avoidsAll (Stmt.strays given) body = true) :
    Cursor.Traced given
      (body.foldlM (fun _ s => execStmt n s) Value.nil : Step (Cursor σ) Value) := by
  have hall := Stmt.avoidsAll_iff.mp hb
  exact .foldlM (fun s hs _ => h.stmt (hall s hs))
    (fun s hs _ => (staysWithin _ n).stmt (hall s hs)) .nil

theorem succ_expr (h : Traces given σ n) {e : Expr} (he : e.tokens ⊆ given) (scope : ScopeId) :
    Machine.Traced given (evalExpr (n + 1) e scope : Step (Machine σ) Value) := by
  have keeps (e : Expr) := (staysWithin (Stmt.strays given) n (σ := σ)).expr e scope
  cases e with
  | literal a _ => exact .pure _
  | grouping e _ => exact h.expr (e := e) he scope
  | var x _ =>
      simp only [Expr.tokens, List.cons_subset] at he
      exact Machine.read_faults he.1
  | assign x e _ =>
      simp only [Expr.tokens, List.cons_subset] at he
      exact (h.expr he.2 scope).bind (keeps e) fun v _ =>
        (Machine.write_faults he.1).bind_pure
  | logical l op r _ =>
      simp only [Expr.tokens, List.append_subset] at he
      refine (h.expr he.1 scope).bind (keeps l) fun v _ => ?_
      split
      · exact .pure v
      · exact h.expr he.2 scope
  | conditional c t e _ =>
      simp only [Expr.tokens, List.append_subset] at he
      refine (h.expr he.1.1 scope).bind (keeps c) fun v _ => ?_
      split
      · exact h.expr he.1.2 scope
      · exact h.expr he.2 scope
  | unary op e _ =>
      simp only [Expr.tokens, List.cons_subset] at he
      exact (h.expr he.2 scope).bind (keeps e) fun v _ =>
        .blame (UnaryOp.pointsAt_of_apply he.1)
  | binary l op r _ =>
      simp only [Expr.tokens, List.append_subset, List.cons_subset] at he
      exact (h.expr he.1 scope).bind (keeps l) fun v _ =>
        (h.expr he.2.2 scope).bind (keeps r) fun w _ =>
          .blame (BinaryOp.pointsAt_of_apply he.2.1)
  | call f args paren _ =>
      simp only [Expr.tokens, List.append_subset, List.cons_subset] at he
      obtain ⟨⟨hf, hargs⟩, hparen, -⟩ := he
      refine (h.expr hf scope).bind (keeps f) fun v hv => ?_
      cases v with
      | callable c =>
          have heach : ∀ a ∈ args, a.tokens ⊆ given := fun a ha t ht =>
            hargs (Expr.mem_tokensAll.mpr ⟨a, ha, ht⟩)
          exact (Faults.mapM (fun a ha => h.expr (heach a ha) scope) keeps).bind (.mapM keeps args)
            fun vs hvs => h.call hparen hv hvs
      | number | string | bool | nil => exact .fail hparen

theorem succ_stmt (h : Traces given σ n) {s : Stmt} (hs : s.avoids (Stmt.strays given) = true) :
    Cursor.Traced given (execStmt (n + 1) s : Step (Cursor σ) Value) := by
  have keeps := staysWithin (Stmt.strays given) n (σ := σ)
  have hown := Stmt.ownTokens_subset hs
  cases s with
  | expr e _ => exact h.here hown
  | print e _ =>
      refine (h.here hown).bind (keeps.here e) fun v _ => .bind_pure ?_
      exact .here (I := Machine.Avoids _) fun _ => Machine.println_faults v.text
  | declare x e _ =>
      cases e with
      | none => exact Cursor.declare_faults x.name .nil
      | some e => exact (h.here hown).bind (keeps.here e) fun v _ => Cursor.declare_faults x.name v
  | block body _ =>
      simp only [Stmt.avoids, Bool.and_eq_true] at hs
      refine .here (I := Machine.Avoids _) fun scope =>
        (Machine.onStore_faults _).bind (P := fun _ => True) ?_
          fun inner _ => (h.body hs.2).within inner
      exact fun m hm => ⟨⟨hm.cells, hm.natives⟩, fun _ _ => trivial⟩
  | ifElse c t e _ =>
      simp only [Stmt.avoids, Bool.and_eq_true] at hs
      obtain ⟨⟨-, ht⟩, he⟩ := hs
      refine (h.here hown).bind (keeps.here c) fun v _ => .bind_pure ?_
      split
      · exact h.stmt ht
      · cases e with
        | none => exact .pure _
        | some e => exact h.stmt he
  | whileLoop c body span =>
      have hbody : body.avoids (Stmt.strays given) = true := by
        simp only [Stmt.avoids, Bool.and_eq_true] at hs
        exact hs.2
      refine (h.here hown).bind (keeps.here c) fun v _ => ?_
      split
      · exact (h.stmt hbody).bind (keeps.stmt hbody) fun _ _ => h.stmt hs
      · exact .pure _
  | forLoop _ _ _ _ span => exact .fail (hown List.mem_cons_self)
  | function f params body declSpan span =>
      refine Faults.bind (P := fun _ => True) ?_ ?_ fun c _ => Cursor.declare_faults f.name _
      · exact .here (I := Machine.Avoids _) fun scope => Machine.onStore_faults _
      · exact .here (I := Machine.Avoids _) fun scope m hm =>
          ⟨⟨hm.cells, hm.natives⟩, fun _ _ => trivial⟩

theorem succ_call (h : Traces given σ n) {c : Callable} {args : List Value} {paren : Span}
    (hparen : .paren paren ∈ given) (hc : (Value.callable c).Avoids (Stmt.strays given))
    (hargs : ∀ v ∈ args, v.Avoids (Stmt.strays given)) :
    Machine.Traced given (Scriptlet.call (n + 1) c args paren : Step (Machine σ) Value) := by
  unfold Scriptlet.call
  split
  · cases c with
    | native id name arity => exact Machine.invoke_faults fun _ => hparen
    | function id d =>
        obtain ⟨span, hd⟩ := hc
        simp only [Stmt.avoids, Bool.and_eq_true] at hd
        -- one more active body makes no difference to what the functions keep to
        have hbody (scope : ScopeId) := (h.body hd.2).within (I := Machine.Avoids _) scope
        refine (Machine.checkDepth_faults fun _ => hparen).bind
          (Machine.checkDepth_maintains paren) fun _ _ =>
            (Machine.onStore_faults _).bind (P := fun _ => True) ?_
              fun scope _ m hm => hbody scope { m with callDepth := m.callDepth + 1 } hm
        exact fun m hm => ⟨hm.frame _ d.params hargs, fun _ _ => trivial⟩
  · exact .fail hparen

end Traces

theorem traces (given : List Token) (n : Nat) : Traces given σ n := by
  induction n with
  | zero => exact ⟨fun _ _ => .outOfFuel, fun _ => .outOfFuel, fun _ _ _ => .outOfFuel⟩
  | succ n ih => exact ⟨ih.succ_expr, ih.succ_stmt, ih.succ_call⟩

namespace Request

def tokens : Request → List Token
  | .run program | .interpret program => Stmt.tokensAll program
  | .evaluate e => e.tokens
  | .provide _ | .native _ | .rebind _ _ => []
  -- host functions make no functions, so no program comes to call this one
  | .function _ _ => []

/-- A host function that is handed in makes no functions. -/
def Tame : Request → Prop
  | .provide f | .native f => f.body.Tame
  | _ => True

variable {request : Request}

theorem avoids_strays (h : request.Tame) (ht : request.tokens ⊆ given) :
    request.Avoids (Stmt.strays given) := by
  cases request with
  | run program | interpret program =>
      exact Stmt.avoidsAll_iff.mp (Stmt.avoidsAll_strays program ht)
  | provide f | native f => exact h
  | evaluate | function | rebind => trivial

theorem forLoop_not_mem_tokens (h : request.Avoids Stmt.isFor) (span : Span) :
    .forLoop span ∉ request.tokens := by
  cases request with
  | run program | interpret program =>
      exact Stmt.forLoop_not_mem_tokensAll span program (Stmt.avoidsAll_iff.mpr h)
  | evaluate e => exact e.forLoop_not_mem_tokens span
  | provide | function | native | rebind => exact List.not_mem_nil

end Request

theorem Interpreter.run_faults (fuel : Nat) {program : List Stmt}
    (hp : Stmt.tokensAll program ⊆ given) :
    Faults (Interpreter.Avoids (Stmt.strays given)) (EvalError.PointsAt given)
      (run fuel program : Step (Interpreter σ) Value) :=
  fun i hi => (traces given fuel).body (Stmt.avoidsAll_strays program hp)
    ⟨i.environment, i.machine⟩ hi

section

variable {ρ : Type} [Reporter ρ] {request : Request}

theorem Request.perform_faults (ht : request.tokens ⊆ given) (fuel : Nat) :
    Faults (fun s : ρ × Interpreter σ => s.2.Avoids (Stmt.strays given))
      (EvalError.PointsAt given) (request.perform fuel) := by
  cases request with
  | run program => exact .map fun s hs => Interpreter.run_faults fuel ht s.2 hs
  | interpret program =>
      refine .map fun s _ e he => ?_
      obtain ⟨reporter, i⟩ := s
      simp only [Interpreter.interpret] at he
      split at he <;> cases he
  | evaluate e =>
      exact .map fun s hs => (traces given fuel).here ht ⟨s.2.environment, s.2.machine⟩ hs
  | provide | function | native | rebind =>
      intro s _ e he
      cases he

theorem Request.perform_reports (ht : request.tokens ⊆ given) (fuel : Nat) :
    Preserves (fun s t : ρ × Interpreter σ => s.2.Avoids (Stmt.strays given) →
      t.1 = s.1 ∨ ∃ e, e.PointsAt given ∧ t.1 = Reporter.report e s.2.source s.1)
      (request.perform fuel) := by
  cases request with
  | run | evaluate => exact .map _ fun _ _ => .inl rfl
  | interpret program =>
      refine .map _ fun s hs => ?_
      have hfault := Interpreter.run_faults fuel ht s.2 hs
      have hsource : (Interpreter.run fuel program s.2).2.source = s.2.source := rfl
      obtain ⟨reporter, i⟩ := s
      simp only [Interpreter.interpret]
      generalize Interpreter.run fuel program i = r at hfault hsource
      obtain ⟨o, j⟩ := r
      cases o with
      | ok v => exact .inl rfl
      | error e => exact .inr ⟨e, hfault e rfl, congrArg (Reporter.report e · reporter) hsource⟩
      | outOfFuel => exact .inl rfl
  | provide | function | native | rebind => exact fun _ _ => .inl rfl

/-- The error points at a token of one of the requests, and it says that something is unsupported
only where one of them has a counting loop in it. -/
def EvalError.StemsFrom (requests : List Request) (e : EvalError) : Prop :=
  e.PointsAt (requests.flatMap Request.tokens) ∧
    ((∀ q ∈ requests, q.Avoids Stmt.isFor) → ∀ construct, e.fault ≠ .unsupported construct)

theorem EvalError.PointsAt.stemsFrom {requests : List Request} {e : EvalError}
    (h : e.PointsAt (requests.flatMap Request.tokens)) : e.StemsFrom requests := by
  refine ⟨h, fun hfor construct hfault => ?_⟩
  simp only [PointsAt, hfault, List.mem_flatMap] at h
  obtain ⟨q, hq, htoken⟩ := h
  exact q.forLoop_not_mem_tokens (hfor q hq) e.span htoken

/-- If host functions make no functions, then an error that a request of a session ends with or
reports stems from this or an earlier request, be it from a function body or not. -/
theorem error_points_at_given_token (reporter : ρ) (sink : σ) (config : Config)
    (source : Option Source) (earlier : List Request) (request : Request)
    (h : ∀ q ∈ earlier ++ [request], q.Tame) (fuel : Nat) :
    let s := sessionState fuel earlier (reporter, Interpreter.new sink config source)
    let r := request.perform fuel s
    (∀ e, r.1 = .error e → e.StemsFrom (earlier ++ [request])) ∧
      (r.2.1 = s.1 ∨ ∃ e, e.StemsFrom (earlier ++ [request]) ∧
        r.2.1 = Reporter.report e s.2.source s.1) := by
  intro s r
  have hgiven : ∀ q ∈ earlier ++ [request],
      q.tokens ⊆ (earlier ++ [request]).flatMap Request.tokens :=
    fun q hq t ht => List.mem_flatMap.mpr ⟨q, hq, ht⟩
  have hrequest := hgiven request (List.mem_append_right _ List.mem_cons_self)
  have hearlier : ∀ q ∈ earlier,
      q.Avoids (Stmt.strays ((earlier ++ [request]).flatMap Request.tokens)) := by
    intro q hq
    have hq := List.mem_append_left [request] hq
    exact q.avoids_strays (h q hq) (hgiven q hq)
  have hs := avoids_sessionState fuel (s := (reporter, Interpreter.new sink config source)) hearlier
    (Interpreter.new_avoids sink config source)
  constructor
  · intro e he
    exact (request.perform_faults hrequest fuel s hs e he).stemsFrom
  · rcases request.perform_reports hrequest fuel s hs with hr | ⟨e, he, hr⟩
    · exact .inl hr
    · exact .inr ⟨e, he.stemsFrom, hr⟩

end

/-- A function that goes through a host function fails in its body, in a later request than the one
that brought the body. -/
theorem error_points_at_given_token_earlier_body :
    let f : Ident := ⟨"f", {}⟩
    let x : Ident := ⟨"x", Span.point 1 12⟩
    let same : HostFunction := ⟨"same", 1, fun args => .ok (args.headD .nil)⟩
    let earlier : List Request :=
      [.provide same, .run [.function f [] [.expr (.var x {}) {}] {} {}]]
    let request : Request := .evaluate
      (.call (.call (.var ⟨"same", {}⟩ {}) [.var f {}] {} {}) [] (Span.point 2 9) {})
    let start : DiagnosticLog × Interpreter Buffer := ({}, .new {})
    let e : EvalError := ⟨.undefinedVariable "x", x.span⟩
    (∀ q ∈ earlier ++ [request], q.Tame) ∧
      (request.perform 9 (sessionState 9 earlier start)).1 = .error e ∧
      e.PointsAt ((earlier ++ [request]).flatMap Request.tokens) := by
  intro f x same earlier request start e
  have htame : same.body.Tame := by
    intro args c hc
    cases args with
    | nil => cases hc
    | cons v args =>
        cases hc
        exact List.mem_cons_self
  have h : ∀ q ∈ earlier ++ [request], q.Tame :=
    List.forall_mem_cons.mpr ⟨htame, List.forall_mem_cons.mpr ⟨trivial,
      List.forall_mem_singleton.mpr trivial⟩⟩
  have herror : (request.perform 9 (sessionState 9 earlier start)).1 = .error e := by
    decide +kernel
  have hstems := error_points_at_given_token ({} : DiagnosticLog) ({} : Buffer) {} none earlier
    request h 9
  exact ⟨h, herror, (hstems.1 e herror).1⟩

end Scriptlet
