import Scriptlet.Proofs.Fragment
import Scriptlet.Proofs.ScopeFrame

namespace Scriptlet

open Step

variable {σ α : Type}

def Stmt.isWhile : Stmt → Bool
  | .whileLoop _ _ _ => true
  | _ => false

/-- No function at hand has a loop in it, and at most `d` more bodies can become active. -/
structure Machine.Bounded (d : Nat) (m : Machine σ) : Prop where
  avoids : m.store.Avoids Stmt.isWhile
  depth : m.config.maxCallDepth.toNat ≤ m.callDepth.toNat + d

abbrev Cursor.Bounded (d : Nat) (c : Cursor σ) : Prop :=
  c.machine.Bounded d

namespace Machine.Bounded

variable {d : Nat} {P : α → Prop}

theorem maintains {x : Step (Machine σ) α} (h : Maintains (Machine.Avoids Stmt.isWhile) P x)
    (hx : Preserves Machine.Grows x) : Maintains (Machine.Bounded d) P x := by
  intro m hm
  obtain ⟨ha, hP⟩ := h m hm.avoids
  refine ⟨⟨ha, ?_⟩, hP⟩
  rw [(hx m).config, (hx m).callDepth]
  exact hm.depth

theorem maintains_cursor {x : Step (Cursor σ) α} (h : Maintains (Cursor.Avoids Stmt.isWhile) P x)
    (hx : ∀ c, ∃ names, Cursor.Advances names c (x c).2) :
    Maintains (Cursor.Bounded d) P x := by
  intro c hc
  obtain ⟨ha, hP⟩ := h c hc.avoids
  obtain ⟨names, hadv⟩ := hx c
  refine ⟨⟨ha, ?_⟩, hP⟩
  rw [hadv.limits.1, hadv.limits.2]
  exact hc.depth

theorem descend {m : Machine σ} (h : m.Bounded d) (hm : m.callDepth < m.config.maxCallDepth)
    {s : Store} (hs : s.Avoids Stmt.isWhile) :
    ∃ d' < d, Machine.Bounded d' { m with store := s, callDepth := m.callDepth + 1 } := by
  have hlt := UInt64.lt_iff_toNat_lt.mp hm
  have hmax := m.config.maxCallDepth.toNat_lt
  have hdepth := h.depth
  have hsucc : (m.callDepth + 1).toNat = m.callDepth.toNat + 1 := by
    rw [UInt64.toNat_add]
    exact Nat.mod_eq_of_lt (by simp; omega)
  refine ⟨d - 1, by omega, hs, ?_⟩
  simp only [hsucc]
  omega

end Machine.Bounded

variable [Sink σ] {d : Nat}

theorem evalExpr_bounded (n : Nat) (e : Expr) (scope : ScopeId) :
    Maintains (Machine.Bounded d) (Value.Avoids Stmt.isWhile)
      (evalExpr n e scope : Step (Machine σ) Value) :=
  Machine.Bounded.maintains ((staysWithin Stmt.isWhile n).expr e scope) ((frames n).expr e scope)

theorem here_bounded (n : Nat) (e : Expr) :
    Maintains (Cursor.Bounded d) (Value.Avoids Stmt.isWhile)
      (Cursor.here (evalExpr n e) : Step (Cursor σ) Value) :=
  .here fun scope => evalExpr_bounded n e scope

theorem execStmt_bounded (n : Nat) {s : Stmt} (hs : s.avoids Stmt.isWhile = true) :
    Maintains (Cursor.Bounded d) (Value.Avoids Stmt.isWhile)
      (execStmt n s : Step (Cursor σ) Value) :=
  Machine.Bounded.maintains_cursor ((staysWithin Stmt.isWhile n).stmt hs)
    fun c => ⟨_, (frames n).stmt s c⟩

/-- Calls end as long as at most `d` more bodies can become active. -/
def CallsEnd (σ : Type) [Sink σ] (d : Nat) : Prop :=
  ∀ (c : Callable) (args : List Value) (paren : Span), (Value.callable c).Avoids Stmt.isWhile →
    (∀ v ∈ args, v.Avoids Stmt.isWhile) →
      Ends (Machine.Bounded (σ := σ) d) fun n => call n c args paren

namespace CallsEnd

theorem expr (h : CallsEnd σ d) (e : Expr) (scope : ScopeId) :
    Ends (Machine.Bounded (σ := σ) d) fun n => evalExpr n e scope := by
  have hm (e : Expr) (n : Nat) := evalExpr_bounded (σ := σ) (d := d) n e scope
  apply Ends.of_succ
  cases e with
  | literal a _ => exact .pure _
  | grouping e _ => exact h.expr e scope
  | var x _ => exact .of_fuelless (Machine.read_fuelless scope x)
  | assign x e _ =>
      refine (h.expr e scope).bind (hm e) fun v hv => .of_fuelless ?_
      exact (Machine.write_fuelless scope x v).bind fun _ => .pure v
  | logical l op r _ =>
      refine (h.expr l scope).bind (hm l) fun v _ => ?_
      split
      · exact .pure v
      · exact h.expr r scope
  | conditional c t e _ =>
      refine (h.expr c scope).bind (hm c) fun v _ => ?_
      split
      · exact h.expr t scope
      · exact h.expr e scope
  | unary op e _ => exact (h.expr e scope).bind (hm e) fun v _ => .of_fuelless (.blame op.span _)
  | binary l op r _ =>
      exact (h.expr l scope).bind (hm l) fun v _ =>
        (h.expr r scope).bind (hm r) fun w _ => .of_fuelless (.blame op.span _)
  | call f args paren _ =>
      refine (h.expr f scope).bind (hm f) fun v hv => ?_
      cases v with
      | callable c =>
          refine (Ends.mapM (fun a ha => h.expr a scope) fun n a => hm a n).bind
            (fun n => .mapM (fun a => hm a n) args) fun vs hvs => h c vs paren hv hvs
      | number | string | bool | nil => exact .of_fuelless (.fail .notCallable paren)
termination_by sizeOf e

theorem here (h : CallsEnd σ d) (e : Expr) :
    Ends (Cursor.Bounded (σ := σ) d) fun n => Cursor.here (evalExpr n e) :=
  .here fun scope => h.expr e scope

theorem stmt (h : CallsEnd σ d) (s : Stmt) (hs : s.avoids Stmt.isWhile = true) :
    Ends (Cursor.Bounded (σ := σ) d) fun n => execStmt n s := by
  have hm (e : Expr) (n : Nat) := here_bounded (σ := σ) (d := d) n e
  apply Ends.of_succ
  cases s with
  | expr e _ => exact h.here e
  | print e _ =>
      refine (h.here e).bind (hm e) fun v _ => .of_fuelless ?_
      exact Fuelless.bind (.here fun _ => Machine.println_fuelless v.text) fun _ => .pure _
  | declare x e _ =>
      cases e with
      | none => exact .of_fuelless (Cursor.declare_fuelless x.name .nil)
      | some e =>
          exact (h.here e).bind (hm e) fun v _ => .of_fuelless (Cursor.declare_fuelless x.name v)
  | block body _ =>
      simp only [Stmt.avoids, Bool.and_eq_true, Stmt.avoidsAll_iff] at hs
      simp only [execStmt]
      refine .here (I := Machine.Bounded d) fun scope => Ends.bind (P := fun _ => True)
        (.of_fuelless (Machine.onStore_fuelless _)) (fun _ m hm => ?_) fun inner _ =>
          Ends.within ?_ inner
      · exact ⟨⟨⟨hm.avoids.cells, hm.avoids.natives⟩, hm.depth⟩, fun _ _ => trivial⟩
      · exact .foldlM (fun s hmem _ => h.stmt s (hs.2 s hmem))
          (fun n s hmem _ => execStmt_bounded n (hs.2 s hmem)) .nil
  | ifElse c t e _ =>
      simp only [Stmt.avoids, Bool.and_eq_true] at hs
      obtain ⟨⟨-, ht⟩, he⟩ := hs
      refine (h.here c).bind (hm c) fun v _ =>
        Ends.bind (P := Value.Avoids Stmt.isWhile) ?_ (fun n => ?_) fun _ _ => .pure _
      · split
        · exact h.stmt t ht
        · cases e with
          | none => exact .pure _
          | some e => exact h.stmt e he
      · split
        · exact execStmt_bounded n ht
        · cases e with
          | none => exact .pure trivial
          | some e => exact execStmt_bounded n he
  | whileLoop => simp [Stmt.avoids, Stmt.isWhile] at hs
  | forLoop => exact .of_fuelless (.fail _ _)
  | function =>
      simp only [execStmt]
      exact .of_fuelless (.bind (.here fun _ => Machine.onStore_fuelless _)
        fun _ => Cursor.declare_fuelless _ _)
termination_by sizeOf s

theorem body (h : CallsEnd σ d) {body : List Stmt}
    (hb : ∀ s ∈ body, s.avoids Stmt.isWhile = true) :
    Ends (Cursor.Bounded (σ := σ) d) fun n => body.foldlM (fun _ s => execStmt n s) Value.nil :=
  .foldlM (fun s hs _ => h.stmt s (hb s hs)) (fun n s hs _ => execStmt_bounded n (hb s hs)) .nil

end CallsEnd

theorem callsEnd (d : Nat) : CallsEnd σ d := by
  induction d using Nat.strongRecOn with
  | ind d ih =>
      intro c args paren hc hargs
      apply Ends.of_succ
      simp only [call]
      split
      · cases c with
        | native id name arity => exact .of_fuelless (Machine.invoke_fuelless id name args paren)
        | function id f =>
            obtain ⟨span, hf⟩ := hc
            simp only [Stmt.avoids, Bool.and_eq_true, Stmt.avoidsAll_iff] at hf
            -- the body comes from the store: what gets smaller is the number of calls left
            intro m hm
            by_cases hdepth : m.callDepth < m.config.maxCallDepth
            · let s := m.store.frame (m.store.capturedScope id) f.params args
              have hs : s.2.Avoids Stmt.isWhile := hm.avoids.frame _ f.params hargs
              obtain ⟨d', hd', hm'⟩ := hm.descend hdepth hs
              obtain ⟨n, r, hr, hn⟩ := (ih d' hd').body hf.2 ⟨s.1, _⟩ hm'
              refine ⟨n, (r.1, { r.2.machine with callDepth := r.2.machine.callDepth - 1 }), hr,
                fun k hk => ?_⟩
              simp only [bind_apply, Machine.checkDepth, hdepth, if_true]
              exact congrArg (fun r : Outcome Value × Cursor σ =>
                (r.1, { r.2.machine with callDepth := r.2.machine.callDepth - 1 })) (hn k hk)
            · refine ⟨0, (.error ⟨.stackOverflow m.config.maxCallDepth, paren⟩, m),
                Outcome.error_ne_outOfFuel _, fun k _ => ?_⟩
              simp only [bind_apply, Machine.checkDepth, hdepth, if_false, Step.fail]
      · exact .of_fuelless (.fail _ paren)

namespace Interpreter

omit [Sink σ] in
theorem atTop_ends {x : Nat → Step (Cursor σ) α} (h : ∀ d, Ends (Cursor.Bounded d) x) :
    Ends (Interpreter.Avoids Stmt.isWhile) fun n => atTop (x n) := by
  -- whatever the limit, it is finite
  intro i hi
  obtain ⟨n, r, hr, hn⟩ := h i.machine.config.maxCallDepth.toNat ⟨i.environment, i.machine⟩
    ⟨hi, Nat.le_add_left _ _⟩
  refine ⟨n, (r.1, { i with machine := r.2.machine, environment := r.2.scope }), hr,
    fun k hk => ?_⟩
  simp only [atTop, hn k hk]

theorem run_ends {program : List Stmt} (hp : ∀ s ∈ program, s.avoids Stmt.isWhile = true) :
    Ends (Interpreter.Avoids (σ := σ) Stmt.isWhile) fun n => run n program :=
  atTop_ends fun d => (callsEnd d).body hp

theorem interpret_ends {ρ : Type} [Reporter ρ] {program : List Stmt}
    (hp : ∀ s ∈ program, s.avoids Stmt.isWhile = true) :
    Ends (fun s : ρ × Interpreter σ => s.2.Avoids Stmt.isWhile) fun n => interpret n program := by
  rintro ⟨reporter, i⟩ hi
  obtain ⟨n, ⟨o, j⟩, hr, hn⟩ := run_ends hp i hi
  have hrun {k : Nat} (hk : k ≥ n) : run k program i = (o, j) := hn k hk
  cases o with
  | ok v =>
      refine ⟨n, (.ok true, reporter, j), Outcome.ok_ne_outOfFuel true, fun k hk => ?_⟩
      simp only [interpret, hrun hk]
  | error e =>
      refine ⟨n, (.ok false, Reporter.report e j.source reporter, j), Outcome.ok_ne_outOfFuel false,
        fun k hk => ?_⟩
      simp only [interpret, hrun hk]
  | outOfFuel => exact absurd rfl hr

end Interpreter

theorem Request.perform_ends {ρ : Type} [Reporter ρ] {request : Request}
    (h : request.Avoids Stmt.isWhile) :
    Ends (fun s : ρ × Interpreter σ => s.2.Avoids Stmt.isWhile) fun n => request.perform n := by
  have second {x : Nat → Step (Interpreter σ) Value}
      (hx : Ends (Interpreter.Avoids Stmt.isWhile) x) :
      Ends (fun s : ρ × Interpreter σ => s.2.Avoids Stmt.isWhile)
        fun n => Answer.value <$> Step.second (x n) := by
    refine .map _ fun s hs => ?_
    obtain ⟨n, r, hr, hn⟩ := hx s.2 hs
    exact ⟨n, (r.1, s.1, r.2), hr, fun k hk => by simp only [Step.second, hn k hk]⟩
  cases request with
  | run program => exact second (Interpreter.run_ends h)
  | interpret program => exact .map _ (Interpreter.interpret_ends h)
  | evaluate e => exact second (Interpreter.atTop_ends fun d => (callsEnd d).here e)
  | provide | function | native | rebind => exact .of_fuelless fun _ => Outcome.ok_ne_outOfFuel _

theorem session_ends {ρ : Type} [Reporter ρ] {requests : List Request}
    (h : ∀ request ∈ requests, request.Avoids Stmt.isWhile) {s : ρ × Interpreter σ}
    (hs : s.2.Avoids Stmt.isWhile) :
    ∃ fuel answers, (∀ answer ∈ answers, answer ≠ Outcome.outOfFuel) ∧
      ∀ n ≥ fuel, session n requests s = answers := by
  induction requests generalizing s with
  | nil => exact ⟨0, [], fun _ ha => absurd ha List.not_mem_nil, fun _ _ => rfl⟩
  | cons request requests ih =>
      have hrequest := h request List.mem_cons_self
      obtain ⟨n, r, hr, hn⟩ := request.perform_ends hrequest s hs
      have hn {k : Nat} (hk : k ≥ n) : request.perform k s = r := hn k hk
      have ht : r.2.2.Avoids Stmt.isWhile :=
        hn (Nat.le_refl n) ▸ (request.perform_maintains hrequest n s hs).1
      obtain ⟨n', answers, ha, hn'⟩ := ih (fun q hq => h q (List.mem_cons_of_mem request hq)) ht
      refine ⟨max n n', r.1 :: answers, List.forall_mem_cons.mpr ⟨hr, ha⟩, fun k hk => ?_⟩
      have hk₁ := Nat.le_trans (Nat.le_max_left n n') hk
      have hk₂ := Nat.le_trans (Nat.le_max_right n n') hk
      simp only [session, hn hk₁, hn' k hk₂]

/-- If neither a program nor a function body has a loop in it, then every request of a session gets
its answer: from some fuel on the answers are always the same, and each is a result or an error. -/
theorem session_without_loops_ends {ρ : Type} [Reporter ρ] (reporter : ρ) (sink : σ)
    (config : Config) (source : Option Source) (requests : List Request)
    (h : ∀ request ∈ requests, request.Avoids Stmt.isWhile) :
    ∃ fuel answers, (∀ answer ∈ answers, answer ≠ Outcome.outOfFuel) ∧ ∀ n ≥ fuel,
      session n requests (reporter, Interpreter.new sink config source) = answers :=
  session_ends h (Interpreter.new_avoids sink config source)

/-- A function that calls its argument with itself, called with itself, runs into the limit. -/
theorem session_without_loops_ends_self_application :
    let g : Ident := ⟨"g", {}⟩
    let apply (x y : Ident) : Expr := .call (.var x {}) [.var y {}] {} {}
    let twist : Stmt := .function ⟨"f", {}⟩ [g] [.expr (apply g g) {}] {} {}
    let requests : List Request := [.run [twist], .evaluate (apply ⟨"f", {}⟩ ⟨"f", {}⟩)]
    let start : DiagnosticLog × Interpreter Buffer := ({}, .new {} { maxCallDepth := 3 })
    (∀ request ∈ requests, request.Avoids Stmt.isWhile) ∧
      (∃ fuel answers, (∀ answer ∈ answers, answer ≠ Outcome.outOfFuel) ∧
        ∀ n ≥ fuel, session n requests start = answers) ∧
      (session 20 requests start).getLastD .outOfFuel = .error ⟨.stackOverflow 3, {}⟩ := by
  intro g apply twist requests start
  have h : ∀ request ∈ requests, request.Avoids Stmt.isWhile := by
    intro request hr
    rcases List.mem_cons.mp hr with rfl | hr
    · exact List.forall_mem_singleton.mpr (by decide)
    · rw [List.mem_singleton.mp hr]
      trivial
  have hends := session_without_loops_ends ({} : DiagnosticLog) ({} : Buffer)
    { maxCallDepth := 3 } none requests h
  exact ⟨h, hends, by decide +kernel⟩

end Scriptlet
