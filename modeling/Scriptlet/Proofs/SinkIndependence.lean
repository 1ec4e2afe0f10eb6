import Scriptlet.Proofs.DepthLimit

namespace Scriptlet

variable {σ τ ρ α : Type}

theorem Transcript.text_printAll (lines : List String) (t : Transcript) :
    (Sink.printAll lines t).text = t.text ++ String.join (lines.map (· ++ "\n")) := by
  induction lines generalizing t with
  | nil => simp [Sink.printAll]
  | cons line lines ih =>
      refine (ih (t.println line)).trans ?_
      simp [Transcript.println, String.append_assoc]

theorem Buffer.text_printAll (lines : List String) :
    (Sink.printAll lines ({} : Buffer)).text = String.join (lines.map (· ++ "\n")) := by
  rw [text, toList_lines_printAll]
  rfl

namespace Machine

def withSink (m : Machine σ) (sink : τ) : Machine τ :=
  ⟨sink, m.store, m.config, m.callDepth⟩

variable [Sink σ] [Sink τ] {a : σ} {b : τ}

/-- The machines differ in their sinks only, and these have got the same lines since they held `a`
and `b`. -/
def Abreast (a : σ) (b : τ) (m : Machine σ) (m' : Machine τ) : Prop :=
  ∃ lines, m.sink = Sink.printAll lines a ∧ m' = m.withSink (Sink.printAll lines b)

abbrev StaysAbreast (a : σ) (b : τ) (x : Step (Machine σ) α) (y : Step (Machine τ) α) : Prop :=
  Step.Simulates (fun _ => True) (Abreast a b) x y

/-- What does the same without a sink neither prints nor looks at one. -/
theorem staysAbreast_of_silent (x : (σ : Type) → Step (Machine σ) α)
    (h : ∀ (σ : Type) (m : Machine σ),
      x σ m = ((x Unit (m.withSink ())).1, (x Unit (m.withSink ())).2.withSink m.sink)) :
    StaysAbreast a b (x σ) (x τ) := by
  rintro m - - ⟨lines, hm, rfl⟩
  rw [h σ m, h τ (m.withSink _)]
  exact ⟨rfl, lines, hm, rfl⟩

theorem read_staysAbreast (scope : ScopeId) (x : Ident) :
    StaysAbreast a b (read scope x) (read scope x) := by
  refine staysAbreast_of_silent (fun _ => read scope x) fun _ m => ?_
  simp only [read, withSink]
  cases m.store.get? scope x.name <;> rfl

theorem write_staysAbreast (scope : ScopeId) (x : Ident) (v : Value) :
    StaysAbreast a b (write scope x v) (write scope x v) := by
  refine staysAbreast_of_silent (fun _ => write scope x v) fun _ m => ?_
  simp only [write, withSink]
  cases m.store.resolve scope x.name <;> rfl

theorem onStore_staysAbreast (f : Store → α × Store) :
    StaysAbreast a b (onStore f) (onStore f) :=
  staysAbreast_of_silent (fun _ => onStore f) fun _ _ => rfl

theorem invoke_staysAbreast (id : NativeId) (name : String) (args : List Value) (paren : Span) :
    StaysAbreast a b (invoke id name args paren) (invoke id name args paren) := by
  refine staysAbreast_of_silent (fun _ => invoke id name args paren) fun _ m => ?_
  simp only [invoke, withSink]
  cases m.store.nativeBody id args <;> rfl

theorem checkDepth_staysAbreast (paren : Span) :
    StaysAbreast a b (checkDepth paren) (checkDepth paren) := by
  refine staysAbreast_of_silent (fun _ => checkDepth paren) fun _ m => ?_
  by_cases hroom : m.callDepth < m.config.maxCallDepth
  · simp only [checkDepth, withSink, hroom, if_true]
  · simp only [checkDepth, withSink, hroom, if_false]
    rfl

theorem println_staysAbreast (line : String) : StaysAbreast a b (println line) (println line) := by
  rintro m - - ⟨lines, hm, rfl⟩
  have happend {υ : Type} [Sink υ] (sink : υ) :
      Sink.println line (Sink.printAll lines sink) = Sink.printAll (lines ++ [line]) sink :=
    (Sink.printAll_append lines [line] sink).symm
  refine ⟨rfl, lines ++ [line], ?_, ?_⟩
  · rw [← happend, ← hm]
    rfl
  · rw [← happend]
    rfl

theorem nested_staysAbreast {x : Step (Machine σ) α} {y : Step (Machine τ) α}
    (h : StaysAbreast a b x y) : StaysAbreast a b (nested x) (nested y) := by
  rintro m - - ⟨lines, hm, rfl⟩
  obtain ⟨ho, lines', hs, hr⟩ :=
    h { m with callDepth := m.callDepth + 1 } _ trivial ⟨lines, hm, rfl⟩
  refine ⟨ho, lines', hs, ?_⟩
  exact congrArg (fun m' : Machine τ => { m' with callDepth := m'.callDepth - 1 }) hr

end Machine

namespace Cursor

variable [Sink σ] [Sink τ] {a : σ} {b : τ}

def Abreast (a : σ) (b : τ) (c : Cursor σ) (d : Cursor τ) : Prop :=
  d.scope = c.scope ∧ c.machine.Abreast a b d.machine

abbrev StaysAbreast (a : σ) (b : τ) (x : Step (Cursor σ) α) (y : Step (Cursor τ) α) : Prop :=
  Step.Simulates (fun _ => True) (Abreast a b) x y

theorem here_staysAbreast {f : ScopeId → Step (Machine σ) α} {g : ScopeId → Step (Machine τ) α}
    (h : ∀ i, Machine.StaysAbreast a b (f i) (g i)) : StaysAbreast a b (here f) (here g) := by
  rintro ⟨scope, m⟩ ⟨scope', m'⟩ - ⟨hscope, hm⟩
  cases hscope
  obtain ⟨ho, hr⟩ := h scope m m' trivial hm
  exact ⟨ho, rfl, hr⟩

theorem declare_staysAbreast (name : String) (v : Value) :
    StaysAbreast a b (declare name v) (declare name v) := by
  rintro ⟨scope, m⟩ ⟨scope', m'⟩ - ⟨hscope, lines, hm, hm'⟩
  cases hscope
  cases hm'
  exact ⟨rfl, rfl, lines, hm, rfl⟩

end Cursor

section

variable [Sink σ] [Sink τ] {a : σ} {b : τ}

theorem Machine.within_staysAbreast (scope : ScopeId) {x : Step (Cursor σ) α}
    {y : Step (Cursor τ) α} (h : Cursor.StaysAbreast a b x y) :
    Machine.StaysAbreast a b (Machine.within scope x) (Machine.within scope y) := by
  intro m m' _ hm
  obtain ⟨ho, -, hr⟩ := h ⟨scope, m⟩ ⟨scope, m'⟩ trivial ⟨rfl, hm⟩
  exact ⟨ho, hr⟩

/-- With a given fuel, evaluation goes on alike on both machines. -/
structure GoesAbreast (a : σ) (b : τ) (n : Nat) : Prop where
  expr (e : Expr) (scope : ScopeId) :
    Machine.StaysAbreast a b (evalExpr n e scope) (evalExpr n e scope)
  stmt (s : Stmt) : Cursor.StaysAbreast a b (execStmt n s) (execStmt n s)
  call (c : Callable) (args : List Value) (paren : Span) :
    Machine.StaysAbreast a b (call n c args paren) (call n c args paren)

namespace GoesAbreast

open Step

variable {n : Nat}

theorem here (h : GoesAbreast a b n) (e : Expr) :
    Cursor.StaysAbreast a b (Cursor.here (evalExpr n e)) (Cursor.here (evalExpr n e)) :=
  Cursor.here_staysAbreast fun i => h.expr e i

theorem body (h : GoesAbreast a b n) (body : List Stmt) :
    Cursor.StaysAbreast a b (body.foldlM (fun _ s => execStmt n s) Value.nil)
      (body.foldlM (fun _ s => execStmt n s) Value.nil) :=
  .foldlM (fun s _ _ => h.stmt s) (fun _ _ _ => .trivial) .nil

theorem succ_expr (h : GoesAbreast a b n) (e : Expr) (scope : ScopeId) :
    Machine.StaysAbreast a b (evalExpr (n + 1) e scope) (evalExpr (n + 1) e scope) := by
  cases e with
  | literal a _ => exact .pure _
  | grouping e _ => exact h.expr e scope
  | var x _ => exact Machine.read_staysAbreast scope x
  | assign x e _ =>
      exact (h.expr e scope).bind .trivial fun v _ =>
        (Machine.write_staysAbreast scope x v).bind .trivial fun _ _ => .pure v
  | logical l op r _ =>
      refine (h.expr l scope).bind .trivial fun v _ => ?_
      split
      · exact .pure v
      · exact h.expr r scope
  | conditional c t e _ =>
      refine (h.expr c scope).bind .trivial fun v _ => ?_
      split
      · exact h.expr t scope
      · exact h.expr e scope
  | unary op e _ => exact (h.expr e scope).bind .trivial fun v _ => .blame op.span _
  | binary l op r _ =>
      exact (h.expr l scope).bind .trivial fun v _ =>
        (h.expr r scope).bind .trivial fun w _ => .blame op.span _
  | call f args paren _ =>
      refine (h.expr f scope).bind .trivial fun v _ => ?_
      cases v with
      | callable c =>
          exact (Simulates.mapM (fun a _ => h.expr a scope) fun _ => .trivial).bind .trivial
            fun vs _ => h.call c vs paren
      | number | string | bool | nil => exact .fail .notCallable paren

theorem succ_stmt (h : GoesAbreast a b n) (s : Stmt) :
    Cursor.StaysAbreast a b (execStmt (n + 1) s) (execStmt (n + 1) s) := by
  cases s with
  | expr e _ => exact h.here e
  | print e _ =>
      refine (h.here e).bind .trivial fun v _ => ?_
      exact (Cursor.here_staysAbreast fun _ => Machine.println_staysAbreast v.text).bind .trivial
        fun _ _ => .pure _
  | declare x e _ =>
      cases e with
      | none => exact Cursor.declare_staysAbreast x.name .nil
      | some e =>
          exact (h.here e).bind .trivial fun v _ => Cursor.declare_staysAbreast x.name v
  | block body _ =>
      simp only [execStmt]
      refine Cursor.here_staysAbreast fun scope => ?_
      exact (Machine.onStore_staysAbreast _).bind .trivial fun inner _ =>
        Machine.within_staysAbreast inner (h.body body)
  | ifElse c t e _ =>
      refine (h.here c).bind .trivial fun v _ => Simulates.bind ?_ .trivial fun _ _ => .pure _
      split
      · exact h.stmt t
      · cases e with
        | none => exact .pure _
        | some e => exact h.stmt e
  | whileLoop c body span =>
      refine (h.here c).bind .trivial fun v _ => ?_
      split
      · exact (h.stmt body).bind .trivial fun _ _ => h.stmt (.whileLoop c body span)
      · exact .pure _
  | forLoop => exact .fail _ _
  | function f params body declSpan _ =>
      simp only [execStmt]
      exact (Cursor.here_staysAbreast fun _ => Machine.onStore_staysAbreast _).bind .trivial
        fun c _ => Cursor.declare_staysAbreast f.name (.callable c)

theorem succ_call (h : GoesAbreast a b n) (c : Callable) (args : List Value) (paren : Span) :
    Machine.StaysAbreast a b (Scriptlet.call (n + 1) c args paren)
      (Scriptlet.call (n + 1) c args paren) := by
  simp only [Scriptlet.call]
  split
  · cases c with
    | native id name arity => exact Machine.invoke_staysAbreast id name args paren
    | function id d =>
        refine (Machine.checkDepth_staysAbreast paren).bind .trivial fun _ _ =>
          (Machine.onStore_staysAbreast _).bind .trivial fun scope _ => ?_
        exact Machine.nested_staysAbreast (Machine.within_staysAbreast scope (h.body d.body))
  · exact .fail _ paren

end GoesAbreast

theorem goesAbreast (a : σ) (b : τ) (n : Nat) : GoesAbreast a b n := by
  induction n with
  | zero => exact ⟨fun _ _ => .outOfFuel, fun _ => .outOfFuel, fun _ _ _ => .outOfFuel⟩
  | succ n ih => exact ⟨ih.succ_expr, ih.succ_stmt, ih.succ_call⟩

end

namespace Outcome

def error? : Outcome α → Option EvalError
  | .error e => some e
  | .ok _ | .outOfFuel => none

def succeeded : Outcome α → Outcome Bool
  | .ok _ => .ok true
  | .error _ => .ok false
  | .outOfFuel => .outOfFuel

theorem succeeded_eq_true_iff (o : Outcome α) : o.succeeded = .ok true ↔ ∃ a, o = .ok a := by
  cases o <;> simp [succeeded]

theorem succeeded_eq_false_iff (o : Outcome α) :
    o.succeeded = .ok false ↔ ∃ e, o = .error e := by
  cases o <;> simp [succeeded]

end Outcome

namespace Interpreter

def withSink (i : Interpreter σ) (sink : τ) : Interpreter τ :=
  ⟨i.machine.withSink sink, i.globals, i.environment, i.source⟩

variable [Sink σ]

theorem run_withSink [Sink τ] (fuel : Nat) (program : List Stmt) (i : Interpreter σ) (sink : τ) :
    ∃ lines, (run fuel program i).2.machine.sink = Sink.printAll lines i.machine.sink ∧
      run fuel program (i.withSink sink) =
        ((run fuel program i).1, (run fuel program i).2.withSink (Sink.printAll lines sink)) := by
  have h := (goesAbreast i.machine.sink sink fuel).body program
  obtain ⟨ho, hscope, lines, hs, hm⟩ := h ⟨i.environment, i.machine⟩
    ⟨i.environment, i.machine.withSink sink⟩ trivial ⟨rfl, [], rfl, rfl⟩
  refine ⟨lines, hs, Prod.ext ho.symm ?_⟩
  have hlast := congr (congrArg Cursor.mk hscope) hm
  exact congrArg
    (fun c : Cursor τ => (⟨c.machine, i.globals, c.scope, i.source⟩ : Interpreter τ)) hlast

theorem exists_run_withSink_eq (fuel : Nat) (program : List Stmt) (i : Interpreter σ) :
    ∃ lines, ∀ (τ : Type) [Sink τ] (sink : τ), run fuel program (i.withSink sink) =
      ((run fuel program i).1, (run fuel program i).2.withSink (Sink.printAll lines sink)) := by
  let j : Interpreter Buffer := i.withSink {}
  refine ⟨(run fuel program j).2.machine.sink.lines.toList, fun τ _ sink => ?_⟩
  obtain ⟨more, -, hbuffer⟩ := run_withSink fuel program i ({} : Buffer)
  obtain ⟨lines, hlines, hsink⟩ := run_withSink fuel program j sink
  have hi : run fuel program (i.withSink sink) =
      ((run fuel program j).1, (run fuel program j).2.withSink (Sink.printAll lines sink)) := hsink
  have hj : run fuel program j =
      ((run fuel program i).1, (run fuel program i).2.withSink (Sink.printAll more {})) := hbuffer
  rw [hi, hlines, Buffer.toList_lines_printAll, hj]
  rfl

theorem interpret_eq [Reporter ρ] (fuel : Nat) (program : List Stmt) (reporter : ρ)
    (i : Interpreter σ) :
    interpret fuel program (reporter, i) =
      ((run fuel program i).1.succeeded,
        (run fuel program i).1.error?.elim reporter fun e => Reporter.report e i.source reporter,
        (run fuel program i).2) := by
  have hsource : (run fuel program i).2.source = i.source := rfl
  simp only [interpret]
  generalize run fuel program i = r at hsource ⊢
  obtain ⟨o, j⟩ := r
  cases o with
  | ok v => rfl
  | error e => exact congrArg (fun s => (Outcome.ok false, Reporter.report e s reporter, j)) hsource
  | outOfFuel => rfl

end Interpreter

/-- A run only adds lines to its sink. What they are, how the run ends and what it leaves behind
otherwise is the same whatever the sink held before and whatever kind of sink it is. So a terminal
gets the text that an empty buffer would hold. Interpreting a program does what running it does; it
answers with yes exactly if the run succeeds, and reports the error of a run that fails and nothing
else. -/
theorem sink_is_write_only [Sink σ] (fuel : Nat) (program : List Stmt) (i : Interpreter σ) :
    let r := Interpreter.run fuel program i
    (∃ lines, r.2.machine.sink = Sink.printAll lines i.machine.sink ∧
      ∀ (τ : Type) [Sink τ] (sink : τ), Interpreter.run fuel program (i.withSink sink) =
        (r.1, r.2.withSink (Sink.printAll lines sink))) ∧
    (∀ t : Transcript, (Interpreter.run fuel program (i.withSink t)).2.machine.sink.text =
      t.text ++ (Interpreter.run fuel program (i.withSink ({} : Buffer))).2.machine.sink.text) ∧
    (∀ (ρ : Type) [Reporter ρ] (reporter : ρ),
      let q := Interpreter.interpret fuel program (reporter, i)
      q.2.2 = r.2 ∧ (q.1 = .ok true ↔ ∃ v, r.1 = .ok v) ∧ (q.1 = .ok false ↔ ∃ e, r.1 = .error e) ∧
        q.2.1 = r.1.error?.elim reporter fun e => Reporter.report e i.source reporter) ∧
    ∀ log : DiagnosticLog,
      (Interpreter.interpret fuel program (log, i)).2.1.diagnostics.toList =
        log.diagnostics.toList ++ (r.1.error?.map (·.toDiagnostic i.source)).toList := by
  intro r
  obtain ⟨lines, hlines⟩ := i.exists_run_withSink_eq fuel program
  refine ⟨⟨lines, ?_, hlines⟩, fun t => ?_, fun ρ _ reporter => ?_, fun log => ?_⟩
  · exact congrArg (·.2.machine.sink) (hlines σ i.machine.sink)
  · rw [hlines, hlines]
    exact (Transcript.text_printAll lines t).trans
      (congrArg (t.text ++ ·) (Buffer.text_printAll lines).symm)
  · rw [Interpreter.interpret_eq]
    exact ⟨rfl, r.1.succeeded_eq_true_iff, r.1.succeeded_eq_false_iff, rfl⟩
  · rw [Interpreter.interpret_eq]
    change (r.1.error?.elim log fun e => Reporter.report e i.source log).diagnostics.toList = _
    cases r.1.error? with
    | none => exact (List.append_nil _).symm
    | some e => exact Array.toList_push

end Scriptlet
