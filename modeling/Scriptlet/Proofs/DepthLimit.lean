import Scriptlet.Eval.Fuel
import Scriptlet.Interpreter
import Scriptlet.Proofs.Computation

namespace Scriptlet

variable {S σ α β : Type}

def Sink.printAll [Sink σ] (lines : List String) (sink : σ) : σ :=
  lines.foldl (fun sink line => Sink.println line sink) sink

theorem Sink.printAll_append [Sink σ] (lines more : List String) (sink : σ) :
    Sink.printAll (lines ++ more) sink = Sink.printAll more (Sink.printAll lines sink) :=
  List.foldl_append

theorem Buffer.toList_lines_printAll (lines : List String) (b : Buffer) :
    (Sink.printAll lines b).lines.toList = b.lines.toList ++ lines := by
  induction lines generalizing b with
  | nil => exact (List.append_nil _).symm
  | cons line lines ih =>
      refine (ih (b.println line)).trans ?_
      simp [Buffer.println]

namespace Step

/-- From related states the computation does the same, unless it ends in an overflow the first time;
then what it does the second time is related to that by `P`. -/
structure Outlasts (R P : S → S → Prop) (x : Step S α) : Prop where
  preserves : Preserves P x
  agrees : ∀ s t, R s t →
    ((x t).1 = (x s).1 ∧ R (x s).2 (x t).2) ∨ ((x s).1.IsOverflow ∧ P (x s).2 (x t).2)

namespace Outlasts

variable {R P : S → S → Prop}

theorem pure (hr : ∀ s, P s s) (a : α) : Outlasts R P (Pure.pure a : Step S α) :=
  ⟨.pure hr a, fun _ _ h => .inl ⟨rfl, h⟩⟩

theorem fail (hr : ∀ s, P s s) (fault : Fault) (span : Span) :
    Outlasts R P (Step.fail fault span : Step S α) :=
  ⟨.fail hr fault span, fun _ _ h => .inl ⟨rfl, h⟩⟩

theorem outOfFuel (hr : ∀ s, P s s) : Outlasts R P (Step.outOfFuel : Step S α) :=
  ⟨.outOfFuel hr, fun _ _ h => .inl ⟨rfl, h⟩⟩

theorem blame (hr : ∀ s, P s s) (span : Span) (r : Except Fault α) :
    Outlasts R P (Step.blame span r : Step S α) := by
  cases r with
  | ok a => exact pure hr a
  | error fault => exact fail hr fault span

theorem bind (ht : ∀ s t u, P s t → P t u → P s u) {x : Step S α} {f : α → Step S β}
    (hx : Outlasts R P x) (hf : ∀ a, Outlasts R P (f a)) : Outlasts R P (x >>= f) where
  preserves := hx.preserves.bind ht fun a => (hf a).preserves
  agrees s t h := by
    have hagree := hx.agrees s t h
    rw [bind_apply, bind_apply]
    generalize x s = r at hagree ⊢
    generalize x t = q at hagree ⊢
    obtain ⟨o, s'⟩ := r
    obtain ⟨o', t'⟩ := q
    rcases hagree with ⟨ho, hst⟩ | ⟨⟨e, ho, he⟩, hst⟩
    · cases ho
      cases o with
      | ok a => exact (hf a).agrees s' t' hst
      | error e => exact .inl ⟨rfl, hst⟩
      | outOfFuel => exact .inl ⟨rfl, hst⟩
    · -- the first run is over, and whatever the second still does is added to it
      cases ho
      refine .inr ⟨⟨e, rfl, he⟩, ?_⟩
      cases o' with
      | ok a => exact ht s' t' _ hst ((hf a).preserves t')
      | error e => exact hst
      | outOfFuel => exact hst

theorem mapM (hr : ∀ s, P s s) (ht : ∀ s t u, P s t → P t u → P s u) {f : α → Step S β}
    (h : ∀ a, Outlasts R P (f a)) (as : List α) : Outlasts R P (as.mapM f) := by
  induction as with
  | nil => exact pure hr []
  | cons a as ih =>
      rw [List.mapM_cons]
      exact bind ht (h a) fun b => bind ht ih fun bs => pure hr (b :: bs)

theorem foldlM (hr : ∀ s, P s s) (ht : ∀ s t u, P s t → P t u → P s u) {f : β → α → Step S β}
    (h : ∀ b a, Outlasts R P (f b a)) (as : List α) (b : β) : Outlasts R P (as.foldlM f b) := by
  induction as generalizing b with
  | nil => exact pure hr b
  | cons a as ih =>
      rw [List.foldlM_cons]
      exact bind ht (h b a) ih

end Outlasts

end Step

namespace Machine

def withLimit (m : Machine σ) (limit : UInt64) : Machine σ :=
  { m with config.maxCallDepth := limit }

/-- The second machine is the first one with a limit that is no lower. -/
def Raised (limit : UInt64) (m m' : Machine σ) : Prop :=
  m.config.maxCallDepth ≤ limit ∧ m' = m.withLimit limit

variable [Sink σ]

def Prints (m m' : Machine σ) : Prop :=
  ∃ lines, m'.sink = Sink.printAll lines m.sink

theorem Prints.of_sink_eq {m m' : Machine σ} (h : m'.sink = m.sink) : m.Prints m' :=
  ⟨[], h⟩

theorem Prints.refl (m : Machine σ) : m.Prints m :=
  .of_sink_eq rfl

theorem Prints.trans (m m' m'' : Machine σ) (h : m.Prints m') (k : m'.Prints m'') :
    m.Prints m'' := by
  obtain ⟨lines, hl⟩ := h
  obtain ⟨more, hm⟩ := k
  exact ⟨lines ++ more, by rw [hm, hl, Sink.printAll_append]⟩

abbrev Outlasts (limit : UInt64) (x : Step (Machine σ) α) : Prop :=
  Step.Outlasts (Raised limit) Prints x

variable {limit : UInt64}

theorem outlasts_of_silent {x : Step (Machine σ) α}
    (h : ∀ m : Machine σ, ∃ o s, ∀ limit,
      x (m.withLimit limit) = (o, { m.withLimit limit with store := s })) :
    Outlasts limit x where
  preserves m := by
    obtain ⟨o, s, hx⟩ := h m
    exact .of_sink_eq (congrArg (fun r => r.2.sink) (hx m.config.maxCallDepth))
  agrees := by
    rintro m - ⟨hlimit, rfl⟩
    obtain ⟨o, s, hx⟩ := h m
    have hlow : x m = (o, { m with store := s }) := hx m.config.maxCallDepth
    rw [hx limit, hlow]
    exact .inl ⟨rfl, hlimit, rfl⟩

theorem read_outlasts (scope : ScopeId) (x : Ident) :
    Outlasts limit (read scope x : Step (Machine σ) Value) := by
  refine outlasts_of_silent fun m => ?_
  cases h : m.store.get? scope x.name with
  | none => exact ⟨_, m.store, fun limit => by simp only [read, withLimit, h]; rfl⟩
  | some v => exact ⟨.ok v, m.store, fun limit => by simp only [read, withLimit, h]⟩

theorem write_outlasts (scope : ScopeId) (x : Ident) (v : Value) :
    Outlasts limit (write scope x v : Step (Machine σ) Unit) := by
  refine outlasts_of_silent fun m => ?_
  cases h : m.store.resolve scope x.name with
  | none => exact ⟨_, m.store, fun limit => by simp only [write, withLimit, h]; rfl⟩
  | some c => exact ⟨.ok (), m.store.set c v, fun limit => by simp only [write, withLimit, h]⟩

theorem onStore_outlasts (f : Store → α × Store) :
    Outlasts limit (onStore f : Step (Machine σ) α) :=
  outlasts_of_silent fun m => ⟨.ok (f m.store).1, (f m.store).2, fun _ => rfl⟩

theorem invoke_outlasts (id : NativeId) (name : String) (args : List Value) (paren : Span) :
    Outlasts limit (invoke id name args paren : Step (Machine σ) Value) := by
  refine outlasts_of_silent fun m => ?_
  cases h : m.store.nativeBody id args with
  | ok v => exact ⟨.ok v, m.store, fun limit => by simp only [invoke, withLimit, h]; rfl⟩
  | error e => exact ⟨_, m.store, fun limit => by simp only [invoke, withLimit, h]; rfl⟩

theorem println_outlasts (line : String) :
    Outlasts limit (println line : Step (Machine σ) Unit) where
  preserves _ := ⟨[line], rfl⟩
  agrees := by
    rintro m - ⟨h, rfl⟩
    exact .inl ⟨rfl, h, rfl⟩

theorem checkDepth_outlasts (paren : Span) :
    Outlasts limit (checkDepth paren : Step (Machine σ) Unit) := by
  have hsink (m : Machine σ) : (checkDepth paren m).2.sink = m.sink := by
    unfold checkDepth
    split <;> rfl
  refine ⟨fun m => .of_sink_eq (hsink m), ?_⟩
  rintro m - ⟨h, rfl⟩
  by_cases hlow : m.callDepth < m.config.maxCallDepth
  · have hhigh : (m.withLimit limit).callDepth < (m.withLimit limit).config.maxCallDepth :=
      UInt64.lt_of_lt_of_le hlow h
    left
    rw [checkDepth, checkDepth, if_pos hlow, if_pos hhigh]
    exact ⟨rfl, h, rfl⟩
  · right
    refine ⟨⟨⟨.stackOverflow m.config.maxCallDepth, paren⟩, ?_, _, rfl⟩, .of_sink_eq ?_⟩
    · rw [checkDepth, if_neg hlow]
      rfl
    · exact (hsink _).trans (hsink m).symm

theorem nested_outlasts {x : Step (Machine σ) α} (h : Outlasts limit x) :
    Outlasts limit (nested x) where
  preserves m := h.preserves { m with callDepth := m.callDepth + 1 }
  agrees := by
    rintro m - ⟨hlimit, rfl⟩
    rcases h.agrees { m with callDepth := m.callDepth + 1 } _ ⟨hlimit, rfl⟩ with
      ⟨ho, hlimit', hm⟩ | hover
    · refine .inl ⟨ho, hlimit', ?_⟩
      exact congrArg (fun m' : Machine σ => { m' with callDepth := m'.callDepth - 1 }) hm
    · exact .inr hover

end Machine

namespace Cursor

def Raised (limit : UInt64) (c d : Cursor σ) : Prop :=
  d.scope = c.scope ∧ c.machine.Raised limit d.machine

variable [Sink σ] {limit : UInt64}

abbrev Outlasts (limit : UInt64) (x : Step (Cursor σ) α) : Prop :=
  Step.Outlasts (Raised limit) (fun c d => c.machine.Prints d.machine) x

theorem here_outlasts {f : ScopeId → Step (Machine σ) α}
    (h : ∀ i, Machine.Outlasts limit (f i)) : Outlasts limit (here f) where
  preserves c := (h c.scope).preserves c.machine
  agrees := by
    rintro ⟨scope, m⟩ ⟨scope', m'⟩ ⟨hscope, hm⟩
    cases hscope
    rcases (h scope).agrees m m' hm with ⟨ho, hr⟩ | hover
    · exact .inl ⟨ho, rfl, hr⟩
    · exact .inr hover

theorem declare_outlasts (name : String) (v : Value) :
    Outlasts limit (declare name v : Step (Cursor σ) Value) where
  preserves _ := .of_sink_eq rfl
  agrees := by
    rintro ⟨scope, m⟩ ⟨scope', m'⟩ ⟨hscope, h, hm⟩
    cases hscope
    cases hm
    exact .inl ⟨rfl, rfl, h, rfl⟩

end Cursor

variable [Sink σ] {limit : UInt64}

theorem Machine.within_outlasts (scope : ScopeId) {x : Step (Cursor σ) α}
    (h : Cursor.Outlasts limit x) : Machine.Outlasts limit (Machine.within scope x) where
  preserves m := h.preserves ⟨scope, m⟩
  agrees m m' hm := by
    rcases h.agrees ⟨scope, m⟩ ⟨scope, m'⟩ ⟨rfl, hm⟩ with ⟨ho, -, hr⟩ | hover
    · exact .inl ⟨ho, hr⟩
    · exact .inr hover

structure Outlasting (limit : UInt64) (σ : Type) [Sink σ] (n : Nat) : Prop where
  expr (e : Expr) (scope : ScopeId) :
    Machine.Outlasts limit (evalExpr n e scope : Step (Machine σ) Value)
  stmt (s : Stmt) : Cursor.Outlasts limit (execStmt n s : Step (Cursor σ) Value)
  call (c : Callable) (args : List Value) (paren : Span) :
    Machine.Outlasts limit (call n c args paren : Step (Machine σ) Value)

namespace Outlasting

variable {n : Nat}

theorem here (h : Outlasting limit σ n) (e : Expr) :
    Cursor.Outlasts limit (Cursor.here (evalExpr n e) : Step (Cursor σ) Value) :=
  Cursor.here_outlasts fun i => h.expr e i

theorem body (h : Outlasting limit σ n) (body : List Stmt) :
    Cursor.Outlasts limit
      (body.foldlM (fun _ s => execStmt n s) Value.nil : Step (Cursor σ) Value) :=
  .foldlM (fun _ => .refl _) (fun _ _ _ => .trans _ _ _) (fun _ s => h.stmt s) body .nil

theorem succ_expr (h : Outlasting limit σ n) (e : Expr) (scope : ScopeId) :
    Machine.Outlasts limit (evalExpr (n + 1) e scope : Step (Machine σ) Value) := by
  have hr := Machine.Prints.refl (σ := σ)
  have ht := Machine.Prints.trans (σ := σ)
  cases e with
  | literal a _ => exact .pure hr _
  | grouping e _ => exact h.expr e scope
  | var x _ => exact Machine.read_outlasts scope x
  | assign x e _ =>
      exact (h.expr e scope).bind ht fun v =>
        (Machine.write_outlasts scope x v).bind ht fun _ => .pure hr v
  | logical l op r _ =>
      refine (h.expr l scope).bind ht fun v => ?_
      split
      · exact .pure hr v
      · exact h.expr r scope
  | conditional c t e _ =>
      refine (h.expr c scope).bind ht fun v => ?_
      split
      · exact h.expr t scope
      · exact h.expr e scope
  | unary op e _ => exact (h.expr e scope).bind ht fun v => .blame hr op.span _
  | binary l op r _ =>
      exact (h.expr l scope).bind ht fun v =>
        (h.expr r scope).bind ht fun w => .blame hr op.span _
  | call f args paren _ =>
      refine (h.expr f scope).bind ht fun v => ?_
      cases v with
      | callable c =>
          exact (Step.Outlasts.mapM hr ht (fun a => h.expr a scope) args).bind ht fun vs =>
            h.call c vs paren
      | number | string | bool | nil => exact .fail hr .notCallable paren

theorem succ_stmt (h : Outlasting limit σ n) (s : Stmt) :
    Cursor.Outlasts limit (execStmt (n + 1) s : Step (Cursor σ) Value) := by
  have hr (c : Cursor σ) := Machine.Prints.refl c.machine
  have ht (c d e : Cursor σ) := Machine.Prints.trans c.machine d.machine e.machine
  cases s with
  | expr e _ => exact h.here e
  | print e _ =>
      refine (h.here e).bind ht fun v => ?_
      exact (Cursor.here_outlasts fun _ => Machine.println_outlasts v.text).bind ht
        fun _ => .pure hr _
  | declare x e _ =>
      cases e with
      | none => exact Cursor.declare_outlasts x.name .nil
      | some e => exact (h.here e).bind ht fun v => Cursor.declare_outlasts x.name v
  | block body _ =>
      simp only [execStmt]
      refine Cursor.here_outlasts fun scope => ?_
      exact (Machine.onStore_outlasts _).bind Machine.Prints.trans fun inner =>
        Machine.within_outlasts inner (h.body body)
  | ifElse c t e _ =>
      refine (h.here c).bind ht fun v => Step.Outlasts.bind ht ?_ fun _ => .pure hr _
      split
      · exact h.stmt t
      · cases e with
        | none => exact .pure hr _
        | some e => exact h.stmt e
  | whileLoop c body span =>
      refine (h.here c).bind ht fun v => ?_
      split
      · exact (h.stmt body).bind ht fun _ => h.stmt (.whileLoop c body span)
      · exact .pure hr _
  | forLoop => exact .fail hr _ _
  | function f params body declSpan _ =>
      simp only [execStmt]
      exact (Cursor.here_outlasts fun _ => Machine.onStore_outlasts _).bind ht fun c =>
        Cursor.declare_outlasts f.name (.callable c)

theorem succ_call (h : Outlasting limit σ n) (c : Callable) (args : List Value) (paren : Span) :
    Machine.Outlasts limit (Scriptlet.call (n + 1) c args paren : Step (Machine σ) Value) := by
  have hr := Machine.Prints.refl (σ := σ)
  have ht := Machine.Prints.trans (σ := σ)
  unfold Scriptlet.call
  split
  · cases c with
    | native id name arity => exact Machine.invoke_outlasts id name args paren
    | function id d =>
        refine (Machine.checkDepth_outlasts paren).bind ht fun _ =>
          (Machine.onStore_outlasts _).bind ht fun scope => ?_
        exact Machine.nested_outlasts (Machine.within_outlasts scope (h.body d.body))
  · exact .fail hr _ paren

end Outlasting

theorem outlasting (limit : UInt64) (n : Nat) : Outlasting limit σ n := by
  induction n with
  | zero =>
      exact ⟨fun _ _ => .outOfFuel .refl, fun _ => .outOfFuel fun _ => .refl _,
        fun _ _ _ => .outOfFuel .refl⟩
  | succ n ih => exact ⟨ih.succ_expr, ih.succ_stmt, ih.succ_call⟩

namespace Interpreter

def withLimit (i : Interpreter σ) (limit : UInt64) : Interpreter σ :=
  { i with machine := i.machine.withLimit limit }

theorem run_approximates {n k : Nat} (h : n ≤ k) (program : List Stmt) :
    (run n program : Step (Interpreter σ) Value).Approximates (run k program) := by
  intro i
  rcases execBlock_approximates h program ⟨i.environment, i.machine⟩ with h | h
  · exact .inl h
  · exact .inr (by simp only [run, atTop, h])

theorem run_prints (fuel : Nat) (program : List Stmt) (i : Interpreter σ) :
    i.machine.Prints (run fuel program i).2.machine :=
  ((outlasting 0 fuel).body program).preserves ⟨i.environment, i.machine⟩

theorem run_withLimit {low high : UInt64} (h : low ≤ high) (fuel : Nat) (program : List Stmt)
    (i : Interpreter σ) :
    run fuel program (i.withLimit high) =
        ((run fuel program (i.withLimit low)).1,
          (run fuel program (i.withLimit low)).2.withLimit high) ∨
      ((run fuel program (i.withLimit low)).1.IsOverflow ∧
        (run fuel program (i.withLimit low)).2.machine.Prints
          (run fuel program (i.withLimit high)).2.machine) := by
  let c : Cursor σ := ⟨i.environment, i.machine.withLimit low⟩
  let d : Cursor σ := ⟨i.environment, i.machine.withLimit high⟩
  have hcd : c.Raised high d := ⟨rfl, h, rfl⟩
  rcases ((outlasting high fuel).body program).agrees c d hcd with ⟨ho, hs, -, hm⟩ | hover
  · refine .inl (Prod.ext ho ?_)
    have hlast := congr (congrArg Cursor.mk hs) hm
    exact congrArg
      (fun e : Cursor σ => { i with machine := e.machine, environment := e.scope }) hlast
  · exact .inr hover

end Interpreter

/-- Of two limits the lower one can only cut a run off. If it does not, then the run has the same
outcome under the higher one and leaves everything else the same too. If it does, and the run comes
to an end under the higher one, then more lines may be printed there, after the same ones. -/
theorem higher_limit_continues_run (low high : UInt64) (h : low ≤ high) (program : List Stmt)
    (i : Interpreter σ) (fuel : Nat) :
    let r := Interpreter.run fuel program (i.withLimit low)
    (¬r.1.IsOverflow →
      Interpreter.run fuel program (i.withLimit high) = (r.1, r.2.withLimit high)) ∧
    (r.1.IsOverflow → ∀ fuel',
      let r' := Interpreter.run fuel' program (i.withLimit high)
      r'.1 ≠ .outOfFuel → ∃ lines more,
        r.2.machine.sink = Sink.printAll lines i.machine.sink ∧
          r'.2.machine.sink = Sink.printAll (lines ++ more) i.machine.sink) := by
  intro r
  constructor
  · intro hr
    exact (Interpreter.run_withLimit h fuel program i).resolve_right fun hover => hr hover.1
  · intro hr fuel' r' hr'
    -- with the fuel of both runs neither of them changes
    let most := max fuel fuel'
    have hne : r.1 ≠ .outOfFuel := by
      obtain ⟨e, he, -⟩ := hr
      exact he ▸ Outcome.error_ne_outOfFuel e
    have hlow : Interpreter.run most program (i.withLimit low) = r :=
      (Interpreter.run_approximates (Nat.le_max_left fuel fuel') program _).resolve_left hne
    have hhigh : Interpreter.run most program (i.withLimit high) = r' :=
      (Interpreter.run_approximates (Nat.le_max_right fuel fuel') program _).resolve_left hr'
    have hmore : r.2.machine.Prints r'.2.machine := by
      have hboth := Interpreter.run_withLimit h most program i
      rw [hlow, hhigh] at hboth
      rcases hboth with he | ⟨-, hp⟩
      · rw [he]
        exact .of_sink_eq rfl
      · exact hp
    obtain ⟨lines, hlines⟩ := Interpreter.run_prints fuel program (i.withLimit low)
    obtain ⟨more, hmore⟩ := hmore
    exact ⟨lines, more, hlines, by rw [hmore, hlines, Sink.printAll_append]; rfl⟩

/-- A function prints a line and calls another one that prints a line; then the program fails. One
nested call is too few for it, and from two on more of them make no difference. -/
theorem higher_limit_continues_run_nested_call :
    let f : Ident := ⟨"f", {}⟩
    let g : Ident := ⟨"g", {}⟩
    let say (text : String) : Stmt := .print (.literal (.string text) {}) {}
    let program : List Stmt :=
      [.function f [] [say "inner"] {} {},
        .function g [] [say "outer", .expr (.call (.var f {}) [] {} {}) {}] {} {},
        .expr (.call (.var g {}) [] {} {}) {},
        .expr (.var ⟨"x", {}⟩ {}) {}]
    let i := Interpreter.new ({} : Buffer)
    let run (limit : UInt64) := Interpreter.run 9 program (i.withLimit limit)
    (1 : UInt64) ≤ 2 ∧ (run 1).1 = .error ⟨.stackOverflow 1, {}⟩ ∧
      (run 1).2.machine.sink.lines = #["outer"] ∧
      (run 1).2.machine.sink.lines.toList <+: (run 2).2.machine.sink.lines.toList ∧
      (run 2).1 = .error ⟨.undefinedVariable "x", {}⟩ ∧
      run 200 = ((run 2).1, (run 2).2.withLimit 200) := by
  intro f g say program i run
  have hover : (run 1).1 = .error ⟨.stackOverflow 1, {}⟩ := by decide +kernel
  have hfail : (run 2).1 = .error ⟨.undefinedVariable "x", {}⟩ := by decide +kernel
  have hmore := (higher_limit_continues_run 1 2 (by decide) program i 9).2 ⟨_, hover, 1, rfl⟩ 9
    (hfail ▸ Outcome.error_ne_outOfFuel _)
  have hsame := (higher_limit_continues_run 2 200 (by decide) program i 9).1
    fun ⟨e, he, hover⟩ => by
      cases hfail.symm.trans he
      exact nomatch hover
  obtain ⟨lines, more, hlines, hmore⟩ := hmore
  refine ⟨by decide, hover, by decide +kernel, ?_, hfail, hsame⟩
  simp only [run, hlines, hmore, Buffer.toList_lines_printAll, ← List.append_assoc]
  exact List.prefix_append _ _

end Scriptlet
