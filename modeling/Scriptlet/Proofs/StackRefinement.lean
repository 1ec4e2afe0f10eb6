import Scriptlet.Proofs.Fragment
import Scriptlet.Proofs.ScopeFrame
import Scriptlet.Proofs.StackLayout

namespace Scriptlet

open Step

variable {σ α : Type}

/-- A cursor and a stack have the same variables with the same values. The frames below the top have
the variables `outer`; those of the top are the list of the current scope. -/
structure Shows (outer : List (List (String × CellId))) (c : Cursor σ) (k : FrameStack σ) :
    Prop where
  layout : c.machine.store.Layout c.scope (c.machine.store.bindings c.scope :: outer)
  nodup : ((c.machine.store.bindings c.scope :: outer).flatten.map Prod.snd).Nodup
  frames : k.frames = (c.machine.store.bindings c.scope :: outer).map c.machine.store.values
  natives : k.natives = c.machine.store.natives
  sink : k.sink = c.machine.sink
  valid : c.Valid
  backed : c.machine.store.Backed

def Stmt.isFunction : Stmt → Bool
  | .function _ _ _ _ _ => true
  | _ => false

theorem Value.not_avoids_function (id : FunctionId) (d : Declaration) :
    ¬ (Value.callable (.function id d)).Avoids Stmt.isFunction := by
  rintro ⟨span, h⟩
  simp [Stmt.avoids, Stmt.isFunction] at h

variable {outer : List (List (String × CellId))} {I : Machine σ → Prop}

namespace Shows

theorem read (scope : ScopeId) (x : Ident) :
    Simulates I (fun m => Shows outer ⟨scope, m⟩) (Machine.read scope x) (FrameStack.read x) := by
  intro m k _ h
  have hresolve := h.layout.resolve x.name
  have hlookup := m.store.lookup?_values (m.store.bindings scope :: outer) x.name
  rw [← h.frames] at hlookup
  unfold Machine.read FrameStack.read Store.get?
  rw [hlookup, hresolve]
  cases hc : (m.store.bindings scope :: outer).findSome? (·.lookup x.name) with
  | none => exact ⟨rfl, h⟩
  | some c =>
      have hlt := h.layout.lt_of_backed h.backed c (Store.snd_mem_of_findSome?_lookup hc)
      have hcell : m.store.cells[c]? = some (m.store.cells.getD c .nil) := by
        simp [Array.getD_eq_getD_getElem?, Array.getElem?_eq_getElem hlt]
      rw [Option.bind_some, hcell]
      exact ⟨rfl, h⟩

theorem write (scope : ScopeId) (x : Ident) (v : Value) :
    Simulates I (fun m => Shows outer ⟨scope, m⟩) (Machine.write scope x v)
      (FrameStack.write x v) := by
  intro m k _ h
  have hresolve := h.layout.resolve x.name
  unfold Machine.write FrameStack.write
  rw [hresolve, h.frames]
  cases hc : (m.store.bindings scope :: outer).findSome? (·.lookup x.name) with
  | none =>
      rw [Store.assign?_map_values_eq_none v hc]
      exact ⟨rfl, h⟩
  | some c =>
      have hlt := h.layout.lt_of_backed h.backed c (Store.snd_mem_of_findSome?_lookup hc)
      have hext := m.store.extends_set c v
      rw [Store.assign?_map_values v hc h.nodup hlt]
      exact ⟨rfl, h.layout.of_extends hext h.valid, h.nodup, rfl, h.natives, h.sink, h.valid,
        hext.backed h.backed⟩

theorem println [Sink σ] (scope : ScopeId) (line : String) :
    Simulates I (fun m => Shows outer ⟨scope, m⟩) (Machine.println line)
      (FrameStack.println line) := by
  intro m k _ h
  exact ⟨rfl, h.layout, h.nodup, h.frames, h.natives, congrArg (Sink.println line) h.sink, h.valid,
    h.backed⟩

theorem invoke (scope : ScopeId) (id : NativeId) (name : String) (args : List Value)
    (paren : Span) :
    Simulates I (fun m => Shows outer ⟨scope, m⟩) (Machine.invoke id name args paren)
      (FrameStack.invoke id name args paren) := by
  intro m k hm h
  unfold Machine.invoke FrameStack.invoke Store.nativeBody
  rw [h.natives]
  exact Simulates.blame (I := I) (R := fun m => Shows outer ⟨scope, m⟩) paren _ m k hm h

theorem here {f : ScopeId → Step (Machine σ) α} {y : Step (FrameStack σ) α}
    (h : ∀ scope, Simulates I (fun m => Shows outer ⟨scope, m⟩) (f scope) y) :
    Simulates (fun c : Cursor σ => I c.machine) (Shows outer) (Cursor.here f) y :=
  fun c k hc hk => h c.scope c.machine k hc hk

theorem declare {I : Cursor σ → Prop} (name : String) (v : Value) :
    Simulates I (Shows outer) (Cursor.declare name v) (FrameStack.declare name v) := by
  intro c k _ h
  let s := c.machine.store
  let s' := (s.define c.scope name v).2
  have hnew : s'.bindings s.scopes.size = (name, s.cells.size) :: s.bindings c.scope :=
    Store.bindings_define s name v h.valid (.inr rfl)
  have hfresh : s.cells.size ∉ (s.bindings c.scope :: outer).flatten.map Prod.snd :=
    fun hm => Nat.lt_irrefl _ (h.layout.lt_of_backed h.backed _ hm)
  refine ⟨rfl, ?_, ?_, ?_, h.natives, h.sink, ?_, h.backed.define c.scope name v⟩
  all_goals simp only [Cursor.declare, FrameStack.declare, Store.fst_define]
  · rw [hnew]
    exact h.layout.define h.valid name v
  · rw [hnew]
    exact List.nodup_cons.mpr ⟨hfresh, h.nodup⟩
  · rw [hnew, h.frames]
    exact (Store.map_values_bind h.layout h.backed name v).symm
  · simp [Cursor.Valid]

theorem bind {m : Machine σ} {scope : ScopeId} {k : FrameStack σ} (h : Shows outer ⟨scope, m⟩ k)
    (name : String) (v : Value) :
    Shows outer ⟨scope, { m with store := m.store.bind scope name v }⟩
      { k with frames := k.frames.modifyHead ((name, v) :: ·) } := by
  have hvalid : scope < m.store.scopes.size := h.valid
  have hself : (m.store.bind scope name v).bindings scope =
      (name, m.store.cells.size) :: m.store.bindings scope := by
    simp [Store.bindings_bind, hvalid]
  have hfresh : m.store.cells.size ∉ (m.store.bindings scope :: outer).flatten.map Prod.snd :=
    fun hm => Nat.lt_irrefl _ (h.layout.lt_of_backed h.backed _ hm)
  refine ⟨?_, ?_, ?_, h.natives, h.sink, ?_, h.backed.bind scope name v⟩
  · rw [hself]
    refine h.layout.grow (fun j _ => Store.parent?_bind ..) (fun j hj => ?_) hself
    simp [Store.bindings_bind, Nat.ne_of_lt hj]
  · rw [hself]
    exact List.nodup_cons.mpr ⟨hfresh, h.nodup⟩
  · rw [hself, h.frames]
    exact (Store.map_values_bind h.layout h.backed name v).symm
  · simpa [Cursor.Valid] using hvalid

theorem enter {m : Machine σ} {scope : ScopeId} {k : FrameStack σ}
    (h : Shows outer ⟨scope, m⟩ k) :
    Shows (m.store.bindings scope :: outer)
      ⟨m.store.scopes.size, { m with store := (m.store.child scope).2 }⟩
      { k with frames := [] :: k.frames } := by
  have hb : (m.store.child scope).2.bindings m.store.scopes.size = [] := by
    simp [Store.child, Store.bindings_addScope]
  refine ⟨?_, ?_, ?_, h.natives, h.sink, ?_, (m.store.extends_child scope).backed h.backed⟩
  · rw [hb]
    exact h.layout.child h.valid
  · rw [hb]
    exact h.nodup
  · rw [hb]
    exact congrArg ([] :: ·) h.frames
  · simp [Cursor.Valid, Store.child]

theorem leave {m : Machine σ} {scope : ScopeId} {k k' : FrameStack σ} {c : Cursor σ}
    (h : Shows outer ⟨scope, m⟩ k) (h' : Shows (m.store.bindings scope :: outer) c k')
    (hm : m.store.Extends c.machine.store) :
    Shows outer ⟨scope, c.machine⟩ { k' with frames := k'.frames.tail } := by
  have hb := hm.bindings_eq h.valid
  refine ⟨?_, ?_, ?_, h'.natives, h'.sink, Nat.lt_of_lt_of_le h.valid hm.size_scopes_le, h'.backed⟩
  · rw [hb]
    exact h.layout.of_extends hm h.valid
  · rw [hb]
    have hnodup := h'.nodup
    rw [List.flatten_cons, List.map_append] at hnodup
    exact (List.nodup_append.mp hnodup).2.1
  · rw [hb, h'.frames]
    rfl

theorem block {I : Store → Prop} {x : Step (Cursor σ) α} {y : Step (FrameStack σ) α}
    (scope : ScopeId) (hI : ∀ s, I s → I (s.child scope).2)
    (hx : ∀ outer, Simulates (fun c => I c.machine.store) (Shows outer) x y)
    (hgrows : ∀ m m' : Machine σ, m.Grows m' →
      m.Grows (Machine.within m.store.scopes.size x m').2) :
    Simulates (fun m => I m.store) (fun m => Shows outer ⟨scope, m⟩)
      (do
        let inner ← Machine.onStore (·.child scope)
        Machine.within inner x)
      (FrameStack.framed y) := by
  intro m k hm h
  let m' : Machine σ := { m with store := (m.store.child scope).2 }
  have hm' : m.Grows m' := ⟨m.store.extends_child scope, rfl, rfl⟩
  obtain ⟨ho, hr⟩ := hx _ ⟨m.store.scopes.size, m'⟩ _ (hI m.store hm) h.enter
  exact ⟨ho, h.leave hr (hgrows m m' hm').store⟩

end Shows

section

variable [Sink σ]

/-- With a given fuel, evaluation goes on alike on the store and on the stack. -/
structure RefinesStack (σ : Type) [Sink σ] (n : Nat) : Prop where
  expr (e : Expr) (scope : ScopeId) (outer : List (List (String × CellId))) :
    Simulates (Machine.Avoids Stmt.isFunction) (fun m : Machine σ => Shows outer ⟨scope, m⟩)
      (evalExpr n e scope) (FrameStack.evalExpr n e)
  stmt {s : Stmt} (hs : s.avoids Stmt.isFunction = true)
    (outer : List (List (String × CellId))) :
    Simulates (Cursor.Avoids Stmt.isFunction) (Shows (σ := σ) outer) (execStmt n s)
      (FrameStack.execStmt n s)
  call {c : Callable} (args : List Value) (paren : Span)
    (hc : (Value.callable c).Avoids Stmt.isFunction) (scope : ScopeId)
    (outer : List (List (String × CellId))) :
    Simulates (Machine.Avoids Stmt.isFunction) (fun m : Machine σ => Shows outer ⟨scope, m⟩)
      (call n c args paren) (FrameStack.call n c args paren)

namespace RefinesStack

variable {n : Nat}

theorem here (h : RefinesStack σ n) (e : Expr) (outer : List (List (String × CellId))) :
    Simulates (Cursor.Avoids Stmt.isFunction) (Shows (σ := σ) outer) (Cursor.here (evalExpr n e))
      (FrameStack.evalExpr n e) :=
  Shows.here fun scope => h.expr e scope outer

theorem body (h : RefinesStack σ n) {body : List Stmt}
    (hb : Stmt.avoidsAll Stmt.isFunction body = true) (outer : List (List (String × CellId))) :
    Simulates (Cursor.Avoids Stmt.isFunction) (Shows (σ := σ) outer)
      (body.foldlM (fun _ s => execStmt n s) Value.nil)
      (body.foldlM (fun _ s => FrameStack.execStmt n s) Value.nil) := by
  rw [Stmt.avoidsAll_iff] at hb
  exact .foldlM (fun s hs _ => h.stmt (hb s hs) outer)
    (fun s hs _ => (staysWithin Stmt.isFunction n).stmt (hb s hs)) .nil

theorem succ_expr (h : RefinesStack σ n) (e : Expr) (scope : ScopeId)
    (outer : List (List (String × CellId))) :
    Simulates (Machine.Avoids Stmt.isFunction) (fun m : Machine σ => Shows outer ⟨scope, m⟩)
      (evalExpr (n + 1) e scope) (FrameStack.evalExpr (n + 1) e) := by
  have hw := staysWithin (σ := σ) Stmt.isFunction n
  cases e with
  | literal a _ => exact .pure _
  | grouping e _ => exact h.expr e scope outer
  | var x _ => exact Shows.read scope x
  | assign x e _ =>
      exact (h.expr e scope outer).bind (hw.expr e scope) fun v hv =>
        (Shows.write scope x v).bind (Machine.write_maintains scope x hv) fun _ _ => .pure v
  | logical l op r _ =>
      refine (h.expr l scope outer).bind (hw.expr l scope) fun v _ => ?_
      split
      · exact .pure v
      · exact h.expr r scope outer
  | conditional c t e _ =>
      refine (h.expr c scope outer).bind (hw.expr c scope) fun v _ => ?_
      split
      · exact h.expr t scope outer
      · exact h.expr e scope outer
  | unary op e _ =>
      exact (h.expr e scope outer).bind (hw.expr e scope) fun v _ => .blame op.span _
  | binary l op r _ =>
      exact (h.expr l scope outer).bind (hw.expr l scope) fun v _ =>
        (h.expr r scope outer).bind (hw.expr r scope) fun w _ => .blame op.span _
  | call f args paren _ =>
      refine (h.expr f scope outer).bind (hw.expr f scope) fun v hv => ?_
      cases v with
      | callable c =>
          have hargs (a : Expr) := hw.expr a scope
          exact (Simulates.mapM (fun a _ => h.expr a scope outer) hargs).bind
            (.mapM hargs args) fun vs _ => h.call vs paren hv scope outer
      | number | string | bool | nil => exact .fail .notCallable paren

theorem succ_stmt (h : RefinesStack σ n) {s : Stmt} (hs : s.avoids Stmt.isFunction = true)
    (outer : List (List (String × CellId))) :
    Simulates (Cursor.Avoids Stmt.isFunction) (Shows (σ := σ) outer) (execStmt (n + 1) s)
      (FrameStack.execStmt (n + 1) s) := by
  have hw := staysWithin (σ := σ) Stmt.isFunction n
  cases s with
  | expr e _ => exact h.here e outer
  | print e _ =>
      refine (h.here e outer).bind (hw.here e) fun v _ => ?_
      refine Simulates.bind (P := fun _ => True) ?_ ?_ fun _ _ => .pure _
      · exact Shows.here (I := Machine.Avoids _) fun scope => Shows.println scope v.text
      · exact .here (I := Machine.Avoids _) fun _ m hm => ⟨hm, fun _ _ => trivial⟩
  | declare x e _ =>
      cases e with
      | none => exact Shows.declare x.name .nil
      | some e => exact (h.here e outer).bind (hw.here e) fun v _ => Shows.declare x.name v
  | block body _ =>
      simp only [Stmt.avoids, Bool.and_eq_true] at hs
      refine Shows.here fun scope => Shows.block scope (fun s hs => ⟨hs.cells, hs.natives⟩)
        (fun outer => h.body hs.2 outer) fun m m' hm => ?_
      exact (frames n).within body hm
  | ifElse c t e _ =>
      simp only [Stmt.avoids, Bool.and_eq_true] at hs
      obtain ⟨⟨-, ht⟩, he⟩ := hs
      refine (h.here c outer).bind (hw.here c) fun v _ =>
        Simulates.bind (P := Value.Avoids Stmt.isFunction) ?_ ?_ fun _ _ => .pure _
      · split
        · exact h.stmt ht outer
        · cases e with
          | none => exact .pure _
          | some e => exact h.stmt he outer
      · split
        · exact hw.stmt ht
        · cases e with
          | none => exact .pure trivial
          | some e => exact hw.stmt he
  | whileLoop c body span =>
      have hbody : body.avoids Stmt.isFunction = true := by
        simp only [Stmt.avoids, Bool.and_eq_true] at hs
        exact hs.2
      refine (h.here c outer).bind (hw.here c) fun v _ => ?_
      split
      · exact (h.stmt hbody outer).bind (hw.stmt hbody) fun _ _ => h.stmt hs outer
      · exact .pure _
  | forLoop => exact .fail _ _
  | function => simp [Stmt.avoids, Stmt.isFunction] at hs

theorem succ_call {c : Callable} (args : List Value) (paren : Span)
    (hc : (Value.callable c).Avoids Stmt.isFunction) (scope : ScopeId)
    (outer : List (List (String × CellId))) :
    Simulates (Machine.Avoids Stmt.isFunction) (fun m : Machine σ => Shows outer ⟨scope, m⟩)
      (Scriptlet.call (n + 1) c args paren) (FrameStack.call (n + 1) c args paren) := by
  simp only [Scriptlet.call, FrameStack.call]
  split
  · cases c with
    | native id name arity => exact Shows.invoke scope id name args paren
    | function id d => exact absurd hc (Value.not_avoids_function id d)
  · exact .fail _ paren

end RefinesStack

theorem refinesStack (n : Nat) : RefinesStack σ n := by
  induction n with
  | zero => exact ⟨fun _ _ _ => .outOfFuel, fun _ _ => .outOfFuel, fun _ _ _ _ _ => .outOfFuel⟩
  | succ n ih => exact ⟨ih.succ_expr, ih.succ_stmt, RefinesStack.succ_call⟩

end

namespace Interpreter

structure Matches (i : Interpreter σ) (k : FrameStack σ) : Prop where
  shows : Shows [] ⟨i.environment, i.machine⟩ k
  avoids : i.machine.store.Avoids Stmt.isFunction

namespace Matches

variable {i : Interpreter σ} {k : FrameStack σ}

theorem run [Sink σ] (h : Matches i k) {program : List Stmt}
    (hp : ∀ s ∈ program, s.avoids Stmt.isFunction = true) (fuel : Nat) :
    (Interpreter.run fuel program i).1 = (FrameStack.run fuel program k).1 ∧
      Matches (Interpreter.run fuel program i).2 (FrameStack.run fuel program k).2 := by
  have hp := Stmt.avoidsAll_iff.mpr hp
  obtain ⟨ho, hr⟩ := (refinesStack fuel).body hp [] ⟨i.environment, i.machine⟩ k h.avoids h.shows
  obtain ⟨ha, -⟩ := (staysWithin Stmt.isFunction fuel).body hp ⟨i.environment, i.machine⟩ h.avoids
  exact ⟨ho, hr, ha⟩

theorem names (h : Matches i k) :
    i.machine.store.localNames i.environment = (k.frames.getLastD []).map Prod.fst := by
  rw [h.shows.frames]
  exact Store.map_fst_values.symm

theorem runs [Sink σ] (h : Matches i k) {programs : List (List Stmt)}
    (hp : ∀ program ∈ programs, ∀ s ∈ program, s.avoids Stmt.isFunction = true) (fuel : Nat) :
    Interpreter.runs fuel programs i = FrameStack.runs fuel programs k := by
  induction programs generalizing i k with
  | nil => rfl
  | cons program programs ih =>
      obtain ⟨ho, hr⟩ := h.run (hp program List.mem_cons_self) fuel
      have hrest := ih hr fun p hm => hp p (List.mem_cons_of_mem program hm)
      simp only [Interpreter.runs, FrameStack.runs, ho, hr.names, hr.shows.sink, hrest]

end Matches

theorem matches_new (sink : σ) (config : Config) (source : Option Source) :
    Matches (new sink config source) { sink } := by
  have hsound := sound_new sink config source
  refine ⟨⟨?_, ?_, rfl, rfl, rfl, hsound.environment, hsound.backed⟩, new_avoids sink config source⟩
  · exact .bottom rfl
  · exact List.nodup_nil

theorem Matches.equip {i : Interpreter σ} {k : FrameStack σ} (h : Matches i k)
    (hi : i.globals = i.environment) {natives : List HostFunction}
    (hn : ∀ f ∈ natives, f.body.Tame) : Matches (i.equip natives) (k.equip natives) := by
  induction natives generalizing i k with
  | nil => exact h
  | cons f natives ih =>
      let m : Machine σ :=
        { i.machine with store := (i.machine.store.addNative f.name f.arity f.body).2 }
      have hadd : Shows [] ⟨i.environment, m⟩ { k with natives := k.natives.push f.body } :=
        ⟨h.shows.layout.congr (fun _ _ => rfl) fun _ _ => rfl, h.shows.nodup, h.shows.frames,
          congrArg (·.push f.body) h.shows.natives, h.shows.sink, h.shows.valid, h.shows.backed⟩
      have hbind := hadd.bind f.name (.callable (.native k.natives.size f.name f.arity))
      have havoids := defineNative_avoids h.avoids f.name f.arity (hn f List.mem_cons_self)
      refine ih (i := i.defineNative f.name f.arity f.body) ⟨?_, havoids⟩ hi fun g hg =>
        hn g (List.mem_cons_of_mem f hg)
      simp only [defineNative, hi, Store.addNative]
      rw [h.shows.natives] at hbind ⊢
      exact hbind

end Interpreter

/-- Programs without function statements, run one after the other, cannot tell the store from a
stack of frames: after every run the host sees the same outcome, the same printed lines and the same
names. -/
theorem runs_eq_frameStack_runs [Sink σ] (sink : σ) (config : Config) (source : Option Source)
    (natives : List HostFunction) (hn : ∀ f ∈ natives, f.body.Tame)
    (programs : List (List Stmt))
    (hp : ∀ program ∈ programs, ∀ s ∈ program, s.avoids Stmt.isFunction = true) (fuel : Nat) :
    ((Interpreter.new sink config source).equip natives).runs fuel programs =
      (FrameStack.equip { sink } natives).runs fuel programs :=
  ((Interpreter.matches_new sink config source).equip rfl hn).runs hp fuel

/-- A block that assigns to a variable around it, declares one of the same name and fails. -/
theorem runs_eq_frameStack_runs_failing_block :
    let x : Ident := ⟨"x", {}⟩
    let echo : HostFunction := ⟨"echo", 1, fun args => .ok (args.headD .nil)⟩
    let call : Expr := .call (.var ⟨"echo", {}⟩ {}) [.literal (.string "new") {}] {} {}
    let failing : List Stmt :=
      [.declare x (some (.literal (.string "old") {})) {},
        .block [.expr (.assign x call {}) {}, .declare x none {}, .expr (.var ⟨"y", {}⟩ {}) {}] {}]
    let programs := [failing, [.print (.var x {}) {}]]
    let seen := ((Interpreter.new ({} : Buffer)).equip [echo]).runs 9 programs
    NativeBody.Tame echo.body ∧
      (∀ program ∈ programs, ∀ s ∈ program, s.avoids Stmt.isFunction = true) ∧
      seen = (FrameStack.equip { sink := ({} : Buffer) } [echo]).runs 9 programs ∧
      seen.map Sight.names = [["x", "echo"], ["x", "echo"]] ∧
      seen.map (fun sight => sight.sink.lines) = [#[], #["new"]] := by
  intro x echo call failing programs seen
  have htame : NativeBody.Tame echo.body := by
    intro args c hc
    cases args with
    | nil => cases hc
    | cons v args =>
        cases hc
        exact List.mem_cons_self
  have hp : ∀ program ∈ programs, ∀ s ∈ program, s.avoids Stmt.isFunction = true := by decide
  have hseen := runs_eq_frameStack_runs ({} : Buffer) {} none [echo]
    (List.forall_mem_singleton.mpr htame) programs hp 9
  refine ⟨htame, hp, hseen, ?_, ?_⟩
  all_goals decide +kernel

end Scriptlet
