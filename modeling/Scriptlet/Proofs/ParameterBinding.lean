import Scriptlet.Proofs.BodyScopes
import Scriptlet.Proofs.ScopeForest
import Scriptlet.Proofs.VariableEffects

namespace Scriptlet

theorem lookup_reverse_zipIdx {names : List String} {x : String} {k : Nat} (n : Nat)
    (hk : names[k]? = some x) (hlast : ∀ l > k, names[l]? ≠ some x) :
    (names.zipIdx n).reverse.lookup x = some (n + k) := by
  -- from the end, since that is where the search begins
  induction names using List.reverseRecOn with
  | nil => simp at hk
  | append_singleton names y ih =>
      rw [List.zipIdx_append, List.reverse_append, List.zipIdx_singleton, List.reverse_singleton,
        List.singleton_append, List.lookup_cons]
      have hlength : k ≤ names.length := by
        have hlt := (List.getElem?_eq_some_iff.mp hk).1
        rw [List.length_append, List.length_singleton] at hlt
        omega
      rcases Nat.lt_or_eq_of_le hlength with hlt | rfl
      · have hy : x ≠ y := by
          rintro rfl
          exact hlast names.length hlt (by simp)
        rw [beq_false_of_ne hy]
        rw [List.getElem?_append_left hlt] at hk
        refine ih hk fun l hl hx => hlast l hl ?_
        rwa [List.getElem?_append_left (List.getElem?_eq_some_iff.mp hx).1]
      · have hy : y = x := by simpa using hk
        rw [hy, beq_self_eq_true]

namespace Store

variable {s : Store} {i : ScopeId} {params : List Ident} {args : List Value}

theorem foldl_bind (bs : List (Ident × Value)) (t : Store) (hi : i < t.scopes.size) :
    let u := bs.foldl (fun t b => t.bind i b.1.name b.2) t
    u.bindings i = ((bs.map (·.1.name)).zipIdx t.cells.size).reverse ++ t.bindings i ∧
      u.cells = t.cells ++ (bs.map Prod.snd).toArray := by
  induction bs generalizing t with
  | nil => simp
  | cons b bs ih =>
      obtain ⟨hbindings, hcells⟩ := ih (t.bind i b.1.name b.2) (by rwa [size_scopes_bind])
      rw [List.foldl_cons]
      refine ⟨hbindings.trans ?_, hcells.trans ?_⟩
      · rw [bindings_bind, if_pos ⟨rfl, hi⟩, cells_bind, Array.size_push, List.map_cons,
          List.zipIdx_cons, List.reverse_cons, List.append_assoc, List.singleton_append]
      · simp

theorem frame_eq_foldl (s : Store) (i : ScopeId) (params : List Ident) (args : List Value) :
    (s.frame i params args).2 = (params.zip args).foldl
      (fun t b => t.bind s.scopes.size b.1.name b.2) (s.child i).2 :=
  rfl

theorem bindings_frame (h : args.length = params.length) :
    (s.frame i params args).2.bindings s.scopes.size =
      ((params.map Ident.name).zipIdx s.cells.size).reverse := by
  have hnew : s.scopes.size < (s.child i).2.scopes.size := by simp [child]
  have hempty : (s.child i).2.bindings s.scopes.size = [] := by
    rw [child, bindings_addScope, if_pos rfl]
  have hnames : (params.zip args).map (·.1.name) = params.map Ident.name := by
    have hparams := congrArg (List.map Ident.name) (List.map_fst_zip (Nat.le_of_eq h.symm))
    rwa [List.map_map] at hparams
  rw [frame_eq_foldl, (foldl_bind _ _ hnew).1, hempty, hnames, List.append_nil]
  rfl

theorem cells_frame (h : args.length = params.length) :
    (s.frame i params args).2.cells = s.cells ++ args.toArray := by
  have hnew : s.scopes.size < (s.child i).2.scopes.size := by simp [child]
  rw [frame_eq_foldl, (foldl_bind _ _ hnew).2, List.map_snd_zip (Nat.le_of_eq h)]
  rfl

theorem localNames_frame (h : args.length = params.length) :
    (s.frame i params args).2.localNames s.scopes.size = (params.map Ident.name).reverse := by
  rw [localNames, bindings_frame h, List.map_reverse, List.zipIdx_map_fst]

theorem enclosing?_frame (hi : i < s.scopes.size) :
    (s.frame i params args).2.enclosing? s.scopes.size = some i :=
  (Option.filter_eq_some_iff.mp (parent?_frame hi params args)).1

theorem depth_frame (hi : i < s.scopes.size) :
    (s.frame i params args).2.depth s.scopes.size = s.depth i + 1 := by
  rw [depth_eq, parent?_frame hi, Option.elim_some, (s.extends_frame i params args).depth_eq hi,
    Nat.add_comm]

theorem resolve_frame_parameter (h : args.length = params.length) {x : String} {k : Nat}
    (hk : (params.map Ident.name)[k]? = some x)
    (hlast : ∀ l > k, (params.map Ident.name)[l]? ≠ some x) :
    (s.frame i params args).2.resolve s.scopes.size x = some (s.cells.size + k) := by
  rw [resolve_eq, bindings_frame h, lookup_reverse_zipIdx _ hk hlast, Option.some_or]

theorem get?_frame_parameter (h : args.length = params.length) {x : String} {k : Nat}
    (hk : (params.map Ident.name)[k]? = some x)
    (hlast : ∀ l > k, (params.map Ident.name)[l]? ≠ some x) :
    (s.frame i params args).2.get? s.scopes.size x = args[k]? := by
  rw [get?, resolve_frame_parameter h hk hlast, Option.bind_some, cells_frame h,
    Array.getElem?_append_right (Nat.le_add_right _ _), Nat.add_sub_cancel_left,
    List.getElem?_toArray]

theorem resolve_frame_other (hi : i < s.scopes.size) (h : args.length = params.length)
    {x : String} (hx : x ∉ params.map Ident.name) :
    (s.frame i params args).2.resolve s.scopes.size x = s.resolve i x := by
  have hnone : ((s.frame i params args).2.bindings s.scopes.size).lookup x = none := by
    rw [lookup_eq_none_iff_not_mem_localNames, localNames_frame h, List.mem_reverse]
    exact hx
  rw [resolve_eq, hnone, Option.none_or, parent?_frame hi, Option.bind_some,
    (s.extends_frame i params args).resolve_eq hi]

theorem mem_bindings_frame (h : args.length = params.length) {b : String × CellId}
    (hb : b ∈ (s.frame i params args).2.bindings s.scopes.size) :
    s.cells.size ≤ b.2 ∧ b.2 < (s.frame i params args).2.cells.size := by
  have hsize : (s.frame i params args).2.cells.size =
      s.cells.size + (params.map Ident.name).length := by
    rw [cells_frame h, Array.size_append, List.length_map, ← h]
    rfl
  rw [bindings_frame h, List.mem_reverse] at hb
  rw [hsize]
  exact ⟨List.le_snd_of_mem_zipIdx hb, List.snd_lt_add_of_mem_zipIdx hb⟩

end Store

variable {σ : Type} [Sink σ]

theorem call_eq (fuel : Nat) {id : FunctionId} {d : Declaration} {args : List Value}
    {m : Machine σ} (hargs : args.length = d.params.length)
    (hroom : m.callDepth < m.config.maxCallDepth) (paren : Span) :
    call (fuel + 1) (.function id d) args paren m =
      let r := m.store.frame (m.store.capturedScope id) d.params args
      Machine.nested (Machine.within r.1 (execBlock fuel d.body)) { m with store := r.2 } := by
  have harity : args.length = (Callable.function id d).arity := hargs
  rw [call, if_pos harity, Step.bind_apply, Machine.checkDepth, if_pos hroom]
  rfl

namespace Moment

variable {m : Moment σ} {id : FunctionId} {d : Declaration} {args : List Value}

theorem scope_next_of_event_call (h : m.event = .call id d args) :
    m.next.scope = m.machine.store.scopes.size := by
  obtain ⟨paren, hcall, harity, hroom⟩ := attempt?_of_event_call h
  rw [next_of_attempt? hcall]
  simp only [apply, Callable.arity, harity, hroom, if_true]
  rfl

theorem mem_bindings_next_of_event_call (h : m.event = .call id d args) {b : String × CellId}
    (hb : b ∈ m.next.machine.store.bindings m.next.scope) :
    m.machine.store.cells.size ≤ b.2 ∧ b.2 < m.next.machine.store.cells.size := by
  obtain ⟨-, -, harity, -⟩ := attempt?_of_event_call h
  rw [scope_next_of_event_call h, store_next, h] at hb
  rw [store_next, h]
  exact Store.mem_bindings_frame harity hb

end Moment

namespace Session

variable {s : Session σ} {u w : Nat}

/-- Two calls at different times bind their parameters to different variables. -/
theorem bindings_of_calls_disjoint {id id' : FunctionId} {d d' : Declaration}
    {args args' : List Value} (huw : u < w) (hu : (s.after u).moment.event = .call id d args)
    (hw : (s.after w).moment.event = .call id' d' args') {b b' : String × CellId}
    (hb : b ∈ (s.after (u + 1)).moment.machine.store.bindings (s.after (u + 1)).moment.scope)
    (hb' : b' ∈ (s.after (w + 1)).moment.machine.store.bindings (s.after (w + 1)).moment.scope) :
    b.2 ≠ b'.2 := by
  have hbetween := s.size_cells_mono (Nat.succ_le_of_lt huw)
  rw [moment_after_succ (Moment.not_halted_of_event_call hu)] at hb hbetween
  rw [moment_after_succ (Moment.not_halted_of_event_call hw)] at hb'
  have hfirst := (Moment.mem_bindings_next_of_event_call hu hb).2
  have hsecond := (Moment.mem_bindings_next_of_event_call hw hb').1
  exact Nat.ne_of_lt (Nat.lt_of_lt_of_le hfirst (Nat.le_trans hbetween hsecond))

end Session

/-- A call with as many arguments as parameters, below the limit, runs the body in a new scope that
is enclosed by the one the function captured and lists the parameters, the last one first. A name
reads there as the argument of the last parameter of that name. A name that is no parameter denotes
what it denotes in the captured scope. For the scopes and the variables that are there already
nothing changes, and the variables of the parameters are new: at no two times of a session do calls
share one. -/
theorem parameters_are_bound_in_a_new_scope (m : Machine σ) (id : FunctionId) (d : Declaration)
    (args : List Value) (paren : Span) (hid : m.store.capturedScope id < m.store.scopes.size)
    (hargs : args.length = d.params.length) (hroom : m.callDepth < m.config.maxCallDepth) :
    let s := m.store
    let outer := s.capturedScope id
    let scope := (s.frame outer d.params args).1
    let t := (s.frame outer d.params args).2
    let m' := { m with store := t }
    let names := d.params.map Ident.name
    (∀ fuel, call (fuel + 1) (.function id d) args paren m =
      Machine.nested (Machine.within scope (execBlock fuel d.body)) m') ∧
    (s.scopes.size ≤ scope ∧ scope < t.scopes.size) ∧
    t.enclosing? scope = some outer ∧ t.depth scope = s.depth outer + 1 ∧
    t.localNames scope = names.reverse ∧
    (∀ (x : Ident) (k : Nat), names[k]? = some x.name → (∀ l > k, names[l]? ≠ some x.name) →
      ∃ v, args[k]? = some v ∧ (Machine.read scope x m').1 = .ok v) ∧
    (∀ x : Ident, x.name ∉ names →
      t.resolve scope x.name = s.resolve outer x.name ∧
      (Machine.read scope x m').1 = (Machine.read outer x m').1 ∧
      (s.resolve outer x.name = none →
        (Machine.read scope x m').1 = .error ⟨.undefinedVariable x.name, x.span⟩)) ∧
    (∀ i < s.scopes.size, ∀ name, t.resolve i name = s.resolve i name) ∧
    (∀ c < s.cells.size, t.cells[c]? = s.cells[c]?) ∧
    (∀ b ∈ t.bindings scope, s.cells.size ≤ b.2) ∧
    ∀ (session : Session σ) (u w : Nat) (id id' : FunctionId) (d d' : Declaration)
      (args args' : List Value), u < w →
      (session.after u).moment.event = .call id d args →
      (session.after w).moment.event = .call id' d' args' →
      let first := (session.after (u + 1)).moment
      let second := (session.after (w + 1)).moment
      ∀ b ∈ first.machine.store.bindings first.scope,
        ∀ b' ∈ second.machine.store.bindings second.scope, b.2 ≠ b'.2 := by
  intro s outer scope t m' names
  have hext : s.Extends t := s.extends_frame outer d.params args
  have hcells : t.cells = s.cells ++ args.toArray := Store.cells_frame hargs
  refine ⟨fun fuel => call_eq fuel hargs hroom paren, ⟨Nat.le_refl _, ?_⟩,
    Store.enclosing?_frame hid, Store.depth_frame hid, Store.localNames_frame hargs,
    fun x k hk hlast => ?_, fun x hx => ?_, fun i hi name => hext.resolve_eq hi name,
    fun c hc => ?_, fun b hb => (Store.mem_bindings_frame hargs hb).1, ?_⟩
  · rw [s.size_scopes_frame]
    exact Nat.lt_succ_self _
  · have hlt : k < args.length := by
      rw [hargs, ← List.length_map Ident.name]
      exact (List.getElem?_eq_some_iff.mp hk).1
    have hget : t.get? scope x.name = args[k]? := Store.get?_frame_parameter hargs hk hlast
    have hv := List.getElem?_eq_getElem hlt
    exact ⟨args[k], hv, Machine.read_eq_ok (hget.trans hv)⟩
  · have hsame : t.resolve scope x.name = s.resolve outer x.name :=
      Store.resolve_frame_other hid hargs hx
    refine ⟨hsame, Machine.read_congr ?_, fun hnone => ?_⟩
    · rw [Store.get?, Store.get?, hsame, hext.resolve_eq hid]
    · rw [Machine.read, Store.get?, hsame, hnone]
      rfl
  · rw [hcells, Array.getElem?_append_left hc]
  · intro session u w id id' d d' args args' huw hu hw first second b hb b' hb'
    exact Session.bindings_of_calls_disjoint huw hu hw hb hb'

/-- Two parameters are called `a`, which is also a variable outside, as is `c`. -/
theorem parameters_are_bound_in_a_new_scope_repeated_name :
    let a : Ident := ⟨"a", {}⟩
    let b : Ident := ⟨"b", {}⟩
    let c : Ident := ⟨"c", {}⟩
    let d : Declaration := ⟨⟨"f", {}⟩, [a, b, a], [], {}⟩
    let m := (Interpreter.run 9 [.declare a none {}, .declare c none {},
      .function d.name d.params d.body {} {}] (Interpreter.new ({} : Buffer))).2.machine
    let args : List Value := [.string "first", .string "second", .string "third"]
    let r := m.store.frame (m.store.capturedScope 0) d.params args
    let m' := { m with store := r.2 }
    r.1 = 4 ∧ r.2.enclosing? r.1 = some 2 ∧ r.2.localNames r.1 = ["a", "b", "a"] ∧
      (Machine.read r.1 a m').1 = .ok (.string "third") ∧
      r.2.resolve r.1 "c" = some 1 ∧ r.2.resolve 2 "a" = some 0 := by
  intro a b c d m args r m'
  have hcaptured : m.store.capturedScope 0 = 2 := by decide +kernel
  obtain ⟨-, -, henclosing, -, hnames, hread, hother, hkept, -⟩ :=
    parameters_are_bound_in_a_new_scope m 0 d args {} (by decide +kernel) rfl (by decide +kernel)
  have hlast (l : Nat) (hl : l > 2) : (d.params.map Ident.name)[l]? ≠ some "a" := by
    rw [List.getElem?_eq_none hl]
    exact nofun
  obtain ⟨v, hv, hread⟩ := hread a 2 rfl hlast
  cases hv
  exact ⟨by decide +kernel, henclosing.trans (congrArg some hcaptured), hnames, hread,
    (hother c (by decide)).1.trans (by decide +kernel),
    (hkept 2 (by decide +kernel) "a").trans (by decide +kernel)⟩

end Scriptlet
