import Mathlib
import Scriptlet.Proofs.Confinement
import Scriptlet.Proofs.Provenance
import Scriptlet.Proofs.RootedStore

namespace Scriptlet

variable {σ ρ : Type}

def Node.IsNative : Node → Prop
  | .callable (.native _ _ _) => True
  | _ => False

/-- Nothing leads to a function that the store does not know. -/
abbrev Store.Supplied (s : Store) : Prop :=
  ({} : Store).Confines (fun _ => []) Node.IsNative s

namespace Store

variable {s : Store}

theorem lt_size_captured_of_within {id : FunctionId} {d : Declaration}
    (h : ({} : Store).Within Node.IsNative s (.callable (.function id d))) :
    id < s.captured.size := by
  rcases h with h | h
  · cases h
  · exact h.2

theorem supplied_of_cells_eq_empty (h : s.cells = #[]) : s.Supplied where
  closed a b _ hl := by
    cases hl with
    | listed | enclosing | captured => exact .inr (Nat.zero_le _)
    | value hf => simp [h] at hf
    | held hf => cases hf
  cells c _ := .inr (Nat.zero_le c)
  bindings i _ := .inr (Nat.zero_le i)
  size_scopes := Nat.zero_le _
  size_cells := Nat.zero_le _
  size_captured := Nat.zero_le _

theorem Supplied.provide (h : s.Supplied) (globals : ScopeId) (f : HostFunction) :
    (s.provide globals f).Supplied := by
  have hnative : (s.addNative f.name f.arity f.body).2.Supplied := by
    refine ⟨fun a b ha hl => ?_, h.cells, h.bindings, h.size_scopes, h.size_cells,
      h.size_captured⟩
    cases hl with
    | listed hb => exact h.closed _ _ ha (.listed hb)
    | enclosing hp => exact h.closed _ _ ha (.enclosing hp)
    | value hf => exact h.closed _ _ ha (.value hf)
    | captured id d => exact h.closed _ _ ha (.captured id d)
    | held hf => cases hf
  exact hnative.bind (.inr (Nat.zero_le globals)) f.name
    (List.forall_mem_singleton.mpr (.inl trivial))

end Store

structure Moment.Supplied (m : Moment σ) : Prop where
  confined : m.Confined (fun _ => []) Node.IsNative {}
  natives : ∀ body ∈ m.machine.store.natives, NativeBody.Tame body

theorem Request.supplied_opening {request : Request} (h : request.Tame)
    (hr : request.handlesFunction = false) (globals : ScopeId) {m : Moment σ} (hm : m.Supplied) :
    (request.opening globals m).Supplied := by
  obtain ⟨⟨hstore, hscope, hfocus, htasks⟩, hnatives⟩ := hm
  cases request with
  | run program | interpret program =>
      refine ⟨⟨hstore, hscope, fun v hv => ?_, List.forall_mem_singleton.mpr trivial⟩, hnatives⟩
      cases hv
      exact List.forall_mem_nil _
  | evaluate e =>
      refine ⟨⟨hstore, hscope, fun v hv => ?_, List.forall_mem_nil _⟩, hnatives⟩
      exact absurd hv (Focus.expr_ne_done e _)
  | provide f =>
      refine ⟨⟨Store.Supplied.provide hstore globals f, hscope, hfocus, htasks⟩,
        fun body hbody => ?_⟩
      rcases Array.mem_push.mp hbody with hbody | rfl
      · exact hnatives body hbody
      · exact h
  | function | native | rebind => cases hr

theorem Session.supplied_resting_new (sink : σ) (config : Config) (source : Option Source)
    (requests : List Request) :
    (Session.resting (.ok .nil) (Interpreter.new sink config source) requests).moment.Supplied where
  confined := by
    refine ⟨Store.supplied_of_cells_eq_empty rfl, .inr (Nat.zero_le _), fun v hv => ?_,
      List.forall_mem_nil _⟩
    cases hv
    exact List.forall_mem_nil _
  natives body hbody := by
    simp [Session.resting, Interpreter.new, Store.global, Store.addScope] at hbody

/-- What a host gets at with an answer. -/
def Outcome.nodes : Outcome Answer → List Node
  | .ok (.value v) => v.nodes
  | _ => []

theorem Outcome.exists_of_mem_nodes {o : Outcome Answer} {n : Node} (h : n ∈ o.nodes) :
    ∃ v : Value, o = .ok (.value v) ∧ n ∈ v.nodes := by
  cases o with
  | ok answer =>
      cases answer with
      | value v => exact ⟨v, rfl, h⟩
      | finished | done => cases h
  | error | outOfFuel => cases h

variable [Sink σ]

theorem Moment.Supplied.next {m : Moment σ} (h : m.Supplied) : m.next.Supplied where
  confined := h.confined.next (tame_of_natives h.natives)
  natives := by
    rw [natives_next]
    exact h.natives

namespace Session

variable {s : Session σ}

theorem supplied_after (hs : ∀ q ∈ s.requests, q.Tame ∧ q.handlesFunction = false)
    (h : s.moment.Supplied) (t : Nat) : (s.after t).moment.Supplied :=
  s.after_induction h (fun _ hm => hm.next)
    (fun request hq _ _ => request.supplied_opening (hs request hq).1 (hs request hq).2 s.globals) t

theorem within_of_focus (hs : ∀ q ∈ s.requests, q.Tame ∧ q.handlesFunction = false)
    (h : s.moment.Supplied) {t u : Nat} (htu : t ≤ u) {v : Value}
    (hv : (s.after t).moment.focus = .done (.ok v)) :
    v.Within (({} : Store).Within Node.IsNative (s.after u).moment.machine.store) := by
  have hsize := s.size_captured_mono htu
  exact ((supplied_after hs h t).confined.focus v hv).mono fun n hn => hn.mono hsize

end Session

/-- If host functions make no functions, then whatever requests a fresh interpreter has answered, be
it with a result or an error, the scope it began with is still the global one and lies within no
other. The way out from the current scope, and from the scope of every function that can be got at
from there or from an answer, ends at the global scope. So all its names are known in these
scopes. -/
theorem global_scope_is_root [Reporter ρ] (reporter : ρ) (sink : σ) (config : Config)
    (source : Option Source) (requests : List Request)
    (h : ∀ q ∈ requests, q.Tame ∧ q.handlesFunction = false) (fuel : Nat)
    (hend : .outOfFuel ∉ session fuel requests (reporter, Interpreter.new sink config source)) :
    let start : ρ × Interpreter σ := (reporter, .new sink config source)
    let i := (sessionState fuel requests start).2
    let store := i.machine.store
    let roots := .scope i.environment :: (session fuel requests start).flatMap Outcome.nodes
    let Reached := store.Reaches (fun _ => []) roots
    i.globals = start.2.globals ∧ store.enclosing? i.globals = none ∧
      (∀ id d, Reached (.callable (.function id d)) → ∃ scope, store.captured[id]? = some scope) ∧
      ∀ scope, (scope = i.environment ∨ ∃ id d, Reached (.callable (.function id d)) ∧
          store.captured[id]? = some scope) →
        (store.chain scope).IsChain (fun j p => store.enclosing? j = some p) ∧
          (store.chain scope).getLast? = some i.globals ∧
          ∀ name ∈ store.localNames i.globals, store.contains scope name = true := by
  intro start i store roots Reached
  let s := Session.resting (.ok .nil) start.2 requests
  obtain ⟨n, o, hn, hvalues⟩ := Session.after_session fuel requests [] (.ok .nil) start hend
  rw [List.append_nil] at hn hvalues
  have hsupplied := Session.supplied_resting_new sink config source requests
  have horderly : s.moment.Orderly :=
    Session.orderly_resting (.ok .nil) (Interpreter.sound_new sink config source) requests
  have hrooted : (s.after n).moment.machine.store.Rooted start.2.globals :=
    Session.rooted_after horderly (fun q hq => (h q hq).2)
      (Interpreter.rooted_new sink config source) n
  have hlast := (Session.supplied_after h hsupplied n).confined
  have henv := (Session.orderly_after horderly n).scope_lt
  have hglobals : i.globals = start.2.globals := by
    have hkept := s.globals_after n
    rw [hn] at hkept
    exact hkept
  have hroots : ∀ r ∈ roots, ({} : Store).Within Node.IsNative store r := by
    refine List.forall_mem_cons.mpr ⟨.inr (Nat.zero_le _), fun r hr => ?_⟩
    obtain ⟨answer, hanswer, hr⟩ := List.mem_flatMap.mp hr
    obtain ⟨v, rfl, hr⟩ := Outcome.exists_of_mem_nodes hr
    obtain ⟨u, hu, hfocus⟩ := hvalues v hanswer
    have hv := Session.within_of_focus h hsupplied hu hfocus r hr
    rw [hn] at hv
    exact hv
  rw [hn] at hrooted hlast henv
  have hknown : ∀ id d, Reached (.callable (.function id d)) → id < store.captured.size :=
    fun id d hreach =>
      Store.lt_size_captured_of_within (hreach.of_closed hroots hlast.store.closed)
  have hheld : ∀ scope, (scope = i.environment ∨ ∃ id d, Reached (.callable (.function id d)) ∧
      store.captured[id]? = some scope) → scope < store.scopes.size := by
    rintro scope (rfl | ⟨id, d, -, hid⟩)
    · exact henv
    · exact hrooted.captured scope (Array.mem_of_getElem? hid)
  rw [hglobals]
  refine ⟨rfl, (hrooted.enclosing?_eq_none_iff _ hrooted.lt).mpr rfl, fun id d hreach => ?_,
    fun scope hscope => ⟨?_, hrooted.getLast?_chain (hheld scope hscope), fun name hname =>
      hrooted.contains (hheld scope hscope) hname⟩⟩
  · exact ⟨_, Array.getElem?_eq_getElem (hknown id d hreach)⟩
  · exact (hrooted.chain_ends scope).1

/-- After a failed run a host function hands out a function that was made in a block, and then the
host registers one more name. -/
theorem global_scope_is_root_escaped_function :
    let r : Ident := ⟨"r", {}⟩
    let g : Ident := ⟨"g", {}⟩
    let same : HostFunction := ⟨"same", 1, fun args => .ok (args.headD .nil)⟩
    let late : HostFunction := ⟨"late", 0, fun _ => .ok .nil⟩
    let program : List Stmt := [.declare r none {},
      .block [.function g [] [] {} {}, .expr (.assign r (.var g {}) {}) {},
        .expr (.var ⟨"x", {}⟩ {}) {}] {}]
    let requests : List Request := [.provide same, .run program,
      .evaluate (.call (.var ⟨"same", {}⟩ {}) [.var r {}] {} {}), .provide late]
    let start : DiagnosticLog × Interpreter Buffer := ({}, .new {})
    let i := (sessionState 9 requests start).2
    (∀ q ∈ requests, q.Tame ∧ q.handlesFunction = false) ∧
      session 9 requests start = [.ok .done, .error ⟨.undefinedVariable "x", {}⟩,
        .ok (.value (.callable (.function 0 ⟨g, [], [], {}⟩))), .ok .done] ∧
      i.machine.store.captured[0]? = some 2 ∧
      (i.machine.store.chain 2).getLast? = some i.globals ∧
      i.machine.store.contains 2 "late" = true := by
  intro r g same late program requests start i
  have htame : same.body.Tame := by
    intro args c hc
    cases args with
    | nil => cases hc
    | cons v args =>
        cases hc
        exact List.mem_cons_self
  have h : ∀ q ∈ requests, q.Tame ∧ q.handlesFunction = false :=
    List.forall_mem_cons.mpr ⟨⟨htame, rfl⟩, List.forall_mem_cons.mpr ⟨⟨trivial, rfl⟩,
      List.forall_mem_cons.mpr ⟨⟨trivial, rfl⟩, List.forall_mem_singleton.mpr ⟨nofun, rfl⟩⟩⟩⟩
  have hsession : session 9 requests start = [.ok .done, .error ⟨.undefinedVariable "x", {}⟩,
      .ok (.value (.callable (.function 0 ⟨g, [], [], {}⟩))), .ok .done] := by cbv
  have hend : .outOfFuel ∉ session 9 requests start := by
    rw [hsession]
    simp
  have hcaptured : i.machine.store.captured[0]? = some 2 := by decide +kernel
  have hlate : "late" ∈ i.machine.store.localNames i.globals := by decide +kernel
  obtain ⟨-, -, -, hheld⟩ := global_scope_is_root ({} : DiagnosticLog) ({} : Buffer) {} none
    requests h 9 hend
  have hanswer : Node.callable (.function 0 ⟨g, [], [], {}⟩) ∈
      (session 9 requests start).flatMap Outcome.nodes := by
    rw [hsession]
    exact List.mem_cons_self
  obtain ⟨-, hchain, hcontains⟩ := hheld 2 (.inr ⟨0, ⟨g, [], [], {}⟩,
    .root (List.mem_cons_of_mem _ hanswer), hcaptured⟩)
  exact ⟨h, hsession, hcaptured, hchain, hcontains "late" hlate⟩

end Scriptlet
