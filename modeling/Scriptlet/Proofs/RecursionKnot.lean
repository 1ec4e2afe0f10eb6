import Mathlib
import Scriptlet.Proofs.BodyScopes

namespace Scriptlet

variable {σ ρ : Type}

structure Moment.Sealed (i : ScopeId) (bindings : List (String × CellId)) (m : Moment σ) :
    Prop where
  lt : i < m.machine.store.scopes.size
  out : i ∉ m.inUse
  bindings_eq : m.machine.store.bindings i = bindings

variable {m : Moment σ} {i : ScopeId} {bindings : List (String × CellId)}

theorem Moment.Sealed.opening (h : m.Sealed i bindings) (hm : m.Halted) (globals : ScopeId)
    {request : Request} (hr : request.isEvaluation = true) :
    (request.opening globals m).Sealed i bindings := by
  have hmachine : (request.opening globals m).machine = m.machine := Request.machine_opening hr
  refine ⟨?_, ?_, ?_⟩
  · rw [hmachine]
    exact h.lt
  · rw [request.inUse_opening hm]
    exact h.out
  · rw [hmachine]
    exact h.bindings_eq

variable [Sink σ]

namespace Moment

theorem Sealed.next (h : m.Sealed i bindings) : m.next.Sealed i bindings where
  lt := Nat.lt_of_lt_of_le h.lt m.evolves_next.scopes
  out := not_inUse_next h.lt h.out
  bindings_eq := by
    have hne : i ≠ m.scope := fun he => h.out (he ▸ List.mem_cons_self)
    rw [m.bindings_next h.lt (.inr hne), h.bindings_eq]

/-- What a function statement leaves behind. -/
structure Ties (scope : ScopeId) (d : Declaration) (s : Store) (m : Moment σ) : Prop where
  focus : m.focus = .done (.ok (.callable (.function s.captured.size d)))
  captured : m.machine.store.captured[s.captured.size]? = some scope
  cell : m.machine.store.cells[s.cells.size]? =
    some (.callable (.function s.captured.size d))
  closed : m.Sealed scope ((d.name.name, s.cells.size) :: s.bindings scope)

theorem next_ties (hm : m.Orderly) {f : Ident} {params : List Ident} {body : List Stmt}
    {declSpan span : Span} (hf : m.focus = .stmt (.function f params body declSpan span)) :
    m.next.Ties m.scope ⟨f, params, body, declSpan⟩ m.machine.store := by
  have hd : m.declaration? = some f.name := by simp only [declaration?, hf]
  have hnext : m.next = m.start (.function f params body declSpan span) := by
    rw [Moment.next, hf]
  refine ⟨?_, ?_, ?_, ?_, declaration_not_inUse hm hd, ?_⟩
  · rw [hnext]
    rfl
  · rw [hnext]
    exact Array.getElem?_push_size
  · rw [hnext]
    exact Array.getElem?_push_size
  · exact Nat.lt_of_lt_of_le hm.scope_lt m.evolves_next.scopes
  · rw [hnext]
    exact Store.bindings_define _ f.name _ hm.scope_lt (.inl rfl)

end Moment

namespace Session

variable {s : Session σ}

theorem lt_last_of_focus [Reporter ρ] {o : Outcome Value} {fuel : Nat} {requests : List Request}
    {r : ρ × Interpreter σ} (h : .outOfFuel ∉ session fuel requests r) {t : Nat}
    (hf : ∀ o', ((resting o r.2 requests).after t).moment.focus ≠ .done o') :
    ∃ last > t, ∃ o', ∀ w ≥ last, (resting o r.2 requests).after w =
      resting o' (sessionState fuel requests r).2 [] := by
  obtain ⟨last, o', hlast, -⟩ := after_session fuel requests [] o r h
  rw [List.append_nil] at hlast
  have hstay : ∀ w ≥ last, (resting o r.2 requests).after w =
      resting o' (sessionState fuel requests r).2 [] := by
    intro w hw
    rw [← Nat.sub_add_cancel hw, after_add, hlast, after_resting]
  refine ⟨last, Nat.lt_of_not_le fun hle => ?_, o', hstay⟩
  exact hf o' (congrArg (fun s => s.moment.focus) (hstay t hle))

section

variable (hs : ∀ q ∈ s.requests, q.isEvaluation = true)

include hs

theorem evolves_after (u : Nat) :
    s.moment.machine.store.Evolves (s.after u).moment.machine.store := by
  apply s.after_induction (P := fun m => s.moment.machine.store.Evolves m.machine.store) (.refl _)
  · exact fun m h => h.trans m.evolves_next
  · intro request hr m _ h
    rw [Request.machine_opening (hs request hr)]
    exact h

theorem sealed_after (h : s.moment.Sealed i bindings) (u : Nat) :
    (s.after u).moment.Sealed i bindings :=
  s.after_induction h (fun _ hm => hm.next)
    (fun request hr _ hm h => h.opening hm s.globals (hs request hr)) u

theorem isEvaluation_after (u : Nat) : ∀ q ∈ (s.after u).requests, q.isEvaluation = true :=
  fun q hq => hs q ((s.requests_after_suffix u).subset hq)

theorem getElem?_cells_after {c : CellId} (hc : c < s.moment.machine.store.cells.size) {u : Nat}
    (h : ∀ v < u, (s.after v).moment.overwrites? ≠ some c) :
    (s.after u).moment.machine.store.cells[c]? = s.moment.machine.store.cells[c]? := by
  induction u with
  | zero => rfl
  | succ u ih =>
      rw [← ih fun v hv => h v (Nat.lt_succ_of_lt hv), after_succ]
      rcases (s.after u).next_cases with hn | ⟨request, requests, -, hr, hn⟩
      · rw [hn]
        exact Moment.getElem?_cells_next (Nat.lt_of_lt_of_le hc (evolves_after hs u).cells)
          (h u (Nat.lt_succ_self u))
      · rw [hn]
        have heval := isEvaluation_after hs u request (hr ▸ List.mem_cons_self)
        rw [Request.machine_opening heval]

end

end Session

/-- A function statement is executed at time `t` of a session, and from then on the host leaves the
store to the programs. Then the list of the scope that the function captures is final and begins
with the function's own variable, to which the name is tied there. As long as nobody overwrites that
variable, the name stands for the very function, there and wherever the function's own code works
and has not declared the name again. -/
theorem recursion_knot_is_tied [Reporter ρ] (i : Interpreter σ) (hi : i.Sound)
    (requests : List Request) (t : Nat) (f : Ident) (params : List Ident) (body : List Stmt)
    (declSpan span : Span)
    (hf : ((Session.resting (.ok .nil) i requests).after t).moment.focus =
      .stmt (.function f params body declSpan span))
    (hs : ∀ q ∈ ((Session.resting (.ok .nil) i requests).after t).requests,
      q.isEvaluation = true) :
    let s := Session.resting (.ok .nil) i requests
    let store (u : Nat) := (s.after u).moment.machine.store
    let scope := (s.after t).moment.scope
    let cell := (store t).cells.size
    let id := (store t).captured.size
    let g : Value := .callable (.function id ⟨f, params, body, declSpan⟩)
    let Kept (u : Nat) := ∀ v, t < v → v < u → (s.after v).moment.overwrites? ≠ some cell
    (s.after (t + 1)).moment.focus = .done (.ok g) ∧
      (∀ u > t, (store u).capturedScope id = scope ∧
        (store u).bindings scope = (f.name, cell) :: (store t).bindings scope ∧
        (store u).resolve scope f.name = some cell ∧
        (Kept u → (store u).get? scope f.name = some g)) ∧
      (∀ u > t, ∀ d args, (s.after u).moment.event = .call id d args → ∀ w, s.RunsBody u w →
        ∃ inner outer, (store w).chain (s.after w).moment.scope = inner ++ scope :: outer ∧
          (∀ j ∈ inner, (store u).scopes.size ≤ j) ∧
          ((∀ j ∈ inner, ((store w).bindings j).lookup f.name = none) → Kept w →
            (store w).get? (s.after w).moment.scope f.name = some g)) ∧
      ∀ fuel (reporter : ρ), .outOfFuel ∉ session fuel requests (reporter, i) →
        ∃ last > t, ∃ o, ∀ w ≥ last,
          s.after w = .resting o (sessionState fuel requests (reporter, i)).2 [] := by
  intro s store scope cell id g Kept
  change (s.after t).moment.focus = _ at hf
  change ∀ q ∈ (s.after t).requests, _ at hs
  have horderly (u : Nat) : (s.after u).moment.Orderly :=
    Session.orderly_after (Session.orderly_resting (.ok .nil) hi requests) u
  have hbusy : ¬(s.after t).moment.Halted := by
    rintro ⟨⟨o, ho⟩, -⟩
    exact absurd (hf.symm.trans ho) (Focus.stmt_ne_done _ o)
  have hties : (s.after (t + 1)).moment.Ties scope ⟨f, params, body, declSpan⟩ (store t) := by
    rw [Session.moment_after_succ hbusy]
    exact Moment.next_ties (horderly t) hf
  have hafter {u v : Nat} (huv : u ≤ v) : s.after v = (s.after u).after (v - u) := by
    rw [← Session.after_add, Nat.sub_add_cancel huv]
  have hlater {u : Nat} (hu : u ≥ t) : ∀ q ∈ (s.after u).requests, q.isEvaluation = true := by
    rw [hafter hu]
    exact Session.isEvaluation_after hs _
  have hevolves {u v : Nat} (hu : u ≥ t) (huv : u ≤ v) : (store u).Evolves (store v) := by
    dsimp only [store]
    rw [hafter huv]
    exact Session.evolves_after (hlater hu) _
  have hsealed {u : Nat} (hu : u > t) :
      (s.after u).moment.Sealed scope ((f.name, cell) :: (store t).bindings scope) := by
    rw [hafter hu]
    exact Session.sealed_after (hlater (Nat.le_succ t)) hties.closed _
  have hcaptured {u : Nat} (hu : u > t) : (store u).capturedScope id = scope :=
    (hevolves (Nat.le_succ t) hu).capturedScope_eq hties.captured
  have hcell {u : Nat} (hu : u > t) (hkept : Kept u) : (store u).cells[cell]? = some g := by
    have hlt : cell < (store (t + 1)).cells.size := (Array.getElem?_eq_some_iff.mp hties.cell).1
    dsimp only [store]
    rw [hafter hu, Session.getElem?_cells_after (hlater (Nat.le_succ t)) hlt fun v hv => ?_]
    · exact hties.cell
    · rw [← Session.after_add]
      exact hkept _ (by omega) (by omega)
  have hresolve {u : Nat} (hu : u > t) {j : ScopeId} {inner outer : List ScopeId}
      (hchain : (store u).chain j = inner ++ scope :: outer)
      (hinner : ∀ k ∈ inner, ((store u).bindings k).lookup f.name = none) :
      (store u).resolve j f.name = some cell := by
    apply Store.resolve_of_chain hchain hinner
    rw [(hsealed hu).bindings_eq, List.lookup_cons_self]
  have hget {u : Nat} (hu : u > t) (hkept : Kept u) {j : ScopeId}
      (hj : (store u).resolve j f.name = some cell) : (store u).get? j f.name = some g := by
    rw [Store.get?, hj]
    exact hcell hu hkept
  have hown {u : Nat} (hu : u > t) : (store u).resolve scope f.name = some cell := by
    have hchain := (Store.chain_eq (store u) scope).trans (List.nil_append _).symm
    exact hresolve hu hchain (List.forall_mem_nil _)
  refine ⟨hties.focus, fun u hu => ⟨hcaptured hu, (hsealed hu).bindings_eq, hown hu,
    fun hkept => hget hu hkept (hown hu)⟩, fun u hu d args hcall w hbody => ?_,
    fun fuel reporter hend => ?_⟩
  · have hid : (store u).capturedScope id < (store u).scopes.size := by
      rw [hcaptured hu]
      exact (hsealed hu).lt
    obtain ⟨inner, outer, hchain, hinner⟩ := hbody.exists_chain_eq (horderly 0) hcall hid
    rw [hcaptured hu] at hchain
    have hw : w > t := Nat.lt_trans hu hbody.later
    exact ⟨inner, outer, hchain, hinner, fun hshadow hkept =>
      hget hw hkept (hresolve hw hchain hshadow)⟩
  · exact Session.lt_last_of_focus hend fun o => by
      rw [hf]
      exact Focus.stmt_ne_done _ o

/-- A function that only a variable further out still knows is called by a later request, and comes
upon its own name in a block behind a declaration. -/
theorem recursion_knot_is_tied_nested_block :
    let r : Ident := ⟨"r", {}⟩
    let f : Ident := ⟨"f", {}⟩
    let body : List Stmt := [.block [.declare ⟨"x", {}⟩ none {}, .expr (.var f {}) {}] {}]
    let program : List Stmt := [.declare r none {},
      .block [.function f [] body {} {}, .expr (.assign r (.var f {}) {}) {}] {}]
    let requests : List Request := [.run program, .evaluate (.call (.var r {}) [] {} {})]
    let s := Session.resting (.ok .nil) (Interpreter.new ({} : Buffer)) requests
    (s.after 6).moment.focus = .stmt (.function f [] body {} {}) ∧
      (∀ q ∈ (s.after 6).requests, q.isEvaluation = true) ∧
      s.RunsBody 18 25 ∧ (s.after 25).moment.focus = .expr (.var f {}) ∧
      (s.after 25).moment.machine.store.get? (s.after 25).moment.scope f.name =
        some (.callable (.function 0 ⟨f, [], body, {}⟩)) := by
  intro r f body program requests s
  have hf : (s.after 6).moment.focus = .stmt (.function f [] body {} {}) := rfl
  have hs : ∀ q ∈ (s.after 6).requests, q.isEvaluation = true := List.forall_mem_singleton.mpr rfl
  have hid : (s.after 6).moment.machine.store.captured.size = 0 := by decide +kernel
  have hcell : (s.after 6).moment.machine.store.cells.size = 1 := by decide +kernel
  have hcall : (s.after 18).moment.event = .call 0 ⟨f, [], body, {}⟩ [] := by cbv
  have hfocus : (s.after 25).moment.focus = .expr (.var f {}) := by cbv
  have hbody : s.RunsBody 18 25 := by
    refine ⟨by decide, ?_, ?_⟩
    · have hactive : ∀ v < 26, 18 < v →
          (s.after 18).moment.active < (s.after v).moment.active := by decide +kernel
      exact fun v hv hle => hactive v (Nat.lt_succ_of_le hle) hv
    · decide +kernel
  have hkept : ∀ v < 25, 6 < v → (s.after v).moment.overwrites? ≠ some 1 := by decide +kernel
  have hnone : ∀ j ∈ (s.after 25).moment.machine.store.chain (s.after 25).moment.scope,
      (s.after 18).moment.machine.store.scopes.size ≤ j →
        ((s.after 25).moment.machine.store.bindings j).lookup f.name = none := by decide +kernel
  have hknot := recursion_knot_is_tied (ρ := DiagnosticLog) (Interpreter.new ({} : Buffer))
    (Interpreter.sound_new _ _ _) requests 6 f [] body {} {} hf hs
  have hsession : Session.resting (.ok .nil) (Interpreter.new ({} : Buffer)) requests = s := rfl
  dsimp only at hknot
  rw [hsession, hid, hcell] at hknot
  obtain ⟨inner, outer, hchain, hinner, hsees⟩ :=
    hknot.2.2.1 18 (by decide) _ [] hcall 25 hbody
  refine ⟨hf, hs, hbody, hfocus, hsees (fun j hj => ?_) fun v hv hlt => hkept v hlt hv⟩
  refine hnone j ?_ (hinner j hj)
  rw [hchain]
  exact List.mem_append_left _ hj

end Scriptlet
