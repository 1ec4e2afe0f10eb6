import Scriptlet.Proofs.ScopeForest
import Scriptlet.Proofs.SessionMoments
import Scriptlet.Proofs.StoreEvents

namespace Scriptlet

namespace Store

structure Rooted (root : ScopeId) (s : Store) : Prop extends s.Grounded where
  lt : root < s.scopes.size
  enclosing?_eq_none_iff : ∀ i < s.scopes.size, s.enclosing? i = none ↔ i = root

variable {s : Store} {root i : ScopeId}

namespace Rooted

theorem parent?_root (h : s.Rooted root) : s.parent? root = none :=
  (h.parent?_eq root).trans ((h.enclosing?_eq_none_iff root h.lt).mpr rfl)

theorem scope_lt (h : s.Rooted root) (id : FunctionId) : s.capturedScope id < s.scopes.size :=
  h.capturedScope_lt (Nat.zero_lt_of_lt h.lt) id

theorem chain_root (h : s.Rooted root) : s.chain root = [root] := by
  rw [chain_eq, h.parent?_root, Option.elim_none]

/-- The way out from any scope ends at the root. -/
theorem getLast?_chain (h : s.Rooted root) (hi : i < s.scopes.size) :
    (s.chain i).getLast? = some root := by
  induction i using Nat.strongRecOn with
  | ind i ih =>
      rw [chain_eq, h.parent?_eq]
      cases hp : s.enclosing? i with
      | none =>
          rw [Option.elim_none, List.getLast?_singleton, (h.enclosing?_eq_none_iff i hi).mp hp]
      | some p =>
          have hlt := h.older i p hp
          have hlast := ih p hlt (Nat.lt_trans hlt hi)
          rw [Option.elim_some, List.getLast?_cons, hlast, Option.getD_some]

theorem root_mem_chain (h : s.Rooted root) (hi : i < s.scopes.size) : root ∈ s.chain i :=
  List.mem_of_getLast? (h.getLast?_chain hi)

theorem contains (h : s.Rooted root) (hi : i < s.scopes.size) {name : String}
    (hname : name ∈ s.localNames root) : s.contains i name = true := by
  rw [Store.contains, resolve_eq_findSome?, List.findSome?_isSome_iff]
  refine ⟨root, h.root_mem_chain hi, ?_⟩
  obtain ⟨b, hb, rfl⟩ := List.mem_map.mp hname
  rw [Option.isSome_iff_ne_none]
  intro hnone
  have hne := List.lookup_eq_none_iff.mp hnone b hb
  simp at hne

theorem bind (h : s.Rooted root) (i : ScopeId) (name : String) (v : Value) :
    (s.bind i name v).Rooted root where
  toGrounded := (s.accrues_bind i name v).grounded h.toGrounded
  lt := by
    rw [size_scopes_bind]
    exact h.lt
  enclosing?_eq_none_iff j hj := by
    rw [size_scopes_bind] at hj
    rw [enclosing?_bind]
    exact h.enclosing?_eq_none_iff j hj

theorem addScope (h : s.Rooted root) {bs : List (String × CellId)}
    (hbs : ∀ b ∈ bs, b.2 < s.cells.size) (hi : i < s.scopes.size) :
    (s.addScope bs (some i)).2.Rooted root where
  toGrounded := by
    refine (s.accrues_addScope (fun _ => hbs) ?_).grounded h.toGrounded
    rintro p ⟨⟩
    exact hi
  lt := by
    rw [size_scopes_addScope]
    exact Nat.lt_succ_of_lt h.lt
  enclosing?_eq_none_iff j hj := by
    rw [size_scopes_addScope] at hj
    rw [enclosing?_addScope]
    by_cases hnew : j = s.scopes.size
    · subst hnew
      simp [Nat.ne_of_gt h.lt]
    · rw [if_neg hnew]
      exact h.enclosing?_eq_none_iff j (Nat.lt_of_le_of_ne (Nat.le_of_lt_succ hj) hnew)

theorem child (h : s.Rooted root) (hi : i < s.scopes.size) : (s.child i).2.Rooted root :=
  h.addScope nofun hi

theorem define (h : s.Rooted root) (hi : i < s.scopes.size) (name : String) (v : Value) :
    (s.define i name v).2.Rooted root :=
  (h.bind i name v).addScope ((h.bind i name v).backed i) (by rwa [size_scopes_bind])

theorem frame (h : s.Rooted root) (hi : i < s.scopes.size) (params : List Ident)
    (args : List Value) : (s.frame i params args).2.Rooted root :=
  s.frame_induction i params args (h.child hi) fun _ b _ ht => ht.bind _ b.1.name b.2

theorem addFunction (h : s.Rooted root) (d : Declaration) (hi : i < s.scopes.size) :
    (s.addFunction d i).2.Rooted root :=
  ⟨(s.accrues_addFunction d hi).grounded h.toGrounded, h.lt, h.enclosing?_eq_none_iff⟩

theorem provide (h : s.Rooted root) (globals : ScopeId) (f : HostFunction) :
    (s.provide globals f).Rooted root := by
  have hadd : (s.addNative f.name f.arity f.body).2.Rooted root :=
    ⟨(s.accrues_addNative f.name f.arity f.body).grounded h.toGrounded, h.lt,
      h.enclosing?_eq_none_iff⟩
  exact hadd.bind globals f.name _

theorem apply (h : s.Rooted root) {scope : ScopeId} (hscope : scope < s.scopes.size)
    (e : Event) : (e.apply scope s).Rooted root := by
  cases e with
  | none => exact h
  | assign name v =>
      simp only [Event.apply]
      cases s.resolve scope name with
      | none => exact h
      | some c =>
          exact ⟨(s.accrues_set c v).grounded h.toGrounded, h.lt, h.enclosing?_eq_none_iff⟩
  | block => exact h.child hscope
  | call id d args => exact h.frame (h.scope_lt id) d.params args
  | declare name v => exact h.define hscope name v
  | function d => exact (h.addFunction d hscope).define hscope d.name.name _

end Rooted

end Store

variable {σ : Type}

theorem Request.rooted_opening {request : Request} (h : request.handlesFunction = false)
    {m : Moment σ} {root : ScopeId} (hm : m.machine.store.Rooted root) (globals : ScopeId) :
    (request.opening globals m).machine.store.Rooted root := by
  cases request with
  | run | interpret | evaluate => exact hm
  | provide f => exact hm.provide globals f
  | function | native | rebind => cases h

theorem Interpreter.rooted_new (sink : σ) (config : Config) (source : Option Source) :
    (new sink config source).machine.store.Rooted (new sink config source).globals where
  toGrounded := (Store.accrues_global {}).grounded .empty
  lt := by simp [new, Store.global]
  enclosing?_eq_none_iff i hi := by
    have hzero : i = 0 := by simpa [new, Store.global] using hi
    subst hzero
    exact iff_of_true rfl rfl

theorem Session.rooted_after [Sink σ] {s : Session σ} (hs : s.moment.Orderly)
    (hr : ∀ q ∈ s.requests, q.handlesFunction = false) {root : ScopeId}
    (h : s.moment.machine.store.Rooted root) (t : Nat) :
    (s.after t).moment.machine.store.Rooted root := by
  suffices (s.after t).moment.Orderly ∧ (s.after t).moment.machine.store.Rooted root from this.2
  apply s.after_induction (P := fun m => m.Orderly ∧ m.machine.store.Rooted root) ⟨hs, h⟩
  · rintro m ⟨hm, h⟩
    refine ⟨hm.next, ?_⟩
    rw [Moment.store_next]
    exact h.apply hm.scope_lt m.event
  · rintro request hq m halted ⟨hm, h⟩
    exact ⟨request.orderly_opening halted hm, Request.rooted_opening (hr request hq) h s.globals⟩

end Scriptlet
