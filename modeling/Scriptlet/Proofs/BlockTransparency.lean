import Mathlib.Data.Nat.Find
import Scriptlet.Proofs.DepthLimit
import Scriptlet.Proofs.GlobalRoot
import Scriptlet.Proofs.RaisedStore
import Scriptlet.Proofs.TopLevel

namespace Scriptlet

variable {σ : Type}

namespace Moment

/-- The second moment belongs to the same program, but run within a block at the top level. -/
structure Wrapped (ground : List (String × CellId)) (inner : List ScopeId) (top : ScopeId)
    (m m' : Moment σ) : Prop where
  eq : m' = m.relocate (· + 1) [.leave 0, .rest []] m'.machine.store
  store : m.machine.store.Raised ground top m'.machine.store
  inUse : m.inUse = inner ++ [top]
  newer : ∀ i ∈ inner, top < i

variable [Sink σ] {m m' : Moment σ} {ground : List (String × CellId)} {inner : List ScopeId}
  {top : ScopeId}

theorem Wrapped.next (h : m.Wrapped ground inner top m') (hm : m.Orderly)
    (hroot : m.machine.store.Rooted 0) (hs : m.Supplied) (hbusy : ¬m.Halted) :
    ∃ inner' top', m.next.Wrapped ground inner' top' m'.next := by
  have hnext : m'.next = m.next.relocate (· + 1) [.leave 0, .rest []]
      (m.event.apply (m.scope + 1) m'.machine.store) :=
    (congrArg Moment.next h.eq).trans (next_relocate (h.store.agrees hm.scope_lt) hbusy)
  have hstore : m'.next.machine.store = m.event.apply (m.scope + 1) m'.machine.store := by
    rw [hnext]
    rfl
  have hwrapped {inner' : List ScopeId} {top' : ScopeId}
      (hraised : (m.event.apply m.scope m.machine.store).Raised ground top'
        (m.event.apply (m.scope + 1) m'.machine.store))
      (hu : m.next.inUse = inner' ++ [top']) (hnewer : ∀ i ∈ inner', top' < i) :
      m.next.Wrapped ground inner' top' m'.next := by
    refine ⟨?_, ?_, hu, hnewer⟩
    · rw [hstore, hnext]
    · rw [hstore, store_next]
      exact hraised
  cases next_levelStep h.inUse with
  | pass hd inner' hu hmem =>
      refine ⟨inner', top, hwrapped (h.store.pass hroot hm.scope_lt hd fun id d args he => ?_) hu
        fun i hi => ?_⟩
      · obtain ⟨paren, hcall, -⟩ := attempt?_of_event_call he
        exact Store.lt_size_captured_of_within (hs.confined.of_attempt? hcall).1
      · rcases hmem i hi with hi | rfl
        · exact h.newer i hi
        · exact h.store.lt
  | inward hd rest hinner hu =>
      obtain ⟨hscope, hrest⟩ := List.forall_mem_cons.mp (hinner ▸ h.newer)
      exact ⟨_, top, hwrapped (h.store.inward hscope hm.scope_lt hd) hu
        (List.forall_mem_cons.mpr ⟨h.store.lt, hrest⟩)⟩
  | advance hd _ hscope hu =>
      refine ⟨[], m.machine.store.scopes.size, hwrapped ?_ hu (List.forall_mem_nil _)⟩
      rw [hscope]
      exact h.store.advance hd

theorem Wrapped.of_halted (h : m.Wrapped ground inner top m') (hm : m.Halted) :
    Moment.next^[2] m' = { m' with focus := m.focus, scope := 0, tasks := [] } ∧
      m'.machine.sink = m.machine.sink := by
  obtain ⟨⟨o, ho⟩, ht⟩ := hm
  have heq := h.eq
  refine ⟨?_, ?_⟩
  · rw [relocate, ho, ht, List.map_nil, List.nil_append] at heq
    rw [heq, ho]
    -- the outcome passes through the tasks at the bottom, be it a value or an error
    cases o <;> rfl
  · rw [heq]
    rfl

end Moment

namespace Interpreter

/-- Nothing has run yet: there is no scope but the global one and no function but those of the
host. -/
structure Unused (i : Interpreter σ) : Prop where
  environment : i.environment = 0
  size_scopes : i.machine.store.scopes.size = 1
  captured : i.machine.store.captured = #[]
  sound : i.Sound
  rooted : i.machine.store.Rooted 0
  supplied : (Session.resting (.ok .nil) i []).moment.Supplied

theorem unused_new (sink : σ) (config : Config) (source : Option Source) :
    (new sink config source).Unused where
  environment := rfl
  size_scopes := rfl
  captured := rfl
  sound := sound_new sink config source
  rooted := rooted_new sink config source
  supplied := Session.supplied_resting_new sink config source []

variable {i : Interpreter σ}

theorem Unused.defineNative (h : i.Unused) {f : HostFunction} (hf : f.body.Tame) :
    (i.defineNative f.name f.arity f.body).Unused where
  environment := h.environment
  size_scopes := (Store.size_scopes_bind _ _ _ _).trans h.size_scopes
  captured := h.captured
  sound := h.sound.defineNative f.name f.arity f.body
  rooted := h.rooted.provide i.globals f
  supplied := (Request.provide f).supplied_opening hf rfl i.globals h.supplied

theorem Unused.equip (h : i.Unused) {natives : List HostFunction}
    (hn : ∀ f ∈ natives, f.body.Tame) : (i.equip natives).Unused := by
  induction natives generalizing i with
  | nil => exact h
  | cons f natives ih =>
      obtain ⟨hf, hn⟩ := List.forall_mem_cons.mp hn
      exact ih (h.defineNative hf) hn

variable [Sink σ]

theorem Unused.wrapped_zero (h : i.Unused) (program : List Stmt) (span : Span) :
    (i.moment program 0).Wrapped (i.machine.store.bindings 0) [] 0
      (i.moment [.block program span] 2) := by
  have henter : i.moment [.block program span] 2 =
      ⟨.done (.ok .nil), i.machine.store.scopes.size,
        [.rest program, .leave i.environment, .rest []],
        { i.machine with store := (i.machine.store.child i.environment).2 }⟩ := rfl
  rw [h.size_scopes, h.environment] at henter
  have hstart : i.moment program 0 = ⟨.done (.ok .nil), 0, [.rest program], i.machine⟩ := by
    rw [moment, h.environment, Function.iterate_zero_apply]
  rw [henter, hstart]
  exact ⟨rfl, Store.raised_child h.rooted h.size_scopes h.captured, rfl, List.forall_mem_nil _⟩

theorem Unused.invariant (h : i.Unused) (program : List Stmt) (t : Nat) :
    (i.moment program t).Orderly ∧ (i.moment program t).machine.store.Rooted 0 ∧
      (i.moment program t).Supplied := by
  induction t with
  | zero =>
      let rest := (Session.resting (.ok .nil) i []).moment
      have hstart : i.moment program 0 = (Request.run program).opening i.globals rest := rfl
      rw [hstart]
      exact ⟨(Request.run program).orderly_opening ⟨⟨_, rfl⟩, rfl⟩
          (Session.orderly_resting (.ok .nil) h.sound []),
        h.rooted, (Request.run program).supplied_opening trivial rfl i.globals h.supplied⟩
  | succ t ih =>
      obtain ⟨hm, hroot, hs⟩ := ih
      rw [moment_succ]
      refine ⟨hm.next, ?_, hs.next⟩
      rw [Moment.store_next]
      exact hroot.apply hm.scope_lt _

theorem Unused.wrapped_moment (h : i.Unused) (program : List Stmt) (span : Span) {t : Nat}
    (hbusy : ∀ u < t, ¬(i.moment program u).Halted) :
    ∃ inner top, (i.moment program t).Wrapped (i.machine.store.bindings 0) inner top
      (i.moment [.block program span] (t + 2)) := by
  induction t with
  | zero => exact ⟨[], 0, h.wrapped_zero program span⟩
  | succ t ih =>
      obtain ⟨inner, top, hwrapped⟩ := ih fun u hu => hbusy u (Nat.lt_succ_of_lt hu)
      obtain ⟨hm, hroot, hs⟩ := h.invariant program t
      rw [moment_succ, Nat.add_right_comm, moment_succ]
      exact hwrapped.next hm hroot hs (hbusy t (Nat.lt_succ_self t))

theorem run_eq_outOfFuel {program : List Stmt} (h : ∀ t, ¬(i.moment program t).Halted)
    (fuel : Nat) : (run fuel program i).1 = .outOfFuel := by
  by_contra hne
  obtain ⟨t, ht⟩ := moment_of_run hne
  apply h t
  rw [ht t (Nat.le_refl t)]
  exact ⟨⟨_, rfl⟩, rfl⟩

theorem Unused.not_halted (h : i.Unused) {program : List Stmt}
    (hbusy : ∀ t, ¬(i.moment program t).Halted) (span : Span) (t : Nat) :
    ¬(i.moment [.block program span] t).Halted := by
  intro hhalted
  obtain ⟨inner, top, hwrapped⟩ := h.wrapped_moment program span fun u (_ : u < t) => hbusy u
  -- it would still be at rest two steps later
  have hlater : (i.moment [.block program span] (t + 2)).tasks = [] := by
    rw [Nat.add_comm, moment_add, hhalted.iterate]
    exact hhalted.2
  rw [hwrapped.eq] at hlater
  simp [Moment.relocate] at hlater

/-- Where a run ends, the run within a block ends the same way. -/
theorem Unused.run_block (h : i.Unused) {program : List Stmt} {t : Nat}
    (ht : (i.moment program t).Halted) (hbusy : ∀ u < t, ¬(i.moment program u).Halted)
    (span : Span) :
    (run (t + 4) [.block program span] i).1 = (run t program i).1 ∧
      (run (t + 4) [.block program span] i).2.machine.sink = (run t program i).2.machine.sink := by
  obtain ⟨inner, top, hwrapped⟩ := h.wrapped_moment program span hbusy
  obtain ⟨hlast, hsink⟩ := hwrapped.of_halted ht
  obtain ⟨-, hplain⟩ := run_of_moment ht
  have hlater : i.moment [.block program span] (t + 4) =
      { i.moment [.block program span] (t + 2) with
        focus := (i.moment program t).focus, scope := 0, tasks := [] } := by
    rw [Nat.add_comm t 4, Nat.add_assoc 2 2 t, moment_add, Nat.add_comm 2 t, hlast]
  have hhalted : (i.moment [.block program span] (t + 4)).Halted := by
    rw [hlater]
    exact ⟨ht.1, rfl⟩
  obtain ⟨-, hblock⟩ := run_of_moment hhalted
  rw [hlater, hplain] at hblock
  rw [hplain] at hsink
  refine ⟨?_, ?_⟩
  · exact (Focus.done.inj (congrArg Moment.focus hblock)).symm
  · exact (congrArg (·.machine.sink) hblock).symm.trans hsink

end Interpreter

/-- Let host functions make no functions. Then on a fresh interpreter a program and the same program
within a block either both run forever or both come to an end, with the same value or the same error
and with the same lines printed. -/
theorem block_around_program_is_transparent [Sink σ] (sink : σ) (config : Config)
    (source : Option Source) (natives : List HostFunction) (hn : ∀ f ∈ natives, f.body.Tame)
    (program : List Stmt) (span : Span) :
    let i := (Interpreter.new sink config source).equip natives
    let plain (fuel : Nat) := Interpreter.run fuel program i
    let wrapped (fuel : Nat) := Interpreter.run fuel [.block program span] i
    (∀ fuel, (plain fuel).1 = .outOfFuel ∧ (wrapped fuel).1 = .outOfFuel) ∨
      ∃ n o printed, o ≠ Outcome.outOfFuel ∧ ∀ fuel ≥ n,
        ((plain fuel).1 = o ∧ (plain fuel).2.machine.sink = printed) ∧
          (wrapped fuel).1 = o ∧ (wrapped fuel).2.machine.sink = printed := by
  intro i plain wrapped
  have hi : i.Unused := (Interpreter.unused_new sink config source).equip hn
  by_cases hend : ∃ t, (i.moment program t).Halted
  · classical
    -- up to the first halt the two runs are in step
    have hhalted := Nat.find_spec hend
    have hbusy : ∀ u < Nat.find hend, ¬(i.moment program u).Halted := fun u => Nat.find_min hend
    generalize Nat.find hend = t at hhalted hbusy
    obtain ⟨hfuel, -⟩ := Interpreter.run_of_moment hhalted
    obtain ⟨houtcome, hsink⟩ := hi.run_block hhalted hbusy span
    refine .inr ⟨t + 4, (plain t).1, (plain t).2.machine.sink, hfuel, fun fuel hle => ?_⟩
    have hplain : plain fuel = plain t :=
      (Interpreter.run_approximates (by omega) program i).resolve_left hfuel
    have hwrapped : wrapped fuel = wrapped (t + 4) :=
      (Interpreter.run_approximates hle [.block program span] i).resolve_left (houtcome ▸ hfuel)
    rw [hplain, hwrapped]
    exact ⟨⟨rfl, rfl⟩, houtcome, hsink⟩
  · rw [not_exists] at hend
    exact .inl fun fuel => ⟨Interpreter.run_eq_outOfFuel hend fuel,
      Interpreter.run_eq_outOfFuel (hi.not_halted hend span) fuel⟩

/-- A function at the top level and one in a block see variables of one name, which is then declared
anew, and the host hands the first function back. -/
theorem block_around_program_is_transparent_shadowed_variable :
    let x : Ident := ⟨"x", {}⟩
    let f : Ident := ⟨"f", {}⟩
    let g : Ident := ⟨"g", {}⟩
    let same : HostFunction := ⟨"same", 1, fun args => .ok (args.headD .nil)⟩
    let declare (text : String) : Stmt := .declare x (some (.literal (.string text) {})) {}
    let say : Stmt := .print (.var x {}) {}
    let program : List Stmt := [declare "outer", .function f [] [say] {} {},
      .block [declare "inner", .function g [] [say] {} {},
        .expr (.call (.var g {}) [] {} {}) {}] {},
      declare "later", .expr (.call (.var f {}) [] {} {}) {}, say,
      .expr (.call (.var ⟨"same", {}⟩ {}) [.var f {}] {} {}) {}]
    let i := (Interpreter.new ({} : Buffer)).equip [same]
    let value : Value := .callable (.function 0 ⟨f, [], [say], {}⟩)
    (∀ f ∈ [same], f.body.Tame) ∧ (Interpreter.run 9 program i).1 = .ok value ∧
      ∃ n, ∀ fuel ≥ n, (Interpreter.run fuel [.block program {}] i).1 = .ok value ∧
        (Interpreter.run fuel [.block program {}] i).2.machine.sink.lines =
          #["inner", "outer", "later"] := by
  intro x f g same declare say program i value
  have hn : ∀ f ∈ [same], f.body.Tame := by
    refine List.forall_mem_singleton.mpr fun args c hc => ?_
    cases args with
    | nil => cases hc
    | cons v args =>
        cases hc
        exact List.mem_cons_self
  have hvalue : (Interpreter.run 9 program i).1 = .ok value := by cbv
  have hlines : (Interpreter.run 9 program i).2.machine.sink.lines =
      #["inner", "outer", "later"] := by decide +kernel
  have hfuel : (Interpreter.run 9 program i).1 ≠ .outOfFuel := hvalue ▸ Outcome.ok_ne_outOfFuel _
  refine ⟨hn, hvalue, ?_⟩
  rcases block_around_program_is_transparent ({} : Buffer) {} none [same] hn program {} with
    hnever | ⟨n, o, printed, -, hend⟩
  · exact absurd (hnever 9).1 hfuel
  · have hplain :=
      (Interpreter.run_approximates (Nat.le_max_right n 9) program i).resolve_left hfuel
    obtain ⟨⟨ho, hprinted⟩, -⟩ := hend (max n 9) (Nat.le_max_left n 9)
    have ho' := (congrArg Prod.fst hplain).symm.trans ho
    have hprinted' := (congrArg (·.2.machine.sink) hplain).symm.trans hprinted
    refine ⟨n, fun fuel hle => ?_⟩
    obtain ⟨-, houtcome, hsink⟩ := hend fuel hle
    exact ⟨houtcome.trans (ho'.symm.trans hvalue),
      (congrArg Buffer.lines (hsink.trans hprinted'.symm)).trans hlines⟩

end Scriptlet
