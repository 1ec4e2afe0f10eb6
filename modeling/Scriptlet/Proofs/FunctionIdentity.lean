import Mathlib
import Scriptlet.Proofs.CallableOrigins
import Scriptlet.Proofs.ParameterBinding

namespace Scriptlet

variable {σ ρ : Type} {f g : Callable}

def Callable.identity : Callable → FunctionId ⊕ NativeId
  | .function id _ => .inl id
  | .native id _ _ => .inr id

theorem Value.callable_beq_iff :
    (Value.callable f == Value.callable g) = true ↔ f.identity = g.identity := by
  change f.same g = true ↔ _
  cases f <;> cases g <;> simp [Callable.same, Callable.identity]

theorem Value.callable_beq_equivalence :
    Equivalence fun f g : Callable => (Value.callable f == Value.callable g) = true := by
  simp only [callable_beq_iff]
  exact ⟨fun _ => rfl, Eq.symm, Eq.trans⟩

namespace Store

variable {s : Store}

def Knows (s : Store) : FunctionId ⊕ NativeId → Prop
  | .inl id => id < s.captured.size
  | .inr id => id < s.natives.size

/-- The scope in which the bodies of a function are run. -/
def captures? (s : Store) : Callable → Option ScopeId
  | .function id _ => s.captured[id]?
  | .native .. => none

theorem captures?_rebind {id : FunctionId} (hid : id < s.captured.size) (d : Declaration)
    (scope : ScopeId) (g : Callable) :
    (s.rebind id scope).captures? g =
      if Value.callable (.function id d) == Value.callable g then some scope
      else s.captures? g := by
  cases g with
  | native => rfl
  | function id' d' =>
      simp only [captures?, rebind, Array.getElem?_setIfInBounds, hid, if_true,
        Value.callable_beq_iff, Callable.identity, Sum.inl.injEq]

theorem captures?_addFunction (s : Store) (d : Declaration) (scope : ScopeId) :
    (s.addFunction d scope).2.captures? (.function s.captured.size d) = some scope :=
  Array.getElem?_push_size

theorem nativeBody_addNative (s : Store) (name : String) (arity : Nat) (body : NativeBody) :
    (s.addNative name arity body).2.nativeBody s.natives.size = body := by
  change (s.natives.push body).getD s.natives.size _ = body
  rw [Array.getD_eq_getD_getElem?, Array.getElem?_push_size, Option.getD_some]

theorem get?_bind_self {i : ScopeId} (hi : i < s.scopes.size) (name : String) (v : Value) :
    (s.bind i name v).get? i name = some v := by
  rw [get?, resolve_eq, bindings_bind, if_pos ⟨rfl, hi⟩, List.lookup_cons_self, Option.some_or,
    Option.bind_some, cells_bind, Array.getElem?_push_size]

end Store

namespace Session

variable {s : Session σ} [Sink σ]

theorem knows_mono (s : Session σ) {t u : Nat} (htu : t ≤ u) {number : FunctionId ⊕ NativeId}
    (h : (s.after t).moment.machine.store.Knows number) :
    (s.after u).moment.machine.store.Knows number := by
  cases number with
  | inl id => exact Nat.lt_of_lt_of_le h (s.size_captured_mono htu)
  | inr id => exact Nat.lt_of_lt_of_le h (s.size_natives_mono htu)

theorem knows_of_makes? (h : s.makes? = some f) :
    ¬s.moment.machine.store.Knows f.identity ∧
      s.next.moment.machine.store.Knows f.identity := by
  rcases Option.or_eq_some_iff.mp h with hrequest | ⟨-, hmakes⟩
  · obtain ⟨request, hbegins, hf⟩ := Option.bind_eq_some_iff.mp hrequest
    obtain ⟨hm, requests, hr⟩ := begins?_eq_some_iff.mp hbegins
    rw [next_of_halted hm hr]
    cases request with
    | provide g | native g =>
        cases hf
        refine ⟨Nat.lt_irrefl _, Nat.lt_of_lt_of_eq (Nat.lt_succ_self _) ?_⟩
        exact (Array.size_push g.body).symm
    | function d scope =>
        cases hf
        refine ⟨Nat.lt_irrefl _, Nat.lt_of_lt_of_eq (Nat.lt_succ_self _) ?_⟩
        exact (Array.size_push scope).symm
    | run | interpret | evaluate | rebind => cases hf
  · obtain ⟨-, -, -, hcaptured, d, rfl⟩ := Moment.next_of_makes? hmakes
    rw [next_of_not_halted (Moment.not_halted_of_makes? hmakes)]
    refine ⟨Nat.lt_irrefl _, ?_⟩
    simp only [Store.Knows, Callable.identity, hcaptured, Array.size_push]
    exact Nat.lt_succ_self _

variable {t u w : Nat}

theorem identity_ne_of_makes? (huw : u < w) (hf : (s.after u).makes? = some f)
    (hg : (s.after w).makes? = some g) : f.identity ≠ g.identity := by
  have hknown := (knows_of_makes? hf).2
  rw [← after_succ] at hknown
  intro he
  exact (knows_of_makes? hg).1 (he ▸ s.knows_mono huw hknown)

theorem eq_of_makes? (hf : (s.after u).makes? = some f) (hg : (s.after w).makes? = some g)
    (h : f.identity = g.identity) : f = g := by
  rcases Nat.lt_trichotomy u w with huw | rfl | hwu
  · exact absurd h (identity_ne_of_makes? huw hf hg)
  · exact Option.some.inj (hf.symm.trans hg)
  · exact absurd h.symm (identity_ne_of_makes? hwu hg hf)

section

variable (hs : s.Honest) (hnone : ∀ f, ¬s.moment.AtHand f)

include hs hnone

theorem knows_of_atHand (h : (s.after t).moment.AtHand f) :
    (s.after t).moment.machine.store.Knows f.identity := by
  obtain ⟨u, hu, hf⟩ := exists_makes?_of_atHand hs hnone h
  have hknown := (knows_of_makes? hf).2
  rw [← after_succ] at hknown
  exact s.knows_mono hu hknown

theorem eq_of_beq (hf : (s.after t).moment.AtHand f) (hg : (s.after u).moment.AtHand g)
    (h : (Value.callable f == Value.callable g) = true) : f = g := by
  obtain ⟨_, -, hf⟩ := exists_makes?_of_atHand hs hnone hf
  obtain ⟨_, -, hg⟩ := exists_makes?_of_atHand hs hnone hg
  exact eq_of_makes? hf hg (Value.callable_beq_iff.mp h)

theorem beq_eq_false_of_makes? (hf : (s.after t).makes? = some f) (hut : u ≤ t)
    (hg : (s.after u).moment.AtHand g) : (Value.callable f == Value.callable g) = false := by
  obtain ⟨w, hw, hg⟩ := exists_makes?_of_atHand hs hnone hg
  rw [Bool.eq_false_iff, ne_eq, Value.callable_beq_iff]
  exact (identity_ne_of_makes? (Nat.lt_of_lt_of_le hw hut) hg hf).symm

end

end Session

/-- A function that is read, assigned, declared or given as an argument, or with which a logical
operator, a block, a body or a host function ends, comes through the step from `m` to `m'` as what
it is. The operand of a logical or conditional operator that is evaluated last delivers its value to
those who wait for the value of the whole. -/
structure Moment.PassesOn (m m' : Moment σ) (f : Callable) : Prop where
  read : ∀ x span, m.focus = .expr (.var x span) →
    m.machine.store.get? m.scope x.name = some (.callable f) →
      m'.focus = .done (.ok (.callable f))
  assign : ∀ x tasks, m.focus = .done (.ok (.callable f)) → m.tasks = .assign x :: tasks →
    m.machine.store.contains m.scope x.name = true →
      m'.focus = .done (.ok (.callable f)) ∧
        m'.machine.store.get? m'.scope x.name = some (.callable f)
  declare : ∀ name tasks, m.focus = .done (.ok (.callable f)) → m.tasks = .declare name :: tasks →
    m'.focus = .done (.ok (.callable f)) ∧ m'.machine.store.get? m'.scope name = some (.callable f)
  argument : ∀ id d args x (k : Nat), m.event = .call id d args → args[k]? = some (.callable f) →
    (d.params.map Ident.name)[k]? = some x →
    (∀ l > k, (d.params.map Ident.name)[l]? ≠ some x) →
      m'.machine.store.get? m'.scope x = some (.callable f)
  settle : ∀ op r tasks, m.focus = .done (.ok (.callable f)) → m.tasks = .logical op r :: tasks →
    op.isSettledBy (.callable f) = true → m'.focus = .done (.ok (.callable f)) ∧ m'.tasks = tasks
  right : ∀ v op r tasks, m.focus = .done (.ok v) → m.tasks = .logical op r :: tasks →
    op.isSettledBy v = false → m'.focus = .expr r ∧ m'.tasks = tasks
  choose : ∀ v t e tasks, m.focus = .done (.ok v) → m.tasks = .choose t e :: tasks →
    m'.focus = .expr (if v.isTruthy then t else e) ∧ m'.tasks = tasks
  result : ∀ task tasks, m.focus = .done (.ok (.callable f)) → m.tasks = task :: tasks →
    (task = .rest [] ∨ task.scope?.isSome) →
      m'.focus = .done (.ok (.callable f)) ∧ m'.tasks = tasks
  native : m.handsBack? = some f → m'.focus = .done (.ok (.callable f))

theorem Session.not_atHand_new (sink : σ) (config : Config) (source : Option Source)
    (requests : List Request) (f : Callable) :
    ¬(resting (.ok .nil) (Interpreter.new sink config source) requests).moment.AtHand f := by
  rintro (⟨c, hc⟩ | hf | ⟨task, ht, -⟩)
  · cases hc
  · cases hf
  · cases ht

namespace Moment

variable {m m' : Moment σ}

theorem not_halted_of_tasks {task : Task} {tasks : List Task} (h : m.tasks = task :: tasks) :
    ¬m.Halted := by
  rintro ⟨-, ht⟩
  rw [h] at ht
  cases ht

theorem not_halted_of_expr {e : Expr} (h : m.focus = .expr e) : ¬m.Halted := by
  rintro ⟨⟨o, ho⟩, -⟩
  exact Focus.expr_ne_done e o (h.symm.trans ho)

theorem passesOn [Sink σ] (hm : m.Orderly) (hnext : ¬m.Halted → m' = m.next) (f : Callable) :
    m.PassesOn m' f where
  read x span hf hx := by
    rw [hnext (not_halted_of_expr hf)]
    simp only [next, hf, visit, act, Cursor.here, Machine.read, hx]
  assign x tasks hf ht hx := by
    obtain ⟨c, hc⟩ := Option.isSome_iff_exists.mp hx
    rw [hnext (not_halted_of_tasks ht)]
    simp only [next, hf, ht, resume, act, Cursor.here, Step.bind_apply, Machine.write, hc]
    exact ⟨rfl, (Store.get?_set (hm.backed.resolve_lt hc) _ _ _).trans (if_pos hc)⟩
  declare name tasks hf ht := by
    rw [hnext (not_halted_of_tasks ht)]
    simp only [next, hf, ht, resume, act, Cursor.declare, true_and]
    rw [Store.get?, Store.fst_define, Store.resolve_define_new hm.scope_lt]
    exact Store.get?_define_self hm.backed hm.scope_lt
  argument id d args x k hcall hk hx hlast := by
    obtain ⟨-, -, harity, -⟩ := attempt?_of_event_call hcall
    rw [hnext (not_halted_of_event_call hcall), scope_next_of_event_call hcall, store_next, hcall]
    exact (Store.get?_frame_parameter harity hx hlast).trans hk
  settle op r tasks hf ht hsettled := by
    rw [hnext (not_halted_of_tasks ht)]
    simp only [next, hf, ht, resume, hsettled, if_true, and_self]
  right v op r tasks hf ht hsettled := by
    rw [hnext (not_halted_of_tasks ht)]
    simp [next, hf, ht, resume, hsettled]
  choose v t e tasks hf ht := by
    rw [hnext (not_halted_of_tasks ht)]
    simp only [next, hf, ht, resume, and_self]
  result task tasks hf ht hend := by
    rw [hnext (not_halted_of_tasks ht)]
    cases task with
    | rest body =>
        rcases hend with hend | hend
        · cases hend
          simp only [next, hf, ht, resume, and_self]
        · cases hend
    | leave | finish => simp only [next, hf, ht, resume, back, and_self]
    | _ => simp [Task.scope?] at hend
  native hback := by
    obtain ⟨id, name, arity, args, paren, hcall, harity, hv⟩ := handsBack?_eq_some_iff.mp hback
    rw [hnext (not_halted_of_attempt? hcall), next_of_attempt? hcall]
    simp only [apply, Callable.arity, harity, if_true, act, Cursor.here, Machine.invoke, hv]
    rfl

end Moment

/-- Let host functions give back no functions but those that are at hand or that a program or the
host has made before. Then equality of functions is an equivalence that depends on nothing but the
functions, and those that a session ever has at hand, be it at different times, are equal only if
they are the same, with one declaration and one captured scope. A function statement, however often
it is executed, the registration of a host function, and the host when it makes a function itself,
all make a function that is equal to none that has been at hand before. It stays what it is on all
the ways it can go. Pointing a function at another scope concerns those equal to it and no others.
The functions that a host gets as answers are among those at hand. -/
theorem functions_keep_their_identity [Sink σ] [Reporter ρ] (reporter : ρ) (sink : σ)
    (config : Config) (source : Option Source) (requests : List Request)
    (h : (Session.resting (.ok .nil) (Interpreter.new sink config source) requests).Honest) :
    let start : ρ × Interpreter σ := (reporter, .new sink config source)
    let s := Session.resting (.ok .nil) start.2 requests
    let moment (t : Nat) := (s.after t).moment
    let store (t : Nat) := (moment t).machine.store
    let Same (f g : Callable) := (Value.callable f == Value.callable g) = true
    Equivalence Same ∧
    (∀ t u f g, (moment t).AtHand f → (moment u).AtHand g → (Same f g ↔ f = g)) ∧
    (∀ t name params body declSpan span,
      (moment t).focus = .stmt (.function name params body declSpan span) →
      ∃ id, let f : Callable := .function id ⟨name, params, body, declSpan⟩
        (moment (t + 1)).focus = .done (.ok (.callable f)) ∧
        (store (t + 1)).captures? f = some (moment t).scope ∧
        ∀ u ≤ t, ∀ g, (moment u).AtHand g → ¬Same f g) ∧
    (∀ t host, (s.after t).registers? = some host →
      ∃ id, let f : Callable := .native id host.name host.arity
        (store (t + 1)).get? s.globals host.name = some (.callable f) ∧
        (store (t + 1)).nativeBody id = host.body ∧
        ∀ u ≤ t, ∀ g, (moment u).AtHand g → ¬Same f g) ∧
    (∀ t d scope rest, (moment t).Halted → (s.after t).requests = .function d scope :: rest →
      ∃ id, let f : Callable := .function id d
        (moment (t + 1)).focus = .done (.ok (.callable f)) ∧
        (store (t + 1)).captures? f = some scope ∧
        ∀ u ≤ t, ∀ g, (moment u).AtHand g → ¬Same f g) ∧
    (∀ t host rest, (moment t).Halted → (s.after t).requests = .native host :: rest →
      ∃ id, let f : Callable := .native id host.name host.arity
        (moment (t + 1)).focus = .done (.ok (.callable f)) ∧
        (store (t + 1)).nativeBody id = host.body ∧
        ∀ u ≤ t, ∀ g, (moment u).AtHand g → ¬Same f g) ∧
    (∀ t f, (moment t).PassesOn (moment (t + 1)) f) ∧
    (∀ t id d scope rest, (moment t).Halted → (s.after t).requests = .rebind id scope :: rest →
      (∃ u ≤ t, (moment u).AtHand (.function id d)) →
      ∀ g, (store (t + 1)).captures? g =
        if Value.callable (.function id d) == Value.callable g then some scope
        else (store t).captures? g) ∧
    ∀ fuel, .outOfFuel ∉ session fuel requests start →
      ∃ n o, s.after n = Session.resting o (sessionState fuel requests start).2 [] ∧
        ∀ f, .ok (.value (.callable f)) ∈ session fuel requests start →
          ∃ u ≤ n, (moment u).AtHand f := by
  intro start s moment store Same
  have hnone : ∀ f, ¬s.moment.AtHand f := Session.not_atHand_new sink config source requests
  have hs : s.moment.Orderly :=
    Session.orderly_resting (.ok .nil) (Interpreter.sound_new sink config source) requests
  have hfresh {t : Nat} {f : Callable} (hf : (s.after t).makes? = some f) (u : Nat) (hu : u ≤ t)
      (g : Callable) (hg : (moment u).AtHand g) : ¬Same f g :=
    Bool.eq_false_iff.mp (Session.beq_eq_false_of_makes? h hnone hf hu hg)
  refine ⟨Value.callable_beq_equivalence,
    fun t u f g hf hg => ⟨Session.eq_of_beq h hnone hf hg, ?_⟩,
    fun t name params body declSpan span hf => ?_, fun t host hr => ?_,
    fun t d scope rest hm hr => ?_, fun t host rest hm hr => ?_,
    fun t f => Moment.passesOn (Session.orderly_after hs t) Session.moment_after_succ f,
    fun t id d scope rest hm hr hat g => ?_, fun fuel hend => ?_⟩
  · rintro rfl
    exact Value.callable_beq_equivalence.refl f
  · have hmakes := Moment.makes?_of_focus hf
    obtain ⟨hfocus, -, -, hcaptured, -⟩ := Moment.next_of_makes? hmakes
    rw [← Session.moment_after_succ (Moment.not_halted_of_makes? hmakes)] at hfocus hcaptured
    refine ⟨_, hfocus, ?_, hfresh (Session.makes?_of_moment hmakes)⟩
    exact (congrArg (·[(store t).captured.size]?) hcaptured).trans Array.getElem?_push_size
  · obtain ⟨hm, rest, hq⟩ := Session.registers?_eq_some_iff.mp hr
    have hstore : store (t + 1) = (store t).provide s.globals host :=
      congrArg (·.machine.store) (Session.moment_after_succ_of_halted hm hq)
    -- the global scope is the first of all
    have hglobals : s.globals < (store t).scopes.size :=
      Nat.zero_lt_of_lt (Session.orderly_after hs t).scope_lt
    refine ⟨(store t).natives.size, ?_, ?_, hfresh (Session.makes?_of_halted hm hq rfl)⟩
    · rw [hstore]
      exact Store.get?_bind_self (s := ((store t).addNative _ _ _).2) hglobals host.name _
    · rw [hstore]
      exact (store t).nativeBody_addNative host.name host.arity host.body
  · have hmoment := Session.moment_after_succ_of_halted hm hr
    have hstore : store (t + 1) = ((store t).addFunction d scope).2 :=
      congrArg (·.machine.store) hmoment
    refine ⟨(store t).captured.size, congrArg Moment.focus hmoment, ?_,
      hfresh (Session.makes?_of_halted hm hr rfl)⟩
    rw [hstore]
    exact (store t).captures?_addFunction d scope
  · have hmoment := Session.moment_after_succ_of_halted hm hr
    have hstore : store (t + 1) = ((store t).addNative host.name host.arity host.body).2 :=
      congrArg (·.machine.store) hmoment
    refine ⟨(store t).natives.size, congrArg Moment.focus hmoment, ?_,
      hfresh (Session.makes?_of_halted hm hr rfl)⟩
    rw [hstore]
    exact (store t).nativeBody_addNative host.name host.arity host.body
  · obtain ⟨u, hu, hat⟩ := hat
    have hid : id < (store t).captured.size :=
      s.knows_mono hu (Session.knows_of_atHand h hnone hat)
    have hstore : store (t + 1) = (store t).rebind id scope :=
      congrArg (·.machine.store) (Session.moment_after_succ_of_halted hm hr)
    rw [hstore]
    exact Store.captures?_rebind hid d scope g
  · obtain ⟨n, o, hn, hvalues⟩ := Session.after_session fuel requests [] (.ok .nil) start hend
    rw [List.append_nil] at hn hvalues
    refine ⟨n, o, hn, fun f hf => ?_⟩
    obtain ⟨u, hu, hfocus⟩ := hvalues _ hf
    exact ⟨u, hu, .focus hfocus⟩

/-- The host makes a function and sets it aside, and a program that declares one like it is run
twice. One host function gives back what it is given, another what was set aside. Then the host
points the last of the three functions at another scope. -/
theorem functions_keep_their_identity_statement_executed_twice :
    let g : Ident := ⟨"g", {}⟩
    let f (id : FunctionId) : Callable := .function id ⟨g, [], [], {}⟩
    let program : List Stmt := [.function g [] [] {} {}]
    let same : HostFunction := ⟨"same", 1, fun args => .ok (args.headD .nil)⟩
    let give : HostFunction := ⟨"give", 0, fun _ => .ok (.callable (f 0))⟩
    let front : List Request := [.function ⟨g, [], [], {}⟩ 0, .provide same, .provide give,
      .run program, .run program, .evaluate (.call (.var ⟨"same", {}⟩ {}) [.var g {}] {} {}),
      .evaluate (.call (.var ⟨"give", {}⟩ {}) [] {} {})]
    let requests := front ++ [.rebind 2 0]
    let start : DiagnosticLog × Interpreter Buffer := ({}, .new {})
    let s := Session.resting (.ok .nil) start.2 requests
    let store (t : Nat) := (s.after t).moment.machine.store
    s.Honest ∧
      session 9 front start = [.ok (.value (.callable (f 0))), .ok .done, .ok .done,
        .ok (.value (.callable (f 1))), .ok (.value (.callable (f 2))),
        .ok (.value (.callable (f 2))), .ok (.value (.callable (f 0)))] ∧
      (∀ id < 2, (Value.callable (f 2) == Value.callable (f id)) = false) ∧
      ∃ t, (store (t + 1)).captures? (f 2) = some 0 ∧
        ∀ id < 2, (store (t + 1)).captures? (f id) = (store t).captures? (f id) := by
  intro g f program same give front requests start s store
  have hsame : same.body.Hands (· = f 0) := by
    intro args c hc
    cases args with
    | nil => cases hc
    | cons v args =>
        cases hc
        exact .inl List.mem_cons_self
  have hgive : give.body.Hands (· = f 0) := by
    intro args c hc
    cases hc
    exact .inr rfl
  have haside : ∀ c, c = f 0 → s.makes? = some c := by
    rintro _ rfl
    rfl
  have h : s.Honest := by
    refine Session.honest_of_hands haside rfl (fun body hbody => ?_) ?_
    · simp [s, start, Session.resting, Interpreter.new, Store.global, Store.addScope] at hbody
    · exact List.forall_mem_cons.mpr ⟨trivial, List.forall_mem_cons.mpr ⟨hsame,
        List.forall_mem_cons.mpr ⟨hgive, by simp [Request.Hands]⟩⟩⟩
  have hsession : session 9 front start = [.ok (.value (.callable (f 0))), .ok .done, .ok .done,
      .ok (.value (.callable (f 1))), .ok (.value (.callable (f 2))),
      .ok (.value (.callable (f 2))), .ok (.value (.callable (f 0)))] := by cbv
  have hend : .outOfFuel ∉ session 9 front start := by
    rw [hsession]
    simp
  obtain ⟨t, o, ht, hvalues⟩ := Session.after_session 9 front [.rebind 2 0] (.ok .nil) start hend
  have ht : s.after t = Session.resting o (sessionState 9 front start).2 [.rebind 2 0] := ht
  have hat (id : FunctionId) (hid : id < 3) : ∃ u ≤ t, (s.after u).moment.AtHand (f id) := by
    have hanswer : .ok (.value (.callable (f id))) ∈ session 9 front start := by
      rw [hsession]
      interval_cases id <;> simp
    obtain ⟨u, hu, hfocus⟩ := hvalues _ hanswer
    exact ⟨u, hu, .focus hfocus⟩
  obtain ⟨u, hu, hlast⟩ := hat 2 (by decide)
  obtain ⟨-, hequal, -, -, -, -, -, hrebind, -⟩ := functions_keep_their_identity
    ({} : DiagnosticLog) ({} : Buffer) {} none requests h
  have hdiffer (id : FunctionId) (hid : id < 2) :
      (Value.callable (f 2) == Value.callable (f id)) = false := by
    rw [Bool.eq_false_iff]
    intro hsame
    obtain ⟨w, -, hw⟩ := hat id (Nat.lt_succ_of_lt hid)
    cases (hequal u w (f 2) (f id) hlast hw).mp hsame
    exact Nat.lt_irrefl 2 hid
  have hhalted : (s.after t).moment.Halted := by
    rw [ht]
    exact ⟨⟨o, rfl⟩, rfl⟩
  have hcaptures := hrebind t 2 ⟨g, [], [], {}⟩ 0 [] hhalted (congrArg Session.requests ht)
    ⟨u, hu, hlast⟩
  refine ⟨h, hsession, hdiffer, t, hcaptures (f 2), fun id hid => ?_⟩
  exact (hcaptures (f id)).trans (if_neg (Bool.eq_false_iff.mp (hdiffer id hid)))

end Scriptlet
