import Scriptlet.Proofs.Confinement
import Scriptlet.Proofs.Provenance
import Scriptlet.Proofs.SessionMoments
import Scriptlet.Proofs.StoreEvents

namespace Scriptlet

variable {σ : Type} {W : Node → Prop} {f : Callable}

theorem Value.within_iff {v : Value} : v.Within W ↔ ∀ f, v = .callable f → W (.callable f) := by
  constructor
  · rintro h f rfl
    exact h _ List.mem_cons_self
  · intro h
    cases v with
    | callable f => exact List.forall_mem_singleton.mpr (h f rfl)
    | number | string | bool | nil => exact List.forall_mem_nil _

def Task.values : Task → List Value
  | .binary _ left => [left]
  | .argument c done _ _ => .callable c :: done
  | _ => []

namespace Task

variable {task : Task}

theorem within_of_values (hscope : ∀ i, W (.scope i)) (h : ∀ v ∈ task.values, v.Within W) :
    task.Within W := by
  cases task with
  | leave scope | finish scope => exact hscope scope
  | binary op left => exact h left List.mem_cons_self
  | argument c done rest paren =>
      obtain ⟨hc, hdone⟩ := List.forall_mem_cons.mp h
      exact ⟨Value.within_iff.mp hc c rfl, hdone⟩
  | _ => trivial

theorem Within.callable (h : task.Within W) (hf : .callable f ∈ task.values) :
    W (.callable f) := by
  cases task with
  | binary op left => exact Value.within_iff.mp h f (List.mem_singleton.mp hf).symm
  | argument c done rest paren =>
      rcases List.mem_cons.mp hf with hf | hf
      · exact Value.callable.inj hf ▸ h.1
      · exact Value.within_iff.mp (h.2 _ hf) f rfl
  | _ => cases hf

end Task

/-- A host function that returns a function has it from its arguments, or from the host, which has
set it aside. -/
def NativeBody.Hands (aside : Callable → Prop) (body : NativeBody) : Prop :=
  ∀ args f, body args = .ok (.callable f) → .callable f ∈ args ∨ aside f

def Request.Hands (aside : Callable → Prop) : Request → Prop
  | .provide f | .native f => f.body.Hands aside
  | _ => True

namespace Moment

/-- The function is the value of a variable or of the part that has just been evaluated, or it is
among the values that the waiting tasks keep. -/
inductive AtHand (m : Moment σ) (f : Callable) : Prop
  | stored (c : CellId) (h : m.machine.store.cells[c]? = some (.callable f))
  | focus (h : m.focus = .done (.ok (.callable f)))
  | waiting (task : Task) (ht : task ∈ m.tasks) (h : .callable f ∈ task.values)

/-- The function that a statement makes by the step from this moment to the next. -/
def makes? (m : Moment σ) : Option Callable :=
  match m.focus with
  | .stmt (.function f params body declSpan _) =>
    some (.function m.machine.store.captured.size ⟨f, params, body, declSpan⟩)
  | _ => none

/-- The function that a host function gives back when it is called by the step from this moment to
the next. -/
def handsBack? (m : Moment σ) : Option Callable :=
  match m.attempt? with
  | some (.native id _ arity, args, _) =>
    if args.length = arity then
      match m.machine.store.nativeBody id args with
      | .ok v => v.callable?
      | .error _ => none
    else none
  | _ => none

variable {m : Moment σ}

theorem makes?_of_focus {name : Ident} {params : List Ident} {body : List Stmt}
    {declSpan span : Span} (h : m.focus = .stmt (.function name params body declSpan span)) :
    m.makes? = some (.function m.machine.store.captured.size ⟨name, params, body, declSpan⟩) := by
  rw [makes?, h]

theorem not_halted_of_makes? (h : m.makes? = some f) : ¬m.Halted := by
  rintro ⟨⟨o, ho⟩, -⟩
  simp [makes?, ho] at h

theorem handsBack?_eq_some_iff :
    m.handsBack? = some f ↔ ∃ id name arity args paren,
      m.attempt? = some (.native id name arity, args, paren) ∧ args.length = arity ∧
        m.machine.store.nativeBody id args = .ok (.callable f) := by
  constructor
  · intro h
    unfold handsBack? at h
    split at h
    · next id name arity args paren hcall =>
        split at h
        · next harity =>
            split at h
            · next v hv =>
                cases v with
                | callable c =>
                    cases h
                    exact ⟨id, name, arity, args, paren, hcall, harity, hv⟩
                | number | string | bool | nil => cases h
            · cases h
        · cases h
    · cases h
  · rintro ⟨id, name, arity, args, paren, hcall, harity, hv⟩
    simp only [handsBack?, hcall, harity, hv, if_true]
    rfl

theorem atHand_of_attempt? {c : Callable} {args : List Value} {paren : Span}
    (hcall : m.attempt? = some (c, args, paren)) (hf : .callable f ∈ args) : m.AtHand f := by
  unfold attempt? at hcall
  split at hcall
  · cases hcall
    cases hf
  · next v c done paren tasks hfocus ht =>
      cases hcall
      rcases List.mem_append.mp hf with hf | hf
      · exact .waiting (.argument c done [] paren) (ht ▸ List.mem_cons_self)
          (List.mem_cons_of_mem _ hf)
      · exact .focus (List.mem_singleton.mp hf ▸ hfocus)
  · cases hcall

theorem atHand_of_handsBack? {aside : Callable → Prop}
    (h : ∀ body ∈ m.machine.store.natives, NativeBody.Hands aside body)
    (hf : m.handsBack? = some f) : m.AtHand f ∨ aside f := by
  obtain ⟨id, name, arity, args, paren, hcall, -, hv⟩ := handsBack?_eq_some_iff.mp hf
  have hbody : NativeBody.Hands aside (m.machine.store.nativeBody id) :=
    Store.forall_nativeBody nofun h id
  exact (hbody args f hv).imp_left (atHand_of_attempt? hcall)

def Nearby (m : Moment σ) : Node → Prop
  | .callable f => m.AtHand f ∨ m.handsBack? = some f
  | .scope _ | .cell _ => True

/-- As if every host function held what is given back now. -/
def given (m : Moment σ) (_ : NativeId) : List Value :=
  (m.handsBack?.map Value.callable).toList

theorem mem_given (id : NativeId) : .callable f ∈ m.given id ↔ m.handsBack? = some f := by
  rw [given, Option.mem_toList, Option.map_eq_some_iff]
  constructor
  · rintro ⟨g, hg, he⟩
    exact Value.callable.inj he ▸ hg
  · exact fun h => ⟨f, h, rfl⟩

theorem confined_nearby (m : Moment σ) : m.Confined m.given m.Nearby m.machine.store where
  store := by
    refine .refl fun a b _ hl => ?_
    cases hl with
    | listed | enclosing | captured => trivial
    | value hf => exact .inl (.stored _ hf)
    | held hf => exact .inr ((mem_given _).mp hf)
  scope := .inl trivial
  focus v hv := by
    rw [Value.within_iff]
    rintro f rfl
    exact .inl (.inl (.focus hv))
  tasks task ht := by
    refine Task.within_of_values (fun _ => .inl trivial) fun v hv => ?_
    rw [Value.within_iff]
    rintro f rfl
    exact .inl (.inl (.waiting task ht hv))

theorem tame_given (m : Moment σ) : m.Tame m.given := by
  intro id name arity args paren f hcall harity hv
  have hback := handsBack?_eq_some_iff.mpr ⟨id, name, arity, args, paren, hcall, harity, hv⟩
  exact (Store.Reaches.root List.mem_cons_self).link (.held ((mem_given id).mpr hback))

theorem Confined.atHand {holds : NativeId → List Value} {R : Node → Prop} {s : Store}
    (h : m.Confined holds R s) (hcell : ∀ c, R (.cell c)) (hf : m.AtHand f) :
    s.Within R m.machine.store (.callable f) := by
  cases hf with
  | stored c hc => exact h.store.closed _ _ (.inl (hcell c)) (.value hc)
  | focus hv => exact Value.within_iff.mp (h.focus _ hv) f rfl
  | waiting task ht hv => exact (h.tasks task ht).callable hv

variable [Sink σ]

theorem captured_next (h : m.makes? = none) :
    m.next.machine.store.captured = m.machine.store.captured := by
  rw [store_next]
  cases he : m.event with
  | none | block | declare => rfl
  | assign name v =>
      simp only [Event.apply]
      cases m.machine.store.resolve m.scope name <;> rfl
  | call id d args => exact Store.captured_frame _ _ _ _
  | function d =>
      unfold event at he
      split at he
      · next c args _ _ =>
          cases c with
          | native => cases he
          | function id d' =>
              simp only [callEvent] at he
              split at he <;> cases he
      · split at he
        · cases he
        · cases he
        · next hf => simp [makes?, hf] at h
        · cases he
        · cases he
        · cases he

theorem next_of_makes? (h : m.makes? = some f) :
    m.next.focus = .done (.ok (.callable f)) ∧ m.next.tasks = m.tasks ∧
      m.next.machine.store.cells = m.machine.store.cells.push (.callable f) ∧
      m.next.machine.store.captured = m.machine.store.captured.push m.scope ∧
      ∃ d, f = .function m.machine.store.captured.size d := by
  unfold makes? at h
  split at h
  · next name params body declSpan span hf =>
      cases h
      simp only [next, hf]
      exact ⟨rfl, rfl, rfl, rfl, _, rfl⟩
  · cases h

/-- What is at hand after a step was at hand before, or it has just been made or given back. -/
theorem atHand_of_next (h : m.next.AtHand f) :
    m.AtHand f ∨ m.makes? = some f ∨ m.handsBack? = some f := by
  cases hmakes : m.makes? with
  | none =>
      have hnear := (m.confined_nearby.next m.tame_given).atHand (fun _ => trivial) h
      rcases hnear with (hf | hf) | hnew
      · exact .inl hf
      · exact .inr (.inr hf)
      -- no number has been handed out, so nothing within the region is new
      · cases f with
        | function id d =>
            rw [Node.New, captured_next hmakes] at hnew
            exact absurd hnew.2 (Nat.not_lt.mpr hnew.1)
        | native => exact hnew.elim
  | some made =>
      obtain ⟨hfocus, htasks, hcells, -⟩ := next_of_makes? hmakes
      cases h with
      | stored c hc =>
          rw [hcells, Array.getElem?_push] at hc
          split at hc
          · cases hc
            exact .inr (.inl rfl)
          · exact .inl (.stored c hc)
      | focus hv =>
          rw [hfocus] at hv
          cases hv
          exact .inr (.inl rfl)
      | waiting task ht hv => exact .inl (.waiting task (htasks ▸ ht) hv)

end Moment

def Request.makes? (s : Store) : Request → Option Callable
  | .provide f | .native f => some (.native s.natives.size f.name f.arity)
  | .function d _ => some (.function s.captured.size d)
  | .run _ | .interpret _ | .evaluate _ | .rebind _ _ => none

namespace Session

def begins? (s : Session σ) : Option Request :=
  match s.moment.focus, s.moment.tasks with
  | .done _, [] => s.requests.head?
  | _, _ => none

/-- The function that a statement or the host makes by the step from here to the next. -/
def makes? (s : Session σ) : Option Callable :=
  (s.begins?.bind (Request.makes? s.moment.machine.store)).or s.moment.makes?

variable {s : Session σ} {request : Request}

theorem begins?_eq_some_iff :
    s.begins? = some request ↔ s.moment.Halted ∧ ∃ rest, s.requests = request :: rest := by
  constructor
  · intro h
    unfold begins? at h
    split at h
    · next o hf ht => exact ⟨⟨⟨o, hf⟩, ht⟩, List.head?_eq_some_iff.mp h⟩
    · cases h
  · rintro ⟨⟨⟨o, hf⟩, ht⟩, rest, hr⟩
    simp only [begins?, hf, ht, hr, List.head?_cons]

theorem makes?_of_halted {rest : List Request} (hm : s.moment.Halted)
    (hr : s.requests = request :: rest)
    (h : request.makes? s.moment.machine.store = some f) : s.makes? = some f := by
  rw [makes?, begins?_eq_some_iff.mpr ⟨hm, rest, hr⟩, Option.bind_some, h, Option.some_or]

theorem makes?_of_moment (h : s.moment.makes? = some f) : s.makes? = some f := by
  have hnone : s.begins? = none := by
    rw [Option.eq_none_iff_forall_ne_some]
    intro request hb
    exact Moment.not_halted_of_makes? h (begins?_eq_some_iff.mp hb).1
  rw [makes?, hnone, Option.bind_none, Option.none_or, h]

variable [Sink σ]

theorem atHand_of_next (h : s.next.moment.AtHand f) :
    s.moment.AtHand f ∨ s.makes? = some f ∨ s.moment.handsBack? = some f := by
  rcases s.next_cases with hn | ⟨request, requests, hm, hr, hn⟩
  · rw [hn] at h
    exact (Moment.atHand_of_next h).imp_right (Or.imp_left makes?_of_moment)
  · rw [hn] at h
    cases h with
    | stored c hc =>
        cases request with
        | provide g =>
            rw [Request.opening, Store.provide, Store.cells_bind, Array.getElem?_push] at hc
            split at hc
            · cases hc
              exact .inr (.inl (makes?_of_halted hm hr rfl))
            · exact .inl (.stored c hc)
        | run | interpret | evaluate | function | native | rebind => exact .inl (.stored c hc)
    | focus hv =>
        cases request with
        | run | interpret | evaluate => cases hv
        | provide | rebind => exact .inl (.focus hv)
        | function | native =>
            cases hv
            exact .inr (.inl (makes?_of_halted hm hr rfl))
    | waiting task ht hv =>
        cases request with
        | run | interpret =>
            rw [List.mem_singleton.mp ht] at hv
            cases hv
        | evaluate => cases ht
        | provide | function | native | rebind => exact .inl (.waiting task ht hv)

/-- Host functions give back no function but one that is at hand when they are called, or that has
been made before. -/
def Honest (s : Session σ) : Prop :=
  ∀ t f, (s.after t).moment.handsBack? = some f →
    (s.after t).moment.AtHand f ∨ ∃ u < t, (s.after u).makes? = some f

theorem honest_of_hands {aside : Callable → Prop} (haside : ∀ f, aside f → s.makes? = some f)
    (hstart : s.moment.handsBack? = none)
    (hnatives : ∀ body ∈ s.moment.machine.store.natives, NativeBody.Hands aside body)
    (hrequests : ∀ q ∈ s.requests, q.Hands aside) : s.Honest := by
  intro t f hf
  refine (Moment.atHand_of_handsBack? ?_ hf).imp_right fun hmade => ⟨0, ?_, haside f hmade⟩
  · apply s.after_induction
      (P := fun m => ∀ body ∈ m.machine.store.natives, NativeBody.Hands aside body) hnatives
    · intro m hm
      rw [m.natives_next]
      exact hm
    · intro request hq m _ hm
      cases request with
      | provide g | native g =>
          intro body hbody
          rcases Array.mem_push.mp hbody with hbody | rfl
          · exact hm body hbody
          · exact hrequests _ hq
      | run | interpret | evaluate | function | rebind => exact hm
  · rw [Nat.pos_iff_ne_zero]
    rintro rfl
    cases hstart.symm.trans hf

theorem exists_makes?_of_atHand (hs : s.Honest) (hnone : ∀ f, ¬s.moment.AtHand f) {t : Nat}
    (h : (s.after t).moment.AtHand f) : ∃ u < t, (s.after u).makes? = some f := by
  induction t generalizing f with
  | zero => exact absurd h (hnone f)
  | succ t ih =>
      have hlater (hmade : ∃ u < t, (s.after u).makes? = some f) :
          ∃ u < t + 1, (s.after u).makes? = some f := by
        obtain ⟨u, hu, hf⟩ := hmade
        exact ⟨u, Nat.lt_succ_of_lt hu, hf⟩
      rw [after_succ] at h
      rcases atHand_of_next h with h | h | h
      · exact hlater (ih h)
      · exact ⟨t, Nat.lt_succ_self t, h⟩
      · rcases hs t f h with h | h
        · exact hlater (ih h)
        · exact hlater h

end Session

end Scriptlet
