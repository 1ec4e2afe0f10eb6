import Scriptlet.Proofs.Evaluation
import Scriptlet.Proofs.ScopesInUse
import Scriptlet.Proofs.Session

namespace Scriptlet

variable {σ ρ α β : Type}

def Store.provide (s : Store) (globals : ScopeId) (f : HostFunction) : Store :=
  let r := s.addNative f.name f.arity f.body
  r.2.bind globals f.name (.callable r.1)

/-- Where a session stands: the moment of the request under way, or the one at which the last
request has come to a halt, and the requests that wait. -/
structure Session (σ : Type) where
  moment : Moment σ
  globals : ScopeId
  requests : List Request

/-- How a request begins once the one before has come to a halt. What the host does to the store
itself is done at once. -/
def Request.opening (globals : ScopeId) (m : Moment σ) : Request → Moment σ
  | .run program | .interpret program => ⟨.done (.ok .nil), m.scope, [.rest program], m.machine⟩
  | .evaluate e => ⟨.expr e, m.scope, [], m.machine⟩
  | .provide f => { m with machine.store := m.machine.store.provide globals f }
  | .function d scope =>
    let r := m.machine.store.addFunction d scope
    { m with focus := .done (.ok (.callable r.1)), machine.store := r.2 }
  | .native f =>
    let r := m.machine.store.addNative f.name f.arity f.body
    { m with focus := .done (.ok (.callable r.1)), machine.store := r.2 }
  | .rebind id scope => { m with machine.store := m.machine.store.rebind id scope }

/-- The host itself makes a function, or points one at another scope. -/
def Request.handlesFunction : Request → Bool
  | .function _ _ | .native _ | .rebind _ _ => true
  | .run _ | .interpret _ | .evaluate _ | .provide _ => false

def Request.isEvaluation : Request → Bool
  | .run _ | .interpret _ | .evaluate _ => true
  | .provide _ | .function _ _ | .native _ | .rebind _ _ => false

theorem Moment.Halted.inUse_eq {m : Moment σ} (h : m.Halted) : m.inUse = [m.scope] := by
  rw [inUse, waiting, h.2, List.filterMap_nil]

namespace Request

variable {globals : ScopeId} {m : Moment σ}

theorem inUse_opening (request : Request) (h : m.Halted) :
    (request.opening globals m).inUse = m.inUse := by
  cases request with
  | run | interpret | evaluate => exact h.inUse_eq.symm
  | provide | function | native | rebind => rfl

theorem machine_opening {request : Request} (h : request.isEvaluation = true) :
    (request.opening globals m).machine = m.machine := by
  cases request with
  | run | interpret | evaluate => rfl
  | provide | function | native | rebind => cases h

theorem size_scopes_opening (request : Request) :
    (request.opening globals m).machine.store.scopes.size = m.machine.store.scopes.size := by
  cases request with
  | provide f => exact Store.size_scopes_bind _ _ _ _
  | _ => rfl

theorem backed_opening (request : Request) (h : m.machine.store.Backed) :
    (request.opening globals m).machine.store.Backed := by
  cases request with
  | run | interpret | evaluate => exact h
  | provide f => exact Store.Backed.bind (fun j b hb => h j b hb) globals f.name _
  | function | native | rebind => exact fun j b hb => h j b hb

theorem orderly_opening (request : Request) (hm : m.Halted) (h : m.Orderly) :
    (request.opening globals m).Orderly := by
  refine ⟨?_, ?_, request.backed_opening h.backed⟩
  · rw [request.inUse_opening hm]
    exact h.nodup
  · rw [request.inUse_opening hm, request.size_scopes_opening]
    exact h.lt

end Request

namespace Step

variable (g : α → β) (x : Step σ α) (s : σ)

theorem snd_map : ((g <$> x : Step σ β) s).2 = (x s).2 := by
  rw [map_eq_pure_bind, bind_apply]
  rcases x s with ⟨o, t⟩
  cases o <;> rfl

theorem map_ne_outOfFuel : ((g <$> x : Step σ β) s).1 ≠ .outOfFuel ↔ (x s).1 ≠ .outOfFuel := by
  rw [map_eq_pure_bind, bind_apply]
  rcases x s with ⟨o, t⟩
  cases o <;> simp [pure_apply]

variable {g x s}

theorem ok_of_map {b : β} (h : ((g <$> x : Step σ β) s).1 = .ok b) :
    ∃ a, (x s).1 = .ok a ∧ g a = b := by
  rw [map_eq_pure_bind, bind_apply] at h
  generalize x s = r at h ⊢
  obtain ⟨o, t⟩ := r
  cases o with
  | ok a => exact ⟨a, rfl, Outcome.ok.inj h⟩
  | error | outOfFuel => cases h

end Step

theorem Interpreter.interpret_ne_outOfFuel [Sink σ] [Reporter ρ] (fuel : Nat) (program : List Stmt)
    (s : ρ × Interpreter σ) :
    (interpret fuel program s).1 ≠ .outOfFuel ↔ (run fuel program s.2).1 ≠ .outOfFuel := by
  obtain ⟨reporter, i⟩ := s
  simp only [interpret]
  rcases run fuel program i with ⟨o, j⟩
  cases o <;> simp

namespace Session

def resting (o : Outcome Value) (i : Interpreter σ) (requests : List Request) : Session σ :=
  ⟨⟨.done o, i.environment, [], i.machine⟩, i.globals, requests⟩

theorem orderly_resting (o : Outcome Value) {i : Interpreter σ} (h : i.Sound)
    (requests : List Request) : (resting o i requests).moment.Orderly := by
  refine ⟨List.nodup_cons.mpr ⟨List.not_mem_nil, List.nodup_nil⟩, fun j hj => ?_, h.backed⟩
  rw [List.mem_singleton.mp hj]
  exact h.environment

def registers? (s : Session σ) : Option HostFunction :=
  match s.moment.focus, s.moment.tasks, s.requests with
  | .done _, [], .provide f :: _ => some f
  | _, _, _ => none

theorem registers?_eq_some_iff {s : Session σ} {f : HostFunction} :
    s.registers? = some f ↔ s.moment.Halted ∧ ∃ requests, s.requests = .provide f :: requests := by
  constructor
  · intro h
    unfold registers? at h
    split at h
    · next o g requests hf ht hr =>
        cases h
        exact ⟨⟨⟨o, hf⟩, ht⟩, requests, hr⟩
    · cases h
  · rintro ⟨⟨⟨o, hf⟩, ht⟩, requests, hr⟩
    simp only [registers?, hf, ht, hr]

variable [Sink σ]

def next (s : Session σ) : Session σ :=
  match s.moment.focus, s.moment.tasks, s.requests with
  | .done _, [], request :: requests =>
    ⟨request.opening s.globals s.moment, s.globals, requests⟩
  | _, _, _ => { s with moment := s.moment.next }

def after (s : Session σ) (t : Nat) : Session σ :=
  next^[t] s

variable (s : Session σ)

theorem after_succ (t : Nat) : s.after (t + 1) = (s.after t).next :=
  Function.iterate_succ_apply' _ _ _

theorem after_add (u t : Nat) : s.after (u + t) = (s.after t).after u :=
  Function.iterate_add_apply _ _ _ _

variable {s}

theorem next_cases (s : Session σ) :
    s.next = { s with moment := s.moment.next } ∨
      ∃ request requests, s.moment.Halted ∧ s.requests = request :: requests ∧
        s.next = ⟨request.opening s.globals s.moment, s.globals, requests⟩ := by
  unfold next
  split
  · next o request requests ho ht hr =>
      exact .inr ⟨request, requests, ⟨⟨o, ho⟩, ht⟩, hr, rfl⟩
  · exact .inl rfl

theorem next_of_halted {request : Request} {requests : List Request} (h : s.moment.Halted)
    (hr : s.requests = request :: requests) :
    s.next = ⟨request.opening s.globals s.moment, s.globals, requests⟩ := by
  obtain ⟨⟨o, ho⟩, ht⟩ := h
  simp only [next, ho, ht, hr]

theorem next_of_not_halted (h : ¬s.moment.Halted) :
    s.next = { s with moment := s.moment.next } := by
  rcases s.next_cases with hn | ⟨_, _, hm, _⟩
  · exact hn
  · exact absurd hm h

theorem after_of_halted (h : s.moment.Halted) (hr : s.requests = []) (t : Nat) : s.after t = s := by
  refine Function.iterate_fixed ?_ t
  rcases s.next_cases with hn | ⟨_, _, _, hq, _⟩
  · rw [hn, h.next]
  · rw [hr] at hq
    cases hq

theorem after_resting (o : Outcome Value) (i : Interpreter σ) (t : Nat) :
    (resting o i []).after t = resting o i [] :=
  after_of_halted ⟨⟨o, rfl⟩, rfl⟩ rfl t

theorem after_eq_of_le {n t : Nat} (h : (s.after n).moment.Halted) (hr : (s.after n).requests = [])
    (hnt : n ≤ t) : s.after t = s.after n := by
  rw [← Nat.sub_add_cancel hnt, after_add, after_of_halted h hr]

theorem globals_next (s : Session σ) : s.next.globals = s.globals := by
  rcases s.next_cases with h | ⟨_, _, _, _, h⟩
  · rw [h]
  · rw [h]

theorem requests_next_suffix (s : Session σ) : s.next.requests <:+ s.requests := by
  rcases s.next_cases with h | ⟨request, requests, _, hr, h⟩
  · have hsame : s.next.requests = s.requests := by rw [h]
    exact hsame ▸ List.suffix_rfl
  · rw [h, hr]
    exact List.suffix_cons request requests

theorem globals_after (s : Session σ) (t : Nat) : (s.after t).globals = s.globals := by
  induction t with
  | zero => rfl
  | succ t ih => rw [after_succ, globals_next, ih]

theorem requests_after_suffix (s : Session σ) (t : Nat) : (s.after t).requests <:+ s.requests := by
  induction t with
  | zero => exact List.suffix_rfl
  | succ t ih =>
      rw [after_succ]
      exact (requests_next_suffix _).trans ih

theorem moment_after_succ_of_halted {t : Nat} {request : Request} {requests : List Request}
    (h : (s.after t).moment.Halted) (hr : (s.after t).requests = request :: requests) :
    (s.after (t + 1)).moment = request.opening s.globals (s.after t).moment := by
  rw [after_succ, next_of_halted h hr, globals_after]

/-- What holds at the start, what every step keeps and what no request breaks as it begins, holds at
all times. -/
theorem after_induction {P : Moment σ → Prop} (s : Session σ) (start : P s.moment)
    (next : ∀ m, P m → P m.next)
    (opening : ∀ request ∈ s.requests, ∀ m : Moment σ, m.Halted → P m →
      P (request.opening s.globals m)) (t : Nat) : P (s.after t).moment := by
  induction t with
  | zero => exact start
  | succ t ih =>
      rw [after_succ]
      rcases (s.after t).next_cases with h | ⟨request, requests, hm, hr, h⟩
      · rw [h]
        exact next _ ih
      · rw [h, globals_after]
        refine opening request ?_ _ hm ih
        exact (s.requests_after_suffix t).subset (hr ▸ List.mem_cons_self)

theorem count_mono (s : Session σ) (count : Store → Nat)
    (next : ∀ m : Moment σ, count m.machine.store ≤ count m.next.machine.store)
    (opening : ∀ (request : Request) (globals : ScopeId) (m : Moment σ),
      count m.machine.store ≤ count (request.opening globals m).machine.store) {t u : Nat}
    (htu : t ≤ u) :
    count (s.after t).moment.machine.store ≤ count (s.after u).moment.machine.store := by
  induction htu with
  | refl => exact Nat.le_refl _
  | @step u _ ih =>
      refine Nat.le_trans ih ?_
      rw [after_succ]
      rcases (s.after u).next_cases with h | ⟨request, requests, -, -, h⟩
      · rw [h]
        exact next _
      · rw [h]
        exact opening request _ _

theorem size_cells_mono (s : Session σ) {t u : Nat} (htu : t ≤ u) :
    (s.after t).moment.machine.store.cells.size ≤ (s.after u).moment.machine.store.cells.size := by
  refine s.count_mono (fun store => store.cells.size) (fun m => m.evolves_next.cells)
    (fun request globals m => ?_) htu
  cases request with
  | provide f =>
      simp only [Request.opening, Store.provide, Store.cells_bind, Array.size_push]
      exact Nat.le_succ _
  | run | interpret | evaluate | function | native | rebind => exact Nat.le_refl _

theorem size_captured_mono (s : Session σ) {t u : Nat} (htu : t ≤ u) :
    (s.after t).moment.machine.store.captured.size ≤
      (s.after u).moment.machine.store.captured.size := by
  refine s.count_mono (fun store => store.captured.size)
    (fun m => m.evolves_next.size_captured_le) (fun request globals m => ?_) htu
  cases request with
  | rebind id scope => exact Nat.le_of_eq Array.size_setIfInBounds.symm
  | function d scope =>
      exact Nat.le_trans (Nat.le_succ _) (Nat.le_of_eq (Array.size_push scope).symm)
  | run | interpret | evaluate | provide | native => exact Nat.le_refl _

theorem size_natives_mono (s : Session σ) {t u : Nat} (htu : t ≤ u) :
    (s.after t).moment.machine.store.natives.size ≤
      (s.after u).moment.machine.store.natives.size := by
  refine s.count_mono (fun store => store.natives.size)
    (fun m => Nat.le_of_eq (congrArg Array.size m.natives_next.symm))
    (fun request globals m => ?_) htu
  cases request with
  | provide f | native f =>
      exact Nat.le_trans (Nat.le_succ _) (Nat.le_of_eq (Array.size_push f.body).symm)
  | run | interpret | evaluate | function | rebind => exact Nat.le_refl _

theorem orderly_after (h : s.moment.Orderly) (t : Nat) : (s.after t).moment.Orderly :=
  s.after_induction h (fun _ hm => hm.next) (fun request _ _ => request.orderly_opening) t

theorem after_of_iterate {m last : Moment σ} (hlast : last.Halted) (globals : ScopeId)
    (requests : List Request) {t : Nat} (h : Moment.next^[t] m = last) :
    ∃ n, (⟨m, globals, requests⟩ : Session σ).after n = ⟨last, globals, requests⟩ := by
  induction t generalizing m with
  | zero =>
      cases h
      exact ⟨0, rfl⟩
  | succ t ih =>
      by_cases hm : m.Halted
      · rw [hm.iterate] at h
        cases h
        exact ⟨0, rfl⟩
      · rw [Function.iterate_succ_apply] at h
        obtain ⟨n, hn⟩ := ih h
        refine ⟨n + 1, ?_⟩
        rw [after, Function.iterate_succ_apply, next_of_not_halted hm]
        exact hn

theorem after_opening (o : Outcome Value) (i : Interpreter σ) (request : Request)
    (rest : List Request) (r : Outcome Value × Interpreter σ) (hg : r.2.globals = i.globals)
    {t : Nat}
    (h : Moment.next^[t] (request.opening i.globals ⟨.done o, i.environment, [], i.machine⟩) =
      Interpreter.lastMoment r) :
    ∃ n, (resting o i (request :: rest)).after n = resting r.1 r.2 rest := by
  obtain ⟨n, hn⟩ := after_of_iterate ⟨⟨_, rfl⟩, rfl⟩ i.globals rest h
  refine ⟨n + 1, ?_⟩
  have hlast : resting r.1 r.2 rest = ⟨Interpreter.lastMoment r, i.globals, rest⟩ := by
    rw [← hg]
    rfl
  rw [after, Function.iterate_succ_apply, hlast]
  exact hn

variable [Reporter ρ]

theorem after_perform (o : Outcome Value) (request : Request) (rest : List Request) (fuel : Nat)
    (s : ρ × Interpreter σ) (h : (request.perform fuel s).1 ≠ .outOfFuel) :
    ∃ n o', (resting o s.2 (request :: rest)).after n =
        resting o' (request.perform fuel s).2.2 rest ∧
      ∀ v, (request.perform fuel s).1 = .ok (.value v) → o' = .ok v := by
  cases request with
  | run program =>
      simp only [Request.perform, Step.map_ne_outOfFuel, Step.second] at h
      obtain ⟨t, ht⟩ := Interpreter.moment_of_run h
      obtain ⟨n, hn⟩ := after_opening o s.2 (.run program) rest (Interpreter.run fuel program s.2)
        rfl (ht t (Nat.le_refl t))
      refine ⟨n, _, by simpa only [Request.perform, Step.snd_map, Step.second] using hn,
        fun v hv => ?_⟩
      obtain ⟨w, hw, he⟩ := Step.ok_of_map hv
      cases he
      exact hw
  | interpret program =>
      simp only [Request.perform, Step.map_ne_outOfFuel, Interpreter.interpret_ne_outOfFuel] at h
      obtain ⟨t, ht⟩ := Interpreter.moment_of_run h
      obtain ⟨n, hn⟩ := after_opening o s.2 (.interpret program) rest
        (Interpreter.run fuel program s.2) rfl (ht t (Nat.le_refl t))
      rw [← Interpreter.snd_snd_interpret] at hn
      refine ⟨n, _, by simpa only [Request.perform, Step.snd_map] using hn, fun v hv => ?_⟩
      obtain ⟨_, _, he⟩ := Step.ok_of_map hv
      cases he
  | evaluate e =>
      simp only [Request.perform, Step.map_ne_outOfFuel, Step.second] at h
      have hanswers := (Moment.follows fuel).expr e [] ⟨s.2.environment, s.2.machine⟩
      obtain ⟨t, ht⟩ := hanswers.reaches h
      obtain ⟨n, hn⟩ := after_opening o s.2 (.evaluate e) rest
        (Interpreter.evaluate fuel e s.2) rfl ht
      refine ⟨n, _, by simpa only [Request.perform, Step.snd_map, Step.second] using hn,
        fun v hv => ?_⟩
      obtain ⟨w, hw, he⟩ := Step.ok_of_map hv
      cases he
      exact hw
  | provide f => exact ⟨1, o, rfl, nofun⟩
  | function | native =>
      refine ⟨1, _, rfl, fun v hv => ?_⟩
      cases hv
      rfl
  | rebind id scope => exact ⟨1, o, rfl, nofun⟩

/-- A session whose requests all end arrives where they leave the interpreter. On the way it has
every value that was answered at hand. -/
theorem after_session (fuel : Nat) (requests rest : List Request) (o : Outcome Value)
    (s : ρ × Interpreter σ) (h : .outOfFuel ∉ session fuel requests s) :
    ∃ n o', (resting o s.2 (requests ++ rest)).after n =
        resting o' (sessionState fuel requests s).2 rest ∧
      ∀ v, .ok (.value v) ∈ session fuel requests s →
        ∃ u ≤ n, ((resting o s.2 (requests ++ rest)).after u).moment.focus = .done (.ok v) := by
  induction requests generalizing o s with
  | nil => exact ⟨0, o, rfl, fun v hv => absurd hv List.not_mem_nil⟩
  | cons request requests ih =>
      simp only [session, List.mem_cons, not_or] at h
      obtain ⟨n, o', hn, hvalue⟩ := after_perform o request (requests ++ rest) fuel s (Ne.symm h.1)
      obtain ⟨n', o'', hn', hvalues⟩ := ih o' (request.perform fuel s).2 h.2
      have hthen (u : Nat) : (resting o s.2 (request :: requests ++ rest)).after (u + n) =
          (resting o' (request.perform fuel s).2.2 (requests ++ rest)).after u := by
        rw [after_add]
        exact congrArg (after · u) hn
      refine ⟨n' + n, o'', (hthen n').trans hn', fun v hv => ?_⟩
      rcases List.mem_cons.mp hv with hv | hv
      · refine ⟨n, Nat.le_add_left n n', ?_⟩
        have hn := hthen 0
        rw [Nat.zero_add] at hn
        rw [hn, ← hvalue v hv.symm]
        rfl
      · obtain ⟨u, hu, hfocus⟩ := hvalues v hv
        exact ⟨u + n, Nat.add_le_add_right hu n, by rw [hthen]; exact hfocus⟩

end Session

end Scriptlet
