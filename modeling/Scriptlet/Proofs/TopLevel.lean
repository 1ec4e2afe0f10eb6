import Scriptlet.Proofs.StoreEvents

namespace Scriptlet

variable {σ : Type}

namespace Moment

/-- What a step does to the scopes in use, seen from the top level. -/
inductive LevelStep (inner : List ScopeId) (top : ScopeId) (m m' : Moment σ) : Prop
  | pass (declares : m.event.declares = false) (inner' : List ScopeId)
      (inUse : m'.inUse = inner' ++ [top])
      (mem : ∀ i ∈ inner', i ∈ inner ∨ i = m.machine.store.scopes.size)
  | inward (declares : m.event.declares = true) (rest : List ScopeId)
      (inner_eq : inner = m.scope :: rest)
      (inUse : m'.inUse = (m.machine.store.scopes.size :: rest) ++ [top])
  | advance (declares : m.event.declares = true) (inner_eq : inner = []) (scope_eq : m.scope = top)
      (inUse : m'.inUse = [m.machine.store.scopes.size])

theorem next_levelStep [Sink σ] {m : Moment σ} {inner : List ScopeId} {top : ScopeId}
    (h : m.inUse = inner ++ [top]) : LevelStep inner top m m.next := by
  have hdeclares := m.declares_event
  cases hd : m.declaration? with
  | none =>
      rw [hd] at hdeclares
      cases m.next_passes hd with
      | stay _ hu => exact .pass hdeclares inner (hu.trans h) fun i hi => .inl hi
      | back _ hu =>
          -- the top level is never left
          cases inner with
          | nil => cases hu.trans (List.cons.inj h).2
          | cons i inner =>
              refine .pass hdeclares inner (hu.trans (List.cons.inj h).2) fun j hj => ?_
              exact .inl (List.mem_cons_of_mem i hj)
      | enter _ _ hu =>
          refine .pass hdeclares (m.machine.store.scopes.size :: inner) ?_ fun i hi => ?_
          · rw [hu, h, List.cons_append]
          · exact (List.mem_cons.mp hi).symm
  | some name =>
      rw [hd] at hdeclares
      have hu := (next_declares hd).inUse
      cases inner with
      | nil =>
          obtain ⟨hscope, hwaiting⟩ := List.cons.inj h
          exact .advance hdeclares rfl hscope (by rw [hu, hwaiting])
      | cons i inner =>
          obtain ⟨rfl, hwaiting⟩ := List.cons.inj h
          exact .inward hdeclares inner rfl (by rw [hu, hwaiting]; rfl)

end Moment

end Scriptlet
