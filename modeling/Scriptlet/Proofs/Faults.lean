import Scriptlet.Operator
import Scriptlet.Proofs.Computation

namespace Scriptlet

variable {S σ α β : Type}

def BinaryOp.isTyped : BinaryOp → Bool
  | .add | .sub | .mul | .div | .greater | .greaterEq | .less | .lessEq => true
  | .eq | .notEq | .comma => false

theorem UnaryOp.fault_of_apply {op : UnaryOp} {v : Value} {fault : Fault}
    (h : op.apply v = .error fault) : op = .neg ∧ ∃ message, fault = .typeMismatch message := by
  cases op with
  | neg =>
      cases v with
      | number x => cases h
      | string | bool | nil | callable =>
          cases h
          exact ⟨rfl, _, rfl⟩
  | not => cases h

section

variable {a b : Value} {fault : Fault}

theorem Value.fault_of_numbers (h : numbers a b = .error fault) :
    ∃ message, fault = .typeMismatch message := by
  unfold numbers at h
  split at h
  · cases h
  · cases h
    exact ⟨_, rfl⟩

theorem Value.fault_of_add (h : a.add b = .error fault) :
    ∃ message, fault = .typeMismatch message := by
  unfold add at h
  split at h
  · cases h
  · cases h
  · cases h
  · cases h
    exact ⟨_, rfl⟩

theorem Value.fault_of_div (h : a.div b = .error fault) :
    (∃ message, fault = .typeMismatch message) ∨ fault = .divisionByZero := by
  unfold div at h
  cases hn : numbers a b with
  | error fault' =>
      rw [hn] at h
      cases h
      exact .inl (fault_of_numbers hn)
  | ok xy =>
      rw [hn] at h
      change (if xy.2 == 0.0 then .error .divisionByZero else .ok (.number (xy.1 / xy.2))) =
        (.error fault : Except Fault Value) at h
      split at h
      · cases h
        exact .inr rfl
      · cases h

theorem Value.fault_of_arithmetic {f : Float → Float → Float}
    (h : arithmetic f a b = .error fault) : ∃ message, fault = .typeMismatch message := by
  unfold arithmetic at h
  cases hn : numbers a b with
  | error fault' =>
      rw [hn] at h
      cases h
      exact fault_of_numbers hn
  | ok xy =>
      rw [hn] at h
      cases h

theorem Value.fault_of_comparison {f : Float → Float → Bool}
    (h : comparison f a b = .error fault) : ∃ message, fault = .typeMismatch message := by
  unfold comparison at h
  cases hn : numbers a b with
  | error fault' =>
      rw [hn] at h
      cases h
      exact fault_of_numbers hn
  | ok xy =>
      rw [hn] at h
      cases h

theorem BinaryOp.fault_of_apply {op : BinaryOp} (h : op.apply a b = .error fault) :
    (op.isTyped = true ∧ ∃ message, fault = .typeMismatch message) ∨
      (op = .div ∧ fault = .divisionByZero) := by
  cases op with
  | add => exact .inl ⟨rfl, Value.fault_of_add h⟩
  | sub | mul => exact .inl ⟨rfl, Value.fault_of_arithmetic h⟩
  | div => exact (Value.fault_of_div h).imp (⟨rfl, ·⟩) (⟨rfl, ·⟩)
  | greater | greaterEq | less | lessEq =>
      rw [apply] at h
      exact .inl ⟨rfl, Value.fault_of_comparison h⟩
  | eq | notEq | comma => cases h

end

namespace Step

/-- From a state where `I` holds, the computation fails only with errors of which `E` holds. -/
def Faults (I : S → Prop) (E : EvalError → Prop) (x : Step S α) : Prop :=
  ∀ s, I s → ∀ e, (x s).1 = .error e → E e

namespace Faults

variable {I : S → Prop} {E : EvalError → Prop} {P : α → Prop} {Q : β → Prop}

theorem pure (a : α) : Faults I E (Pure.pure a : Step S α) :=
  fun _ _ _ h => nomatch h

theorem outOfFuel : Faults I E (Step.outOfFuel : Step S α) :=
  fun _ _ _ h => nomatch h

theorem fail {fault : Fault} {span : Span} (h : E ⟨fault, span⟩) :
    Faults I E (Step.fail fault span : Step S α) := by
  intro s _ e he
  cases he
  exact h

theorem blame {span : Span} {r : Except Fault α} (h : ∀ fault, r = .error fault → E ⟨fault, span⟩) :
    Faults I E (Step.blame span r : Step S α) := by
  cases r with
  | ok a => exact pure a
  | error fault => exact fail (h fault rfl)

theorem bind {x : Step S α} {f : α → Step S β} (h : Faults I E x) (hx : Maintains I P x)
    (hf : ∀ a, P a → Faults I E (f a)) : Faults I E (x >>= f) := by
  intro s hs e he
  have hfault := h s hs
  obtain ⟨ht, hP⟩ := hx s hs
  rw [bind_apply] at he
  generalize x s = r at he hfault ht hP
  obtain ⟨o, t⟩ := r
  cases o with
  | ok a => exact hf a (hP a rfl) t ht e he
  | error e' =>
      cases he
      exact hfault e rfl
  | outOfFuel => cases he

theorem bind_pure {x : Step S α} {g : α → β} (h : Faults I E x) :
    Faults I E (x >>= fun a => Pure.pure (g a)) := by
  intro s hs e he
  have hfault := h s hs
  rw [bind_apply] at he
  generalize x s = r at he hfault
  obtain ⟨o, t⟩ := r
  cases o with
  | ok a => cases he
  | error e' =>
      cases he
      exact hfault e rfl
  | outOfFuel => cases he

theorem map {x : Step S α} {g : α → β} (h : Faults I E x) : Faults I E (g <$> x) := by
  rw [map_eq_pure_bind]
  exact h.bind_pure

theorem mapM {f : α → Step S β} {as : List α} (h : ∀ a ∈ as, Faults I E (f a))
    (hf : ∀ a, Maintains I Q (f a)) : Faults I E (as.mapM f) := by
  induction as with
  | nil => exact pure []
  | cons a as ih =>
      rw [List.mapM_cons]
      exact (h a List.mem_cons_self).bind (hf a) fun b _ =>
        (ih fun a' ha' => h a' (List.mem_cons_of_mem a ha')).bind (.mapM hf as) fun bs _ =>
          pure (b :: bs)

theorem foldlM {f : β → α → Step S β} {as : List α} (h : ∀ a ∈ as, ∀ b, Faults I E (f b a))
    (hf : ∀ a ∈ as, ∀ b, Maintains I Q (f b a)) (b : β) : Faults I E (as.foldlM f b) := by
  induction as generalizing b with
  | nil => exact pure b
  | cons a as ih =>
      rw [List.foldlM_cons]
      exact (h a List.mem_cons_self b).bind (hf a List.mem_cons_self b) fun b' _ =>
        ih (fun a' ha' => h a' (List.mem_cons_of_mem a ha'))
          (fun a' ha' => hf a' (List.mem_cons_of_mem a ha')) b'

theorem here {I : Machine σ → Prop} {f : ScopeId → Step (Machine σ) α}
    (h : ∀ i, Faults I E (f i)) : Faults (fun c : Cursor σ => I c.machine) E (Cursor.here f) :=
  fun c hc => h c.scope c.machine hc

theorem within {I : Machine σ → Prop} {x : Step (Cursor σ) α}
    (h : Faults (fun c => I c.machine) E x) (scope : ScopeId) :
    Faults I E (Machine.within scope x) :=
  fun m hm => h ⟨scope, m⟩ hm

end Faults

end Step

open Step

section

variable {I : Machine σ → Prop} {E : EvalError → Prop}

theorem Machine.read_faults {scope : ScopeId} {x : Ident}
    (h : E ⟨.undefinedVariable x.name, x.span⟩) :
    Faults I E (Machine.read scope x : Step (Machine σ) Value) := by
  intro m _ e he
  unfold Machine.read at he
  cases hv : m.store.get? scope x.name with
  | none =>
      rw [hv] at he
      cases he
      exact h
  | some v =>
      rw [hv] at he
      cases he

theorem Machine.write_faults {scope : ScopeId} {x : Ident} {v : Value}
    (h : E ⟨.undefinedVariable x.name, x.span⟩) :
    Faults I E (Machine.write scope x v : Step (Machine σ) Unit) := by
  intro m _ e he
  unfold Machine.write at he
  cases hc : m.store.resolve scope x.name with
  | none =>
      rw [hc] at he
      cases he
      exact h
  | some c =>
      rw [hc] at he
      cases he

theorem Machine.invoke_faults {id : NativeId} {name : String} {args : List Value} {paren : Span}
    (h : ∀ message, E ⟨.nativeFailure name message, paren⟩) :
    Faults I E (Machine.invoke id name args paren : Step (Machine σ) Value) := by
  intro m hm
  refine Faults.blame (fun fault hf => ?_) m hm
  cases hbody : m.store.nativeBody id args with
  | ok v =>
      rw [hbody] at hf
      cases hf
  | error message =>
      rw [hbody] at hf
      cases hf
      exact h message

theorem Machine.checkDepth_faults {paren : Span} (h : ∀ limit, E ⟨.stackOverflow limit, paren⟩) :
    Faults I E (Machine.checkDepth paren : Step (Machine σ) Unit) := by
  intro m _ e he
  unfold Machine.checkDepth at he
  split at he
  · cases he
  · cases he
    exact h _

theorem Machine.println_faults [Sink σ] (line : String) :
    Faults I E (Machine.println line : Step (Machine σ) Unit) :=
  fun _ _ _ h => nomatch h

theorem Machine.onStore_faults (f : Store → α × Store) :
    Faults I E (Machine.onStore f : Step (Machine σ) α) :=
  fun _ _ _ h => nomatch h

theorem Cursor.declare_faults {I : Cursor σ → Prop} (name : String) (v : Value) :
    Faults I E (Cursor.declare name v : Step (Cursor σ) Value) :=
  fun _ _ _ h => nomatch h

end

end Scriptlet
