import Scriptlet.EvalError

namespace Scriptlet

/-- How an evaluation ends. Running out of fuel is no answer: with more fuel there may be one. -/
inductive Outcome (α : Type) where
  | ok (value : α)
  | error (e : EvalError)
  | outOfFuel

instance Outcome.decidableEqError {α : Type} (o : Outcome α) (e : EvalError) :
    Decidable (o = .error e) :=
  match o with
  | .error e' => decidable_of_iff (e' = e) ⟨congrArg _, Outcome.error.inj⟩
  | .ok _ | .outOfFuel => isFalse nofun

/-- A computation on a state that keeps what it did to the state however it ends. -/
def Step (S α : Type) : Type :=
  S → Outcome α × S

namespace Step

variable {S T α β : Type}

protected def pure (a : α) : Step S α :=
  fun s => (.ok a, s)

protected def bind (x : Step S α) (f : α → Step S β) : Step S β :=
  fun s =>
    match x s with
    | (.ok a, s) => f a s
    | (.error e, s) => (.error e, s)
    | (.outOfFuel, s) => (.outOfFuel, s)

instance : Monad (Step S) where
  pure := Step.pure
  bind := Step.bind

theorem pure_apply (a : α) (s : S) : (pure a : Step S α) s = (.ok a, s) :=
  rfl

theorem bind_apply (x : Step S α) (f : α → Step S β) (s : S) :
    (x >>= f) s =
      match x s with
      | (.ok a, s) => f a s
      | (.error e, s) => (.error e, s)
      | (.outOfFuel, s) => (.outOfFuel, s) :=
  rfl

instance : LawfulMonad (Step S) := LawfulMonad.mk' (Step S)
  (fun x => by
    funext s
    change Step.bind x (fun a => Step.pure a) s = x s
    rw [Step.bind]
    split <;> simp_all [Step.pure])
  (fun _ _ => rfl)
  (fun x f g => by
    funext s
    change Step.bind (Step.bind x f) g s = Step.bind x (fun a => Step.bind (f a) g) s
    simp only [Step.bind]
    cases x s with
    | mk o s => cases o <;> rfl)

def outOfFuel : Step S α :=
  fun s => (.outOfFuel, s)

def fail (fault : Fault) (span : Span) : Step S α :=
  fun s => (.error ⟨fault, span⟩, s)

def blame (span : Span) : Except Fault α → Step S α
  | .ok a => Step.pure a
  | .error fault => fail fault span

end Step

end Scriptlet
