import Scriptlet.Machine

namespace Scriptlet

variable {S σ α β : Type}

namespace Step

def Approximates (x y : Step S α) : Prop :=
  ∀ s, (x s).1 = .outOfFuel ∨ y s = x s

namespace Approximates

theorem refl (x : Step S α) : x.Approximates x :=
  fun _ => .inr rfl

theorem outOfFuel (x : Step S α) : Step.outOfFuel.Approximates x :=
  fun _ => .inl rfl

theorem trans {x y z : Step S α} (h : x.Approximates y) (k : y.Approximates z) :
    x.Approximates z := by
  intro s
  rcases h s with h | h
  · exact .inl h
  · rcases k s with k | k
    · exact .inl (h ▸ k)
    · exact .inr (k.trans h)

theorem bind {x y : Step S α} {f g : α → Step S β} (h : x.Approximates y)
    (k : ∀ a, (f a).Approximates (g a)) : (x >>= f).Approximates (y >>= g) := by
  intro s
  simp only [bind_apply]
  rcases h s with h | h
  · have hx : x s = (.outOfFuel, (x s).2) := Prod.ext h rfl
    exact .inl (by rw [hx])
  · rw [h]
    obtain ⟨o, t⟩ := x s
    cases o with
    | ok a => exact k a t
    | error e => exact .inr rfl
    | outOfFuel => exact .inl rfl

theorem mapM {f g : α → Step S β} (h : ∀ a, (f a).Approximates (g a)) (as : List α) :
    (as.mapM f).Approximates (as.mapM g) := by
  induction as with
  | nil => exact refl _
  | cons a as ih =>
      simp only [List.mapM_cons]
      exact (h a).bind fun b => ih.bind fun bs => refl _

theorem foldlM {f g : β → α → Step S β} (h : ∀ b a, (f b a).Approximates (g b a)) (as : List α)
    (b : β) : (as.foldlM f b).Approximates (as.foldlM g b) := by
  induction as generalizing b with
  | nil => exact refl _
  | cons a as ih =>
      simp only [List.foldlM_cons]
      exact (h b a).bind ih

theorem within {x y : Step (Cursor σ) α} (h : x.Approximates y) (scope : ScopeId) :
    (Machine.within scope x).Approximates (Machine.within scope y) := by
  intro m
  rcases h ⟨scope, m⟩ with h | h
  · exact .inl h
  · exact .inr (by simp only [Machine.within, h])

theorem nested {x y : Step (Machine σ) α} (h : x.Approximates y) :
    (Machine.nested x).Approximates (Machine.nested y) := by
  intro m
  rcases h { m with callDepth := m.callDepth + 1 } with h | h
  · exact .inl h
  · exact .inr (by simp only [Machine.nested, h])

theorem here {f g : ScopeId → Step (Machine σ) α} (h : ∀ i, (f i).Approximates (g i)) :
    (Cursor.here f).Approximates (Cursor.here g) := by
  intro c
  rcases h c.scope c.machine with h | h
  · exact .inl h
  · exact .inr (by simp only [Cursor.here, h])

end Approximates

end Step

end Scriptlet
