import Scriptlet.Machine

namespace Scriptlet

variable {S T σ α β : Type}

theorem Outcome.ok_ne_outOfFuel (a : α) : Outcome.ok a ≠ .outOfFuel :=
  nofun

theorem Outcome.error_ne_outOfFuel (e : EvalError) : (Outcome.error e : Outcome α) ≠ .outOfFuel :=
  nofun

def EvalError.IsOverflow (e : EvalError) : Prop :=
  ∃ limit, e.fault = .stackOverflow limit

@[simp] theorem EvalError.isOverflow_mk {fault : Fault} {span : Span} :
    (⟨fault, span⟩ : EvalError).IsOverflow ↔ ∃ limit, fault = .stackOverflow limit :=
  Iff.rfl

def Outcome.IsOverflow (o : Outcome α) : Prop :=
  ∃ e, o = .error e ∧ e.IsOverflow

namespace Step

/-- However the computation ends, the state it leaves is related to the one it found. -/
def Preserves (R : S → S → Prop) (x : Step S α) : Prop :=
  ∀ s, R s (x s).2

namespace Preserves

variable {R : S → S → Prop}

theorem pure (hr : ∀ s, R s s) (a : α) : Preserves R (Pure.pure a : Step S α) :=
  hr

theorem fail (hr : ∀ s, R s s) (fault : Fault) (span : Span) :
    Preserves R (Step.fail fault span : Step S α) :=
  hr

theorem outOfFuel (hr : ∀ s, R s s) : Preserves R (Step.outOfFuel : Step S α) :=
  hr

theorem blame (hr : ∀ s, R s s) (span : Span) (r : Except Fault α) :
    Preserves R (Step.blame span r : Step S α) := by
  cases r with
  | ok a => exact hr
  | error fault => exact hr

theorem bind (ht : ∀ s t u, R s t → R t u → R s u) {x : Step S α} {f : α → Step S β}
    (hx : Preserves R x) (hf : ∀ a, Preserves R (f a)) : Preserves R (x >>= f) := by
  intro s
  have h := hx s
  rw [bind_apply]
  generalize x s = r at h ⊢
  obtain ⟨o, t⟩ := r
  cases o with
  | ok a => exact ht s t _ h (hf a t)
  | error e => exact h
  | outOfFuel => exact h

theorem map (g : α → β) {x : Step S α} (hx : Preserves R x) : Preserves R (g <$> x) := by
  intro s
  have h := hx s
  rw [map_eq_pure_bind, bind_apply]
  generalize x s = r at h ⊢
  obtain ⟨o, t⟩ := r
  cases o <;> exact h

theorem mapM (hr : ∀ s, R s s) (ht : ∀ s t u, R s t → R t u → R s u) {f : α → Step S β}
    (h : ∀ a, Preserves R (f a)) (as : List α) : Preserves R (as.mapM f) := by
  induction as with
  | nil => exact hr
  | cons a as ih =>
      rw [List.mapM_cons]
      exact bind ht (h a) fun b => bind ht ih fun bs => pure hr (b :: bs)

theorem foldlM (hr : ∀ s, R s s) (ht : ∀ s t u, R s t → R t u → R s u) {f : β → α → Step S β}
    (h : ∀ b a, Preserves R (f b a)) (as : List α) (b : β) : Preserves R (as.foldlM f b) := by
  induction as generalizing b with
  | nil => exact hr
  | cons a as ih =>
      rw [List.foldlM_cons]
      exact bind ht (h b a) ih

end Preserves

/-- Where `I` holds at the start it holds at the end, and `P` holds of a result. -/
def Maintains (I : S → Prop) (P : α → Prop) (x : Step S α) : Prop :=
  ∀ s, I s → I (x s).2 ∧ ∀ a, (x s).1 = .ok a → P a

namespace Maintains

variable {I : S → Prop} {P : α → Prop} {Q : β → Prop}

theorem pure {a : α} (ha : P a) : Maintains I P (Pure.pure a : Step S α) := by
  intro s hs
  refine ⟨hs, fun b hb => ?_⟩
  cases hb
  exact ha

theorem trivial {x : Step S α} : Maintains (fun _ => True) (fun _ => True) x :=
  fun _ _ => ⟨True.intro, fun _ _ => True.intro⟩

theorem of_preserves {R : S → S → Prop} {x : Step S α} (h : Preserves R x)
    (hI : ∀ s t, I s → R s t → I t) : Maintains I (fun _ => True) x :=
  fun s hs => ⟨hI s _ hs (h s), fun _ _ => True.intro⟩

theorem fail (fault : Fault) (span : Span) : Maintains I P (Step.fail fault span : Step S α) :=
  fun _ hs => ⟨hs, nofun⟩

theorem outOfFuel : Maintains I P (Step.outOfFuel : Step S α) :=
  fun _ hs => ⟨hs, nofun⟩

theorem blame (span : Span) {r : Except Fault α} (h : ∀ a, r = .ok a → P a) :
    Maintains I P (Step.blame span r : Step S α) := by
  cases r with
  | ok a => exact pure (h a rfl)
  | error fault => exact fail fault span

theorem bind {x : Step S α} {f : α → Step S β} (hx : Maintains I P x)
    (hf : ∀ a, P a → Maintains I Q (f a)) : Maintains I Q (x >>= f) := by
  intro s hs
  obtain ⟨ht, hP⟩ := hx s hs
  rw [bind_apply]
  generalize x s = r at ht hP ⊢
  obtain ⟨o, t⟩ := r
  cases o with
  | ok a => exact hf a (hP a rfl) t ht
  | error e => exact ⟨ht, nofun⟩
  | outOfFuel => exact ⟨ht, nofun⟩

theorem map {g : α → β} {x : Step S α} (hx : Maintains I P x) (hg : ∀ a, P a → Q (g a)) :
    Maintains I Q (g <$> x) := by
  rw [map_eq_pure_bind]
  exact hx.bind fun a ha => pure (hg a ha)

theorem mapM {f : α → Step S β} (h : ∀ a, Maintains I Q (f a)) (as : List α) :
    Maintains I (fun bs => ∀ b ∈ bs, Q b) (as.mapM f) := by
  induction as with
  | nil => exact pure fun _ hb => absurd hb List.not_mem_nil
  | cons a as ih =>
      rw [List.mapM_cons]
      exact (h a).bind fun b hb => ih.bind fun bs hbs => pure (List.forall_mem_cons.mpr ⟨hb, hbs⟩)

theorem foldlM {f : β → α → Step S β} {as : List α} (h : ∀ a ∈ as, ∀ b, Maintains I Q (f b a))
    {b : β} (hb : Q b) : Maintains I Q (as.foldlM f b) := by
  induction as generalizing b with
  | nil => exact pure hb
  | cons a as ih =>
      rw [List.foldlM_cons]
      exact (h a List.mem_cons_self b).bind fun b' hb' =>
        ih (fun a' ha' => h a' (List.mem_cons_of_mem a ha')) hb'

theorem here {I : Machine σ → Prop} {f : ScopeId → Step (Machine σ) α}
    (h : ∀ i, Maintains I P (f i)) :
    Maintains (fun c : Cursor σ => I c.machine) P (Cursor.here f) :=
  fun c hc => h c.scope c.machine hc

theorem within {I : Machine σ → Prop} {x : Step (Cursor σ) α}
    (h : Maintains (fun c => I c.machine) P x) (scope : ScopeId) :
    Maintains I P (Machine.within scope x) :=
  fun m hm => h ⟨scope, m⟩ hm

end Maintains

/-- From related states where `I` holds, the two computations end alike and in related states. -/
def Simulates (I : S → Prop) (R : S → T → Prop) (x : Step S α) (y : Step T α) : Prop :=
  ∀ s t, I s → R s t → (x s).1 = (y t).1 ∧ R (x s).2 (y t).2

namespace Simulates

variable {I : S → Prop} {R : S → T → Prop} {P : α → Prop} {Q : β → Prop}

theorem pure (a : α) : Simulates I R (Pure.pure a : Step S α) (Pure.pure a) :=
  fun _ _ _ h => ⟨rfl, h⟩

theorem fail (fault : Fault) (span : Span) :
    Simulates I R (Step.fail fault span : Step S α) (Step.fail fault span) :=
  fun _ _ _ h => ⟨rfl, h⟩

theorem outOfFuel : Simulates I R (Step.outOfFuel : Step S α) Step.outOfFuel :=
  fun _ _ _ h => ⟨rfl, h⟩

theorem blame (span : Span) (r : Except Fault α) :
    Simulates I R (Step.blame span r : Step S α) (Step.blame span r) := by
  cases r with
  | ok a => exact pure a
  | error fault => exact fail fault span

theorem bind {x : Step S α} {y : Step T α} {f : α → Step S β} {g : α → Step T β}
    (h : Simulates I R x y) (hx : Maintains I P x) (hf : ∀ a, P a → Simulates I R (f a) (g a)) :
    Simulates I R (x >>= f) (y >>= g) := by
  intro s t hs hst
  obtain ⟨ho, hr⟩ := h s t hs hst
  obtain ⟨hi, hP⟩ := hx s hs
  rw [bind_apply, bind_apply]
  generalize x s = r at ho hr hi hP ⊢
  generalize y t = q at ho hr ⊢
  obtain ⟨o, s'⟩ := r
  obtain ⟨o', t'⟩ := q
  cases ho
  cases o with
  | ok a => exact hf a (hP a rfl) s' t' hi hr
  | error e => exact ⟨rfl, hr⟩
  | outOfFuel => exact ⟨rfl, hr⟩

theorem mapM {f : α → Step S β} {g : α → Step T β} {as : List α}
    (h : ∀ a ∈ as, Simulates I R (f a) (g a)) (hf : ∀ a, Maintains I Q (f a)) :
    Simulates I R (as.mapM f) (as.mapM g) := by
  induction as with
  | nil => exact pure []
  | cons a as ih =>
      rw [List.mapM_cons, List.mapM_cons]
      exact (h a List.mem_cons_self).bind (hf a) fun b _ =>
        (ih fun a' ha' => h a' (List.mem_cons_of_mem a ha')).bind (.mapM hf as) fun bs _ =>
          pure (b :: bs)

theorem foldlM {f : β → α → Step S β} {g : β → α → Step T β} {as : List α}
    (h : ∀ a ∈ as, ∀ b, Simulates I R (f b a) (g b a))
    (hf : ∀ a ∈ as, ∀ b, Maintains I Q (f b a)) (b : β) :
    Simulates I R (as.foldlM f b) (as.foldlM g b) := by
  induction as generalizing b with
  | nil => exact pure b
  | cons a as ih =>
      rw [List.foldlM_cons, List.foldlM_cons]
      exact (h a List.mem_cons_self b).bind (hf a List.mem_cons_self b) fun b' _ =>
        ih (fun a' ha' => h a' (List.mem_cons_of_mem a ha'))
          (fun a' ha' => hf a' (List.mem_cons_of_mem a ha')) b'

end Simulates

def Fuelless (x : Step S α) : Prop :=
  ∀ s, (x s).1 ≠ .outOfFuel

theorem Fuelless.bind {x : Step S α} {f : α → Step S β} (hx : x.Fuelless)
    (hf : ∀ a, (f a).Fuelless) : (x >>= f).Fuelless := by
  intro s
  have h := hx s
  rw [bind_apply]
  generalize x s = r at h ⊢
  obtain ⟨o, t⟩ := r
  cases o with
  | ok a => exact hf a t
  | error e => exact nofun
  | outOfFuel => exact absurd rfl h

theorem Fuelless.pure (a : α) : (Pure.pure a : Step S α).Fuelless :=
  fun _ => nofun

theorem Fuelless.fail (fault : Fault) (span : Span) :
    (Step.fail fault span : Step S α).Fuelless :=
  fun _ => nofun

theorem Fuelless.blame (span : Span) (r : Except Fault α) :
    (Step.blame span r : Step S α).Fuelless := by
  cases r <;> exact nofun

theorem Fuelless.here {f : ScopeId → Step (Machine σ) α} (h : ∀ i, (f i).Fuelless) :
    (Cursor.here f).Fuelless :=
  fun c => h c.scope c.machine

/-- With enough fuel the computation has an outcome, which stays the same with more. -/
def Ends (I : S → Prop) (x : Nat → Step S α) : Prop :=
  ∀ s, I s → ∃ n r, r.1 ≠ Outcome.outOfFuel ∧ ∀ k ≥ n, x k s = r

namespace Ends

variable {I : S → Prop} {P : α → Prop} {Q : β → Prop}

theorem of_fuelless {x : Step S α} (h : x.Fuelless) : Ends I fun _ => x :=
  fun s _ => ⟨0, x s, h s, fun _ _ => rfl⟩

theorem pure (a : α) : Ends I fun _ => (Pure.pure a : Step S α) :=
  of_fuelless (.pure a)

theorem of_succ {x : Nat → Step S α} (h : Ends I fun n => x (n + 1)) : Ends I x := by
  intro s hs
  obtain ⟨n, r, hr, hn⟩ := h s hs
  refine ⟨n + 1, r, hr, fun k hk => ?_⟩
  obtain ⟨k, rfl⟩ := Nat.exists_eq_add_of_lt (Nat.lt_of_lt_of_le (Nat.zero_lt_succ n) hk)
  rw [Nat.zero_add] at hk ⊢
  exact hn k (Nat.le_of_succ_le_succ hk)

theorem bind {x : Nat → Step S α} {f : Nat → α → Step S β} (h : Ends I x)
    (hx : ∀ n, Maintains I P (x n)) (hf : ∀ a, P a → Ends I fun n => f n a) :
    Ends I fun n => x n >>= f n := by
  intro s hs
  obtain ⟨n, r, hr, hn⟩ := h s hs
  obtain ⟨ht, hP⟩ := hx n s hs
  rw [hn n (Nat.le_refl n)] at ht hP
  obtain ⟨o, t⟩ := r
  cases o with
  | ok a =>
      obtain ⟨n', r', hr', hn'⟩ := hf a (hP a rfl) t ht
      refine ⟨max n n', r', hr', fun k hk => ?_⟩
      change (x k >>= f k) s = r'
      rw [bind_apply, hn k (Nat.le_trans (Nat.le_max_left n n') hk)]
      exact hn' k (Nat.le_trans (Nat.le_max_right n n') hk)
  | error e =>
      refine ⟨n, (.error e, t), Outcome.error_ne_outOfFuel e, fun k hk => ?_⟩
      change (x k >>= f k) s = (.error e, t)
      rw [bind_apply, hn k hk]
  | outOfFuel => exact absurd rfl hr

theorem map (g : α → β) {x : Nat → Step S α} (h : Ends I x) : Ends I fun n => g <$> x n := by
  intro s hs
  obtain ⟨n, ⟨o, t⟩, hr, hn⟩ := h s hs
  simp only [map_eq_pure_bind]
  cases o with
  | ok a =>
      refine ⟨n, (.ok (g a), t), Outcome.ok_ne_outOfFuel (g a), fun k hk => ?_⟩
      rw [bind_apply, hn k hk]
      rfl
  | error e =>
      refine ⟨n, (.error e, t), Outcome.error_ne_outOfFuel e, fun k hk => ?_⟩
      rw [bind_apply, hn k hk]
  | outOfFuel => exact absurd rfl hr

theorem mapM {f : Nat → α → Step S β} {as : List α} (h : ∀ a ∈ as, Ends I fun n => f n a)
    (hf : ∀ n a, Maintains I Q (f n a)) : Ends I fun n => as.mapM (f n) := by
  induction as with
  | nil => exact pure []
  | cons a as ih =>
      simp only [List.mapM_cons]
      exact (h a List.mem_cons_self).bind (fun n => hf n a) fun b _ =>
        (ih fun a' ha' => h a' (List.mem_cons_of_mem a ha')).bind (fun n => .mapM (hf n) as)
          fun bs _ => pure (b :: bs)

theorem foldlM {f : Nat → β → α → Step S β} {as : List α}
    (h : ∀ a ∈ as, ∀ b, Ends I fun n => f n b a)
    (hf : ∀ n, ∀ a ∈ as, ∀ b, Maintains I Q (f n b a)) (b : β) :
    Ends I fun n => as.foldlM (f n) b := by
  induction as generalizing b with
  | nil => exact pure b
  | cons a as ih =>
      simp only [List.foldlM_cons]
      exact (h a List.mem_cons_self b).bind (fun n => hf n a List.mem_cons_self b) fun b' _ =>
        ih (fun a' ha' => h a' (List.mem_cons_of_mem a ha'))
          (fun n a' ha' => hf n a' (List.mem_cons_of_mem a ha')) b'

theorem here {I : Machine σ → Prop} {f : Nat → ScopeId → Step (Machine σ) α}
    (h : ∀ i, Ends I fun n => f n i) :
    Ends (fun c : Cursor σ => I c.machine) fun n => Cursor.here (f n) := by
  intro c hc
  obtain ⟨n, r, hr, hn⟩ := h c.scope c.machine hc
  refine ⟨n, (r.1, ⟨c.scope, r.2⟩), hr, fun k hk => ?_⟩
  simp only [Cursor.here, hn k hk]

theorem within {I : Machine σ → Prop} {x : Nat → Step (Cursor σ) α}
    (h : Ends (fun c => I c.machine) x) (scope : ScopeId) :
    Ends I fun n => Machine.within scope (x n) := by
  intro m hm
  obtain ⟨n, r, hr, hn⟩ := h ⟨scope, m⟩ hm
  refine ⟨n, (r.1, r.2.machine), hr, fun k hk => ?_⟩
  simp only [Machine.within, hn k hk]

end Ends

end Step

theorem Machine.read_fuelless (scope : ScopeId) (x : Ident) :
    (Machine.read scope x : Step (Machine σ) Value).Fuelless := by
  intro m
  unfold Machine.read
  cases m.store.get? scope x.name <;> exact nofun

theorem Machine.write_fuelless (scope : ScopeId) (x : Ident) (v : Value) :
    (Machine.write scope x v : Step (Machine σ) Unit).Fuelless := by
  intro m
  unfold Machine.write
  cases m.store.resolve scope x.name <;> exact nofun

theorem Machine.onStore_fuelless (f : Store → α × Store) :
    (Machine.onStore f : Step (Machine σ) α).Fuelless :=
  fun _ => nofun

theorem Machine.println_fuelless [Sink σ] (line : String) :
    (Machine.println line : Step (Machine σ) Unit).Fuelless :=
  fun _ => nofun

theorem Cursor.declare_fuelless (name : String) (v : Value) :
    (Cursor.declare name v : Step (Cursor σ) Value).Fuelless :=
  fun _ => nofun

theorem Machine.invoke_fuelless (id : NativeId) (name : String) (args : List Value)
    (paren : Span) : (Machine.invoke id name args paren : Step (Machine σ) Value).Fuelless :=
  fun m => Step.Fuelless.blame paren _ m

end Scriptlet
