import Scriptlet.Proofs.FrameStack

namespace Scriptlet

namespace Store

/-- A scope and those around it stand for frames of variables, the innermost first. -/
inductive Layout (s : Store) : ScopeId → List (List (String × CellId)) → Prop
  | bottom {i : ScopeId} (hp : s.parent? i = none) : Layout s i [s.bindings i]
  | block {i p : ScopeId} {fs : List (List (String × CellId))} (hp : s.parent? i = some p)
      (outer : Layout s p fs) : Layout s i (s.bindings i :: fs)
  | declared {i p : ScopeId} {f : List (String × CellId)} {fs : List (List (String × CellId))}
      (hp : s.parent? i = some p) (older : Layout s p (f :: fs)) (hf : f <:+ s.bindings i) :
      Layout s i (s.bindings i :: fs)

variable {s t : Store} {i : ScopeId} {f : List (String × CellId)}
  {fs : List (List (String × CellId))}

theorem lookup_eq_none_of_suffix {g : List (String × CellId)} {name : String} (h : f <:+ g)
    (hg : g.lookup name = none) : f.lookup name = none := by
  rw [List.lookup_eq_none_iff] at hg ⊢
  exact fun b hb => hg b (h.subset hb)

namespace Layout

theorem head_eq (h : s.Layout i (f :: fs)) : f = s.bindings i := by
  cases h <;> rfl

theorem resolve (h : s.Layout i fs) (name : String) :
    s.resolve i name = fs.findSome? (·.lookup name) := by
  induction h with
  | bottom hp =>
      rw [resolve_eq, hp]
      simp
  | @block i _ _ hp _ ih =>
      rw [resolve_eq, hp, Option.bind_some, ih, List.findSome?_cons]
      cases (s.bindings i).lookup name <;> rfl
  | @declared i _ _ _ hp _ hf ih =>
      rw [resolve_eq, hp, Option.bind_some, ih, List.findSome?_cons, List.findSome?_cons]
      cases hl : (s.bindings i).lookup name with
      | some c => rfl
      | none =>
          rw [lookup_eq_none_of_suffix hf hl]
          rfl

theorem congr (h : s.Layout i fs) (hp : ∀ j ≤ i, t.parent? j = s.parent? j)
    (hb : ∀ j ≤ i, t.bindings j = s.bindings j) : t.Layout i fs := by
  induction h with
  | @bottom i h =>
      rw [← hb i (Nat.le_refl i)]
      exact .bottom ((hp i (Nat.le_refl i)).trans h)
  | @block i p fs h _ ih =>
      have hle {j : ScopeId} (hj : j ≤ p) : j ≤ i :=
        Nat.le_trans hj (Nat.le_of_lt (lt_of_parent?_eq_some h))
      rw [← hb i (Nat.le_refl i)]
      exact .block ((hp i (Nat.le_refl i)).trans h)
        (ih (fun j hj => hp j (hle hj)) fun j hj => hb j (hle hj))
  | @declared i p f fs h _ hf ih =>
      have hle {j : ScopeId} (hj : j ≤ p) : j ≤ i :=
        Nat.le_trans hj (Nat.le_of_lt (lt_of_parent?_eq_some h))
      have hi := hb i (Nat.le_refl i)
      rw [← hi]
      exact .declared ((hp i (Nat.le_refl i)).trans h)
        (ih (fun j hj => hp j (hle hj)) fun j hj => hb j (hle hj)) (hi ▸ hf)

theorem of_extends (h : s.Layout i fs) (hst : s.Extends t) (hi : i < s.scopes.size) :
    t.Layout i fs :=
  h.congr (fun _ hj => hst.parent?_eq (Nat.lt_of_le_of_lt hj hi))
    fun _ hj => hst.bindings_eq (Nat.lt_of_le_of_lt hj hi)

theorem exists_bindings (h : s.Layout i fs) : ∀ f ∈ fs, ∃ j, f = s.bindings j := by
  induction h with
  | @bottom i _ =>
      intro f hf
      exact ⟨i, List.mem_singleton.mp hf⟩
  | @block i _ _ _ _ ih =>
      intro f hf
      rcases List.mem_cons.mp hf with rfl | hf
      · exact ⟨i, rfl⟩
      · exact ih f hf
  | @declared i _ _ _ _ _ _ ih =>
      intro f hf
      rcases List.mem_cons.mp hf with rfl | hf
      · exact ⟨i, rfl⟩
      · exact ih f (List.mem_cons_of_mem _ hf)

theorem lt_of_backed (h : s.Layout i fs) (hs : s.Backed) :
    ∀ c ∈ fs.flatten.map Prod.snd, c < s.cells.size := by
  intro c hc
  obtain ⟨b, hb, rfl⟩ := List.mem_map.mp hc
  obtain ⟨f, hf, hbf⟩ := List.mem_flatten.mp hb
  obtain ⟨j, rfl⟩ := h.exists_bindings f hf
  exact hs j b hbf

theorem child (h : s.Layout i fs) (hi : i < s.scopes.size) :
    (s.child i).2.Layout s.scopes.size ([] :: fs) := by
  have hb : (s.child i).2.bindings s.scopes.size = [] := by
    simp [Store.child, bindings_addScope]
  have hp : (s.child i).2.parent? s.scopes.size = some i := by
    simp [Store.child, parent?_addScope, hi]
  have hinner := Layout.block hp (h.of_extends (s.extends_child i) hi)
  rwa [hb] at hinner

theorem grow (h : s.Layout i (f :: fs)) {b : String × CellId}
    (hp : ∀ j ≤ i, t.parent? j = s.parent? j) (hb : ∀ j < i, t.bindings j = s.bindings j)
    (hi : t.bindings i = b :: s.bindings i) : t.Layout i ((b :: f) :: fs) := by
  have hpi := hp i (Nat.le_refl i)
  have hbelow {p : ScopeId} {gs : List (List (String × CellId))} (hp' : s.parent? i = some p)
      (k : s.Layout p gs) : t.Layout p gs := by
    have hlt := lt_of_parent?_eq_some hp'
    exact k.congr (fun j hj => hp j (Nat.le_of_lt (Nat.lt_of_le_of_lt hj hlt)))
      fun j hj => hb j (Nat.lt_of_le_of_lt hj hlt)
  cases h with
  | bottom h =>
      rw [← hi]
      exact .bottom (hpi.trans h)
  | block h outer =>
      rw [← hi]
      exact .block (hpi.trans h) (hbelow h outer)
  | declared h older hf =>
      rw [← hi]
      exact .declared (hpi.trans h) (hbelow h older) (hi ▸ hf.trans (List.suffix_cons b _))

theorem define_self (h : s.Layout i (f :: fs)) (hi : i < s.scopes.size) (name : String)
    (v : Value) : (s.define i name v).2.Layout i (((name, s.cells.size) :: f) :: fs) :=
  h.grow (fun _ hj => parent?_define s name v (Nat.lt_of_le_of_lt hj hi))
    (fun _ hj => bindings_define_of_ne s name v (Nat.lt_trans hj hi) (Nat.ne_of_lt hj))
    (bindings_define s name v hi (.inl rfl))

theorem define (h : s.Layout i (f :: fs)) (hi : i < s.scopes.size) (name : String) (v : Value) :
    (s.define i name v).2.Layout s.scopes.size (((name, s.cells.size) :: f) :: fs) := by
  have hgrown := h.define_self hi name v
  have hnew := bindings_define s name v hi (.inr rfl)
  rw [← h.head_eq] at hnew
  have hinner := Layout.declared (parent?_define_new s name v hi) hgrown (hnew ▸ List.suffix_rfl)
  rwa [hnew] at hinner

end Layout

/-- A frame of variables with the values that their cells hold. -/
def values (s : Store) (f : List (String × CellId)) : Frame :=
  f.map fun b => (b.1, s.cells.getD b.2 .nil)

theorem map_fst_values : (s.values f).map Prod.fst = f.map Prod.fst := by
  simp [values]

theorem lookup_values (name : String) :
    (s.values f).lookup name = (f.lookup name).map fun c => s.cells.getD c .nil := by
  induction f with
  | nil => rfl
  | cons b f ih =>
      obtain ⟨n, c⟩ := b
      simp only [values, List.map_cons, List.lookup_cons] at ih ⊢
      cases name == n with
      | true => rfl
      | false => exact ih

theorem lookup?_values (s : Store) (fs : List (List (String × CellId))) (name : String) :
    FrameStack.lookup? name (fs.map s.values) =
      (fs.findSome? (·.lookup name)).map fun c => s.cells.getD c .nil := by
  induction fs with
  | nil => rfl
  | cons f fs ih =>
      simp only [FrameStack.lookup?, List.map_cons, List.findSome?_cons, lookup_values] at ih ⊢
      cases f.lookup name with
      | some c => rfl
      | none => exact ih

theorem values_congr (h : ∀ c ∈ f.map Prod.snd, t.cells.getD c .nil = s.cells.getD c .nil) :
    t.values f = s.values f := by
  refine List.map_congr_left fun b hb => ?_
  rw [h b.2 (List.mem_map_of_mem hb)]

theorem map_values_congr
    (h : ∀ c ∈ fs.flatten.map Prod.snd, t.cells.getD c .nil = s.cells.getD c .nil) :
    fs.map t.values = fs.map s.values := by
  refine List.map_congr_left fun f hf => values_congr fun c hc => h c ?_
  obtain ⟨b, hb, rfl⟩ := List.mem_map.mp hc
  exact List.mem_map_of_mem (List.mem_flatten_of_mem hf hb)

theorem getD_cells_set {c d : CellId} (v : Value) (hne : d ≠ c) :
    (s.set c v).cells.getD d .nil = s.cells.getD d .nil := by
  simp only [set, Array.getD_eq_getD_getElem?, Array.getElem?_setIfInBounds_ne (Ne.symm hne)]

theorem getD_cells_set_self {c : CellId} (v : Value) (hc : c < s.cells.size) :
    (s.set c v).cells.getD c .nil = v := by
  simp [set, Array.getD_eq_getD_getElem?, hc]

theorem snd_mem_of_lookup {name : String} {c : CellId} (h : f.lookup name = some c) :
    c ∈ f.map Prod.snd := by
  obtain ⟨l₁, l₂, hl, -⟩ := List.lookup_eq_some_iff.mp h
  simp [hl]

theorem snd_mem_of_findSome?_lookup {name : String} {c : CellId}
    (h : fs.findSome? (·.lookup name) = some c) : c ∈ fs.flatten.map Prod.snd := by
  obtain ⟨f, hf, hc⟩ := List.exists_of_findSome?_eq_some h
  obtain ⟨b, hb, rfl⟩ := List.mem_map.mp (snd_mem_of_lookup hc)
  exact List.mem_map_of_mem (List.mem_flatten_of_mem hf hb)

theorem assign?_values_eq_none {name : String} (v : Value) (h : f.lookup name = none) :
    (s.values f).assign? name v = none := by
  induction f with
  | nil => rfl
  | cons b f ih =>
      obtain ⟨n, c⟩ := b
      rw [List.lookup_cons] at h
      cases hn : name == n with
      | true => simp [hn] at h
      | false =>
          rw [hn] at h
          simpa [values, Frame.assign?, hn] using ih h

theorem assign?_values {name : String} {c : CellId} (v : Value) (h : f.lookup name = some c)
    (hf : (f.map Prod.snd).Nodup) (hc : c < s.cells.size) :
    (s.values f).assign? name v = some ((s.set c v).values f) := by
  induction f with
  | nil => cases h
  | cons b f ih =>
      obtain ⟨n, d⟩ := b
      obtain ⟨hd, hf⟩ := List.nodup_cons.mp hf
      rw [List.lookup_cons] at h
      cases hn : name == n with
      | true =>
          rw [hn] at h
          cases h
          have hrest : (s.set c v).values f = s.values f :=
            values_congr fun e he => getD_cells_set v fun hed => hd (hed ▸ he)
          have hself := getD_cells_set_self v hc
          simp only [values, List.map_cons, Frame.assign?, hn, if_true] at hrest ⊢
          rw [hrest, hself]
      | false =>
          rw [hn] at h
          have hne : d ≠ c := fun hdc => hd (hdc ▸ snd_mem_of_lookup h)
          have ih := ih h hf
          have hself := getD_cells_set (s := s) v hne
          simp only [values, List.map_cons, Frame.assign?, hn, Bool.false_eq_true, if_false] at ih ⊢
          rw [ih, hself]
          rfl

theorem assign?_map_values_eq_none {name : String} (v : Value)
    (h : fs.findSome? (·.lookup name) = none) :
    FrameStack.assign? name v (fs.map s.values) = none := by
  induction fs with
  | nil => rfl
  | cons f fs ih =>
      rw [List.findSome?_eq_none_iff] at h
      have hf := assign?_values_eq_none (s := s) v (h f List.mem_cons_self)
      have hfs := ih (List.findSome?_eq_none_iff.mpr fun g hg => h g (List.mem_cons_of_mem f hg))
      simp only [List.map_cons, FrameStack.assign?, hf, hfs, Option.map_none]

theorem assign?_map_values {name : String} {c : CellId} (v : Value)
    (h : fs.findSome? (·.lookup name) = some c) (hfs : (fs.flatten.map Prod.snd).Nodup)
    (hc : c < s.cells.size) :
    FrameStack.assign? name v (fs.map s.values) = some (fs.map (s.set c v).values) := by
  induction fs with
  | nil => cases h
  | cons f fs ih =>
      rw [List.flatten_cons, List.map_append, List.nodup_append] at hfs
      obtain ⟨hf, hfs, hdisjoint⟩ := hfs
      rw [List.findSome?_cons] at h
      cases hl : f.lookup name with
      | some d =>
          rw [hl] at h
          cases h
          have hrest : fs.map (s.set c v).values = fs.map s.values :=
            map_values_congr fun e he => getD_cells_set v fun hed =>
              hdisjoint c (snd_mem_of_lookup hl) e he hed.symm
          simp only [List.map_cons, FrameStack.assign?, assign?_values v hl hf hc, hrest]
      | none =>
          rw [hl] at h
          have hmem := snd_mem_of_findSome?_lookup h
          have hself : (s.set c v).values f = s.values f :=
            values_congr fun e he => getD_cells_set v fun hec => hdisjoint e he c hmem hec
          simp only [List.map_cons, FrameStack.assign?, assign?_values_eq_none v hl, ih h hfs,
            Option.map_some, hself]

theorem map_values_bind (h : s.Layout i (f :: fs)) (hs : s.Backed) (name : String) (v : Value) :
    (((name, s.cells.size) :: f) :: fs).map (s.bind i name v).values =
      ((name, v) :: s.values f) :: fs.map s.values := by
  have hcell : (s.bind i name v).cells.getD s.cells.size .nil = v := by
    simp [Array.getD_eq_getD_getElem?]
  have hold : (f :: fs).map (s.bind i name v).values = (f :: fs).map s.values := by
    refine map_values_congr fun c hc => ?_
    have hne : c ≠ s.cells.size := Nat.ne_of_lt (h.lt_of_backed hs c hc)
    rw [cells_bind, Array.getD_eq_getD_getElem?, Array.getD_eq_getD_getElem?,
      Array.getElem?_push, if_neg hne]
  rw [List.map_cons, List.map_cons, List.cons.injEq] at hold
  rw [List.map_cons, hold.2, values, List.map_cons, hcell, ← values, hold.1]

end Store

end Scriptlet
