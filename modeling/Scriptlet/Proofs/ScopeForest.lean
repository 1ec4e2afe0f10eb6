import Mathlib.Data.List.Chain
import Scriptlet.Proofs.StoreExtension

namespace Scriptlet.Store

/-- The scope that encloses another, as the store has it. -/
def enclosing? (s : Store) (i : ScopeId) : Option ScopeId :=
  s.scopes[i]?.bind Scope.parent

structure Grounded (s : Store) : Prop where
  older : ∀ i p, s.enclosing? i = some p → p < i
  captured : ∀ scope ∈ s.captured, scope < s.scopes.size
  backed : s.Backed

/-- The second store has come about from the first by additions, and it is in order if that one
was. -/
structure Accrues (s t : Store) : Prop where
  size_le : s.scopes.size ≤ t.scopes.size
  enclosing?_eq : ∀ i < s.scopes.size, t.enclosing? i = s.enclosing? i
  suffix : ∀ i < s.scopes.size, s.bindings i <:+ t.bindings i
  grounded : s.Grounded → t.Grounded

variable {s t u : Store} {i j : ScopeId}

theorem enclosing?_addScope (bs : List (String × CellId)) (parent : Option ScopeId) :
    (s.addScope bs parent).2.enclosing? j =
      if j = s.scopes.size then parent else s.enclosing? j := by
  simp only [addScope, enclosing?, Array.getElem?_push]
  split <;> rfl

theorem enclosing?_bind (name : String) (v : Value) :
    (s.bind i name v).enclosing? j = s.enclosing? j := by
  simp only [bind, enclosing?, Array.getElem?_modify]
  split
  · cases s.scopes[j]? <;> rfl
  · rfl

namespace Grounded

theorem empty : ({} : Store).Grounded where
  older i p h := by simp [enclosing?] at h
  captured scope h := by simp at h
  backed i b h := by simp [bindings] at h

theorem parent?_eq (h : s.Grounded) (i : ScopeId) : s.parent? i = s.enclosing? i := by
  change (s.enclosing? i).filter (· < i) = s.enclosing? i
  cases hp : s.enclosing? i with
  | none => rfl
  | some p => simp [h.older i p hp]

theorem enclosing?_lt_size (h : s.Grounded) {p : ScopeId} (hp : s.enclosing? i = some p) :
    p < s.scopes.size := by
  refine Nat.lt_trans (h.older i p hp) (Nat.lt_of_not_le fun hle => ?_)
  simp [enclosing?, Array.getElem?_eq_none hle] at hp

theorem capturedScope_lt (h : s.Grounded) (hsize : 0 < s.scopes.size) (id : FunctionId) :
    s.capturedScope id < s.scopes.size := by
  rw [capturedScope, Array.getD_eq_getD_getElem?]
  cases hid : s.captured[id]? with
  | none => exact hsize
  | some scope => exact h.captured scope (Array.mem_of_getElem? hid)

theorem depth_eq (h : s.Grounded) (i : ScopeId) :
    s.depth i = 1 + (s.enclosing? i).elim 0 s.depth := by
  rw [Store.depth_eq, h.parent?_eq]

/-- The chain of a scope follows the links of the store, to a scope that has none. -/
theorem chain_ends (h : s.Grounded) (i : ScopeId) :
    (s.chain i).IsChain (fun j p => s.enclosing? j = some p) ∧
      ∃ root, (s.chain i).getLast? = some root ∧ s.enclosing? root = none := by
  induction i using Nat.strongRecOn with
  | ind i ih =>
      rw [chain_eq, h.parent?_eq]
      cases hp : s.enclosing? i with
      | none => exact ⟨.singleton i, i, rfl, hp⟩
      | some p =>
          obtain ⟨hchain, root, hlast, hroot⟩ := ih p (h.older i p hp)
          rw [Option.elim_some]
          refine ⟨?_, root, ?_, hroot⟩
          · rw [chain_eq] at hchain ⊢
            exact .cons_cons hp hchain
          · rw [List.getLast?_cons, hlast, Option.getD_some]

end Grounded

namespace Accrues

theorem refl (s : Store) : s.Accrues s :=
  ⟨Nat.le_refl _, fun _ _ => rfl, fun _ _ => List.suffix_refl _, fun h => h⟩

theorem trans (h : s.Accrues t) (k : t.Accrues u) : s.Accrues u where
  size_le := Nat.le_trans h.size_le k.size_le
  enclosing?_eq i hi :=
    (k.enclosing?_eq i (Nat.lt_of_lt_of_le hi h.size_le)).trans (h.enclosing?_eq i hi)
  suffix i hi := (h.suffix i hi).trans (k.suffix i (Nat.lt_of_lt_of_le hi h.size_le))
  grounded hs := k.grounded (h.grounded hs)

theorem parent?_eq (h : s.Accrues t) (hi : i < s.scopes.size) : t.parent? i = s.parent? i :=
  congrArg (Option.filter (· < i)) (h.enclosing?_eq i hi)

theorem chain_eq (h : s.Accrues t) (hi : i < s.scopes.size) : t.chain i = s.chain i :=
  chain_congr fun _ hj => h.parent?_eq (Nat.lt_of_le_of_lt hj hi)

theorem depth_eq (h : s.Accrues t) (hi : i < s.scopes.size) : t.depth i = s.depth i := by
  rw [depth, depth, h.chain_eq hi]

theorem isSome_lookup (h : s.Accrues t) (hi : i < s.scopes.size) {name : String}
    (hs : ((s.bindings i).lookup name).isSome) : ((t.bindings i).lookup name).isSome := by
  obtain ⟨new, hnew⟩ := h.suffix i hi
  rw [← hnew, List.lookup_append]
  cases new.lookup name with
  | none => simpa using hs
  | some c => rfl

theorem contains (h : s.Accrues t) (hi : i < s.scopes.size) {name : String}
    (hs : s.contains i name = true) : t.contains i name = true := by
  rw [Store.contains, resolve_eq_findSome?, List.findSome?_isSome_iff] at hs ⊢
  obtain ⟨j, hj, hlist⟩ := hs
  refine ⟨j, ?_, h.isSome_lookup (Nat.lt_of_le_of_lt (le_of_mem_chain hj) hi) hlist⟩
  rwa [h.chain_eq hi]

end Accrues

variable (s)

theorem accrues_addScope {bs : List (String × CellId)} {parent : Option ScopeId}
    (hbs : s.Grounded → ∀ b ∈ bs, b.2 < s.cells.size)
    (hparent : ∀ p, parent = some p → p < s.scopes.size) :
    s.Accrues (s.addScope bs parent).2 := by
  refine ⟨by simp, fun j hj => ?_, fun j hj => ?_, fun h => ⟨fun j p hp => ?_,
    fun scope hscope => ?_, h.backed.addScope (hbs h) parent⟩⟩
  · rw [enclosing?_addScope, if_neg (Nat.ne_of_lt hj)]
  · have hsame := s.bindings_addScope j bs parent
    rw [if_neg (Nat.ne_of_lt hj)] at hsame
    exact hsame ▸ List.suffix_refl _
  · rw [enclosing?_addScope] at hp
    split at hp
    · next hnew => exact hnew ▸ hparent p hp
    · exact h.older j p hp
  · rw [size_scopes_addScope]
    exact Nat.lt_succ_of_lt (h.captured scope hscope)

theorem accrues_bind (i : ScopeId) (name : String) (v : Value) : s.Accrues (s.bind i name v) := by
  refine ⟨Nat.le_of_eq (size_scopes_bind s i name v).symm, fun j _ => enclosing?_bind name v,
    fun j _ => ?_, fun h => ⟨fun j p hp => h.older j p (enclosing?_bind name v ▸ hp),
      fun scope hscope => ?_, h.backed.bind i name v⟩⟩
  · rw [bindings_bind]
    split
    · next hj => exact hj.1 ▸ List.suffix_cons _ _
    · exact List.suffix_refl _
  · rw [size_scopes_bind]
    exact h.captured scope hscope

theorem accrues_define (hi : i < s.scopes.size) (name : String) (v : Value) :
    s.Accrues (s.define i name v).2 := by
  refine (s.accrues_bind i name v).trans (accrues_addScope _ (fun h => h.backed i) ?_)
  rintro p ⟨⟩
  rwa [size_scopes_bind]

theorem accrues_child (hi : i < s.scopes.size) : s.Accrues (s.child i).2 := by
  refine s.accrues_addScope (fun _ _ hb => absurd hb List.not_mem_nil) ?_
  rintro p ⟨⟩
  exact hi

theorem accrues_global : s.Accrues s.global.2 :=
  s.accrues_addScope (fun _ _ hb => absurd hb List.not_mem_nil) nofun

theorem accrues_frame (hi : i < s.scopes.size) (params : List Ident) (args : List Value) :
    s.Accrues (s.frame i params args).2 :=
  s.frame_induction i params args (s.accrues_child hi)
    fun t b _ h => h.trans (t.accrues_bind _ b.1.name b.2)

theorem accrues_of_scopes_eq (hscopes : t.scopes = s.scopes)
    (hcells : t.cells.size = s.cells.size)
    (hcaptured : s.Grounded → ∀ scope ∈ t.captured, scope < s.scopes.size) : s.Accrues t := by
  have henclosing (j : ScopeId) : t.enclosing? j = s.enclosing? j := by
    rw [enclosing?, enclosing?, hscopes]
  have hbindings (j : ScopeId) : t.bindings j = s.bindings j := by
    rw [bindings, bindings, hscopes]
  refine ⟨Nat.le_of_eq (congrArg Array.size hscopes).symm, fun j _ => henclosing j,
    fun j _ => hbindings j ▸ List.suffix_refl _,
    fun h => ⟨fun j p hp => h.older j p (henclosing j ▸ hp), ?_, fun j b hb => ?_⟩⟩
  · rw [hscopes]
    exact hcaptured h
  · rw [hcells]
    exact h.backed j b (hbindings j ▸ hb)

theorem accrues_set (c : CellId) (v : Value) : s.Accrues (s.set c v) :=
  s.accrues_of_scopes_eq rfl (by simp [set]) Grounded.captured

theorem accrues_addNative (name : String) (arity : Nat) (body : NativeBody) :
    s.Accrues (s.addNative name arity body).2 :=
  s.accrues_of_scopes_eq rfl rfl Grounded.captured

theorem accrues_addFunction (d : Declaration) (hi : i < s.scopes.size) :
    s.Accrues (s.addFunction d i).2 := by
  refine s.accrues_of_scopes_eq rfl rfl fun h scope hscope => ?_
  rcases Array.mem_push.mp hscope with hscope | rfl
  · exact h.captured scope hscope
  · exact hi

theorem accrues_rebind (id : FunctionId) (hi : i < s.scopes.size) : s.Accrues (s.rebind id i) := by
  refine s.accrues_of_scopes_eq rfl rfl fun h scope hscope => ?_
  rcases Array.mem_or_eq_of_mem_setIfInBounds hscope with hscope | rfl
  · exact h.captured scope hscope
  · exact hi

end Scriptlet.Store
