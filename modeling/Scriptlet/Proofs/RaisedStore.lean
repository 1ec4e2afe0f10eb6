import Scriptlet.Proofs.BodyScopes
import Scriptlet.Proofs.Relocation
import Scriptlet.Proofs.RootedStore
import Scriptlet.Proofs.StackLayout

namespace Scriptlet

namespace Store

variable {s s' t t' : Store} {ground : List (String × CellId)} {top i j k : ScopeId}

def SameUpTo (k : ScopeId) (s t : Store) : Prop :=
  ∀ j ≤ k, t.parent? j = s.parent? j ∧ t.bindings j = s.bindings j

theorem sameUpTo_addScope (hk : k < s.scopes.size) (bs : List (String × CellId))
    (parent : Option ScopeId) : s.SameUpTo k (s.addScope bs parent).2 := by
  intro j hj
  have hne : j ≠ s.scopes.size := Nat.ne_of_lt (Nat.lt_of_le_of_lt hj hk)
  rw [parent?_addScope, bindings_addScope, if_neg hne, if_neg hne]
  exact ⟨rfl, rfl⟩

theorem sameUpTo_bind (hk : k < i) (name : String) (v : Value) :
    s.SameUpTo k (s.bind i name v) := by
  intro j hj
  have hne : j ≠ i := Nat.ne_of_lt (Nat.lt_of_le_of_lt hj hk)
  rw [parent?_bind, bindings_bind, if_neg fun h => hne h.1]
  exact ⟨rfl, rfl⟩

theorem sameUpTo_define (hk : k < i) (hi : i < s.scopes.size) (name : String) (v : Value) :
    s.SameUpTo k (s.define i name v).2 := by
  intro j hj
  have hlt := Nat.lt_of_le_of_lt hj hk
  exact ⟨parent?_define s name v (Nat.lt_trans hlt hi),
    bindings_define_of_ne s name v (Nat.lt_trans hlt hi) (Nat.ne_of_lt hlt)⟩

theorem SameUpTo.chain_eq (h : s.SameUpTo k t) (hi : i ≤ k) : t.chain i = s.chain i :=
  chain_congr fun j hj => (h j (Nat.le_trans hj hi)).1

theorem SameUpTo.layout (h : s.SameUpTo k t) (hi : i ≤ k) {fs : List (List (String × CellId))}
    (hfs : s.Layout i fs) : t.Layout i fs :=
  hfs.congr (fun j hj => (h j (Nat.le_trans hj hi)).1) fun j hj => (h j (Nat.le_trans hj hi)).2

/-- What the first store has in one frame, the second has in two. -/
def Split (ground : List (String × CellId)) (s t : Store) (i : ScopeId) : Prop :=
  ∃ f, s.Layout i [f ++ ground] ∧ t.Layout (i + 1) [f, ground]

theorem Split.resolve (h : s.Split ground t i) (name : String) :
    t.resolve (i + 1) name = s.resolve i name := by
  obtain ⟨f, hs, ht⟩ := h
  rw [hs.resolve, ht.resolve]
  simp only [List.findSome?_cons, List.findSome?_nil, List.lookup_append]
  cases f.lookup name <;> cases ground.lookup name <;> rfl

theorem Split.of_sameUpTo (h : s.Split ground t i) (hi : i ≤ top) (hs : s.SameUpTo top s')
    (ht : t.SameUpTo (top + 1) t') : s'.Split ground t' i := by
  obtain ⟨f, hf, hf'⟩ := h
  exact ⟨f, hs.layout hi hf, ht.layout (Nat.succ_le_succ hi) hf'⟩

theorem Split.define (h : s.Split ground t i) (hi : i < s.scopes.size)
    (hsize : t.scopes.size = s.scopes.size + 1) (hcells : t.cells = s.cells) (name : String)
    (v : Value) (hj : j = i ∨ j = s.scopes.size) :
    (s.define i name v).2.Split ground (t.define (i + 1) name v).2 j := by
  obtain ⟨f, hs, ht⟩ := h
  have hi' : i + 1 < t.scopes.size := hsize ▸ Nat.succ_lt_succ hi
  refine ⟨(name, s.cells.size) :: f, ?_, ?_⟩
  · rcases hj with rfl | rfl
    · exact hs.define_self hi name v
    · exact hs.define hi name v
  · rw [← hcells]
    rcases hj with rfl | rfl
    · exact ht.define_self hi' name v
    · rw [← hsize]
      exact ht.define hi' name v

structure Twin (s t : Store) (i : ScopeId) : Prop where
  bindings : t.bindings (i + 1) = s.bindings i
  parent : ∃ p, s.parent? i = some p ∧ t.parent? (i + 1) = some (p + 1)

/-- The second store has one more scope at the bottom, with what the global scope listed at the
start. On the way from the top level outward the first store has in one frame what the second has in
two; beside it they are the same. -/
structure Raised (ground : List (String × CellId)) (top : ScopeId) (s t : Store) : Prop where
  cells : t.cells = s.cells
  natives : t.natives = s.natives
  captured : t.captured = s.captured.map (· + 1)
  size_scopes : t.scopes.size = s.scopes.size + 1
  lt : top < s.scopes.size
  line : ∀ i ∈ s.chain top, s.Split ground t i
  aside : ∀ i < s.scopes.size, i ∉ s.chain top → s.Twin t i

theorem raised_child (h : s.Rooted 0) (hsize : s.scopes.size = 1) (hcaptured : s.captured = #[]) :
    s.Raised (s.bindings 0) 0 (s.child 0).2 where
  cells := rfl
  natives := rfl
  captured := by
    rw [hcaptured, Array.map_empty]
    exact hcaptured
  size_scopes := size_scopes_addScope s [] (some 0)
  lt := h.lt
  line i hi := by
    rw [h.chain_root, List.mem_singleton] at hi
    subst hi
    have hbottom : s.Layout 0 [s.bindings 0] := .bottom h.parent?_root
    have hblock := hbottom.child h.lt
    rw [hsize] at hblock
    exact ⟨[], hbottom, hblock⟩
  aside i hi hline := by
    rw [hsize] at hi
    rw [h.chain_root, List.mem_singleton] at hline
    exact absurd (Nat.lt_one_iff.mp hi) hline

namespace Raised

theorem resolve (h : s.Raised ground top t) (hi : i < s.scopes.size) (name : String) :
    t.resolve (i + 1) name = s.resolve i name := by
  induction i using Nat.strongRecOn with
  | ind i ih =>
      by_cases hline : i ∈ s.chain top
      -- the frames show where the name leads
      · exact (h.line i hline).resolve name
      -- the lists are equal, so it is down to the parents
      · obtain ⟨hb, p, hp, hp'⟩ := h.aside i hi hline
        have hlt := lt_of_parent?_eq_some hp
        rw [resolve_eq, resolve_eq s, hb, hp, hp', Option.bind_some, Option.bind_some,
          ih p hlt (Nat.lt_trans hlt hi)]

theorem agrees (h : s.Raised ground top t) (hi : i < s.scopes.size) : s.Agrees (· + 1) i t where
  resolve := h.resolve hi
  cells := h.cells
  natives := h.natives
  size_captured := by rw [h.captured, Array.size_map]
  size_scopes := h.size_scopes

theorem capturedScope (h : s.Raised ground top t) {id : FunctionId} (hid : id < s.captured.size) :
    t.capturedScope id = s.capturedScope id + 1 := by
  simp only [Store.capturedScope, Array.getD_eq_getD_getElem?, h.captured, Array.getElem?_map,
    Array.getElem?_eq_getElem hid, Option.map_some, Option.getD_some]

theorem carry (h : s.Raised ground top t) (hs : s.SameUpTo top s') (ht : t.SameUpTo (top + 1) t')
    (cells : t'.cells = s'.cells) (natives : t'.natives = s'.natives)
    (captured : t'.captured = s'.captured.map (· + 1))
    (size_scopes : t'.scopes.size = s'.scopes.size + 1) (lt : top < s'.scopes.size)
    (aside : ∀ i < s'.scopes.size, i ∉ s.chain top → s'.Twin t' i) : s'.Raised ground top t' where
  cells := cells
  natives := natives
  captured := captured
  size_scopes := size_scopes
  lt := lt
  line i hi := by
    rw [hs.chain_eq (Nat.le_refl top)] at hi
    exact (h.line i hi).of_sameUpTo (le_of_mem_chain hi) hs ht
  aside i hi hline := aside i hi (by rwa [hs.chain_eq (Nat.le_refl top)] at hline)

section

variable (h : s.Raised ground top t)

include h

theorem set (c : CellId) (v : Value) : (s.set c v).Raised ground top (t.set c v) := by
  refine h.carry (fun _ _ => ⟨rfl, rfl⟩) (fun _ _ => ⟨rfl, rfl⟩) ?_ h.natives h.captured
    h.size_scopes h.lt fun i hi hline => ?_
  · rw [Store.set, Store.set, h.cells]
  · obtain ⟨hb, hp⟩ := h.aside i hi hline
    exact ⟨hb, hp⟩

theorem addFunction (d : Declaration) (i : ScopeId) :
    (s.addFunction d i).2.Raised ground top (t.addFunction d (i + 1)).2 := by
  refine h.carry (fun _ _ => ⟨rfl, rfl⟩) (fun _ _ => ⟨rfl, rfl⟩) h.cells h.natives ?_
    h.size_scopes h.lt fun j hj hline => ?_
  · rw [Store.addFunction, Store.addFunction, Array.map_push, h.captured]
  · obtain ⟨hb, hp⟩ := h.aside j hj hline
    exact ⟨hb, hp⟩

theorem fst_addFunction (d : Declaration) (i j : ScopeId) :
    (t.addFunction d j).1 = (s.addFunction d i).1 := by
  rw [Store.addFunction, Store.addFunction, h.captured, Array.size_map]

theorem addScope (bs : List (String × CellId)) (hi : i < s.scopes.size) :
    (s.addScope bs (some i)).2.Raised ground top (t.addScope bs (some (i + 1))).2 := by
  have hsize := h.size_scopes
  have htop : top + 1 < t.scopes.size := hsize ▸ Nat.succ_lt_succ h.lt
  refine h.carry (sameUpTo_addScope h.lt _ _) (sameUpTo_addScope htop _ _) h.cells h.natives
    h.captured ?_ ?_ fun j hj hline => ?_
  · rw [size_scopes_addScope, size_scopes_addScope, hsize]
  · rw [size_scopes_addScope]
    exact Nat.lt_succ_of_lt h.lt
  · rw [size_scopes_addScope] at hj
    by_cases hnew : j = s.scopes.size
    · subst hnew
      refine ⟨?_, i, ?_, ?_⟩
      · rw [bindings_addScope, bindings_addScope, if_pos rfl, if_pos hsize.symm]
      · rw [parent?_addScope, if_pos rfl]
        simpa using hi
      · rw [parent?_addScope, if_pos hsize.symm]
        simpa using hi
    · obtain ⟨hb, p, hp, hp'⟩ := h.aside j (by omega) hline
      have hnew' : j + 1 ≠ t.scopes.size := by omega
      refine ⟨?_, p, ?_, ?_⟩
      · rw [bindings_addScope, bindings_addScope, if_neg hnew, if_neg hnew', hb]
      · rw [parent?_addScope, if_neg hnew, hp]
      · rw [parent?_addScope, if_neg hnew', hp']

theorem bind (htop : top < i) (name : String) (v : Value) :
    (s.bind i name v).Raised ground top (t.bind (i + 1) name v) := by
  refine h.carry (sameUpTo_bind htop name v) (sameUpTo_bind (Nat.succ_lt_succ htop) name v) ?_
    h.natives h.captured ?_ ?_ fun j hj hline => ?_
  · rw [cells_bind, cells_bind, h.cells]
  · rw [size_scopes_bind, size_scopes_bind, h.size_scopes]
  · rw [size_scopes_bind]
    exact h.lt
  · rw [size_scopes_bind] at hj
    obtain ⟨hb, p, hp, hp'⟩ := h.aside j hj hline
    refine ⟨?_, p, (parent?_bind s i j name v).trans hp, (parent?_bind t _ _ name v).trans hp'⟩
    rw [bindings_bind, bindings_bind, h.cells, h.size_scopes]
    by_cases hij : j = i
    · subst hij
      simp only [true_and, Nat.add_lt_add_iff_right, hb]
    · rw [if_neg fun h => hij (Nat.succ.inj h.1), if_neg fun h => hij h.1, hb]

theorem define (htop : top < i) (hi : i < s.scopes.size) (name : String) (v : Value) :
    (s.define i name v).2.Raised ground top (t.define (i + 1) name v).2 := by
  have hbind := h.bind htop name v
  have hlt : i < (s.bind i name v).scopes.size := by rwa [size_scopes_bind]
  have hline : i ∉ (s.bind i name v).chain top := fun hmem =>
    Nat.not_le_of_lt htop (le_of_mem_chain hmem)
  simp only [Store.define, (hbind.aside i hlt hline).bindings]
  exact hbind.addScope _ hlt

theorem frame (hi : i < s.scopes.size) (params : List Ident) (args : List Value) :
    (s.frame i params args).2.Raised ground top (t.frame (i + 1) params args).2 := by
  simp only [Store.frame, child, fst_addScope, h.size_scopes]
  exact List.foldl_rel (h.addScope [] hi) fun b _ _ _ hst => hst.bind h.lt b.1.name b.2

theorem define_top (name : String) (v : Value) :
    (s.define top name v).2.Raised ground s.scopes.size (t.define (top + 1) name v).2 := by
  have hsize := h.size_scopes
  have htop : top + 1 < t.scopes.size := hsize ▸ Nat.succ_lt_succ h.lt
  have hchain : (s.define top name v).2.chain s.scopes.size = s.scopes.size :: s.chain top := by
    rw [chain_eq, parent?_define_new s name v h.lt, Option.elim_some,
      (s.evolves_define name v top).chain_eq h.lt]
  refine ⟨?_, h.natives, h.captured, ?_, ?_, fun i hi => ?_, fun i hi hline => ?_⟩
  · rw [cells_define, cells_define, h.cells]
  · rw [size_scopes_define, size_scopes_define, hsize]
  · rw [size_scopes_define]
    exact Nat.lt_succ_self _
  · rw [hchain, List.mem_cons] at hi
    by_cases hnew : i = top ∨ i = s.scopes.size
    · exact (h.line top (mem_chain_self s top)).define h.lt hsize h.cells name v hnew
    · -- a scope further out is older, and nothing happens to it
      rw [not_or] at hnew
      have hline := hi.resolve_left hnew.2
      have hlt : i < top := Nat.lt_of_le_of_ne (le_of_mem_chain hline) hnew.1
      exact (h.line i hline).of_sameUpTo (Nat.le_refl i) (sameUpTo_define hlt h.lt name v)
        (sameUpTo_define (Nat.succ_lt_succ hlt) htop name v)
  · rw [size_scopes_define] at hi
    rw [hchain, List.mem_cons, not_or] at hline
    have hlt : i < s.scopes.size := Nat.lt_of_le_of_ne (Nat.le_of_lt_succ hi) hline.1
    have hlt' : i + 1 < t.scopes.size := hsize ▸ Nat.succ_lt_succ hlt
    have hne : i ≠ top := fun he => hline.2 (he ▸ mem_chain_self s top)
    obtain ⟨hb, p, hp, hp'⟩ := h.aside i hlt hline.2
    refine ⟨?_, p, ?_, ?_⟩
    · rw [bindings_define_of_ne t name v hlt' fun he => hne (Nat.succ.inj he),
        bindings_define_of_ne s name v hlt hne, hb]
    · rw [parent?_define s name v hlt, hp]
    · rw [parent?_define t name v hlt', hp']

end

variable {e : Event} {scope : ScopeId}

theorem pass (h : s.Raised ground top t) (hroot : s.Rooted 0) (hscope : scope < s.scopes.size)
    (he : e.declares = false)
    (hcall : ∀ id d args, e = .call id d args → id < s.captured.size) :
    (e.apply scope s).Raised ground top (e.apply (scope + 1) t) := by
  cases e with
  | none => exact h
  | assign name v =>
      simp only [Event.apply, h.resolve hscope]
      cases s.resolve scope name with
      | none => exact h
      | some c => exact h.set c v
  | block => exact h.addScope [] hscope
  | call id d args =>
      simp only [Event.apply, h.capturedScope (hcall id d args rfl)]
      exact h.frame (hroot.scope_lt id) d.params args
  | declare | function => cases he

theorem inward (h : s.Raised ground top t) (htop : top < scope) (hscope : scope < s.scopes.size)
    (he : e.declares = true) :
    (e.apply scope s).Raised ground top (e.apply (scope + 1) t) := by
  cases e with
  | declare name v => exact h.define htop hscope name v
  | function d =>
      have hadded := h.addFunction d scope
      simp only [Event.apply]
      rw [h.fst_addFunction]
      exact hadded.define htop hscope d.name.name _
  | none | assign | block | call => cases he

theorem advance (h : s.Raised ground top t) (he : e.declares = true) :
    (e.apply top s).Raised ground s.scopes.size (e.apply (top + 1) t) := by
  cases e with
  | declare name v => exact h.define_top name v
  | function d =>
      have hadded := h.addFunction d top
      simp only [Event.apply]
      rw [h.fst_addFunction]
      exact hadded.define_top d.name.name _
  | none | assign | block | call => cases he

end Raised

end Store

end Scriptlet
