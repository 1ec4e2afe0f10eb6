import Scriptlet.Store

namespace Scriptlet.Store

variable (s : Store) (i j : ScopeId) (name : String) (v : Value)

theorem chain_eq : s.chain i = i :: (s.parent? i).elim [] s.chain := by
  rw [chain]
  split
  · next p hp => rw [hp, Option.elim_some]
  · next hp => rw [hp, Option.elim_none]

theorem resolve_eq :
    s.resolve i name =
      ((s.bindings i).lookup name).or ((s.parent? i).bind fun p => s.resolve p name) := by
  rw [resolve]
  split
  · next c h => rw [h, Option.some_or]
  · next h =>
      rw [h, Option.none_or]
      split
      · next p hp => rw [hp, Option.bind_some]
      · next hp => rw [hp, Option.bind_none]

theorem resolve_eq_findSome? :
    s.resolve i name = (s.chain i).findSome? fun j => (s.bindings j).lookup name := by
  induction i using Nat.strongRecOn with
  | ind i ih =>
      rw [resolve_eq, chain_eq, List.findSome?_cons]
      cases h : (s.bindings i).lookup name with
      | some c => rfl
      | none =>
          cases hp : s.parent? i with
          | none => rfl
          | some p => exact ih p (lt_of_parent?_eq_some hp)

theorem depth_eq : s.depth i = 1 + (s.parent? i).elim 0 s.depth := by
  rw [depth, chain_eq]
  cases s.parent? i <;> simp [depth, Nat.add_comm]

theorem bindings_eq_nil_of_size_le (h : s.scopes.size ≤ i) : s.bindings i = [] := by
  simp [bindings, Array.getElem?_eq_none h]

theorem parent?_eq_none_of_size_le (h : s.scopes.size ≤ i) : s.parent? i = none := by
  simp [parent?, Array.getElem?_eq_none h]

variable (bs : List (String × CellId)) (parent : Option ScopeId)

theorem bindings_addScope :
    (s.addScope bs parent).2.bindings i = if i = s.scopes.size then bs else s.bindings i := by
  simp only [addScope, bindings, Array.getElem?_push]
  split <;> rfl

theorem parent?_addScope :
    (s.addScope bs parent).2.parent? i =
      if i = s.scopes.size then parent.filter (· < i) else s.parent? i := by
  simp only [addScope, parent?, Array.getElem?_push]
  split <;> rfl

@[simp] theorem fst_addScope : (s.addScope bs parent).1 = s.scopes.size :=
  rfl

@[simp] theorem size_scopes_addScope :
    (s.addScope bs parent).2.scopes.size = s.scopes.size + 1 := by
  simp [addScope]

theorem bindings_bind :
    (s.bind i name v).bindings j =
      if j = i ∧ i < s.scopes.size then (name, s.cells.size) :: s.bindings i
      else s.bindings j := by
  simp only [bind, bindings, Array.getElem?_modify]
  by_cases hj : i = j
  · subst hj
    by_cases hi : i < s.scopes.size
    · simp [hi]
    · simp [hi]
  · simp [hj, Ne.symm hj]

@[simp] theorem parent?_bind : (s.bind i name v).parent? j = s.parent? j := by
  simp only [bind, parent?, Array.getElem?_modify]
  by_cases hj : i = j
  · subst hj
    cases s.scopes[i]? <;> simp
  · simp [hj]

@[simp] theorem cells_bind : (s.bind i name v).cells = s.cells.push v :=
  rfl

@[simp] theorem size_scopes_bind : (s.bind i name v).scopes.size = s.scopes.size := by
  simp [bind]

variable (c d : CellId)

@[simp] theorem bindings_set : (s.set c v).bindings i = s.bindings i :=
  rfl

@[simp] theorem parent?_set : (s.set c v).parent? i = s.parent? i :=
  rfl

theorem getElem?_cells_set (h : c < s.cells.size) :
    (s.set c v).cells[d]? = if d = c then some v else s.cells[d]? := by
  simp only [set, Array.getElem?_setIfInBounds]
  by_cases hd : c = d
  · subst hd
    simp [h]
  · simp [hd, Ne.symm hd]

end Scriptlet.Store
