import Scriptlet.Proofs.HostUse

namespace Scriptlet

namespace Store

variable {s : Store} {i j : ScopeId} {c : CellId} {name x : String} {v : Value}

theorem Backed.resolve_lt (h : s.Backed) (hc : s.resolve i name = some c) : c < s.cells.size := by
  rw [resolve_eq_findSome?] at hc
  obtain ⟨j, -, hj⟩ := List.exists_of_findSome?_eq_some hc
  exact h.lookup_lt hj

theorem lookup_eq_none_iff_not_mem_localNames :
    (s.bindings i).lookup name = none ↔ name ∉ s.localNames i := by
  rw [List.lookup_eq_none_iff]
  constructor
  · intro h hname
    obtain ⟨b, hb, rfl⟩ := List.mem_map.mp hname
    simpa using h b hb
  · intro h b hb
    rw [bne_iff_ne]
    rintro rfl
    exact h (List.mem_map_of_mem hb)

@[simp] theorem chain_set (s : Store) (c : CellId) (v : Value) (i : ScopeId) :
    (s.set c v).chain i = s.chain i :=
  chain_congr fun j _ => parent?_set s j v c

@[simp] theorem depth_set (s : Store) (c : CellId) (v : Value) (i : ScopeId) :
    (s.set c v).depth i = s.depth i := by
  rw [depth, depth, chain_set]

@[simp] theorem resolve_set (s : Store) (c : CellId) (v : Value) (i : ScopeId) (name : String) :
    (s.set c v).resolve i name = s.resolve i name := by
  simp only [resolve_eq_findSome?, chain_set, bindings_set]

theorem get?_set (hc : c < s.cells.size) (v : Value) (j : ScopeId) (name : String) :
    (s.set c v).get? j name = if s.resolve j name = some c then some v else s.get? j name := by
  rw [get?, get?, resolve_set]
  cases hd : s.resolve j name with
  | none => rfl
  | some d =>
      rw [Option.bind_some, Option.bind_some, getElem?_cells_set s v c d hc]
      by_cases hdc : d = c
      · rw [if_pos hdc, if_pos (congrArg some hdc)]
      · rw [if_neg hdc, if_neg fun he => hdc (Option.some.inj he)]

theorem chain_define (hi : i < s.scopes.size) (hj : j < s.scopes.size) :
    (s.define i name v).2.chain j = s.chain j :=
  (s.accrues_define hi name v).chain_eq hj

theorem chain_define_new (hi : i < s.scopes.size) :
    (s.define i name v).2.chain s.scopes.size = s.scopes.size :: s.chain i := by
  rw [chain_eq, parent?_define_new s name v hi, Option.elim_some, chain_define hi hi]

theorem depth_define_new (hi : i < s.scopes.size) :
    (s.define i name v).2.depth s.scopes.size = (s.define i name v).2.depth i + 1 := by
  rw [depth, depth, chain_define_new hi, chain_define hi hi, List.length_cons]

theorem localNames_define (hi : i < s.scopes.size) (hj : j = i ∨ j = s.scopes.size) :
    (s.define i name v).2.localNames j = name :: s.localNames i := by
  rw [localNames, bindings_define s name v hi hj, List.map_cons, localNames]

theorem gains_define_iff (hi : i < s.scopes.size) (hj : j < s.scopes.size) :
    s.Gains (s.define i name v).2 x j ↔ j = i ∧ x = name := by
  constructor
  · rintro ⟨c, -, hb⟩
    by_cases hji : j = i
    · subst hji
      rw [bindings_define s name v hi (.inl rfl)] at hb
      exact ⟨rfl, (Prod.mk.inj (List.cons.inj hb).1).1.symm⟩
    · rw [bindings_define_of_ne s name v hj hji] at hb
      simp at hb
  · rintro ⟨rfl, rfl⟩
    exact ⟨s.cells.size, Nat.le_refl _, bindings_define s x v hi (.inl rfl)⟩

/-- The scopes that see a declaration: those which come to its scope on the way outward before they
find the name. -/
theorem resolve_define_ne_iff (hs : s.Backed) (hi : i < s.scopes.size) (hj : j < s.scopes.size) :
    (s.define i name v).2.resolve j x ≠ s.resolve j x ↔
      x = name ∧ ∃ inner outer, s.chain j = inner ++ i :: outer ∧
        ∀ k ∈ inner, x ∉ s.localNames k := by
  have hlt {k : ScopeId} (hk : k ∈ s.chain j) : k < s.scopes.size :=
    Nat.lt_of_le_of_lt (le_of_mem_chain hk) hj
  rw [resolve_eq_findSome?, resolve_eq_findSome?, chain_define hi hj, findSome?_lookup_ne_iff hs]
  · constructor
    · rintro ⟨inner, k, outer, hchain, hinner, hk⟩
      obtain ⟨rfl, rfl⟩ := (gains_define_iff hi (hlt (by simp [hchain]))).mp hk
      exact ⟨rfl, inner, outer, hchain, fun l hl =>
        lookup_eq_none_iff_not_mem_localNames.mp (hinner l hl)⟩
    · rintro ⟨rfl, inner, outer, hchain, hinner⟩
      exact ⟨inner, i, outer, hchain, fun l hl =>
        lookup_eq_none_iff_not_mem_localNames.mpr (hinner l hl),
        (gains_define_iff hi hi).mpr ⟨rfl, rfl⟩⟩
  · intro k hk
    by_cases hki : k = i
    · exact .inr ⟨name, (gains_define_iff hi (hlt hk)).mpr ⟨hki, rfl⟩⟩
    · exact .inl (bindings_define_of_ne s name v (hlt hk) hki)

theorem resolve_define_of_ne (hs : s.Backed) (hi : i < s.scopes.size) (hj : j < s.scopes.size)
    (h : (s.define i name v).2.resolve j x ≠ s.resolve j x) :
    (s.define i name v).2.resolve j x = some s.cells.size := by
  obtain ⟨rfl, inner, outer, hchain, hinner⟩ := (resolve_define_ne_iff hs hi hj).mp h
  have hown : ((s.define i x v).2.bindings i).lookup x = some s.cells.size := by
    rw [bindings_define s x v hi (.inl rfl), List.lookup_cons_self]
  have hlt (k : ScopeId) (hk : k ∈ inner) : k < s.scopes.size :=
    Nat.lt_of_le_of_lt (le_of_mem_chain (by simp [hchain, hk] : k ∈ s.chain j)) hj
  rw [resolve_eq_findSome?, chain_define hi hj, hchain]
  clear hchain h
  induction inner with
  | nil => rw [List.nil_append, List.findSome?_cons, hown]
  | cons k inner ih =>
      rw [List.forall_mem_cons] at hinner hlt
      rw [List.cons_append, List.findSome?_cons]
      by_cases hki : k = i
      · rw [hki, hown]
      · rw [bindings_define_of_ne s x v hlt.1 hki,
          lookup_eq_none_iff_not_mem_localNames.mpr hinner.1]
        exact ih hinner.2 hlt.2

theorem resolve_define_new (hi : i < s.scopes.size) :
    (s.define i name v).2.resolve s.scopes.size x = (s.define i name v).2.resolve i x := by
  have hnew := resolve_eq (s.define i name v).2 s.scopes.size x
  have hold := resolve_eq (s.define i name v).2 i x
  rw [bindings_define s name v hi (.inr rfl), parent?_define_new s name v hi,
    Option.bind_some] at hnew
  rw [bindings_define s name v hi (.inl rfl)] at hold
  cases hl : ((name, s.cells.size) :: s.bindings i).lookup x with
  | none => rw [hnew, hl, Option.none_or]
  | some c => rw [hnew, hold, hl, Option.some_or, Option.some_or]

theorem get?_define_self (hs : s.Backed) (hi : i < s.scopes.size) :
    (s.define i name v).2.get? i name = some v := by
  have hseen : (s.define i name v).2.resolve i name ≠ s.resolve i name :=
    (resolve_define_ne_iff hs hi hi).mpr
      ⟨rfl, [], _, chain_eq s i, fun _ hk => absurd hk List.not_mem_nil⟩
  rw [get?, resolve_define_of_ne hs hi hi hseen]
  simp

end Store

variable {σ : Type}

namespace Machine

variable {m m' : Machine σ} {i j : ScopeId} {x : Ident} {v : Value}

theorem read_eq_ok (h : m.store.get? i x.name = some v) : (read i x m).1 = .ok v := by
  rw [read, h]

theorem read_congr (h : m'.store.get? j x.name = m.store.get? i x.name) :
    (read j x m').1 = (read i x m).1 := by
  rw [read, read, h]
  cases m.store.get? i x.name <;> rfl

theorem write_eq_ok {c : CellId} (h : m.store.resolve i x.name = some c) :
    write i x v m = (.ok (), { m with store := m.store.set c v }) := by
  rw [write, h]

theorem write_eq_error (h : m.store.resolve i x.name = none) :
    write i x v m = (.error ⟨.undefinedVariable x.name, x.span⟩, m) := by
  rw [write, h]
  rfl

variable [Sink σ]

theorem grounded_operate {fuel : Nat} {sink : σ} {ops : List Operation}
    (h : ({ sink } : Machine σ).Permits fuel ops) :
    (({ sink } : Machine σ).operate fuel ops).store.Grounded :=
  (operate_accrues .empty h).grounded .empty

end Machine

variable [Sink σ]

/-- Whatever a host has done before, an assignment succeeds exactly where the name is known, which
is where reading it succeeds. One that fails changes nothing and reports the name and its place. One
that succeeds leaves every scope and the meaning of every name as they were. A name that denotes the
assigned variable then reads as the new value, from wherever it is read, and any other as before. -/
theorem assignment_shows_where_the_variable_is_meant (fuel : Nat) (sink : σ) (ops : List Operation)
    (h : ({ sink } : Machine σ).Permits fuel ops) (i j : ScopeId) (x y : Ident) (v : Value) :
    let m := ({ sink } : Machine σ).operate fuel ops
    let r := Machine.write i x v m
    let s := m.store
    let t := r.2.store
    (r.1 = .ok () ↔ s.contains i x.name = true) ∧
    ((∃ w, (Machine.read i x m).1 = .ok w) ↔ s.contains i x.name = true) ∧
    (s.contains i x.name = false → r = (.error ⟨.undefinedVariable x.name, x.span⟩, m)) ∧
    (s.contains i x.name = true →
      (∀ k, t.bindings k = s.bindings k ∧ t.enclosing? k = s.enclosing? k ∧
        t.depth k = s.depth k ∧ t.localNames k = s.localNames k ∧
        ∀ name, t.resolve k name = s.resolve k name) ∧
      (Machine.read j y r.2).1 =
        if s.resolve j y.name = s.resolve i x.name then .ok v else (Machine.read j y m).1) := by
  intro m r s t
  have hs : s.Grounded := Machine.grounded_operate h
  have hread : (∃ w, (Machine.read i x m).1 = .ok w) ↔ s.contains i x.name = true :=
    Machine.read_eq_ok_iff.trans (hs.isSome_get?_iff i x.name)
  rw [hread, Store.contains]
  cases hc : s.resolve i x.name with
  | none =>
      have hr : r = (.error ⟨.undefinedVariable x.name, x.span⟩, m) := Machine.write_eq_error hc
      simp [hr]
  | some c =>
      have hr : r = (.ok (), { m with store := s.set c v }) := Machine.write_eq_ok hc
      have ht : t = s.set c v := congrArg (·.2.store) hr
      refine ⟨by simp [hr], Iff.rfl, by simp, fun _ => ⟨fun k => ?_, ?_⟩⟩
      · rw [ht]
        exact ⟨rfl, rfl, s.depth_set c v k, rfl, fun name => s.resolve_set c v k name⟩
      · have hget := Store.get?_set (hs.backed.resolve_lt hc) v j y.name
        split at hget
        · next hmeant =>
            rw [if_pos hmeant, hr]
            exact Machine.read_eq_ok hget
        · next hother =>
            rw [if_neg hother, hr]
            exact Machine.read_congr hget

/-- A variable that is listed in three scopes, one of them hidden by another variable of the same
name, is assigned through the scope that took over last. -/
theorem assignment_shows_where_the_variable_is_meant_shared_cell :
    let a : Ident := ⟨"a", {}⟩
    let ops : List Operation := [.global, .define 0 "a" (.bool true), .define 1 "b" .nil, .child 0,
      .define 3 "a" .nil]
    let m := ({ sink := {} } : Machine Buffer).operate 0 ops
    let m' := (Machine.write 2 a (.bool false) m).2
    ({ sink := {} } : Machine Buffer).Permits 0 ops ∧
      (Machine.read 0 a m').1 = .ok (.bool false) ∧ (Machine.read 1 a m').1 = .ok (.bool false) ∧
      (Machine.read 3 a m').1 = .ok .nil := by
  intro a ops m m'
  have h : ({ sink := {} } : Machine Buffer).Permits 0 ops := by decide +kernel
  have hread (j : ScopeId) := (assignment_shows_where_the_variable_is_meant 0 ({} : Buffer) ops h 2
    j a a (.bool false)).2.2.2 (by decide +kernel)
  refine ⟨h, (hread 0).2.trans (if_pos (by decide +kernel)),
    (hread 1).2.trans (if_pos (by decide +kernel)), ?_⟩
  have hinner : m.store.resolve 3 "a" = some 2 := by decide +kernel
  rw [(hread 3).2, if_neg (by decide +kernel)]
  exact Machine.read_eq_ok (by rw [Store.get?, hinner]; rfl)

/-- A declaration, whatever a host has done before. Its variable is read in the scope it is made in
and in the scope that takes over, both list it in front of what was listed, and no other name has
changed its meaning there. From another scope a name changes its meaning exactly if it is the
declared one and the way outward comes to the scope of the declaration before any that lists the
name, and it then denotes the new variable. No variable has another value. And whatever a host does
afterwards, what is declared in the scope that took over, or within it, does not show in the
old one. -/
theorem declaration_shows_where_nothing_hides_it (fuel : Nat) (sink : σ) (ops more : List Operation)
    (i : ScopeId) (x : Ident) (v : Value)
    (h : ({ sink } : Machine σ).Permits fuel (ops ++ .define i x.name v :: more)) :
    let m := ({ sink } : Machine σ).operate fuel ops
    let s := m.store
    let i' := (s.define i x.name v).1
    let m' := { m with store := (s.define i x.name v).2 }
    let t := m'.store
    let u := (({ sink } : Machine σ).operate fuel (ops ++ .define i x.name v :: more)).store
    ((Machine.read i' x m').1 = .ok v ∧ (Machine.read i x m').1 = .ok v) ∧
    (∀ name, name ≠ x.name →
      t.resolve i' name = s.resolve i name ∧ t.resolve i name = s.resolve i name) ∧
    (t.localNames i' = x.name :: s.localNames i ∧ t.localNames i = x.name :: s.localNames i) ∧
    (t.depth i' = t.depth i + 1 ∧ t.depth i = s.depth i) ∧
    (∀ j < s.scopes.size, ∀ name,
      (t.resolve j name ≠ s.resolve j name ↔
        name = x.name ∧ ∃ inner outer, s.chain j = inner ++ i :: outer ∧
          ∀ k ∈ inner, name ∉ s.localNames k) ∧
      (t.resolve j name ≠ s.resolve j name → t.resolve j name = some s.cells.size)) ∧
    (∀ c < s.cells.size, t.cells[c]? = s.cells[c]?) ∧
    ∀ k < u.scopes.size, i' ∈ u.chain k → ∀ name w y,
      (u.define k name w).2.resolve i y = u.resolve i y := by
  intro m s i' m' t u
  obtain ⟨hops, hi, hmore⟩ := Machine.permits_append.mp h
  have hs : s.Grounded := Machine.grounded_operate hops
  have hi : i < s.scopes.size := hi
  have hi' : i' = s.scopes.size := s.fst_define x.name v
  have hother (name : String) (hname : name ≠ x.name) : t.resolve i name = s.resolve i name := by
    by_contra hne
    exact hname ((Store.resolve_define_ne_iff hs.backed hi hi).mp hne).1
  have hnew (name : String) : t.resolve i' name = t.resolve i name := by
    rw [hi']
    exact Store.resolve_define_new hi
  have hread : t.get? i x.name = some v := Store.get?_define_self hs.backed hi
  refine ⟨⟨?_, Machine.read_eq_ok hread⟩, fun name hname => ⟨?_, hother name hname⟩, ⟨?_, ?_⟩,
    ⟨?_, ?_⟩, fun j hj name => ⟨Store.resolve_define_ne_iff hs.backed hi hj,
      Store.resolve_define_of_ne hs.backed hi hj⟩, fun c hc => ?_, fun k hk hchain name w y => ?_⟩
  · exact Machine.read_eq_ok (by rw [Store.get?, hnew]; exact hread)
  · rw [hnew, hother name hname]
  · exact Store.localNames_define hi (.inr hi')
  · exact Store.localNames_define hi (.inl rfl)
  · rw [hi']
    exact Store.depth_define_new hi
  · exact (s.accrues_define hi x.name v).depth_eq hi
  · exact (Array.getElem?_push_lt hc).trans (Array.getElem?_eq_getElem hc).symm
  · have hinside : i < k := Nat.lt_of_lt_of_le (hi' ▸ hi) (Store.le_of_mem_chain hchain)
    by_contra hne
    obtain ⟨-, inner, outer, houtward, -⟩ := (Store.resolve_define_ne_iff
      (Machine.grounded_operate h).backed hk (Nat.lt_trans hinside hk)).mp hne
    have hmem : k ∈ u.chain i := houtward ▸ List.mem_append_right inner List.mem_cons_self
    exact Nat.not_le.mpr hinside (Store.le_of_mem_chain hmem)

/-- A second declaration of `a` in the global scope shows in a block that was opened there. It does
not show in the scope that took over after the first one, which lists that one itself. -/
theorem declaration_shows_where_nothing_hides_it_second_declaration :
    let ops : List Operation := [.global, .define 0 "a" (.bool true), .child 0]
    let more : List Operation := [.child 3]
    let s := (({ sink := {} } : Machine Buffer).operate 0 ops).store
    let t := (s.define 0 "a" (.bool false)).2
    let u := (({ sink := {} } : Machine Buffer).operate 0
      (ops ++ .define 0 "a" (.bool false) :: more)).store
    ({ sink := {} } : Machine Buffer).Permits 0 (ops ++ .define 0 "a" (.bool false) :: more) ∧
      s.resolve 2 "a" = some 0 ∧ t.resolve 2 "a" = some 1 ∧
      t.resolve 1 "a" = s.resolve 1 "a" ∧
      (u.define 4 "a" .nil).2.resolve 0 "a" = u.resolve 0 "a" := by
  intro ops more s t u
  have h : ({ sink := {} } : Machine Buffer).Permits 0
      (ops ++ .define 0 "a" (.bool false) :: more) := by decide +kernel
  obtain ⟨-, -, -, -, hseen, -, hlater⟩ :=
    declaration_shows_where_nothing_hides_it 0 ({} : Buffer) ops more 0 ⟨"a", {}⟩ (.bool false) h
  refine ⟨h, by decide +kernel, ?_, ?_,
    hlater 4 (by decide +kernel) (by decide +kernel) "a" .nil "a"⟩
  · obtain ⟨hiff, hnew⟩ := hseen 2 (by decide +kernel) "a"
    exact hnew (hiff.mpr ⟨rfl, [2], [], by decide +kernel, by decide +kernel⟩)
  · by_contra hne
    obtain ⟨-, inner, outer, hchain, hinner⟩ := (hseen 1 (by decide +kernel) "a").1.mp hne
    have htwo : s.chain 1 = [1, 0] := by decide +kernel
    cases inner with
    | nil => simpa using htwo.symm.trans hchain
    | cons k inner =>
        have hk : 1 = k := (List.cons.inj (htwo.symm.trans hchain)).1
        exact hinner k List.mem_cons_self (hk ▸ (by decide +kernel : "a" ∈ s.localNames 1))

end Scriptlet
