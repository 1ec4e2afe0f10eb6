import Mathlib
import Scriptlet.Proofs.BodyScopes
import Scriptlet.Proofs.Confinement
import Scriptlet.Proofs.ListedNames
import Scriptlet.Proofs.RootedStore
import Scriptlet.Proofs.TopLevel

namespace Scriptlet

variable {σ ρ : Type}

def Event.targets : Event → List String
  | .assign name _ => [name]
  | e => e.binds

theorem Event.binds_subset_targets (e : Event) : e.binds ⊆ e.targets := by
  cases e with
  | assign => exact List.nil_subset _
  | none | block | call | declare | function => exact List.Subset.refl _

namespace Store

/-- The variables of this name are those of registered host functions, and they have no other
name. -/
structure Reserved (name : String) (s : Store) : Prop where
  native : ∀ i c, s.listed? i name = some c →
    ∃ id x arity, s.cells[c]? = some (.callable (.native id x arity)) ∧ id < s.natives.size
  single : ∀ i j x c, s.listed? i name = some c → s.listed? j x = some c → x = name

variable {s : Store} {name : String}

theorem Reserved.apply (h : s.Reserved name) (hs : s.Backed) {e : Event} (he : name ∉ e.targets)
    (scope : ScopeId) (hn : (e.apply scope s).natives = s.natives) :
    (e.apply scope s).Reserved name := by
  have hbefore {i : ScopeId} {c : CellId} (hc : (e.apply scope s).listed? i name = some c) :
      ∃ j, s.listed? j name = some c := by
    cases hd : e.declares with
    | false =>
        rw [Event.listed?_apply_of_not_declares (fun hm => he (e.binds_subset_targets hm)) hd] at hc
        exact ⟨i, hc⟩
    | true =>
        rw [Event.listed?_apply_of_declares (fun hm => he (e.binds_subset_targets hm)) hd] at hc
        exact ⟨_, hc⟩
  refine ⟨fun i c hc => ?_, fun i j x c hc hx => ?_⟩
  · obtain ⟨k, hk⟩ := hbefore hc
    rw [hn, Event.getElem?_cells_apply (hs.listed?_lt hk) scope fun ho => ?_]
    · exact h.native k c hk
    -- an assignment that hits the variable would go by its name
    · cases e with
      | assign x v =>
          obtain ⟨j, -, hj⟩ := exists_listed?_of_resolve ho
          exact he (List.mem_singleton.mpr (h.single k j x c hk hj).symm)
      | none | block | call | declare | function => cases ho
  · obtain ⟨k, hk⟩ := hbefore hc
    rcases Event.listed?_of_apply hx with ⟨l, hl⟩ | hnew
    · exact h.single k l x c hk hl
    · exact absurd (hs.listed?_lt hk) (Nat.not_lt.mpr hnew)

theorem cells_provide (s : Store) (root : ScopeId) (f : HostFunction) :
    (s.provide root f).cells =
      s.cells.push (.callable (.native s.natives.size f.name f.arity)) :=
  rfl

theorem listed?_provide {root : ScopeId} (hroot : root < s.scopes.size) (f : HostFunction)
    (i : ScopeId) (x : String) :
    (s.provide root f).listed? i x =
      if i = root ∧ x = f.name then some s.cells.size else s.listed? i x :=
  listed?_bind (s := (s.addNative f.name f.arity f.body).2) hroot _

theorem Reserved.provide (h : s.Reserved name) (hs : s.Backed) {root : ScopeId}
    (hroot : root < s.scopes.size) (f : HostFunction) : (s.provide root f).Reserved name := by
  have hold {i : ScopeId} {x : String} (hi : s.listed? i x = some s.cells.size) : False :=
    absurd (hs.listed?_lt hi) (Nat.lt_irrefl _)
  refine ⟨fun i c hc => ?_, fun i j x c hc hx => ?_⟩
  · rw [listed?_provide hroot] at hc
    split at hc
    · cases hc
      exact ⟨s.natives.size, f.name, f.arity, Array.getElem?_push_size,
        Nat.lt_of_lt_of_eq (Nat.lt_succ_self _) (Array.size_push f.body).symm⟩
    · obtain ⟨id, x, arity, hcell, hid⟩ := h.native i c hc
      refine ⟨id, x, arity, ?_, ?_⟩
      · rw [cells_provide, Array.getElem?_push, if_neg (Nat.ne_of_lt (hs.listed?_lt hc)), hcell]
      · exact Nat.lt_of_lt_of_eq (Nat.lt_succ_of_lt hid) (Array.size_push f.body).symm
  · rw [listed?_provide hroot] at hc hx
    split at hc
    · next hname =>
        cases hc
        split at hx
        · next hj => rw [hj.2, hname.2]
        · exact (hold hx).elim
    · split at hx
      · cases hx
        exact (hold hc).elim
      · exact h.single i j x c hc hx

theorem chain_provide (s : Store) (root : ScopeId) (f : HostFunction) (i : ScopeId) :
    (s.provide root f).chain i = s.chain i :=
  chain_congr fun _ _ => parent?_bind _ _ _ _ _

theorem Rooted.chain_eq_concat {root i : ScopeId} (h : s.Rooted root) (hi : i < s.scopes.size) :
    ∃ inner, s.chain i = inner ++ [root] ∧ root ∉ inner := by
  obtain ⟨inner, hchain, hinner⟩ := chain_eq_append (h.root_mem_chain hi)
  refine ⟨inner, ?_, fun hmem => Nat.lt_irrefl root (hinner root hmem)⟩
  rw [hchain, h.chain_root]

theorem get?_provide {root i : ScopeId} (h : s.Rooted root) (hi : i < s.scopes.size)
    (f : HostFunction) (hnone : ∀ j ∈ s.chain i, j ≠ root → s.listed? j f.name = none) :
    (s.provide root f).get? i f.name =
      some (.callable (.native s.natives.size f.name f.arity)) := by
  obtain ⟨inner, hchain, hroot⟩ := h.chain_eq_concat hi
  have hresolve : (s.provide root f).resolve i f.name = some s.cells.size := by
    have hway : (s.provide root f).chain i = inner ++ [root] := by rw [chain_provide, hchain]
    refine resolve_of_chain hway (fun j hj => ?_) ?_
    · have hne : j ≠ root := fun he => hroot (he ▸ hj)
      refine (listed?_provide h.lt f j f.name).trans ?_
      rw [if_neg fun hroot => hne hroot.1]
      exact hnone j (hchain ▸ List.mem_append_left _ hj) hne
    · exact (listed?_provide h.lt f root f.name).trans (if_pos ⟨rfl, rfl⟩)
  rw [Store.get?, hresolve]
  exact Array.getElem?_push_size

theorem get?_provide_of_listed? {root i j : ScopeId} (h : s.Rooted root) (hi : i < s.scopes.size)
    (f : HostFunction) (hj : j ∈ s.chain i) (hne : j ≠ root) (hlist : s.listed? j f.name ≠ none) :
    (s.provide root f).get? i f.name = s.get? i f.name ∧
      ∃ k c, s.listed? k f.name = some c ∧ s.get? i f.name = s.cells[c]? := by
  obtain ⟨inner, hchain, hroot⟩ := h.chain_eq_concat hi
  have hj : j ∈ inner := by
    rw [hchain] at hj
    exact (List.mem_append.mp hj).resolve_right fun hj => hne (List.mem_singleton.mp hj)
  obtain ⟨c, hc⟩ : ∃ c, (inner.findSome? fun j => s.listed? j f.name) = some c := by
    rw [← Option.isSome_iff_exists, List.findSome?_isSome_iff]
    exact ⟨j, hj, Option.isSome_iff_ne_none.mpr hlist⟩
  obtain ⟨before, k, after, rfl, hk, hbefore⟩ := List.findSome?_eq_some_iff.mp hc
  have hsame {l : ScopeId} (hl : l ∈ before ++ k :: after) :
      (s.provide root f).listed? l f.name = s.listed? l f.name := by
    rw [listed?_provide h.lt, if_neg]
    rintro ⟨rfl, -⟩
    exact hroot hl
  rw [List.append_assoc, List.cons_append] at hchain
  have hresolve : s.resolve i f.name = some c := resolve_of_chain hchain hbefore hk
  have hresolve' : (s.provide root f).resolve i f.name = some c := by
    refine resolve_of_chain ((chain_provide s root f i).trans hchain) (fun l hl => ?_) ?_
    · exact (hsame (List.mem_append_left _ hl)).trans (hbefore l hl)
    · exact (hsame (List.mem_append_right _ List.mem_cons_self)).trans hk
  have hcell : (s.provide root f).cells[c]? = s.cells[c]? := by
    rw [cells_provide, Array.getElem?_push, if_neg (Nat.ne_of_lt (h.backed.listed?_lt hk))]
  simp only [Store.get?, hresolve, hresolve', Option.bind_some, hcell, true_and]
  exact ⟨k, c, hk, rfl⟩

end Store

/-- The scopes in use are the inner ones, none of which lists the name, and the one at the top
level. Beside the root, the scopes that list the name are those along the way from the top level to
the root, and these only if the name was registered early. -/
structure Moment.Layered (name : String) (root : ScopeId) (early : Prop) (inner : List ScopeId)
    (top : ScopeId) (m : Moment σ) : Prop where
  inUse : m.inUse = inner ++ [top]
  inner : ∀ i ∈ inner, i ≠ root ∧ m.machine.store.listed? i name = none
  elsewhere : ∀ i ≠ root, m.machine.store.listed? i name ≠ none →
    early ∧ i ∈ m.machine.store.chain top
  along : early → ∀ i ∈ m.machine.store.chain top, m.machine.store.listed? i name ≠ none
  ground : top = root → m.machine.store.listed? root name ≠ none → early

namespace Moment

variable {m m' : Moment σ} {name : String} {root top : ScopeId} {early : Prop}
  {inner : List ScopeId}

theorem Layered.of_halted (h : m.Layered name root early inner top) (hm : m.Halted) :
    inner = [] ∧ top = m.scope := by
  have huse := h.inUse
  rw [hm.inUse_eq] at huse
  cases inner with
  | nil => exact ⟨rfl, (List.cons.inj huse).1.symm⟩
  | cons i inner => simp at huse

theorem Layered.carry (h : m.Layered name root early inner top)
    (hl : ∀ i, m'.machine.store.listed? i name = m.machine.store.listed? i name)
    (hc : m'.machine.store.chain top = m.machine.store.chain top) {inner' : List ScopeId}
    (hu : m'.inUse = inner' ++ [top])
    (hi : ∀ i ∈ inner', i ≠ root ∧ m.machine.store.listed? i name = none) :
    m'.Layered name root early inner' top where
  inUse := hu
  inner i hmem := by
    rw [hl]
    exact hi i hmem
  elsewhere i hne hlist := by
    rw [hl] at hlist
    rw [hc]
    exact h.elsewhere i hne hlist
  along he i hmem := by
    rw [hc] at hmem
    rw [hl]
    exact h.along he i hmem
  ground ht hlist := by
    rw [hl] at hlist
    exact h.ground ht hlist

theorem Layered.advance (h : m.Layered name root early [] top)
    (hroot : root < m.machine.store.scopes.size)
    (hl : ∀ i, m'.machine.store.listed? i name = m.machine.store.listed?
      (if i = m.machine.store.scopes.size then top else i) name)
    (hc : m'.machine.store.chain m.machine.store.scopes.size =
      m.machine.store.scopes.size :: m.machine.store.chain top)
    (hu : m'.inUse = [m.machine.store.scopes.size]) (htop : top < m.machine.store.scopes.size) :
    m'.Layered name root early [] m.machine.store.scopes.size where
  inUse := hu
  inner := List.forall_mem_nil _
  elsewhere i hne hlist := by
    rw [hl] at hlist
    rw [hc]
    by_cases hi : i = m.machine.store.scopes.size
    · rw [if_pos hi] at hlist
      refine ⟨?_, hi ▸ List.mem_cons_self⟩
      by_cases ht : top = root
      · exact h.ground ht (ht ▸ hlist)
      · exact (h.elsewhere top ht hlist).1
    · rw [if_neg hi] at hlist
      obtain ⟨he, hmem⟩ := h.elsewhere i hne hlist
      exact ⟨he, List.mem_cons_of_mem _ hmem⟩
  along he i hmem := by
    rw [hl]
    rw [hc] at hmem
    rcases List.mem_cons.mp hmem with rfl | hmem
    · rw [if_pos rfl]
      exact h.along he top (Store.mem_chain_self _ _)
    · have hlt := Nat.lt_of_le_of_lt (Store.le_of_mem_chain hmem) htop
      rw [if_neg (Nat.ne_of_lt hlt)]
      exact h.along he i hmem
  ground ht := absurd ht (Nat.ne_of_gt hroot)

theorem Layered.provide (h : m.Layered name root early [] top)
    (hroot : m.machine.store.Rooted root) (f : HostFunction) {early' : Prop}
    (he : early' ↔ early ∨ f.name = name ∧ top = root) :
    ({ m with machine.store := m.machine.store.provide root f } : Moment σ).Layered name root early'
      [] top := by
  have hl := Store.listed?_provide hroot.lt f
  have hmono {i : ScopeId} (hi : m.machine.store.listed? i name ≠ none) :
      (m.machine.store.provide root f).listed? i name ≠ none := by
    rw [hl]
    split
    · exact Option.some_ne_none _
    · exact hi
  have hc : (m.machine.store.provide root f).chain top = m.machine.store.chain top :=
    Store.chain_congr fun j _ => Store.parent?_bind _ _ _ _ _
  refine ⟨h.inUse, List.forall_mem_nil _, fun i hne hi => ?_, fun hearly i hi => ?_,
    fun ht hi => he.mpr ?_⟩
  · rw [hl, if_neg fun hroot => hne hroot.1] at hi
    obtain ⟨hearly, hmem⟩ := h.elsewhere i hne hi
    exact ⟨he.mpr (.inl hearly), hc ▸ hmem⟩
  · rw [hc] at hi
    rcases he.mp hearly with hearly | ⟨rfl, rfl⟩
    · exact hmono (h.along hearly i hi)
    · rw [hroot.chain_root, List.mem_singleton] at hi
      rw [hl, if_pos ⟨hi, rfl⟩]
      exact Option.some_ne_none _
  · by_cases hname : f.name = name
    · exact .inr ⟨hname, ht⟩
    · rw [hl, if_neg fun hroot => hname hroot.2.symm] at hi
      exact .inl (h.ground ht hi)

theorem Layered.get?_provide (h : m.Layered name root early [] top)
    (hroot : m.machine.store.Rooted root) (hreserved : m.machine.store.Reserved name) {i : ScopeId}
    (hi : i < m.machine.store.scopes.size) (arity : Nat) (body : NativeBody) :
    let hidden := early ∧
      ∃ j ∈ m.machine.store.chain i, j ∈ m.machine.store.chain top ∧ j ≠ root
    let store' := m.machine.store.provide root ⟨name, arity, body⟩
    (store'.get? i name = some (.callable (.native m.machine.store.natives.size name arity)) ↔
        ¬hidden) ∧
      (hidden → store'.get? i name = m.machine.store.get? i name) := by
  intro hidden store'
  by_cases hhidden : hidden
  · obtain ⟨hearly, j, hj, htop, hne⟩ := hhidden
    obtain ⟨hsame, k, c, hk, hc⟩ := Store.get?_provide_of_listed? hroot hi
      ⟨name, arity, body⟩ hj hne (h.along hearly j htop)
    refine ⟨iff_of_false (fun hnew => ?_) fun hnot => hnot ⟨hearly, j, hj, htop, hne⟩,
      fun _ => hsame⟩
    -- what is seen is a function that was registered before
    obtain ⟨id, x, a, hcell, hid⟩ := hreserved.native k c hk
    have hsome := hnew.symm.trans (hsame.trans (hc.trans hcell))
    simp only [Option.some.injEq, Value.callable.injEq, Callable.native.injEq] at hsome
    exact Nat.lt_irrefl id (hsome.1 ▸ hid)
  · refine ⟨iff_of_true ?_ hhidden, fun hh => absurd hh hhidden⟩
    refine Store.get?_provide hroot hi ⟨name, arity, body⟩ fun j hj hne => ?_
    by_contra hlist
    obtain ⟨hearly, htop⟩ := h.elsewhere j hne hlist
    exact hhidden ⟨hearly, j, hj, htop, hne⟩

variable [Sink σ]

theorem Layered.next (h : m.Layered name root early inner top) (hm : m.Orderly)
    (hroot : root < m.machine.store.scopes.size) (he : name ∉ m.event.binds) :
    ∃ inner' top', m.next.Layered name root early inner' top' := by
  have htop : top < m.machine.store.scopes.size := hm.lt top (by rw [h.inUse]; simp)
  have hc := m.evolves_next.chain_eq htop
  have hnew : m.machine.store.scopes.size ≠ root ∧
      m.machine.store.listed? m.machine.store.scopes.size name = none :=
    ⟨Nat.ne_of_gt hroot, Store.listed?_eq_none_of_size_le (Nat.le_refl _)⟩
  have hl (hd : m.event.declares = true) (i : ScopeId) : m.next.machine.store.listed? i name =
      m.machine.store.listed? (if i = m.machine.store.scopes.size then m.scope else i) name := by
    rw [store_next, Event.listed?_apply_of_declares he hd]
  cases next_levelStep h.inUse with
  | pass hd inner' hu hmem =>
      refine ⟨inner', top, h.carry (fun i => ?_) hc hu fun i hi => ?_⟩
      · rw [store_next, Event.listed?_apply_of_not_declares he hd]
      · rcases hmem i hi with hi | rfl
        · exact h.inner i hi
        · exact hnew
  | inward hd rest hinner hu =>
      obtain ⟨hscope, hrest⟩ := List.forall_mem_cons.mp (hinner ▸ h.inner)
      refine ⟨_, top, h.carry (fun i => ?_) hc hu (List.forall_mem_cons.mpr ⟨hnew, hrest⟩)⟩
      rw [hl hd]
      split
      · next hi => rw [hi, hscope.2, hnew.2]
      · rfl
  | advance hd hinner hscope hu =>
      subst hinner
      refine ⟨[], m.machine.store.scopes.size, h.advance hroot (hscope ▸ hl hd) ?_ hu htop⟩
      obtain ⟨x, hx⟩ := Option.isSome_iff_exists.mp (m.declares_event ▸ hd)
      rw [Store.chain_eq, (next_declares hx).parent?_new hm.scope_lt, Option.elim_some, hscope, hc]

end Moment

namespace Session

variable [Sink σ] {s : Session σ} {name : String}

theorem next_moment_cases (h : ∀ q ∈ s.requests, q.handlesFunction = false) :
    (s.registers? = none ∧ s.next.moment = s.moment.next) ∨
    (s.registers? = none ∧ s.next.moment.machine = s.moment.machine ∧
      s.next.moment.inUse = s.moment.inUse) ∨
    ∃ f, s.registers? = some f ∧ s.moment.Halted ∧
      s.next.moment =
        { s.moment with machine.store := s.moment.machine.store.provide s.globals f } := by
  cases hr : s.registers? with
  | none =>
      rcases s.next_cases with hn | ⟨request, requests, hm, hq, hn⟩
      · exact .inl ⟨rfl, by rw [hn]⟩
      · refine .inr (.inl ⟨rfl, ?_, by rw [hn]; exact request.inUse_opening hm⟩)
        have hhandles := h request (hq ▸ List.mem_cons_self)
        rw [hn]
        cases request with
        | run | interpret | evaluate => rfl
        | provide f =>
            have hf := registers?_eq_some_iff.mpr ⟨hm, requests, hq⟩
            rw [hr] at hf
            cases hf
        | function | native | rebind => cases hhandles
  | some f =>
      obtain ⟨hm, requests, hq⟩ := registers?_eq_some_iff.mp hr
      exact .inr (.inr ⟨f, rfl, hm, congrArg Session.moment (next_of_halted hm hq)⟩)

def EarlyBefore (s : Session σ) (name : String) (t : Nat) : Prop :=
  ∃ u < t, ∃ f, (s.after u).registers? = some f ∧ f.name = name ∧
    (s.after u).moment.scope = s.globals

theorem earlyBefore_succ (s : Session σ) (name : String) (t : Nat) :
    s.EarlyBefore name (t + 1) ↔ s.EarlyBefore name t ∨
      ∃ f, (s.after t).registers? = some f ∧ f.name = name ∧
        (s.after t).moment.scope = s.globals := by
  constructor
  · rintro ⟨u, hu, hf⟩
    rcases Nat.lt_succ_iff_lt_or_eq.mp hu with hu | rfl
    · exact .inl ⟨u, hu, hf⟩
    · exact .inr hf
  · rintro (⟨u, hu, hf⟩ | hf)
    · exact ⟨u, Nat.lt_succ_of_lt hu, hf⟩
    · exact ⟨t, Nat.lt_succ_self t, hf⟩

theorem layered_after (hs : s.moment.Orderly) (hr : ∀ q ∈ s.requests, q.handlesFunction = false)
    (hroot : s.moment.machine.store.Rooted s.globals)
    (hname : ∀ t, name ∉ (s.after t).moment.event.targets)
    (hreserved : s.moment.machine.store.Reserved name)
    (hstart : s.moment.Layered name s.globals False [] s.globals) (t : Nat) :
    (s.after t).moment.machine.store.Reserved name ∧
      ∃ inner top, (s.after t).moment.Layered name s.globals (s.EarlyBefore name t) inner top := by
  induction t with
  | zero =>
      have hnever : s.EarlyBefore name 0 ↔ False :=
        ⟨fun ⟨u, hu, _⟩ => Nat.not_lt_zero u hu, False.elim⟩
      rw [hnever]
      exact ⟨hreserved, [], s.globals, hstart⟩
  | succ t ih =>
      obtain ⟨hres, inner, top, hlay⟩ := ih
      have hm := orderly_after hs t
      have hrooted := rooted_after hs hr hroot t
      have hbinds := fun h => hname t ((s.after t).moment.event.binds_subset_targets h)
      rw [after_succ]
      rcases next_moment_cases fun q hq => hr q ((s.requests_after_suffix t).subset hq) with
        ⟨hnone, hn⟩ | ⟨hnone, hmachine, huse⟩ | ⟨f, hf, hhalted, hn⟩
      · have hearly : s.EarlyBefore name (t + 1) ↔ s.EarlyBefore name t := by
          simp [earlyBefore_succ, hnone]
        rw [hn, hearly]
        refine ⟨?_, hlay.next hm hrooted.lt hbinds⟩
        rw [Moment.store_next]
        exact hres.apply hm.backed (hname t) _ (by rw [← Moment.store_next, Moment.natives_next])
      · have hearly : s.EarlyBefore name (t + 1) ↔ s.EarlyBefore name t := by
          simp [earlyBefore_succ, hnone]
        rw [hearly]
        refine ⟨hmachine ▸ hres, inner, top, hlay.carry (fun i => ?_) ?_ (huse.trans hlay.inUse)
          hlay.inner⟩
        · rw [hmachine]
        · rw [hmachine]
      · obtain ⟨rfl, rfl⟩ := hlay.of_halted hhalted
        have hearly : s.EarlyBefore name (t + 1) ↔ s.EarlyBefore name t ∨
            f.name = name ∧ (s.after t).moment.scope = s.globals := by
          simp [earlyBefore_succ, hf]
        rw [hn, globals_after]
        exact ⟨hres.provide hm.backed hrooted.lt f, [], _, hlay.provide hrooted f hearly⟩

/-- The name is registered at a time when the current scope is still the global one. -/
def RegistersEarly (s : Session σ) (name : String) : Prop :=
  ∃ t f, (s.after t).registers? = some f ∧ f.name = name ∧ (s.after t).moment.scope = s.globals

end Session

namespace Interpreter

theorem listed?_new (sink : σ) (config : Config) (source : Option Source) (i : ScopeId)
    (name : String) : (new sink config source).machine.store.listed? i name = none := by
  refine (Store.listed?_addScope [] none).trans ?_
  split <;> rfl

theorem evaluate_var_eq_ok_iff [Sink σ] (i : Interpreter σ) (fuel : Nat) (x : Ident) (span : Span)
    (v : Value) : (evaluate (fuel + 1) (.var x span) i).1 = .ok v ↔
      i.machine.store.get? i.environment x.name = some v := by
  simp only [evaluate, atTop, Cursor.here, evalExpr, Machine.read]
  cases i.machine.store.get? i.environment x.name with
  | none => simp [Step.fail]
  | some w => simp

end Interpreter

theorem Interpreter.reserved_new (sink : σ) (config : Config) (source : Option Source)
    (name : String) : (new sink config source).machine.store.Reserved name := by
  refine ⟨fun i c hc => ?_, fun i j x c hc => ?_⟩
  all_goals
    rw [listed?_new] at hc
    cases hc

theorem Session.layered_resting_new (sink : σ) (config : Config) (source : Option Source)
    (requests : List Request) (name : String) :
    (resting (.ok .nil) (Interpreter.new sink config source) requests).moment.Layered name
      (Interpreter.new sink config source).globals False []
      (Interpreter.new sink config source).globals := by
  have hnone (i : ScopeId) := Interpreter.listed?_new sink config source i name
  exact ⟨rfl, List.forall_mem_nil _, fun i _ hi => absurd (hnone i) hi, False.elim,
    fun _ hi => absurd (hnone _) hi⟩

theorem Session.layered_at_end [Sink σ] [Reporter ρ] {reporter : ρ} {sink : σ} {config : Config}
    {source : Option Source} {requests : List Request}
    (hr : ∀ q ∈ requests, q.handlesFunction = false) {fuel : Nat}
    (hend : .outOfFuel ∉ session fuel requests (reporter, Interpreter.new sink config source))
    {name : String}
    (hname : ∀ t, name ∉ ((resting (.ok .nil) (Interpreter.new sink config source)
      requests).after t).moment.event.targets) :
    let i := (sessionState fuel requests (reporter, Interpreter.new sink config source)).2
    ∃ o, (resting o i []).moment.Orderly ∧ i.machine.store.Rooted i.globals ∧
      i.machine.store.Reserved name ∧
      (resting o i []).moment.Layered name i.globals
        ((resting (.ok .nil) (Interpreter.new sink config source) requests).RegistersEarly name)
        [] i.environment := by
  intro i
  let s := resting (.ok .nil) (Interpreter.new sink config source) requests
  have horderly : s.moment.Orderly :=
    orderly_resting (.ok .nil) (Interpreter.sound_new sink config source) requests
  have hroot := Interpreter.rooted_new sink config source
  obtain ⟨n, o, hn, -⟩ := after_session fuel requests [] (.ok .nil) (reporter, _) hend
  rw [List.append_nil] at hn
  have hglobals : i.globals = s.globals := by
    rw [← s.globals_after n]
    exact (congrArg Session.globals hn).symm
  have hm := orderly_after horderly n
  have hrooted := rooted_after horderly hr hroot n
  obtain ⟨hreserved, inner, top, hlayered⟩ := layered_after horderly hr hroot hname
    (Interpreter.reserved_new sink config source name)
    (layered_resting_new sink config source requests name) n
  have hearly : s.EarlyBefore name n ↔ s.RegistersEarly name := by
    refine ⟨fun ⟨u, _, hu⟩ => ⟨u, hu⟩, fun ⟨u, f, hf, hu⟩ => ⟨u, Nat.lt_of_not_le fun hle => ?_,
      f, hf, hu⟩⟩
    -- once the session is over nothing is registered any more
    rw [← Nat.sub_add_cancel hle, after_add, hn, after_resting] at hf
    cases hf
  rw [hn] at hm hrooted hreserved hlayered
  obtain ⟨rfl, rfl⟩ := hlayered.of_halted ⟨⟨_, rfl⟩, rfl⟩
  rw [hearly] at hlayered
  rw [hglobals]
  exact ⟨o, hm, hrooted, hreserved, hlayered⟩

/-- Let nothing in a session but registrations concern a name, and let the name be registered once
more after that. A scope that is current or was captured sees the new function exactly if no scope
that a declaration at the top level has made lies between it and the global one, or if the name was
not registered before the first such declaration. Otherwise the registration shows no effect
there. -/
theorem registration_takes_effect_iff [Sink σ] [Reporter ρ] (reporter : ρ) (sink : σ)
    (config : Config) (source : Option Source) (requests : List Request)
    (hr : ∀ q ∈ requests, q.handlesFunction = false) (fuel : Nat)
    (hend : .outOfFuel ∉ session fuel requests (reporter, Interpreter.new sink config source))
    (name : String)
    (hname : ∀ t, name ∉ ((Session.resting (.ok .nil) (Interpreter.new sink config source)
      requests).after t).moment.event.targets) (arity : Nat) (body : NativeBody) :
    let start : ρ × Interpreter σ := (reporter, .new sink config source)
    let s := Session.resting (.ok .nil) start.2 requests
    let i := (sessionState fuel requests start).2
    let store := i.machine.store
    let i' := i.defineNative name arity body
    let store' := i'.machine.store
    let native : Value := .callable (.native store.natives.size name arity)
    let Hidden (scope : ScopeId) := s.RegistersEarly name ∧
      ∃ j ∈ store.chain scope, j ∈ store.chain i.environment ∧ j ≠ i.globals
    store'.nativeBody store.natives.size = body ∧
      (∀ scope, scope = i.environment ∨ scope ∈ store.captured →
        (store'.get? scope name = some native ↔ ¬Hidden scope) ∧
        (Hidden scope → store'.get? scope name = store.get? scope name)) ∧
      ∀ n span whole, (Interpreter.evaluate (n + 1) (.var ⟨name, span⟩ whole) i').1 = .ok native ↔
        ¬(s.RegistersEarly name ∧ i.environment ≠ i.globals) := by
  intro start s i store i' store' native Hidden
  obtain ⟨o, hm, hroot, hreserved, hlayered⟩ := Session.layered_at_end hr hend hname
  have henv : i.environment < store.scopes.size := hm.scope_lt
  have htop : (∃ j ∈ store.chain i.environment, j ∈ store.chain i.environment ∧ j ≠ i.globals) ↔
      i.environment ≠ i.globals := by
    have hchain : store.chain i.globals = [i.globals] := hroot.chain_root
    constructor
    · rintro ⟨j, hj, -, hne⟩ he
      rw [he, hchain, List.mem_singleton] at hj
      exact hne hj
    · exact fun hne => ⟨_, Store.mem_chain_self _ _, Store.mem_chain_self _ _, hne⟩
  have hseen {scope : ScopeId} (hscope : scope < store.scopes.size) :=
    hlayered.get?_provide hroot hreserved hscope arity body
  refine ⟨?_, fun scope hscope => hseen ?_, fun n span whole => ?_⟩
  · change (store.natives.push body).getD store.natives.size _ = body
    rw [Array.getD_eq_getD_getElem?, Array.getElem?_push_size, Option.getD_some]
  · rcases hscope with rfl | hscope
    · exact henv
    · exact hroot.captured scope hscope
  · rw [Interpreter.evaluate_var_eq_ok_iff]
    exact (hseen henv).1.trans (not_congr (and_congr_right fun _ => htop))

/-- A host function is replaced after a declaration at the top level. The function that was declared
captured the global scope and sees the new host function, the top level does not. -/
theorem registration_takes_effect_iff_captured_globals :
    let f : HostFunction := ⟨"f", 0, fun _ => .ok .nil⟩
    let requests : List Request := [.provide f, .run [.function ⟨"g", {}⟩ [] [] {} {}]]
    let start : DiagnosticLog × Interpreter Buffer := ({}, .new {})
    let s := Session.resting (.ok .nil) start.2 requests
    let i := (sessionState 9 requests start).2
    let i' := i.defineNative "f" 1 fun _ => .ok (.bool true)
    (∀ q ∈ requests, q.handlesFunction = false) ∧ .outOfFuel ∉ session 9 requests start ∧
      (∀ t, "f" ∉ (s.after t).moment.event.targets) ∧ i.machine.store.captured = #[0] ∧
      i'.machine.store.get? 0 "f" = some (.callable (.native 1 "f" 1)) ∧
      (Interpreter.evaluate 9 (.var ⟨"f", {}⟩ {}) i').1 ≠ .ok (.callable (.native 1 "f" 1)) := by
  intro f requests start s i i'
  let g : Value := .callable (.function 0 ⟨⟨"g", {}⟩, [], [], {}⟩)
  have hr : ∀ q ∈ requests, q.handlesFunction = false := by decide
  have hend : .outOfFuel ∉ session 9 requests start := by
    have hsession : session 9 requests start = [.ok .done, .ok (.value g)] := by cbv
    rw [hsession]
    simp
  have hname : ∀ t, "f" ∉ (s.after t).moment.event.targets := by
    intro t
    have hfirst : ∀ u < 10, "f" ∉ (s.after u).moment.event.targets := by decide +kernel
    have hfocus : (s.after 9).moment.focus = .done (.ok g) := by cbv
    have htasks : (s.after 9).moment.tasks = [] := by cbv
    have hrequests : (s.after 9).requests = [] := by cbv
    rcases Nat.lt_or_ge t 10 with ht | ht
    · exact hfirst t ht
    · rw [Session.after_eq_of_le ⟨⟨_, hfocus⟩, htasks⟩ hrequests (Nat.le_of_succ_le ht)]
      exact hfirst 9 (by decide)
  have hcaptured : i.machine.store.captured = #[0] := by decide +kernel
  have hsize : i.machine.store.natives.size = 1 := by decide +kernel
  have hglobals : ∀ j ∈ i.machine.store.chain 0, j = i.globals := by decide +kernel
  have henv : i.environment ≠ i.globals := by decide +kernel
  have hearly : s.RegistersEarly "f" := ⟨0, f, rfl, rfl, rfl⟩
  obtain ⟨-, hseen, htop⟩ := registration_takes_effect_iff ({} : DiagnosticLog) ({} : Buffer) {}
    none requests hr 9 hend "f" hname 1 fun _ => .ok (.bool true)
  have hzero := (hseen 0 (.inr (by rw [hcaptured]; simp))).1.mpr <| by
    rintro ⟨-, j, hj, -, hne⟩
    exact hne (hglobals j hj)
  have hold := fun h => (htop 8 {} {}).mp h ⟨hearly, henv⟩
  rw [hsize] at hzero hold
  exact ⟨hr, hend, hname, hcaptured, hzero, hold⟩

/-- Registering a name once more after a declaration at the top level shows no effect there, even if
no program ever had to do with the name. -/
theorem registration_after_declaration_is_hidden :
    let f : HostFunction := ⟨"f", 0, fun _ => .ok .nil⟩
    let requests : List Request := [.provide f, .run [.declare ⟨"x", {}⟩ none {}]]
    let start : DiagnosticLog × Interpreter Buffer := ({}, .new {})
    let s := Session.resting (.ok .nil) start.2 requests
    let i' := (sessionState 9 requests start).2.defineNative "f" 1 fun _ => .ok (.bool true)
    (∀ t, "f" ∉ (s.after t).moment.event.targets) ∧
      (Interpreter.evaluate 9 (.var ⟨"f", {}⟩ {}) i').1 = .ok (.callable (.native 0 "f" 0)) := by
  intro f requests start s i'
  refine ⟨fun t => ?_, by cbv⟩
  have hfirst : ∀ u < 10, "f" ∉ (s.after u).moment.event.targets := by decide +kernel
  have hfocus : (s.after 9).moment.focus = .done (.ok .nil) := by cbv
  have htasks : (s.after 9).moment.tasks = [] := by cbv
  have hrequests : (s.after 9).requests = [] := by cbv
  rcases Nat.lt_or_ge t 10 with ht | ht
  · exact hfirst t ht
  · rw [Session.after_eq_of_le ⟨⟨_, hfocus⟩, htasks⟩ hrequests (Nat.le_of_succ_le ht)]
    exact hfirst 9 (by decide)

end Scriptlet
