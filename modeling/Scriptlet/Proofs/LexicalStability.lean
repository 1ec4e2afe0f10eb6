import Scriptlet.Proofs.RunMoments
import Scriptlet.Proofs.ScopesInUse
import Scriptlet.Proofs.Session

namespace Scriptlet

def Store.Gains (s s' : Store) (name : String) (i : ScopeId) : Prop :=
  ∃ c, s.cells.size ≤ c ∧ s'.bindings i = (name, c) :: s.bindings i

theorem Store.Backed.lookup_lt {s : Store} (h : s.Backed) {i : ScopeId} {name : String} {c : CellId}
    (hc : (s.bindings i).lookup name = some c) : c < s.cells.size := by
  obtain ⟨l₁, l₂, hl, -⟩ := List.lookup_eq_some_iff.mp hc
  exact h i (name, c) (by simp [hl])

/-- If scopes only gain new variables, then the meaning of a name changes exactly if one of that
name is gained before the first scope that lists it, or in that scope itself. -/
theorem Store.findSome?_lookup_ne_iff {s s' : Store} (hs : s.Backed) (name : String)
    (chain : List ScopeId)
    (h : ∀ i ∈ chain, s'.bindings i = s.bindings i ∨ ∃ n, s.Gains s' n i) :
    chain.findSome? (fun i => (s'.bindings i).lookup name) ≠
        chain.findSome? (fun i => (s.bindings i).lookup name) ↔
      ∃ inner i outer, chain = inner ++ i :: outer ∧
        (∀ j ∈ inner, (s.bindings j).lookup name = none) ∧ s.Gains s' name i := by
  induction chain with
  | nil => simp
  | cons i chain ih =>
      have ih := ih fun j hj => h j (List.mem_cons_of_mem i hj)
      by_cases hg : s.Gains s' name i
      · refine iff_of_true ?_ ⟨[], i, chain, rfl, nofun, hg⟩
        obtain ⟨c, hc, hb⟩ := hg
        rw [List.findSome?_cons, hb, List.lookup_cons_self]
        intro he
        obtain ⟨j, -, hj⟩ := List.exists_of_findSome?_eq_some he.symm
        exact absurd (hs.lookup_lt hj) (Nat.not_lt.mpr hc)
      · have hsame : (s'.bindings i).lookup name = (s.bindings i).lookup name := by
          rcases h i List.mem_cons_self with hb | ⟨n, c, hc, hb⟩
          · rw [hb]
          · have hne : name ≠ n := fun he => hg ⟨c, hc, he ▸ hb⟩
            rw [hb, List.lookup_cons, beq_false_of_ne hne]
        rw [List.findSome?_cons, List.findSome?_cons, hsame]
        -- a gain further out counts only if this scope does not list the name
        cases hl : (s.bindings i).lookup name with
        | some c =>
            refine iff_of_false (fun hne => hne rfl) ?_
            rintro ⟨inner, j, outer, hc, hinner, hj⟩
            cases inner with
            | nil => exact hg ((List.cons.inj hc).1 ▸ hj)
            | cons k inner =>
                have hk := hinner k List.mem_cons_self
                rw [← (List.cons.inj hc).1, hl] at hk
                cases hk
        | none =>
            refine ih.trans ?_
            constructor
            · rintro ⟨inner, j, outer, hc, hinner, hj⟩
              exact ⟨i :: inner, j, outer, congrArg (i :: ·) hc,
                List.forall_mem_cons.mpr ⟨hl, hinner⟩, hj⟩
            · rintro ⟨inner, j, outer, hc, hinner, hj⟩
              cases inner with
              | nil => exact absurd ((List.cons.inj hc).1 ▸ hj) hg
              | cons k inner =>
                  exact ⟨inner, j, outer, (List.cons.inj hc).2,
                    fun l hl => hinner l (List.mem_cons_of_mem k hl), hj⟩

variable {σ : Type} [Sink σ]

namespace Interpreter

variable {i : Interpreter σ} {program : List Stmt} {t u v : Nat} {j : ScopeId} {name : String}

theorem Sound.orderly (h : i.Sound) (program : List Stmt) (t : Nat) :
    (i.moment program t).Orderly := by
  have hu : (i.moment program 0).inUse = [i.environment] := rfl
  refine Moment.Orderly.iterate (m := i.moment program 0) ⟨?_, ?_, h.backed⟩ t
  · simp [hu]
  · intro j hj
    rw [hu, List.mem_singleton] at hj
    exact hj ▸ h.environment

theorem evolves_moment (i : Interpreter σ) (program : List Stmt) (htu : t ≤ u) :
    (i.moment program t).machine.store.Evolves (i.moment program u).machine.store := by
  induction htu with
  | refl => exact .refl _
  | step _ ih =>
      rw [moment_succ]
      exact ih.trans (Moment.evolves_next _)

theorem bindings_of_not_inUse (htu : t ≤ u)
    (hj : j < (i.moment program t).machine.store.scopes.size)
    (h : j ∉ (i.moment program t).inUse) :
    j ∉ (i.moment program u).inUse ∧ (i.moment program u).machine.store.bindings j =
      (i.moment program t).machine.store.bindings j := by
  induction htu with
  | refl => exact ⟨h, rfl⟩
  | @step u htu ih =>
      obtain ⟨hu, hb⟩ := ih
      have hju := Nat.lt_of_lt_of_le hj (evolves_moment i program htu).scopes
      have hne : j ≠ (i.moment program u).scope := fun he => hu (he ▸ List.mem_cons_self)
      rw [moment_succ]
      constructor
      · exact Moment.not_inUse_next hju hu
      · exact (Moment.bindings_next _ hju (.inr hne)).trans hb

theorem bindings_of_no_declaration (htu : t ≤ u)
    (hj : j < (i.moment program t).machine.store.scopes.size)
    (h : ∀ v, t ≤ v → v < u → (i.moment program v).scope = j →
      (i.moment program v).declaration? = none) :
    (i.moment program u).machine.store.bindings j =
      (i.moment program t).machine.store.bindings j := by
  induction htu with
  | refl => rfl
  | @step u htu ih =>
      have hju := Nat.lt_of_lt_of_le hj (evolves_moment i program htu).scopes
      rw [moment_succ, ← ih fun v htv hvu => h v htv (Nat.lt_succ_of_lt hvu)]
      apply Moment.bindings_next _ hju
      by_cases he : (i.moment program u).scope = j
      · exact .inl (h u htu (Nat.lt_succ_self u) he)
      · exact .inr (Ne.symm he)

/-- A scope sees at most one declaration while it is in use; its list is final then. -/
theorem bindings_of_declaration (hi : i.Sound) (htv : t ≤ v) (hvu : v < u)
    (hj : (i.moment program v).scope < (i.moment program t).machine.store.scopes.size)
    (hd : (i.moment program v).declaration? = some name) :
    ∃ c, (i.moment program t).machine.store.cells.size ≤ c ∧
      (i.moment program u).machine.store.bindings (i.moment program v).scope =
        (name, c) :: (i.moment program t).machine.store.bindings (i.moment program v).scope := by
  have hlt {w : Nat} (htw : t ≤ w) := Nat.lt_of_lt_of_le hj
    (evolves_moment i program htw).scopes
  -- an earlier declaration there would have put the scope out of use
  have hbefore := bindings_of_no_declaration htv hj fun w htw hwv hs => by
    cases hw : (i.moment program w).declaration? with
    | none => rfl
    | some name' =>
        have hout := Moment.declaration_not_inUse (hi.orderly program w) hw
        rw [← moment_succ, hs] at hout
        have hstill := (bindings_of_not_inUse hwv (hlt (Nat.le_succ_of_le htw)) hout).1
        exact absurd List.mem_cons_self hstill
  obtain ⟨c, hc, hb⟩ := (Moment.next_declares hd).bindings_scope (hi.orderly program v).scope_lt
  have hout := Moment.declaration_not_inUse (hi.orderly program v) hd
  rw [← moment_succ] at hb hout
  have hafter := (bindings_of_not_inUse hvu (hlt (Nat.le_succ_of_le htv)) hout).2
  refine ⟨c, Nat.le_trans (evolves_moment i program htv).cells hc, ?_⟩
  rw [hafter, hb, hbefore]

/-- From `t` on and before `u` there is a moment at which `name` is declared in `j`. -/
def DeclaresIn (i : Interpreter σ) (program : List Stmt) (t u : Nat) (j : ScopeId) (name : String) :
    Prop :=
  ∃ v, t ≤ v ∧ v < u ∧ (i.moment program v).scope = j ∧
    (i.moment program v).declaration? = some name

theorem gains_of_declaresIn (hi : i.Sound)
    (hj : j < (i.moment program t).machine.store.scopes.size)
    (h : i.DeclaresIn program t u j name) :
    (i.moment program t).machine.store.Gains (i.moment program u).machine.store name j := by
  obtain ⟨v, htv, hvu, rfl, hd⟩ := h
  exact bindings_of_declaration hi htv hvu hj hd

theorem bindings_eq_or_declaresIn (htu : t ≤ u)
    (hj : j < (i.moment program t).machine.store.scopes.size) :
    (i.moment program u).machine.store.bindings j =
        (i.moment program t).machine.store.bindings j ∨
      ∃ name, i.DeclaresIn program t u j name := by
  by_cases h : ∃ name, i.DeclaresIn program t u j name
  · exact .inr h
  · refine .inl (bindings_of_no_declaration htu hj fun v htv hvu hs => ?_)
    cases hd : (i.moment program v).declaration? with
    | none => rfl
    | some name => exact absurd ⟨name, v, htv, hvu, hs, hd⟩ h

theorem gains_iff_declaresIn (hi : i.Sound) (htu : t ≤ u)
    (hj : j < (i.moment program t).machine.store.scopes.size) :
    (i.moment program t).machine.store.Gains (i.moment program u).machine.store name j ↔
      i.DeclaresIn program t u j name := by
  constructor
  · rintro ⟨c, -, hb⟩
    rcases bindings_eq_or_declaresIn htu hj with he | ⟨name', hd⟩
    · exact absurd (hb.symm.trans he) (List.cons_ne_self _ _)
    · obtain ⟨c', -, hb'⟩ := gains_of_declaresIn hi hj hd
      have hname : name = name' := (Prod.ext_iff.mp (List.cons.inj (hb.symm.trans hb')).1).1
      exact hname ▸ hd
  · exact gains_of_declaresIn hi hj

theorem DeclaresIn.mem_inUse (h : i.DeclaresIn program t u j name)
    (hj : j < (i.moment program t).machine.store.scopes.size) : j ∈ (i.moment program t).inUse := by
  by_contra hout
  obtain ⟨v, htv, -, rfl, -⟩ := h
  exact (bindings_of_not_inUse htv hj hout).1 List.mem_cons_self

/-- What a name denotes in a scope changes exactly if the name is declared in one of the scopes from
there to the first that lists it. -/
theorem resolve_ne_iff (hi : i.Sound) (htu : t ≤ u)
    (hj : j < (i.moment program t).machine.store.scopes.size) (name : String) :
    (i.moment program u).machine.store.resolve j name ≠
        (i.moment program t).machine.store.resolve j name ↔
      ∃ inner k outer, (i.moment program t).machine.store.chain j = inner ++ k :: outer ∧
        (∀ l ∈ inner, ((i.moment program t).machine.store.bindings l).lookup name = none) ∧
        i.DeclaresIn program t u k name := by
  have hev := evolves_moment i program htu
  have hchain := Store.chain_congr fun k hk => hev.parent k (Nat.lt_of_le_of_lt hk hj)
  have hlt {k : ScopeId} (hk : k ∈ (i.moment program t).machine.store.chain j) :
      k < (i.moment program t).machine.store.scopes.size :=
    Nat.lt_of_le_of_lt (Store.le_of_mem_chain hk) hj
  have hgain : ∀ k ∈ (i.moment program t).machine.store.chain j,
      (i.moment program u).machine.store.bindings k =
          (i.moment program t).machine.store.bindings k ∨
        ∃ n, (i.moment program t).machine.store.Gains (i.moment program u).machine.store n k := by
    intro k hk
    rcases bindings_eq_or_declaresIn htu (hlt hk) with he | ⟨n, hd⟩
    · exact .inl he
    · exact .inr ⟨n, gains_of_declaresIn hi (hlt hk) hd⟩
  rw [Store.resolve_eq_findSome?, Store.resolve_eq_findSome?, hchain,
    Store.findSome?_lookup_ne_iff (hi.orderly program t).backed name _ hgain]
  refine exists_congr fun inner => exists_congr fun k => exists_congr fun outer =>
    and_congr_right fun hc => and_congr_right fun _ => ?_
  exact gains_iff_declaresIn hi htu (hlt (hc ▸ List.mem_append_right inner List.mem_cons_self))

theorem lt_last_of_focus {fuel : Nat} (h : (run fuel program i).1 ≠ .outOfFuel)
    (hf : ∀ o, (i.moment program t).focus ≠ .done o) :
    ∃ last > t, ∀ w ≥ last, i.moment program w = lastMoment (run fuel program i) := by
  obtain ⟨last, hlast⟩ := moment_of_run h
  refine ⟨last, Nat.lt_of_not_le fun hle => ?_, hlast⟩
  exact hf _ (congrArg Moment.focus (hlast t hle))

end Interpreter

/-- A function made at moment `t` keeps its scope, and the list of that scope is final. What a name
in the function denotes changes by a later moment `u` exactly if in between the name is declared in
a scope further out, which a block or a call still comes back to, and no scope up to there lists
it. -/
theorem function_names_change_iff (sink : σ) (config : Config) (source : Option Source)
    (natives : List HostFunction) (program : List Stmt) (t u : Nat) (htu : t < u)
    (f : Ident) (params : List Ident) (body : List Stmt) (declSpan span : Span)
    (hf : (((Interpreter.new sink config source).equip natives).moment program t).focus =
      .stmt (.function f params body declSpan span)) :
    let i := (Interpreter.new sink config source).equip natives
    let scope := (i.moment program t).scope
    let id := (i.moment program t).machine.store.captured.size
    let made := (i.moment program (t + 1)).machine.store
    let later := (i.moment program u).machine.store
    (i.moment program (t + 1)).focus =
        .done (.ok (.callable (.function id ⟨f, params, body, declSpan⟩))) ∧
      later.capturedScope id = scope ∧
      later.bindings scope = made.bindings scope ∧
      (∀ name, later.resolve scope name ≠ made.resolve scope name ↔
        ∃ inner j outer, made.chain scope = inner ++ j :: outer ∧
          (∀ k ∈ inner, (made.bindings k).lookup name = none) ∧
          j ∈ (i.moment program (t + 1)).waiting ∧ i.DeclaresIn program (t + 1) u j name) ∧
      ∀ fuel, (Interpreter.run fuel program i).1 ≠ .outOfFuel → ∃ last > t, ∀ w ≥ last,
        i.moment program w = Interpreter.lastMoment (Interpreter.run fuel program i) := by
  intro i scope id made later
  change (i.moment program t).focus = _ at hf
  have hi : i.Sound := (Interpreter.sound_new sink config source).equip natives
  have hnext : i.moment program (t + 1) = (i.moment program t).start
      (.function f params body declSpan span) := by
    rw [Interpreter.moment_succ, Moment.next, hf]
  have hd : (i.moment program t).declaration? = some f.name := by
    simp only [Moment.declaration?, hf]
  have hscope : scope < made.scopes.size := Nat.lt_of_lt_of_le (hi.orderly program t).scope_lt
    (Interpreter.evolves_moment i program (Nat.le_succ t)).scopes
  have hout : scope ∉ (i.moment program (t + 1)).inUse := by
    rw [Interpreter.moment_succ]
    exact Moment.declaration_not_inUse (hi.orderly program t) hd
  have hcaptured : made.captured[id]? = some scope := by
    simp only [made, hnext]
    exact Array.getElem?_push_size
  refine ⟨?_, ?_, ?_, fun name => ?_, fun fuel hrun => ?_⟩
  · rw [hnext]
    rfl
  · exact (Interpreter.evolves_moment i program htu).capturedScope_eq hcaptured
  · exact (Interpreter.bindings_of_not_inUse htu hscope hout).2
  · rw [Interpreter.resolve_ne_iff hi htu hscope]
    refine exists_congr fun inner => exists_congr fun j => exists_congr fun outer =>
      and_congr_right fun hc => and_congr_right fun _ => ⟨fun hj => ⟨?_, hj⟩, And.right⟩
    -- the scope that took over is newer than all of the chain
    have hle : j ≤ scope :=
      Store.le_of_mem_chain (hc ▸ List.mem_append_right inner List.mem_cons_self)
    have huse := hj.mem_inUse (Nat.lt_of_le_of_lt hle hscope)
    rw [Interpreter.moment_succ, (Moment.next_declares hd).inUse, List.mem_cons] at huse
    rcases huse with rfl | hwaiting
    · exact absurd (hi.orderly program t).scope_lt (Nat.not_lt.mpr hle)
    · rw [Interpreter.moment_succ, (List.cons.inj (Moment.next_declares hd).inUse).2]
      exact hwaiting
  · refine Interpreter.lt_last_of_focus hrun fun o => ?_
    rw [hf]
    intro h
    cases h

/-- A function made in a block reads a variable of the same name as one that is declared after the
block. It is called before and after that declaration. -/
def lateDeclaration : List Stmt :=
  let x : Ident := ⟨"x", {}⟩
  let f : Ident := ⟨"f", {}⟩
  let g : Ident := ⟨"g", {}⟩
  let call : Stmt := .print (.call (.var f {}) [] {} {}) {}
  [.declare x (some (.literal (.string "before") {})) {},
    .declare f none {},
    .block [.function g [] [.expr (.var x {}) {}] {} {},
      .expr (.assign f (.var g {}) {}) {}] {},
    call,
    .declare x (some (.literal (.string "after") {})) {},
    call]

theorem function_names_change_iff_late_declaration :
    let i := (Interpreter.new ({} : Buffer)).equip []
    (i.moment lateDeclaration 9).focus = .stmt (.function ⟨"g", {}⟩ []
        [.expr (.var ⟨"x", {}⟩ {}) {}] {} {}) ∧
      (i.moment lateDeclaration 32).machine.store.capturedScope 0 = 3 ∧
      (i.moment lateDeclaration 32).machine.store.resolve 3 "x" ≠
        (i.moment lateDeclaration 10).machine.store.resolve 3 "x" := by
  intro i
  have hf : (i.moment lateDeclaration 9).focus = .stmt (.function ⟨"g", {}⟩ []
      [.expr (.var ⟨"x", {}⟩ {}) {}] {} {}) := rfl
  obtain ⟨-, hcaptured, -, hnames, -⟩ := function_names_change_iff ({} : Buffer) {} none []
    lateDeclaration 9 32 (by decide) _ _ _ _ _ hf
  refine ⟨hf, hcaptured, (hnames "x").mpr ⟨[3], 2, [1, 0], ?_, ?_, ?_, 31, ?_⟩⟩
  all_goals decide +kernel

/-- A function can come to read another variable than the one it was made with. -/
theorem function_sees_late_declaration :
    let i := Interpreter.new ({} : Buffer)
    let last := (Interpreter.run 9 lateDeclaration i).2
    (i.moment lateDeclaration 9).focus = .stmt (.function ⟨"g", {}⟩ []
        [.expr (.var ⟨"x", {}⟩ {}) {}] {} {}) ∧
      (i.moment lateDeclaration 9).scope = 3 ∧
      (i.moment lateDeclaration 10).machine.store.resolve 3 "x" = some 0 ∧
      last.machine.store.resolve 3 "x" = some 3 ∧
      last.machine.sink.lines = #["before", "after"] := by
  refine ⟨rfl, rfl, ?_, ?_, ?_⟩
  all_goals decide +kernel

end Scriptlet
