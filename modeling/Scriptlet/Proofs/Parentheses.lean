import Scriptlet.Proofs.LikeRuns

namespace Scriptlet

variable {σ : Type}

/-- Parentheses may be missing, and whatever no error points at may stand elsewhere. -/
def Leeway.layout : Leeway where
  name := Eq
  span _ _ := True
  parens := True
  biUnique := ⟨fun _ _ _ h k => h.trans k.symm, fun _ _ _ h k => h.symm.trans k⟩

theorem EvalError.Alike.eq {e e' : EvalError} (h : e.Alike .layout e') : e = e' := by
  obtain ⟨fault, span⟩ := e
  obtain ⟨fault', span'⟩ := e'
  obtain ⟨hfault, rfl⟩ := h
  cases hfault with
  | undefinedVariable hname =>
      cases hname
      rfl
  | same => rfl

/-- Two programs that differ only in parentheses and in places that no error points at run forever
both, or print the same lines and end with the same error, at the same place, or with the same
value. Functions count as the same if they differ no more than the programs do, and host functions
are not to tell such functions apart either. -/
theorem parentheses_and_places_do_not_matter [Sink σ] (sink : σ) (config : Config)
    (source : Option Source) (natives : List HostFunction)
    (hn : ∀ f ∈ natives, f.body.Respects (Value.Alike .layout)) (program program' : List Stmt)
    (h : List.Forall₂ (Stmt.Alike .layout) program program') :
    let i := (Interpreter.new sink config source).equip natives
    (∀ fuel, (Interpreter.run fuel program i).1 = .outOfFuel ∧
      (Interpreter.run fuel program' i).1 = .outOfFuel) ∨
    ∃ n o o' printed, Outcome.Alike Eq (Value.Alike .layout) o o' ∧ ∀ fuel ≥ n,
      ((Interpreter.run fuel program i).1 = o ∧
        (Interpreter.run fuel program i).2.machine.sink = printed) ∧
      (Interpreter.run fuel program' i).1 = o' ∧
        (Interpreter.run fuel program' i).2.machine.sink = printed := by
  intro i
  have hi : i.machine.Alike .layout i.machine :=
    Interpreter.alike_equip (Interpreter.alike_new sink config source) fun f hf => ⟨rfl, hn f hf⟩
  refine (Interpreter.run_alike hi h).imp_right ?_
  rintro ⟨n, o, o', printed, ho, hend⟩
  exact ⟨n, o, o', printed, ho.imp (fun _ _ he => he.eq) fun _ _ hv => hv, hend⟩

/-- A function is written with parentheses in its body and without, on different lines. A host
function hands it back, it prints, and then a name in parentheses is not defined. -/
theorem parentheses_and_places_do_not_matter_function_body :
    let f : Ident := ⟨"f", {}⟩
    let x : Ident := ⟨"x", {}⟩
    let y : Ident := ⟨"y", ⟨⟨3, 5⟩, ⟨3, 6⟩⟩⟩
    let s : Ident := ⟨"same", {}⟩
    let same : HostFunction := ⟨"same", 1, fun args => .ok (args.headD .nil)⟩
    let far : Span := ⟨⟨7, 1⟩, ⟨7, 9⟩⟩
    let program : List Stmt := [
      .function f [x] [.print (.grouping (.grouping (.var x {}) {}) {}) {}] {} {},
      .expr (.call (.grouping (.call (.var s {}) [.grouping (.var f {}) {}] {} {}) {})
        [.grouping (.literal (.string "a") {}) {}] {} {}) {},
      .expr (.grouping (.var y {}) {}) {}]
    let program' : List Stmt := [
      .function ⟨"f", far⟩ [⟨"x", far⟩] [.print (.var x far) far] far far,
      .expr (.call (.call (.var s far) [.grouping (.var f far) far] {} far)
        [.literal (.string "a") far] {} far) far,
      .expr (.var y far) far]
    let i := (Interpreter.new ({} : Buffer)).equip [same]
    let e : EvalError := ⟨.undefinedVariable "y", y.span⟩
    (∀ f ∈ [same], f.body.Respects (Value.Alike .layout)) ∧
      List.Forall₂ (Stmt.Alike .layout) program program' ∧
      (Interpreter.run 9 program i).1 = .error e ∧
      ∃ n, ∀ fuel ≥ n, (Interpreter.run fuel program' i).1 = .error e ∧
        (Interpreter.run fuel program' i).2.machine.sink.lines = #["a"] := by
  intro f x y s same far program program' i e
  have hn : ∀ f ∈ [same], f.body.Respects (Value.Alike .layout) := by
    refine List.forall_mem_singleton.mpr fun args args' h => ?_
    cases h with
    | nil => exact .ok .nil
    | cons hv _ => exact .ok hv
  have hname (z : Ident) : Ident.Rel Leeway.layout.name Eq z z := ⟨rfl, rfl⟩
  have hp : List.Forall₂ (Stmt.Alike .layout) program program' := by
    refine .cons (.function ⟨⟨rfl, rfl⟩, trivial⟩ (.cons ⟨rfl, trivial⟩ .nil) (.cons ?_ .nil)
      trivial trivial) (.cons (.expr (.call (.left trivial ?_) (.cons ?_ .nil) trivial) trivial)
        (.cons (.expr (.left trivial (.var (hname y) trivial)) trivial) .nil))
    · exact .print (.left trivial (.left trivial (.var (hname x) trivial))) trivial
    · exact .call (.var (hname s) trivial)
        (.cons (.grouping (.var (hname f) trivial) trivial) .nil) trivial
    · exact .left trivial (.literal trivial)
  have herror : (Interpreter.run 9 program i).1 = .error e := by decide +kernel
  have hlines : (Interpreter.run 9 program i).2.machine.sink.lines = #["a"] := by decide +kernel
  have hfuel : (Interpreter.run 9 program i).1 ≠ .outOfFuel :=
    herror ▸ Outcome.error_ne_outOfFuel e
  refine ⟨hn, hp, herror, ?_⟩
  rcases parentheses_and_places_do_not_matter ({} : Buffer) {} none [same] hn program program' hp
    with hnever | ⟨n, o, o', printed, ho, hend⟩
  · exact absurd (hnever 9).1 hfuel
  · obtain ⟨hfirst, hprinted⟩ :=
      Interpreter.run_eq_of_forall_ge hfuel fun fuel hle => (hend fuel hle).1
    cases herror.symm.trans hfirst
    cases ho with
    | error he =>
        cases he
        refine ⟨n, fun fuel hle => ?_⟩
        obtain ⟨-, houtcome, hsink⟩ := hend fuel hle
        exact ⟨houtcome, (congrArg Buffer.lines (hsink.trans hprinted.symm)).trans hlines⟩

end Scriptlet
