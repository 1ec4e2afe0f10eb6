import Mathlib
import Scriptlet.Proofs.LikeRuns

namespace Scriptlet

variable {σ : Type}

def Ident.rename (r : String → String) (x : Ident) : Ident :=
  ⟨r x.name, x.span⟩

mutual

def Expr.rename (r : String → String) : Expr → Expr
  | .literal a s => .literal a s
  | .grouping e s => .grouping (e.rename r) s
  | .var x s => .var (x.rename r) s
  | .assign x e s => .assign (x.rename r) (e.rename r) s
  | .logical a op b s => .logical (a.rename r) op (b.rename r) s
  | .conditional c t e s => .conditional (c.rename r) (t.rename r) (e.rename r) s
  | .unary op e s => .unary op (e.rename r) s
  | .binary a op b s => .binary (a.rename r) op (b.rename r) s
  | .call f args paren s => .call (f.rename r) (Expr.renameAll r args) paren s

def Expr.renameAll (r : String → String) : List Expr → List Expr
  | [] => []
  | e :: es => e.rename r :: Expr.renameAll r es

end

mutual

def Stmt.rename (r : String → String) : Stmt → Stmt
  | .expr e s => .expr (e.rename r) s
  | .print e s => .print (e.rename r) s
  | .declare x e s => .declare (x.rename r) (e.map (Expr.rename r)) s
  | .block body s => .block (Stmt.renameAll r body) s
  | .ifElse c t e s => .ifElse (c.rename r) (t.rename r) (Stmt.renameOptional r e) s
  | .whileLoop c body s => .whileLoop (c.rename r) (body.rename r) s
  | .forLoop i c n body s =>
    .forLoop (Stmt.renameOptional r i) (c.map (Expr.rename r)) (n.map (Expr.rename r))
      (body.rename r) s
  | .function f params body d s =>
    .function (f.rename r) (params.map (Ident.rename r)) (Stmt.renameAll r body) d s

def Stmt.renameAll (r : String → String) : List Stmt → List Stmt
  | [] => []
  | s :: body => s.rename r :: Stmt.renameAll r body

def Stmt.renameOptional (r : String → String) : Option Stmt → Option Stmt
  | none => none
  | some s => some (s.rename r)

end

mutual

def Stmt.functionNames : Stmt → List String
  | .expr _ _ | .print _ _ | .declare _ _ _ => []
  | .block body _ => Stmt.functionNamesAll body
  | .ifElse _ t e _ => t.functionNames ++ Stmt.functionNamesOptional e
  | .whileLoop _ body _ => body.functionNames
  | .forLoop i _ _ body _ => Stmt.functionNamesOptional i ++ body.functionNames
  | .function f _ body _ _ => f.name :: Stmt.functionNamesAll body

def Stmt.functionNamesAll : List Stmt → List String
  | [] => []
  | s :: body => s.functionNames ++ Stmt.functionNamesAll body

def Stmt.functionNamesOptional : Option Stmt → List String
  | none => []
  | some s => s.functionNames

end

def Declaration.rename (r : String → String) (d : Declaration) : Declaration :=
  ⟨d.name.rename r, d.params.map (Ident.rename r), Stmt.renameAll r d.body, d.span⟩

def Value.rename (r : String → String) : Value → Value
  | .callable (.function id d) => .callable (.function id (d.rename r))
  | v => v

def Fault.rename (r : String → String) : Fault → Fault
  | .undefinedVariable x => .undefinedVariable (r x)
  | fault => fault

def EvalError.rename (r : String → String) (e : EvalError) : EvalError :=
  ⟨e.fault.rename r, e.span⟩

def Outcome.rename (r : String → String) : Outcome Value → Outcome Value
  | .ok v => .ok (v.rename r)
  | .error e => .error (e.rename r)
  | .outOfFuel => .outOfFuel

variable {r : String → String}

def Leeway.renaming (r : String → String) (hr : Function.Injective r) : Leeway where
  name x y := y = r x
  span := Eq
  parens := False
  biUnique := ⟨fun _ _ _ h k => hr (h.symm.trans k), fun _ _ _ h k => h.trans k.symm⟩

variable {hr : Function.Injective r}

theorem Ident.Rel.eq_rename {x y : Ident} (h : Ident.Rel (fun a b => b = r a) Eq x y) :
    y = x.rename r := by
  obtain ⟨hname, hspan⟩ := h
  cases y
  cases hname
  cases hspan
  rfl

mutual

theorem Expr.alike_rename (e : Expr) : e.Alike (.renaming r hr) (e.rename r) := by
  cases e with
  | literal => exact .literal rfl
  | grouping e => exact .grouping e.alike_rename rfl
  | var => exact .var ⟨rfl, rfl⟩ rfl
  | assign _ e => exact .assign ⟨rfl, rfl⟩ e.alike_rename rfl
  | logical a _ b => exact .logical a.alike_rename b.alike_rename rfl
  | conditional c t e =>
      exact .conditional c.alike_rename t.alike_rename e.alike_rename rfl
  | unary _ e => exact .unary e.alike_rename rfl
  | binary a _ b => exact .binary a.alike_rename b.alike_rename rfl
  | call f args => exact .call f.alike_rename (Expr.alike_renameAll args) rfl

theorem Expr.alike_renameAll (es : List Expr) :
    List.Forall₂ (Expr.Alike (.renaming r hr)) es (Expr.renameAll r es) := by
  cases es with
  | nil => exact .nil
  | cons e es => exact .cons e.alike_rename (Expr.alike_renameAll es)

end

theorem Expr.alike_map_rename (e : Option Expr) :
    Option.Rel (Expr.Alike (.renaming r hr)) e (e.map (Expr.rename r)) := by
  cases e with
  | none => exact .none
  | some e => exact .some e.alike_rename

theorem Ident.rel_map_rename (params : List Ident) :
    List.Forall₂ (Ident.Rel (fun a b => b = r a) Eq) params (params.map (Ident.rename r)) := by
  rw [List.forall₂_map_right_iff, List.forall₂_same]
  exact fun _ _ => ⟨rfl, rfl⟩

mutual

theorem Stmt.alike_rename (s : Stmt) (h : ∀ f ∈ s.functionNames, r f = f) :
    s.Alike (.renaming r hr) (s.rename r) := by
  cases s with
  | expr e => exact .expr e.alike_rename rfl
  | print e => exact .print e.alike_rename rfl
  | declare _ e => exact .declare ⟨rfl, rfl⟩ (Expr.alike_map_rename e) rfl
  | block body => exact .block (Stmt.alike_renameAll body h) rfl
  | ifElse c t e =>
      obtain ⟨ht, he⟩ := List.forall_mem_append.mp h
      exact .ifElse c.alike_rename (t.alike_rename ht) (Stmt.alike_renameOptional e he) rfl
  | whileLoop c body => exact .whileLoop c.alike_rename (body.alike_rename h) rfl
  | forLoop i c n body =>
      obtain ⟨hi, hbody⟩ := List.forall_mem_append.mp h
      exact .forLoop (Stmt.alike_renameOptional i hi) (Expr.alike_map_rename c)
        (Expr.alike_map_rename n) (body.alike_rename hbody)
  | function f params body =>
      obtain ⟨hf, hbody⟩ := List.forall_mem_cons.mp h
      exact .function ⟨⟨hf.symm, rfl⟩, rfl⟩ (Ident.rel_map_rename params)
        (Stmt.alike_renameAll body hbody) rfl rfl

theorem Stmt.alike_renameAll (body : List Stmt)
    (h : ∀ f ∈ Stmt.functionNamesAll body, r f = f) :
    List.Forall₂ (Stmt.Alike (.renaming r hr)) body (Stmt.renameAll r body) := by
  cases body with
  | nil => exact .nil
  | cons s body =>
      obtain ⟨hs, hbody⟩ := List.forall_mem_append.mp h
      exact .cons (s.alike_rename hs) (Stmt.alike_renameAll body hbody)

theorem Stmt.alike_renameOptional (s : Option Stmt)
    (h : ∀ f ∈ Stmt.functionNamesOptional s, r f = f) :
    Option.Rel (Stmt.Alike (.renaming r hr)) s (Stmt.renameOptional r s) := by
  cases s with
  | none => exact .none
  | some s => exact .some (s.alike_rename h)

end

mutual

theorem Expr.Alike.eq_rename : ∀ {e e'}, Expr.Alike (.renaming r hr) e e' → e' = e.rename r
  | _, _, .left hp _ | _, _, .right hp _ => hp.elim
  | _, _, .grouping h rfl => by rw [h.eq_rename, Expr.rename]
  | _, _, .literal rfl => rfl
  | _, _, .var hx rfl => by rw [hx.eq_rename, Expr.rename]
  | _, _, .assign hx h rfl => by rw [hx.eq_rename, h.eq_rename, Expr.rename]
  | _, _, .logical ha hb rfl => by rw [ha.eq_rename, hb.eq_rename, Expr.rename]
  | _, _, .conditional hc ht he rfl => by
    rw [hc.eq_rename, ht.eq_rename, he.eq_rename, Expr.rename]
  | _, _, .unary h rfl => by rw [h.eq_rename, Expr.rename]
  | _, _, .binary ha hb rfl => by rw [ha.eq_rename, hb.eq_rename, Expr.rename]
  | _, _, .call hf hargs rfl => by
    rw [hf.eq_rename, Expr.Alike.eq_renameAll hargs, Expr.rename]

theorem Expr.Alike.eq_renameAll : ∀ {es es'},
    List.Forall₂ (Expr.Alike (.renaming r hr)) es es' → es' = Expr.renameAll r es
  | _, _, .nil => rfl
  | _, _, .cons h hs => by rw [h.eq_rename, Expr.Alike.eq_renameAll hs, Expr.renameAll]

end

theorem Expr.Alike.eq_map_rename : ∀ {e e'},
    Option.Rel (Expr.Alike (.renaming r hr)) e e' → e' = e.map (Expr.rename r)
  | _, _, .none => rfl
  | _, _, .some h => congrArg some h.eq_rename

theorem Ident.Rel.function_eq_rename {x y : Ident}
    (h : Ident.Rel (Leeway.renaming r hr).functionName Eq x y) : y = x.rename r :=
  Ident.Rel.eq_rename ⟨h.1.2, h.2⟩

theorem Ident.Rel.eq_map_rename {params params' : List Ident}
    (h : List.Forall₂ (Ident.Rel (fun a b => b = r a) Eq) params params') :
    params' = params.map (Ident.rename r) := by
  induction h with
  | nil => rfl
  | cons hx _ ih => rw [hx.eq_rename, ih, List.map_cons]

mutual

theorem Stmt.Alike.eq_rename : ∀ {s s'}, Stmt.Alike (.renaming r hr) s s' → s' = s.rename r
  | _, _, .expr h rfl => by rw [h.eq_rename, Stmt.rename]
  | _, _, .print h rfl => by rw [h.eq_rename, Stmt.rename]
  | _, _, .declare hx h rfl => by
    rw [hx.eq_rename, Expr.Alike.eq_map_rename h, Stmt.rename]
  | _, _, .block h rfl => by rw [Stmt.Alike.eq_renameAll h, Stmt.rename]
  | _, _, .ifElse hc ht he rfl => by
    rw [hc.eq_rename, ht.eq_rename, Stmt.Alike.eq_renameOptional he, Stmt.rename]
  | _, _, .whileLoop hc h rfl => by rw [hc.eq_rename, h.eq_rename, Stmt.rename]
  | _, _, .forLoop hi hc hn h => by
    rw [Stmt.Alike.eq_renameOptional hi, Expr.Alike.eq_map_rename hc,
      Expr.Alike.eq_map_rename hn, h.eq_rename, Stmt.rename]
  | _, _, .function hf hp h rfl rfl => by
    rw [hf.function_eq_rename, Ident.Rel.eq_map_rename hp, Stmt.Alike.eq_renameAll h, Stmt.rename]

theorem Stmt.Alike.eq_renameAll : ∀ {body body'},
    List.Forall₂ (Stmt.Alike (.renaming r hr)) body body' → body' = Stmt.renameAll r body
  | _, _, .nil => rfl
  | _, _, .cons h hs => by rw [h.eq_rename, Stmt.Alike.eq_renameAll hs, Stmt.renameAll]

theorem Stmt.Alike.eq_renameOptional : ∀ {s s'},
    Option.Rel (Stmt.Alike (.renaming r hr)) s s' → s' = Stmt.renameOptional r s
  | _, _, .none => rfl
  | _, _, .some h => by rw [h.eq_rename, Stmt.renameOptional]

end

theorem Declaration.Alike.eq_rename {d d' : Declaration} (h : d.Alike (.renaming r hr) d') :
    d' = d.rename r := by
  obtain ⟨name, params, body, span⟩ := d'
  obtain ⟨hname, hparams, hbody, rfl⟩ := h
  cases hname.function_eq_rename
  cases Ident.Rel.eq_map_rename hparams
  cases Stmt.Alike.eq_renameAll hbody
  rfl

theorem Value.Alike.eq_rename {v v' : Value} (h : v.Alike (.renaming r hr) v') :
    v' = v.rename r := by
  cases h with
  | callable hc =>
      cases hc with
      | function hd => rw [hd.eq_rename, rename]
      | native => rfl
  | number | string | bool | nil => rfl

theorem EvalError.Alike.eq_rename {e e' : EvalError} (h : e.Alike (.renaming r hr) e') :
    e' = e.rename r := by
  obtain ⟨fault, span⟩ := e
  obtain ⟨fault', span'⟩ := e'
  obtain ⟨hfault, rfl⟩ := h
  cases hfault with
  | undefinedVariable hname =>
      cases hname
      rfl
  | same hne =>
      cases fault with
      | undefinedVariable x => cases hne
      | _ => rfl

theorem Outcome.Alike.eq_rename {o o' : Outcome Value}
    (h : Outcome.Alike (EvalError.Alike (.renaming r hr)) (Value.Alike (.renaming r hr)) o o') :
    o' = o.rename r := by
  cases h with
  | ok hv => rw [hv.eq_rename, rename]
  | error he => rw [he.eq_rename, rename]

/-- A program whose identifiers are renamed by a map that keeps different names apart, and that
fixes the names of functions, runs forever if the original does. Otherwise it prints the same lines
and ends with the same value, in which functions are renamed, or with the same error, in which the
name of an undefined variable is renamed. Host functions are to keep their names too, and not to
tell apart what differs in the names of variables only. -/
theorem variable_names_do_not_matter [Sink σ] (sink : σ) (config : Config)
    (source : Option Source) (natives : List HostFunction) (r : String → String)
    (hr : Function.Injective r) (program : List Stmt)
    (hf : ∀ f ∈ Stmt.functionNamesAll program, r f = f)
    (hn : ∀ f ∈ natives, r f.name = f.name ∧ f.body.Respects (Value.Alike (.renaming r hr))) :
    let i := (Interpreter.new sink config source).equip natives
    let program' := Stmt.renameAll r program
    (∀ fuel, (Interpreter.run fuel program i).1 = .outOfFuel ∧
      (Interpreter.run fuel program' i).1 = .outOfFuel) ∨
    ∃ n o printed, o ≠ .outOfFuel ∧ ∀ fuel ≥ n,
      ((Interpreter.run fuel program i).1 = o ∧
        (Interpreter.run fuel program i).2.machine.sink = printed) ∧
      (Interpreter.run fuel program' i).1 = o.rename r ∧
        (Interpreter.run fuel program' i).2.machine.sink = printed := by
  intro i program'
  have hi : i.machine.Alike (.renaming r hr) i.machine :=
    Interpreter.alike_equip (Interpreter.alike_new sink config source) fun f hmem =>
      ⟨(hn f hmem).1.symm, (hn f hmem).2⟩
  refine (Interpreter.run_alike hi (Stmt.alike_renameAll program hf)).imp_right ?_
  rintro ⟨n, o, o', printed, ho, hend⟩
  refine ⟨n, o, printed, ho.ne_outOfFuel.1, fun fuel hle => ?_⟩
  rw [← ho.eq_rename]
  exact hend fuel hle

/-- Two variables trade names, one of them a parameter that stands twice in its list and shadows
the other in the renamed program. In the end one of them is not defined. -/
theorem variable_names_do_not_matter_swapped_names :
    let a : Ident := ⟨"a", {}⟩
    let b : Ident := ⟨"b", {}⟩
    let f : Ident := ⟨"f", {}⟩
    let text (s : String) : Expr := .literal (.string s) {}
    let same : HostFunction := ⟨"same", 1, fun args => .ok (args.headD .nil)⟩
    let r := Equiv.swap "a" "b"
    let program : List Stmt := [.declare a (some (text "old")) {},
      .function f [b, b] [.print (.var a {}) {}, .expr (.assign a (.var b {}) {}) {}] {} {},
      .expr (.call (.call (.var ⟨"same", {}⟩ {}) [.var f {}] {} {}) [text "x", text "y"] {} {}) {},
      .print (.var a {}) {}, .print (.var f {}) {}, .expr (.var b {}) {}]
    let i := (Interpreter.new ({} : Buffer)).equip [same]
    (∀ f ∈ Stmt.functionNamesAll program, r f = f) ∧
      (∀ f ∈ [same], r f.name = f.name ∧
        f.body.Respects (Value.Alike (.renaming r r.injective))) ∧
      (Interpreter.run 9 program i).1 = .error ⟨.undefinedVariable "b", {}⟩ ∧
      ∃ n, ∀ fuel ≥ n,
        (Interpreter.run fuel (Stmt.renameAll r program) i).1 =
          .error ⟨.undefinedVariable "a", {}⟩ ∧
        (Interpreter.run fuel (Stmt.renameAll r program) i).2.machine.sink.lines =
          #["old", "y", "<fn f>"] := by
  intro a b f text same r program i
  have hf : ∀ f ∈ Stmt.functionNamesAll program, r f = f := by decide +kernel
  have hn : ∀ f ∈ [same], r f.name = f.name ∧
      f.body.Respects (Value.Alike (.renaming r r.injective)) := by
    refine List.forall_mem_singleton.mpr ⟨by decide +kernel, fun args args' h => ?_⟩
    cases h with
    | nil => exact .ok .nil
    | cons hv _ => exact .ok hv
  have herror : (Interpreter.run 9 program i).1 = .error ⟨.undefinedVariable "b", {}⟩ := by
    decide +kernel
  have hlines : (Interpreter.run 9 program i).2.machine.sink.lines = #["old", "y", "<fn f>"] := by
    decide +kernel
  have hfuel : (Interpreter.run 9 program i).1 ≠ .outOfFuel :=
    herror ▸ Outcome.error_ne_outOfFuel _
  refine ⟨hf, hn, herror, ?_⟩
  rcases variable_names_do_not_matter ({} : Buffer) {} none [same] r r.injective program hf hn with
    hnever | ⟨n, o, printed, -, hend⟩
  · exact absurd (hnever 9).1 hfuel
  · obtain ⟨hfirst, hprinted⟩ :=
      Interpreter.run_eq_of_forall_ge hfuel fun fuel hle => (hend fuel hle).1
    cases herror.symm.trans hfirst
    refine ⟨n, fun fuel hle => ?_⟩
    obtain ⟨-, houtcome, hsink⟩ := hend fuel hle
    refine ⟨houtcome.trans ?_, (congrArg Buffer.lines (hsink.trans hprinted.symm)).trans hlines⟩
    decide +kernel

/-- A host function that tells what the parameter of a function is called. It keeps its name, as does
the function, but when the parameter trades names with another variable, what is printed changes. -/
theorem variable_names_told_by_host_function :
    let f : Ident := ⟨"f", {}⟩
    let tell : HostFunction := ⟨"tell", 1, fun args =>
      match args with
      | [.callable (.function _ d)] => .ok (.string (d.params.headD d.name).name)
      | _ => .ok .nil⟩
    let r := Equiv.swap "x" "y"
    let program : List Stmt := [.function f [⟨"x", {}⟩] [] {} {},
      .print (.call (.var ⟨"tell", {}⟩ {}) [.var f {}] {} {}) {}]
    let program' := Stmt.renameAll r program
    let i := (Interpreter.new ({} : Buffer)).equip [tell]
    (∀ f ∈ Stmt.functionNamesAll program, r f = f) ∧ (∀ f ∈ [tell], r f.name = f.name) ∧
      ∀ fuel ≥ 9,
        ((Interpreter.run fuel program i).1 = .ok .nil ∧
          (Interpreter.run fuel program i).2.machine.sink.lines = #["x"]) ∧
        (Interpreter.run fuel program' i).1 = .ok .nil ∧
          (Interpreter.run fuel program' i).2.machine.sink.lines = #["y"] := by
  intro f tell r program program' i
  have hf : ∀ f ∈ Stmt.functionNamesAll program, r f = f := by decide +kernel
  have htell : ∀ f ∈ [tell], r f.name = f.name :=
    List.forall_mem_singleton.mpr (by decide +kernel)
  have hend : (Interpreter.run 9 program i).1 = .ok .nil := by cbv
  have hend' : (Interpreter.run 9 program' i).1 = .ok .nil := by cbv
  refine ⟨hf, htell, fun fuel hfuel => ?_⟩
  have hmore {p : List Stmt} (hp : (Interpreter.run 9 p i).1 = .ok .nil) :
      Interpreter.run fuel p i = Interpreter.run 9 p i :=
    (Interpreter.run_approximates hfuel p i).resolve_left (hp ▸ Outcome.ok_ne_outOfFuel _)
  rw [hmore hend, hmore hend']
  exact ⟨⟨hend, by decide +kernel⟩, hend', by decide +kernel⟩

end Scriptlet
