import Mathlib.Data.List.Forall2
import Scriptlet.Proofs.Faults
import Scriptlet.Proofs.Fragment

namespace Scriptlet

/-- What alike programs may differ in: which names stand for each other, which spans do, and whether
parentheses may be missing. -/
structure Leeway where
  name : String → String → Prop
  span : Span → Span → Prop
  parens : Prop
  biUnique : Relator.BiUnique name

namespace Leeway

def flip (l : Leeway) : Leeway where
  name x y := l.name y x
  span s t := l.span t s
  parens := l.parens
  biUnique := ⟨fun _ _ _ h k => l.biUnique.2 h k, fun _ _ _ h k => l.biUnique.1 h k⟩

def functionName (l : Leeway) (x y : String) : Prop :=
  x = y ∧ l.name x y

def binding (l : Leeway) (b b' : String × CellId) : Prop :=
  l.name b.1 b'.1 ∧ b.2 = b'.2

end Leeway

def Ident.Rel (N : String → String → Prop) (S : Span → Span → Prop) (x y : Ident) : Prop :=
  N x.name y.name ∧ S x.span y.span

/-- Operators, closing parentheses of calls and the names that are read or assigned stand at the
same place in both. -/
inductive Expr.Alike (l : Leeway) : Expr → Expr → Prop
  | left {e e' s} : l.parens → Expr.Alike l e e' → Expr.Alike l (.grouping e s) e'
  | right {e e' s} : l.parens → Expr.Alike l e e' → Expr.Alike l e (.grouping e' s)
  | grouping {e e' s s'} :
      Expr.Alike l e e' → l.span s s' → Expr.Alike l (.grouping e s) (.grouping e' s')
  | literal {a s s'} : l.span s s' → Expr.Alike l (.literal a s) (.literal a s')
  | var {x x' s s'} :
      Ident.Rel l.name Eq x x' → l.span s s' → Expr.Alike l (.var x s) (.var x' s')
  | assign {x x' e e' s s'} :
      Ident.Rel l.name Eq x x' → Expr.Alike l e e' → l.span s s' →
      Expr.Alike l (.assign x e s) (.assign x' e' s')
  | logical {a a' op b b' s s'} :
      Expr.Alike l a a' → Expr.Alike l b b' → l.span s s' →
      Expr.Alike l (.logical a op b s) (.logical a' op b' s')
  | conditional {c c' t t' e e' s s'} :
      Expr.Alike l c c' → Expr.Alike l t t' → Expr.Alike l e e' → l.span s s' →
      Expr.Alike l (.conditional c t e s) (.conditional c' t' e' s')
  | unary {op e e' s s'} :
      Expr.Alike l e e' → l.span s s' → Expr.Alike l (.unary op e s) (.unary op e' s')
  | binary {a a' op b b' s s'} :
      Expr.Alike l a a' → Expr.Alike l b b' → l.span s s' →
      Expr.Alike l (.binary a op b s) (.binary a' op b' s')
  | call {f f' args args' paren s s'} :
      Expr.Alike l f f' → List.Forall₂ (Expr.Alike l) args args' → l.span s s' →
      Expr.Alike l (.call f args paren s) (.call f' args' paren s')

inductive Stmt.Alike (l : Leeway) : Stmt → Stmt → Prop
  | expr {e e' s s'} : e.Alike l e' → l.span s s' → Stmt.Alike l (.expr e s) (.expr e' s')
  | print {e e' s s'} : e.Alike l e' → l.span s s' → Stmt.Alike l (.print e s) (.print e' s')
  | declare {x x' e e' s s'} :
      Ident.Rel l.name l.span x x' → Option.Rel (Expr.Alike l) e e' → l.span s s' →
      Stmt.Alike l (.declare x e s) (.declare x' e' s')
  | block {body body' s s'} :
      List.Forall₂ (Stmt.Alike l) body body' → l.span s s' →
      Stmt.Alike l (.block body s) (.block body' s')
  | ifElse {c c' t t' e e' s s'} :
      c.Alike l c' → Stmt.Alike l t t' → Option.Rel (Stmt.Alike l) e e' → l.span s s' →
      Stmt.Alike l (.ifElse c t e s) (.ifElse c' t' e' s')
  | whileLoop {c c' body body' s s'} :
      c.Alike l c' → Stmt.Alike l body body' → l.span s s' →
      Stmt.Alike l (.whileLoop c body s) (.whileLoop c' body' s')
  | forLoop {i i' c c' n n' body body' s} :
      Option.Rel (Stmt.Alike l) i i' → Option.Rel (Expr.Alike l) c c' →
      Option.Rel (Expr.Alike l) n n' → Stmt.Alike l body body' →
      Stmt.Alike l (.forLoop i c n body s) (.forLoop i' c' n' body' s)
  | function {f f' params params' body body' d d' s s'} :
      Ident.Rel l.functionName l.span f f' →
      List.Forall₂ (Ident.Rel l.name l.span) params params' →
      List.Forall₂ (Stmt.Alike l) body body' → l.span d d' → l.span s s' →
      Stmt.Alike l (.function f params body d s) (.function f' params' body' d' s')

structure Declaration.Alike (l : Leeway) (d d' : Declaration) : Prop where
  name : Ident.Rel l.functionName l.span d.name d'.name
  params : List.Forall₂ (Ident.Rel l.name l.span) d.params d'.params
  body : List.Forall₂ (Stmt.Alike l) d.body d'.body
  span : l.span d.span d'.span

variable {l : Leeway}

theorem Ident.Rel.used_flip {x y : Ident} (h : Ident.Rel l.name Eq x y) :
    Ident.Rel l.flip.name Eq y x :=
  ⟨h.1, h.2.symm⟩

theorem Ident.Rel.function_flip {x y : Ident} (h : Ident.Rel l.functionName l.span x y) :
    Ident.Rel l.flip.functionName l.flip.span y x :=
  ⟨⟨h.1.1.symm, h.1.2⟩, h.2⟩

mutual

theorem Expr.Alike.flip : ∀ {e e'}, Expr.Alike l e e' → Expr.Alike l.flip e' e
  | _, _, .left hp h => .right hp h.flip
  | _, _, .right hp h => .left hp h.flip
  | _, _, .grouping h hs => .grouping h.flip hs
  | _, _, .literal hs => .literal hs
  | _, _, .var hx hs => .var hx.used_flip hs
  | _, _, .assign hx h hs => .assign hx.used_flip h.flip hs
  | _, _, .logical ha hb hs => .logical ha.flip hb.flip hs
  | _, _, .conditional hc ht he hs => .conditional hc.flip ht.flip he.flip hs
  | _, _, .unary h hs => .unary h.flip hs
  | _, _, .binary ha hb hs => .binary ha.flip hb.flip hs
  | _, _, .call hf hargs hs => .call hf.flip (Expr.Alike.flipAll hargs) hs

theorem Expr.Alike.flipAll : ∀ {es es'}, List.Forall₂ (Expr.Alike l) es es' →
    List.Forall₂ (Expr.Alike l.flip) es' es
  | _, _, .nil => .nil
  | _, _, .cons h hs => .cons h.flip (Expr.Alike.flipAll hs)

end

theorem Expr.Alike.flipOptional :
    ∀ {e e'}, Option.Rel (Expr.Alike l) e e' → Option.Rel (Expr.Alike l.flip) e' e
  | _, _, .none => .none
  | _, _, .some h => .some h.flip

mutual

theorem Stmt.Alike.flip : ∀ {s s'}, Stmt.Alike l s s' → Stmt.Alike l.flip s' s
  | _, _, .expr h hs => .expr h.flip hs
  | _, _, .print h hs => .print h.flip hs
  | _, _, .declare hx h hs => .declare hx (Expr.Alike.flipOptional h) hs
  | _, _, .block h hs => .block (Stmt.Alike.flipAll h) hs
  | _, _, .ifElse hc ht he hs => .ifElse hc.flip ht.flip (Stmt.Alike.flipOptional he) hs
  | _, _, .whileLoop hc h hs => .whileLoop hc.flip h.flip hs
  | _, _, .forLoop hi hc hn h =>
    .forLoop (Stmt.Alike.flipOptional hi) (Expr.Alike.flipOptional hc)
      (Expr.Alike.flipOptional hn) h.flip
  | _, _, .function hf hp h hd hs =>
    .function hf.function_flip (List.Forall₂.flip hp) (Stmt.Alike.flipAll h) hd hs

theorem Stmt.Alike.flipAll : ∀ {body body'}, List.Forall₂ (Stmt.Alike l) body body' →
    List.Forall₂ (Stmt.Alike l.flip) body' body
  | _, _, .nil => .nil
  | _, _, .cons h hs => .cons h.flip (Stmt.Alike.flipAll hs)

theorem Stmt.Alike.flipOptional :
    ∀ {s s'}, Option.Rel (Stmt.Alike l) s s' → Option.Rel (Stmt.Alike l.flip) s' s
  | _, _, .none => .none
  | _, _, .some h => .some h.flip

end

theorem Declaration.Alike.flip {d d' : Declaration} (h : d.Alike l d') : d'.Alike l.flip d where
  name := h.name.function_flip
  params := List.Forall₂.flip h.params
  body := Stmt.Alike.flipAll h.body
  span := h.span

inductive Callable.Alike (l : Leeway) : Callable → Callable → Prop
  | function {id d d'} : d.Alike l d' → Callable.Alike l (.function id d) (.function id d')
  | native {id name arity} : Callable.Alike l (.native id name arity) (.native id name arity)

inductive Value.Alike (l : Leeway) : Value → Value → Prop
  | number {x} : Value.Alike l (.number x) (.number x)
  | string {s} : Value.Alike l (.string s) (.string s)
  | bool {b} : Value.Alike l (.bool b) (.bool b)
  | nil : Value.Alike l .nil .nil
  | callable {c c'} : c.Alike l c' → Value.Alike l (.callable c) (.callable c')

def Fault.undefined? : Fault → Option String
  | .undefinedVariable x => some x
  | _ => none

inductive Fault.Alike (l : Leeway) : Fault → Fault → Prop
  | undefinedVariable {x y} :
      l.name x y → Fault.Alike l (.undefinedVariable x) (.undefinedVariable y)
  | same {fault} : fault.undefined? = none → Fault.Alike l fault fault

def EvalError.Alike (l : Leeway) (e e' : EvalError) : Prop :=
  e.fault.Alike l e'.fault ∧ e.span = e'.span

/-- Both succeed with corresponding results, or both fail with corresponding errors. -/
inductive Except.Alike {ε δ α β : Type} (E : ε → δ → Prop) (P : α → β → Prop) :
    Except ε α → Except δ β → Prop
  | ok {a b} : P a b → Except.Alike E P (.ok a) (.ok b)
  | error {e e'} : E e e' → Except.Alike E P (.error e) (.error e')

/-- The host function answers alike where it is asked alike. -/
def NativeBody.Respects (R : Value → Value → Prop) (body : NativeBody) : Prop :=
  ∀ args args', List.Forall₂ R args args' → Except.Alike Eq R (body args) (body args')

theorem Callable.Alike.flip {c c' : Callable} (h : c.Alike l c') : c'.Alike l.flip c := by
  cases h with
  | function h => exact .function h.flip
  | native => exact .native

theorem Value.Alike.flip {v v' : Value} (h : v.Alike l v') : v'.Alike l.flip v := by
  cases h with
  | number => exact .number
  | string => exact .string
  | bool => exact .bool
  | nil => exact .nil
  | callable h => exact .callable h.flip

theorem NativeBody.Respects.flip {body : NativeBody} (h : body.Respects (Value.Alike l)) :
    body.Respects (Value.Alike l.flip) := by
  intro args args' hargs
  have hback : List.Forall₂ (Value.Alike l) args' args :=
    (hargs.imp fun _ _ h => h.flip).flip
  generalize hr : body args = r
  generalize hr' : body args' = r'
  have hbody := h args' args hback
  rw [hr, hr'] at hbody
  cases hbody with
  | ok hv => exact .ok hv.flip
  | error he => exact .error he.symm

section

variable {a a' b b' : Value}

theorem Callable.Alike.text_eq {c c' : Callable} (h : c.Alike l c') : c'.text = c.text := by
  cases h with
  | function h => simp only [text, h.name.1.1]
  | native => rfl

theorem Callable.Alike.arity_eq {c c' : Callable} (h : c.Alike l c') : c'.arity = c.arity := by
  cases h with
  | function h => exact h.params.length_eq.symm
  | native => rfl

namespace Value.Alike

theorem of_callable?_eq_none (h : a.callable? = none) : a.Alike l a := by
  cases a with
  | number => exact .number
  | string => exact .string
  | bool => exact .bool
  | nil => exact .nil
  | callable => cases h

theorem ofLiteral (a : Literal) : (Value.ofLiteral a).Alike l (Value.ofLiteral a) :=
  of_callable?_eq_none (by cases a <;> rfl)

theorem text_eq (h : a.Alike l a') : a'.text = a.text := by
  cases h with
  | callable h => exact h.text_eq
  | number | string | bool | nil => rfl

theorem isTruthy_eq (h : a.Alike l a') : a'.isTruthy = a.isTruthy := by
  cases h <;> rfl

theorem same_eq (ha : a.Alike l a') (hb : b.Alike l b') : a'.same b' = a.same b := by
  cases ha with
  | callable hc =>
      cases hb with
      | callable hd => cases hc <;> cases hd <;> rfl
      | number | string | bool | nil => rfl
  | number | string | bool | nil => cases hb <;> rfl

theorem numbers_eq (ha : a.Alike l a') (hb : b.Alike l b') : numbers a' b' = numbers a b := by
  cases ha <;> cases hb <;> rfl

theorem add_eq (ha : a.Alike l a') (hb : b.Alike l b') : a'.add b' = a.add b := by
  cases ha with
  | string => simp only [add, hb.text_eq]
  | callable hc =>
      cases hb with
      | string => simp only [add, (Value.Alike.callable hc).text_eq]
      | number | bool | nil | callable => rfl
  | number | bool | nil => cases hb <;> rfl

end Value.Alike

theorem Except.Alike.of_eq {r r' : Except Fault Value} (h : r' = r)
    (hv : ∀ v, r = .ok v → v.callable? = none)
    (hf : ∀ fault, r = .error fault → fault.undefined? = none) :
    Except.Alike (Fault.Alike l) (Value.Alike l) r r' := by
  cases h
  cases r with
  | ok v => exact .ok (.of_callable?_eq_none (hv v rfl))
  | error fault => exact .error (.same (hf fault rfl))

theorem LogicalOp.isSettledBy_eq (op : LogicalOp) (h : a.Alike l a') :
    op.isSettledBy a' = op.isSettledBy a := by
  cases op <;> simp only [isSettledBy, h.isTruthy_eq]

theorem UnaryOp.apply_alike (op : UnaryOp) (h : a.Alike l a') :
    Except.Alike (Fault.Alike l) (Value.Alike l) (op.apply a) (op.apply a') := by
  refine .of_eq ?_ (fun v hv => callable?_of_apply hv) fun fault hfault => ?_
  · cases op with
    | neg => cases h <;> rfl
    | not => simp only [apply, h.isTruthy_eq]
  · obtain ⟨-, message, rfl⟩ := fault_of_apply hfault
    rfl

theorem BinaryOp.apply_alike (op : BinaryOp) (ha : a.Alike l a') (hb : b.Alike l b') :
    Except.Alike (Fault.Alike l) (Value.Alike l) (op.apply a b) (op.apply a' b') := by
  have hf : ∀ fault, op.apply a b = .error fault → fault.undefined? = none := by
    intro fault hfault
    rcases fault_of_apply hfault with ⟨-, message, rfl⟩ | ⟨-, rfl⟩ <;> rfl
  cases op with
  | add => exact .of_eq (ha.add_eq hb) (fun v hv => Value.callable?_of_add hv) hf
  | sub | mul =>
      refine .of_eq ?_ (fun v hv => Value.callable?_of_arithmetic hv) hf
      simp only [apply, Value.arithmetic, ha.numbers_eq hb]
  | div =>
      refine .of_eq ?_ (fun v hv => Value.callable?_of_div hv) hf
      simp only [apply, Value.div, ha.numbers_eq hb]
  | greater | greaterEq | less | lessEq =>
      refine .of_eq ?_ (fun v hv => ?_) hf
      · simp only [apply, Value.comparison, ha.numbers_eq hb]
      · rw [apply] at hv
        exact Value.callable?_of_comparison hv
  | eq =>
      have hsame : (a' == b') = (a == b) := ha.same_eq hb
      exact .ok (hsame ▸ .bool)
  | notEq =>
      have hsame : (a' == b') = (a == b) := ha.same_eq hb
      simp only [apply, bne, hsame]
      exact .ok .bool
  | comma => exact .ok hb

end

namespace Store

structure Alike (l : Leeway) (s s' : Store) : Prop where
  size_scopes : s'.scopes.size = s.scopes.size
  size_cells : s'.cells.size = s.cells.size
  parent? : ∀ i, s'.parent? i = s.parent? i
  bindings : ∀ i, List.Forall₂ l.binding (s.bindings i) (s'.bindings i)
  cells : ∀ c : CellId, Option.Rel (Value.Alike l) s.cells[c]? s'.cells[c]?
  captured : s'.captured = s.captured
  natives : s'.natives = s.natives
  respects : ∀ body ∈ s.natives, NativeBody.Respects (Value.Alike l) body

variable {s s' : Store}

namespace Alike

theorem flip (h : s.Alike l s') : s'.Alike l.flip s where
  size_scopes := h.size_scopes.symm
  size_cells := h.size_cells.symm
  parent? i := (h.parent? i).symm
  bindings i := ((h.bindings i).imp fun _ _ hb => ⟨hb.1, hb.2.symm⟩).flip
  cells c := by
    have hc := h.cells c
    generalize s.cells[c]? = o at hc ⊢
    generalize s'.cells[c]? = o' at hc ⊢
    cases hc with
    | none => exact .none
    | some hv => exact .some hv.flip
  captured := h.captured.symm
  natives := h.natives.symm
  respects body hbody := (h.respects body (h.natives ▸ hbody)).flip

theorem capturedScope_eq (h : s.Alike l s') (id : FunctionId) :
    s'.capturedScope id = s.capturedScope id := by
  rw [capturedScope, capturedScope, h.captured]

theorem nativeBody_respects (h : s.Alike l s') (id : NativeId) {args args' : List Value}
    (hargs : List.Forall₂ (Value.Alike l) args args') :
    Except.Alike Eq (Value.Alike l) (s.nativeBody id args) (s'.nativeBody id args') := by
  rw [nativeBody, nativeBody, h.natives, Array.getD_eq_getD_getElem?]
  cases hid : s.natives[id]? with
  | none => exact .ok .nil
  | some body => exact h.respects body (Array.mem_of_getElem? hid) args args' hargs

theorem lookup_eq {bs bs' : List (String × CellId)} {x y : String}
    (h : List.Forall₂ l.binding bs bs') (hx : l.name x y) : bs'.lookup y = bs.lookup x := by
  induction h with
  | nil => rfl
  | @cons b b' bs bs' hb _ ih =>
      have hiff : x = b.1 ↔ y = b'.1 := Relator.rel_eq l.biUnique hx hb.1
      have hbeq : (y == b'.1) = (x == b.1) := by
        rw [Bool.eq_iff_iff, beq_iff_eq, beq_iff_eq, hiff]
      rw [List.lookup_cons, List.lookup_cons, hbeq, hb.2, ih]

theorem resolve_eq (h : s.Alike l s') (i : ScopeId) {x y : String} (hx : l.name x y) :
    s'.resolve i y = s.resolve i x := by
  rw [resolve_eq_findSome?, resolve_eq_findSome?, chain_congr fun j _ => h.parent? j]
  exact congrArg (List.findSome? · (s.chain i)) (funext fun j => lookup_eq (h.bindings j) hx)

theorem get? (h : s.Alike l s') (i : ScopeId) {x y : String} (hx : l.name x y) :
    Option.Rel (Value.Alike l) (s.get? i x) (s'.get? i y) := by
  rw [Store.get?, Store.get?, h.resolve_eq i hx]
  cases s.resolve i x with
  | none => exact .none
  | some c => exact h.cells c

theorem set (h : s.Alike l s') (c : CellId) {v v' : Value} (hv : v.Alike l v') :
    (s.set c v).Alike l (s'.set c v') where
  size_scopes := h.size_scopes
  size_cells := by simpa [Store.set] using h.size_cells
  parent? := h.parent?
  bindings := h.bindings
  cells d := by
    simp only [Store.set, Array.getElem?_setIfInBounds, h.size_cells]
    split
    · split
      · exact .some hv
      · exact .none
    · exact h.cells d
  captured := h.captured
  natives := h.natives
  respects := h.respects

theorem addScope (h : s.Alike l s') {bs bs' : List (String × CellId)}
    (hbs : List.Forall₂ l.binding bs bs') (parent : Option ScopeId) :
    (s.addScope bs parent).2.Alike l (s'.addScope bs' parent).2 where
  size_scopes := by simp [h.size_scopes]
  size_cells := h.size_cells
  parent? i := by rw [parent?_addScope, parent?_addScope, h.size_scopes, h.parent?]
  bindings i := by
    rw [bindings_addScope, bindings_addScope, h.size_scopes]
    split
    · exact hbs
    · exact h.bindings i
  cells := h.cells
  captured := h.captured
  natives := h.natives
  respects := h.respects

theorem child (h : s.Alike l s') (i : ScopeId) : (s.child i).2.Alike l (s'.child i).2 :=
  h.addScope .nil (some i)

theorem bind (h : s.Alike l s') (i : ScopeId) {x y : String} (hx : l.name x y) {v v' : Value}
    (hv : v.Alike l v') : (s.bind i x v).Alike l (s'.bind i y v') where
  size_scopes := by simp [h.size_scopes]
  size_cells := by simp [h.size_cells]
  parent? j := by rw [parent?_bind, parent?_bind, h.parent?]
  bindings j := by
    rw [bindings_bind, bindings_bind, h.size_scopes, h.size_cells]
    split
    · exact .cons ⟨hx, rfl⟩ (h.bindings i)
    · exact h.bindings j
  cells c := by
    rw [cells_bind, cells_bind, Array.getElem?_push, Array.getElem?_push, h.size_cells]
    split
    · exact .some hv
    · exact h.cells c
  captured := h.captured
  natives := h.natives
  respects := h.respects

theorem define (h : s.Alike l s') (i : ScopeId) {x y : String} (hx : l.name x y) {v v' : Value}
    (hv : v.Alike l v') : (s.define i x v).2.Alike l (s'.define i y v').2 :=
  (h.bind i hx hv).addScope ((h.bind i hx hv).bindings i) (some i)

theorem frame (h : s.Alike l s') (i : ScopeId) {params params' : List Ident}
    (hparams : List.Forall₂ (Ident.Rel l.name l.span) params params') {args args' : List Value}
    (hargs : List.Forall₂ (Value.Alike l) args args') :
    (s.frame i params args).2.Alike l (s'.frame i params' args').2 := by
  have hchild := h.child i
  simp only [Store.frame, Store.child, fst_addScope, h.size_scopes]
  change (s.addScope [] (some i)).2.Alike l (s'.addScope [] (some i)).2 at hchild
  generalize (s.addScope [] (some i)).2 = t at hchild ⊢
  generalize (s'.addScope [] (some i)).2 = t' at hchild ⊢
  induction hparams generalizing args args' t t' with
  | nil => exact hchild
  | cons hx _ ih =>
      cases hargs with
      | nil => exact hchild
      | cons hv hargs => exact ih hargs _ _ (hchild.bind _ hx.1 hv)

theorem addFunction (h : s.Alike l s') (d d' : Declaration) (i : ScopeId) :
    (s.addFunction d i).2.Alike l (s'.addFunction d' i).2 where
  size_scopes := h.size_scopes
  size_cells := h.size_cells
  parent? := h.parent?
  bindings := h.bindings
  cells := h.cells
  captured := congrArg (·.push i) h.captured
  natives := h.natives
  respects := h.respects

theorem addNative (h : s.Alike l s') (name : String) (arity : Nat) {body : NativeBody}
    (hbody : body.Respects (Value.Alike l)) :
    (s.addNative name arity body).2.Alike l (s'.addNative name arity body).2 where
  size_scopes := h.size_scopes
  size_cells := h.size_cells
  parent? := h.parent?
  bindings := h.bindings
  cells := h.cells
  captured := h.captured
  natives := congrArg (·.push body) h.natives
  respects := by
    intro body' hbody'
    rcases Array.mem_push.mp hbody' with hbody' | rfl
    · exact h.respects body' hbody'
    · exact hbody

end Alike

theorem alike_empty : ({} : Store).Alike l {} where
  size_scopes := rfl
  size_cells := rfl
  parent? _ := rfl
  bindings _ := by simp [bindings]
  cells _ := by simp
  captured := rfl
  natives := rfl
  respects _ h := absurd h (Array.not_mem_empty _)

end Store

end Scriptlet
