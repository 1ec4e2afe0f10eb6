import Mathlib.Data.List.Basic
import Mathlib.Logic.Relation
import Mathlib.Order.MinMax
import Scriptlet.Syntax.Node

namespace Scriptlet

theorem Position.le_iff_toNat (p q : Position) :
    p ≤ q ↔ p.line.toNat < q.line.toNat ∨
      p.line.toNat = q.line.toNat ∧ p.column.toNat ≤ q.column.toNat := by
  rw [le_def, UInt32.lt_iff_toNat_lt, UInt32.le_iff_toNat_le, UInt32.toNat_inj]

instance : LinearOrder Position where
  le_refl p := by
    rw [Position.le_iff_toNat]
    omega
  le_trans p q r := by
    simp only [Position.le_iff_toNat]
    omega
  le_antisymm p q := by
    obtain ⟨line, column⟩ := p
    obtain ⟨line', column'⟩ := q
    simp only [Position.le_iff_toNat, Position.mk.injEq, ← UInt32.toNat_inj]
    omega
  le_total p q := by
    simp only [Position.le_iff_toNat]
    omega
  toDecidableLE := inferInstance

namespace Span

variable {a b c : Span}

theorem Covers.refl (a : Span) : a.Covers a :=
  ⟨le_refl _, le_refl _⟩

theorem Covers.trans (hab : a.Covers b) (hbc : b.Covers c) : a.Covers c :=
  ⟨le_trans hab.1 hbc.1, le_trans hbc.2 hab.2⟩

theorem covers_hull_left (a b : Span) : (a.hull b).Covers a :=
  ⟨min_le_left _ _, le_max_left _ _⟩

theorem covers_hull_right (a b : Span) : (a.hull b).Covers b :=
  ⟨min_le_right _ _, le_max_right _ _⟩

theorem Covers.hull (ha : c.Covers a) (hb : c.Covers b) : c.Covers (a.hull b) :=
  ⟨le_min ha.1 hb.1, max_le ha.2 hb.2⟩

theorem hull_comm (a b : Span) : a.hull b = b.hull a := by
  rw [Span.hull, Span.hull, min_comm, max_comm]

theorem hull_assoc (a b c : Span) : (a.hull b).hull c = a.hull (b.hull c) := by
  simp only [Span.hull, min_assoc, max_assoc]

theorem hull_self (a : Span) : a.hull a = a := by
  rw [Span.hull, min_self, max_self]

def Follows (b a : Span) : Prop :=
  a.start ≤ b.start ∧ a.stop ≤ b.stop

instance (b a : Span) : Decidable (b.Follows a) :=
  inferInstanceAs (Decidable (a.start ≤ b.start ∧ a.stop ≤ b.stop))

theorem Follows.refl (a : Span) : a.Follows a :=
  ⟨le_refl _, le_refl _⟩

theorem covers_hull_of_follows (hba : b.Follows a) (hcb : c.Follows b) : (a.hull c).Covers b :=
  ⟨min_le_iff.mpr (.inl hba.1), le_max_iff.mpr (.inr hcb.2)⟩

end Span

/-- A tree or something in one: tokens are leaves, and the declaration of a function is a node. -/
inductive Tree where
  | token (span : Span)
  | expr (e : Expr)
  | stmt (s : Stmt)
  | declaration (d : Declaration)

/-- The tokens and children of a node, in the order in which a source text has them. -/
def Expr.parts : Expr → List Tree
  | .literal _ _ => []
  | .grouping e _ => [.expr e]
  | .var x _ => [.token x.span]
  | .assign x e _ => [.token x.span, .expr e]
  | .logical l op r _ => [.expr l, .token op.span, .expr r]
  | .conditional c t e _ => [.expr c, .expr t, .expr e]
  | .unary op e _ => [.token op.span, .expr e]
  | .binary l op r _ => [.expr l, .token op.span, .expr r]
  | .call f args paren _ => [.expr f] ++ args.map .expr ++ [.token paren]

/-- The word that introduces a `print` statement is not kept in the tree. -/
def Stmt.parts : Stmt → List Tree
  | .expr e _ | .print e _ => [.expr e]
  | .declare x initial _ => .token x.span :: initial.toList.map .expr
  | .block body _ => body.map .stmt
  | .ifElse c t e _ => .expr c :: .stmt t :: e.toList.map .stmt
  | .whileLoop c body _ => [.expr c, .stmt body]
  | .forLoop initial c increment body _ =>
    initial.toList.map .stmt ++ c.toList.map .expr ++ increment.toList.map .expr ++ [.stmt body]
  | .function f params body declSpan _ => [.declaration ⟨f, params, body, declSpan⟩]

/-- Built by the constructors that compute spans. -/
inductive Expr.Built : Expr → Prop
  | literal (a : Literal) (span : Span) : Built (Node.literal a span)
  | grouping {e : Expr} (he : Built e) (span : Span) : Built (Node.grouping e span)
  | var (x : Ident) : Built (Node.var x)
  | assign (x : Ident) {e : Expr} (he : Built e) : Built (Node.assign x e)
  | logical {l r : Expr} (hl : Built l) (op : Located LogicalOp) (hr : Built r) :
      Built (Node.logical l op r)
  | conditional {c t e : Expr} (hc : Built c) (ht : Built t) (he : Built e) :
      Built (Node.conditional c t e)
  | unary (op : Located UnaryOp) {e : Expr} (he : Built e) : Built (Node.unary op e)
  | binary {l r : Expr} (hl : Built l) (op : Located BinaryOp) (hr : Built r) :
      Built (Node.binary l op r)
  | call {f : Expr} {args : List Expr} (hf : Built f) (hargs : ∀ e ∈ args, Built e)
      (paren : Span) : Built (Node.call f args paren)

inductive Stmt.Built : Stmt → Prop
  | expr {e : Expr} (he : e.Built) : Built (Node.expr e)
  | print {e : Expr} (he : e.Built) (keyword : Span) : Built (Node.print e keyword)
  | declare (x : Ident) {initial : Option Expr} (hinitial : ∀ e ∈ initial, e.Built) :
      Built (Node.declare x initial)
  | block {body : List Stmt} (hbody : ∀ s ∈ body, Built s) (span : Span) :
      Built (Node.block body span)
  | ifElse {c : Expr} {t : Stmt} {e : Option Stmt} (hc : c.Built) (ht : Built t)
      (he : ∀ s ∈ e, Built s) : Built (Node.ifElse c t e)
  | whileLoop {c : Expr} {body : Stmt} (hc : c.Built) (hbody : Built body) :
      Built (Node.whileLoop c body)
  | forLoop {initial : Option Stmt} {c increment : Option Expr} {body : Stmt}
      (hinitial : ∀ s ∈ initial, Built s) (hc : ∀ e ∈ c, e.Built)
      (hincrement : ∀ e ∈ increment, e.Built) (hbody : Built body) (span : Span) :
      Built (Node.forLoop initial c increment body span)
  | function (f : Ident) (params : List Ident) {body : List Stmt} (hbody : ∀ s ∈ body, Built s)
      (span : Span) : Built (Node.function f params body span)

namespace Tree

def span : Tree → Span
  | .token s => s
  | .expr e => e.span
  | .stmt s => s.span
  | .declaration d => d.span

def parts : Tree → List Tree
  | .token _ => []
  | .expr e => e.parts
  | .stmt s => s.parts
  | .declaration d => .token d.name.span :: (d.params.map (.token ·.span) ++ d.body.map .stmt)

def Built : Tree → Prop
  | .token _ => True
  | .expr e => e.Built
  | .stmt s => s.Built
  | .declaration d => ∀ s ∈ d.body, s.Built

/-- The nodes with parts whose span is taken as given. A function passes its own on to its
declaration. -/
def isDelimited : Tree → Bool
  | .expr (.grouping _ _) | .stmt (.block _ _) | .stmt (.forLoop _ _ _ _ _) => true
  | .declaration _ => true
  | _ => false

/-- The parts are in the order of the source, and within the delimiters if there are any. -/
structure WellPlaced (t : Tree) : Prop where
  inOrder : t.parts.Pairwise fun a b => b.span.Follows a.span
  enclosed : t.isDelimited = true → ∀ part ∈ t.parts, t.span.Covers part.span

def IsIn (n t : Tree) : Prop :=
  Relation.ReflTransGen (fun a b => b ∈ a.parts) t n

def IsBelow (n t : Tree) : Prop :=
  Relation.TransGen (fun a b => b ∈ a.parts) t n

variable {t n m p : Tree}

theorem Built.of_mem_parts (ht : t.Built) (hp : p ∈ t.parts) : p.Built := by
  cases t with
  | token => cases hp
  | expr e =>
      cases ht with
      | literal => cases hp
      | grouping he =>
          obtain rfl := List.mem_singleton.mp hp
          exact he
      | var =>
          obtain rfl := List.mem_singleton.mp hp
          trivial
      | assign x he =>
          rcases List.mem_pair.mp hp with rfl | rfl
          · trivial
          · exact he
      | logical hl op hr | binary hl op hr =>
          rcases List.mem_cons.mp hp with rfl | hp
          · exact hl
          · rcases List.mem_pair.mp hp with rfl | rfl
            · trivial
            · exact hr
      | conditional hc ht he =>
          rcases List.mem_cons.mp hp with rfl | hp
          · exact hc
          · rcases List.mem_pair.mp hp with rfl | rfl
            · exact ht
            · exact he
      | unary op he =>
          rcases List.mem_pair.mp hp with rfl | rfl
          · trivial
          · exact he
      | call hf hargs paren =>
          simp only [parts, Node.call, Expr.parts, List.mem_append, List.mem_singleton,
            List.mem_map] at hp
          rcases hp with (rfl | ⟨e, he, rfl⟩) | rfl
          · exact hf
          · exact hargs e he
          · trivial
  | stmt s =>
      cases ht with
      | expr he | print he =>
          obtain rfl := List.mem_singleton.mp hp
          exact he
      | declare x hinitial =>
          simp only [parts, Node.declare, Stmt.parts, List.mem_cons, List.mem_map,
            Option.mem_toList] at hp
          rcases hp with rfl | ⟨e, he, rfl⟩
          · trivial
          · exact hinitial e he
      | block hbody =>
          obtain ⟨s, hs, rfl⟩ := List.mem_map.mp hp
          exact hbody s hs
      | ifElse hc ht he =>
          simp only [parts, Node.ifElse, Stmt.parts, List.mem_cons, List.mem_map,
            Option.mem_toList] at hp
          rcases hp with rfl | rfl | ⟨s, hs, rfl⟩
          · exact hc
          · exact ht
          · exact he s hs
      | whileLoop hc hbody =>
          rcases List.mem_pair.mp hp with rfl | rfl
          · exact hc
          · exact hbody
      | forLoop hinitial hc hincrement hbody =>
          simp only [parts, Node.forLoop, Stmt.parts, List.mem_append, List.mem_map,
            Option.mem_toList, List.mem_singleton] at hp
          rcases hp with ((⟨s, hs, rfl⟩ | ⟨e, he, rfl⟩) | ⟨e, he, rfl⟩) | rfl
          · exact hinitial s hs
          · exact hc e he
          · exact hincrement e he
          · exact hbody
      | function f params hbody =>
          obtain rfl := List.mem_singleton.mp hp
          exact hbody
  | declaration d =>
      simp only [parts, List.mem_cons, List.mem_append, List.mem_map] at hp
      rcases hp with rfl | ⟨x, -, rfl⟩ | ⟨s, hs, rfl⟩
      · trivial
      · trivial
      · exact ht s hs

theorem covers_of_pairwise {first last : Tree} {ts : List Tree}
    (h : ts.Pairwise fun a b => b.span.Follows a.span) (hfirst : ts.head? = some first)
    (hlast : ts.getLast? = some last) (hp : p ∈ ts) :
    (first.span.hull last.span).Covers p.span := by
  refine Span.covers_hull_of_follows ?_ ?_
  · obtain ⟨rest, rfl⟩ := List.head?_eq_some_iff.mp hfirst
    rcases List.mem_cons.mp hp with rfl | hp
    · exact .refl _
    · exact List.rel_of_pairwise_cons h hp
  · obtain ⟨rest, rfl⟩ := List.getLast?_eq_some_iff.mp hlast
    rcases List.mem_append.mp hp with hp | hp
    · exact (List.pairwise_append.mp h).2.2 p hp last (List.mem_singleton_self _)
    · obtain rfl := List.mem_singleton.mp hp
      exact .refl _

theorem Built.covers_of_mem_parts (ht : t.Built) (hplaced : t.WellPlaced) (hp : p ∈ t.parts) :
    t.span.Covers p.span := by
  have hhull (first last : Tree) (hfirst : t.parts.head? = some first)
      (hlast : t.parts.getLast? = some last) : (first.span.hull last.span).Covers p.span :=
    covers_of_pairwise hplaced.inOrder hfirst hlast hp
  cases t with
  | token => cases hp
  | expr e =>
      cases ht with
      | literal => cases hp
      | grouping => exact hplaced.enclosed rfl p hp
      | var =>
          obtain rfl := List.mem_singleton.mp hp
          exact .refl _
      | @assign x e => exact hhull (.token x.span) (.expr e) rfl rfl
      | @logical l r | @binary l r => exact hhull (.expr l) (.expr r) rfl rfl
      | @conditional c t e => exact hhull (.expr c) (.expr e) rfl rfl
      | @unary op e => exact hhull (.token op.span) (.expr e) rfl rfl
      | @call f args _ _ paren =>
          exact hhull (.expr f) (.token paren) rfl List.getLast?_concat
  | stmt s =>
      cases ht with
      | expr =>
          obtain rfl := List.mem_singleton.mp hp
          exact .refl _
      | print =>
          obtain rfl := List.mem_singleton.mp hp
          exact Span.covers_hull_right _ _
      | @declare x initial =>
          cases initial with
          | none =>
              obtain rfl := List.mem_singleton.mp hp
              exact .refl _
          | some e => exact hhull (.token x.span) (.expr e) rfl rfl
      | block | forLoop => exact hplaced.enclosed rfl p hp
      | @ifElse c t e =>
          cases e with
          | none => exact hhull (.expr c) (.stmt t) rfl rfl
          | some e => exact hhull (.expr c) (.stmt e) rfl rfl
      | @whileLoop c body => exact hhull (.expr c) (.stmt body) rfl rfl
      | function =>
          obtain rfl := List.mem_singleton.mp hp
          exact .refl _
  | declaration d => exact hplaced.enclosed rfl p hp

theorem IsIn.built (hn : n.IsIn t) (ht : t.Built) : n.Built := by
  induction hn with
  | refl => exact ht
  | tail _ hpart ih => exact ih.of_mem_parts hpart

theorem forall_isIn {P : Tree → Prop} (ht : P t)
    (hparts : ∀ p ∈ t.parts, ∀ n : Tree, n.IsIn p → P n) (hn : n.IsIn t) : P n := by
  rcases Relation.ReflTransGen.cases_head hn with rfl | ⟨p, hp, hn⟩
  · exact ht
  · exact hparts p hp n hn

theorem covers_of_isBelow (hplaced : ∀ n : Tree, n.IsIn t → n.WellPlaced) (ht : t.Built)
    (hn : n.IsBelow t) : t.span.Covers n.span := by
  induction hn with
  | single hpart => exact ht.covers_of_mem_parts (hplaced t .refl) hpart
  | @tail m n hm hpart ih =>
      have hm' : m.IsIn t := hm.to_reflTransGen
      exact ih.trans ((hm'.built ht).covers_of_mem_parts (hplaced m hm') hpart)

end Tree

/-- The hull of two spans is the least span that covers both. In a tree whose spans were computed
when it was built, with the parts of every node in the order of the source and within the delimiters
that were given, the span of a node covers those of all tokens and nodes below it. -/
theorem spans_cover_what_is_below :
    (∀ a b : Span, (a.hull b).Covers a ∧ (a.hull b).Covers b ∧
      ∀ c : Span, c.Covers a → c.Covers b → c.Covers (a.hull b)) ∧
    (∀ a b : Span, a.hull b = b.hull a) ∧
    (∀ a b c : Span, (a.hull b).hull c = a.hull (b.hull c)) ∧
    (∀ a : Span, a.hull a = a) ∧
    (∀ (e : Expr) (keyword : Span), (Node.print e keyword).span.Covers keyword) ∧
    ∀ t : Tree, t.Built → (∀ n : Tree, n.IsIn t → n.WellPlaced) →
      ∀ n m : Tree, n.IsIn t → m.IsBelow n → n.span.Covers m.span := by
  refine ⟨fun a b => ?_, Span.hull_comm, Span.hull_assoc, Span.hull_self, fun e keyword => ?_, ?_⟩
  · exact ⟨Span.covers_hull_left a b, Span.covers_hull_right a b, fun c ha hb => ha.hull hb⟩
  · exact Span.covers_hull_left keyword e.span
  · intro t ht hplaced n m hn hm
    exact Tree.covers_of_isBelow (fun k hk => hplaced k (hn.trans hk)) (hn.built ht) hm

/-- In `(c ? a : b)` the parentheses and the conditional around `a` cover it, though neither span is
computed from that of `a`. -/
theorem spans_cover_what_is_below_middle_branch :
    let c : Ident := ⟨"c", .point 1 2⟩
    let a : Ident := ⟨"a", .point 1 6⟩
    let b : Ident := ⟨"b", .point 1 10⟩
    let conditional := Node.conditional (Node.var c) (Node.var a) (Node.var b)
    let t : Tree := .expr (Node.grouping conditional ⟨⟨1, 1⟩, ⟨1, 11⟩⟩)
    t.Built ∧ (∀ n : Tree, n.IsIn t → n.WellPlaced) ∧ (Tree.expr conditional).IsIn t ∧
      (Tree.token a.span).IsBelow (.expr conditional) ∧ conditional.span.Covers a.span ∧
      t.span.Covers a.span := by
  intro c a b conditional t
  have hbuilt : t.Built := Expr.Built.grouping (.conditional (.var c) (.var a) (.var b)) _
  have hvar (x : Ident) (n : Tree) : n.IsIn (.expr (Node.var x)) → n.WellPlaced := by
    refine Tree.forall_isIn ⟨List.pairwise_singleton _ _, nofun⟩ fun p hp n => ?_
    obtain rfl := List.mem_singleton.mp hp
    exact Tree.forall_isIn ⟨.nil, nofun⟩ nofun
  have hplaced (n : Tree) : n.IsIn t → n.WellPlaced := by
    refine Tree.forall_isIn ⟨List.pairwise_singleton _ _, ?_⟩ fun p hp n => ?_
    · rintro - p hp
      obtain rfl := List.mem_singleton.mp hp
      decide
    · obtain rfl := List.mem_singleton.mp hp
      refine Tree.forall_isIn ⟨?_, nofun⟩ fun p hp n => ?_
      · simp only [Tree.parts, conditional, Node.conditional, Expr.parts]
        decide
      · simp only [Tree.parts, conditional, Node.conditional, Expr.parts, List.mem_cons,
          List.not_mem_nil, or_false] at hp
        rcases hp with rfl | rfl | rfl
        · exact hvar c n
        · exact hvar a n
        · exact hvar b n
  have hconditional : (Tree.expr conditional).IsIn t := .single (List.mem_singleton_self _)
  have ha : (Tree.token a.span).IsBelow (.expr conditional) := by
    refine .tail (.single (List.mem_cons_of_mem _ List.mem_cons_self)) ?_
    exact List.mem_singleton_self _
  refine ⟨hbuilt, hplaced, hconditional, ha, ?_, ?_⟩
  · exact spans_cover_what_is_below.2.2.2.2.2 t hbuilt hplaced _ _ hconditional ha
  · exact spans_cover_what_is_below.2.2.2.2.2 t hbuilt hplaced _ _ .refl
      (.trans_right hconditional ha)

end Scriptlet
