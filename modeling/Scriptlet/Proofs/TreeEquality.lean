import Mathlib.Data.List.Forall2
import Mathlib.Tactic.Tauto
import Scriptlet.Proofs.FloatBits
import Scriptlet.Syntax.Equality

namespace Scriptlet

def Literal.withoutNumber : Literal → Literal
  | .number _ => .number 0
  | a => a

def Literal.numbers : Literal → List Float
  | .number x => [x]
  | _ => []

mutual

/-- The tree with all its number literals replaced by the same one. -/
def Expr.withoutNumbers : Expr → Expr
  | .literal a s => .literal a.withoutNumber s
  | .grouping e s => .grouping e.withoutNumbers s
  | .var x s => .var x s
  | .assign x e s => .assign x e.withoutNumbers s
  | .logical a op b s => .logical a.withoutNumbers op b.withoutNumbers s
  | .conditional c t e s => .conditional c.withoutNumbers t.withoutNumbers e.withoutNumbers s
  | .unary op e s => .unary op e.withoutNumbers s
  | .binary a op b s => .binary a.withoutNumbers op b.withoutNumbers s
  | .call f args paren s => .call f.withoutNumbers (Expr.withoutNumbersAll args) paren s

def Expr.withoutNumbersAll : List Expr → List Expr
  | [] => []
  | e :: es => e.withoutNumbers :: Expr.withoutNumbersAll es

end

mutual

def Expr.numbers : Expr → List Float
  | .literal a _ => a.numbers
  | .grouping e _ | .assign _ e _ | .unary _ e _ => e.numbers
  | .var _ _ => []
  | .logical a _ b _ | .binary a _ b _ => a.numbers ++ b.numbers
  | .conditional c t e _ => c.numbers ++ (t.numbers ++ e.numbers)
  | .call f args _ _ => f.numbers ++ Expr.numbersAll args

def Expr.numbersAll : List Expr → List Float
  | [] => []
  | e :: es => e.numbers ++ Expr.numbersAll es

end

def Expr.numbersOptional : Option Expr → List Float
  | none => []
  | some e => e.numbers

mutual

def Stmt.withoutNumbers : Stmt → Stmt
  | .expr e s => .expr e.withoutNumbers s
  | .print e s => .print e.withoutNumbers s
  | .declare x e s => .declare x (e.map Expr.withoutNumbers) s
  | .block body s => .block (Stmt.withoutNumbersAll body) s
  | .ifElse c t e s =>
    .ifElse c.withoutNumbers t.withoutNumbers (Stmt.withoutNumbersOptional e) s
  | .whileLoop c body s => .whileLoop c.withoutNumbers body.withoutNumbers s
  | .forLoop i c n body s =>
    .forLoop (Stmt.withoutNumbersOptional i) (c.map Expr.withoutNumbers) (n.map Expr.withoutNumbers)
      body.withoutNumbers s
  | .function f params body d s => .function f params (Stmt.withoutNumbersAll body) d s

def Stmt.withoutNumbersAll : List Stmt → List Stmt
  | [] => []
  | s :: body => s.withoutNumbers :: Stmt.withoutNumbersAll body

def Stmt.withoutNumbersOptional : Option Stmt → Option Stmt
  | none => none
  | some s => some s.withoutNumbers

end

mutual

def Stmt.numbers : Stmt → List Float
  | .expr e _ | .print e _ => e.numbers
  | .declare _ e _ => Expr.numbersOptional e
  | .block body _ | .function _ _ body _ _ => Stmt.numbersAll body
  | .ifElse c t e _ => c.numbers ++ (t.numbers ++ Stmt.numbersOptional e)
  | .whileLoop c body _ => c.numbers ++ body.numbers
  | .forLoop i c n body _ =>
    Stmt.numbersOptional i ++
      (Expr.numbersOptional c ++ (Expr.numbersOptional n ++ body.numbers))

def Stmt.numbersAll : List Stmt → List Float
  | [] => []
  | s :: body => s.numbers ++ Stmt.numbersAll body

def Stmt.numbersOptional : Option Stmt → List Float
  | none => []
  | some s => s.numbers

end

/-- Equality of number literals, told from their bits. -/
def SameNumber (x y : Float) : Prop :=
  (Binary64.ofBits x.toBits).Equals (.ofBits y.toBits)

theorem Literal.length_numbers (a : Literal) :
    a.withoutNumber.numbers.length = a.numbers.length := by
  cases a <;> rfl

mutual

theorem Expr.length_numbers (e : Expr) : e.withoutNumbers.numbers.length = e.numbers.length := by
  cases e with
  | literal a => exact a.length_numbers
  | var => rfl
  | grouping e | assign _ e | unary _ e => exact e.length_numbers
  | logical a _ b | binary a _ b =>
      simp only [withoutNumbers, numbers, List.length_append, a.length_numbers, b.length_numbers]
  | conditional c t e =>
      simp only [withoutNumbers, numbers, List.length_append, c.length_numbers, t.length_numbers,
        e.length_numbers]
  | call f args =>
      simp only [withoutNumbers, numbers, List.length_append, f.length_numbers,
        Expr.length_numbersAll args]

theorem Expr.length_numbersAll (es : List Expr) :
    (Expr.numbersAll (Expr.withoutNumbersAll es)).length = (Expr.numbersAll es).length := by
  cases es with
  | nil => rfl
  | cons e es =>
      simp only [Expr.withoutNumbersAll, Expr.numbersAll, List.length_append, e.length_numbers,
        Expr.length_numbersAll es]

end

theorem Expr.length_numbersOptional (e : Option Expr) :
    (Expr.numbersOptional (e.map Expr.withoutNumbers)).length =
      (Expr.numbersOptional e).length := by
  cases e with
  | none => rfl
  | some e => exact e.length_numbers

mutual

theorem Stmt.length_numbers (s : Stmt) : s.withoutNumbers.numbers.length = s.numbers.length := by
  cases s with
  | expr e | print e => exact e.length_numbers
  | declare _ e => exact Expr.length_numbersOptional e
  | block body | function _ _ body => exact Stmt.length_numbersAll body
  | ifElse c t e =>
      simp only [withoutNumbers, numbers, List.length_append, c.length_numbers, t.length_numbers,
        Stmt.length_numbersOptional e]
  | whileLoop c body =>
      simp only [withoutNumbers, numbers, List.length_append, c.length_numbers, body.length_numbers]
  | forLoop i c n body =>
      simp only [withoutNumbers, numbers, List.length_append, Stmt.length_numbersOptional i,
        Expr.length_numbersOptional, body.length_numbers]

theorem Stmt.length_numbersAll (body : List Stmt) :
    (Stmt.numbersAll (Stmt.withoutNumbersAll body)).length = (Stmt.numbersAll body).length := by
  cases body with
  | nil => rfl
  | cons s body =>
      simp only [Stmt.withoutNumbersAll, Stmt.numbersAll, List.length_append, s.length_numbers,
        Stmt.length_numbersAll body]

theorem Stmt.length_numbersOptional (s : Option Stmt) :
    (Stmt.numbersOptional (Stmt.withoutNumbersOptional s)).length =
      (Stmt.numbersOptional s).length := by
  cases s with
  | none => rfl
  | some s => exact s.length_numbers

end

variable {α : Type} {R : α → α → Prop} {l l' m m' : List α}

theorem forall₂_append_iff (h : l.length = l'.length) :
    List.Forall₂ R (l ++ m) (l' ++ m') ↔ List.Forall₂ R l l' ∧ List.Forall₂ R m m' := by
  induction l generalizing l' with
  | nil =>
      obtain rfl := List.length_eq_zero_iff.mp h.symm
      simp
  | cons x l ih =>
      cases l' with
      | nil => cases h
      | cons y l' => simp [ih (Nat.succ.inj h), and_assoc]

/-- Trees that are the same but for their number literals have as many of them, so the literals of
the first part of a tree correspond to those of the first part of the other. -/
theorem and_forall₂_append_iff {p q : Prop} (h : p → l.length = l'.length) :
    (p ∧ q) ∧ List.Forall₂ R (l ++ m) (l' ++ m') ↔
      (p ∧ List.Forall₂ R l l') ∧ q ∧ List.Forall₂ R m m' := by
  by_cases hp : p
  · rw [forall₂_append_iff (h hp)]
    tauto
  · tauto

theorem length_eq_of_eq {f : α → α} {numbers : α → List Float}
    (h : ∀ a, (numbers (f a)).length = (numbers a).length) {a b : α} (hab : f a = f b) :
    (numbers a).length = (numbers b).length := by
  rw [← h a, hab, h b]

theorem Literal.same_iff {a b : Literal} :
    (a == b) = true ↔
      a.withoutNumber = b.withoutNumber ∧ List.Forall₂ SameNumber a.numbers b.numbers := by
  change a.same b = true ↔ _
  cases a <;> cases b <;> simp [same, withoutNumber, numbers, SameNumber, Binary64.float_beq_iff]

mutual

theorem Expr.same_iff (a b : Expr) :
    a.same b = true ↔
      a.withoutNumbers = b.withoutNumbers ∧ List.Forall₂ SameNumber a.numbers b.numbers := by
  cases a with
  | literal x =>
      cases b with
      | literal y =>
          simp only [same, withoutNumbers, numbers, Bool.and_eq_true, beq_iff_eq, literal.injEq,
            Literal.same_iff]
          tauto
      | _ => simp [same, withoutNumbers]
  | grouping a =>
      cases b with
      | grouping b =>
          simp only [same, withoutNumbers, numbers, Bool.and_eq_true, beq_iff_eq, grouping.injEq,
            a.same_iff b]
          tauto
      | _ => simp [same, withoutNumbers]
  | var x =>
      cases b with
      | var y => simp [same, withoutNumbers, numbers]
      | _ => simp [same, withoutNumbers]
  | assign x a =>
      cases b with
      | assign y b =>
          simp only [same, withoutNumbers, numbers, Bool.and_eq_true, beq_iff_eq, assign.injEq,
            a.same_iff b]
          tauto
      | _ => simp [same, withoutNumbers]
  | logical a o a' =>
      cases b with
      | logical b p b' =>
          simp only [same, withoutNumbers, numbers, Bool.and_eq_true, beq_iff_eq, logical.injEq,
            a.same_iff b, a'.same_iff b',
            and_forall₂_append_iff (length_eq_of_eq Expr.length_numbers)]
          tauto
      | _ => simp [same, withoutNumbers]
  | conditional a a' a'' =>
      cases b with
      | conditional b b' b'' =>
          simp only [same, withoutNumbers, numbers, Bool.and_eq_true, beq_iff_eq, conditional.injEq,
            a.same_iff b, a'.same_iff b', a''.same_iff b'',
            and_forall₂_append_iff (length_eq_of_eq Expr.length_numbers)]
          tauto
      | _ => simp [same, withoutNumbers]
  | unary o a =>
      cases b with
      | unary p b =>
          simp only [same, withoutNumbers, numbers, Bool.and_eq_true, beq_iff_eq, unary.injEq,
            a.same_iff b]
          tauto
      | _ => simp [same, withoutNumbers]
  | binary a o a' =>
      cases b with
      | binary b p b' =>
          simp only [same, withoutNumbers, numbers, Bool.and_eq_true, beq_iff_eq, binary.injEq,
            a.same_iff b, a'.same_iff b',
            and_forall₂_append_iff (length_eq_of_eq Expr.length_numbers)]
          tauto
      | _ => simp [same, withoutNumbers]
  | call a as =>
      cases b with
      | call b bs =>
          simp only [same, withoutNumbers, numbers, Bool.and_eq_true, beq_iff_eq, call.injEq,
            a.same_iff b, Expr.sameAll_iff as bs,
            and_forall₂_append_iff (length_eq_of_eq Expr.length_numbers)]
          tauto
      | _ => simp [same, withoutNumbers]

theorem Expr.sameAll_iff (as bs : List Expr) :
    Expr.sameAll as bs = true ↔
      Expr.withoutNumbersAll as = Expr.withoutNumbersAll bs ∧
        List.Forall₂ SameNumber (Expr.numbersAll as) (Expr.numbersAll bs) := by
  cases as with
  | nil => cases bs <;> simp [Expr.sameAll, Expr.withoutNumbersAll, Expr.numbersAll]
  | cons a as =>
      cases bs with
      | nil => simp [Expr.sameAll, Expr.withoutNumbersAll]
      | cons b bs =>
          simp only [Expr.sameAll, Expr.withoutNumbersAll, Expr.numbersAll, Bool.and_eq_true,
            List.cons.injEq, a.same_iff b, Expr.sameAll_iff as bs,
            and_forall₂_append_iff (length_eq_of_eq Expr.length_numbers)]

end

theorem Expr.sameOption_iff (a b : Option Expr) :
    Expr.sameOption a b = true ↔
      a.map Expr.withoutNumbers = b.map Expr.withoutNumbers ∧
        List.Forall₂ SameNumber (Expr.numbersOptional a) (Expr.numbersOptional b) := by
  cases a <;> cases b <;> simp [sameOption, numbersOptional, Expr.same_iff]

mutual

theorem Stmt.same_iff (a b : Stmt) :
    a.same b = true ↔
      a.withoutNumbers = b.withoutNumbers ∧ List.Forall₂ SameNumber a.numbers b.numbers := by
  cases a with
  | expr a =>
      cases b with
      | expr b =>
          simp only [same, withoutNumbers, numbers, Bool.and_eq_true, beq_iff_eq, expr.injEq,
            a.same_iff b]
          tauto
      | _ => simp [same, withoutNumbers]
  | print a =>
      cases b with
      | print b =>
          simp only [same, withoutNumbers, numbers, Bool.and_eq_true, beq_iff_eq, print.injEq,
            a.same_iff b]
          tauto
      | _ => simp [same, withoutNumbers]
  | declare x a =>
      cases b with
      | declare y b =>
          simp only [same, withoutNumbers, numbers, Bool.and_eq_true, beq_iff_eq, declare.injEq,
            Expr.sameOption_iff a b]
          tauto
      | _ => simp [same, withoutNumbers]
  | block as =>
      cases b with
      | block bs =>
          simp only [same, withoutNumbers, numbers, Bool.and_eq_true, beq_iff_eq, block.injEq,
            Stmt.sameAll_iff as bs]
          tauto
      | _ => simp [same, withoutNumbers]
  | ifElse c a a' =>
      cases b with
      | ifElse d b b' =>
          simp only [same, withoutNumbers, numbers, Bool.and_eq_true, beq_iff_eq, ifElse.injEq,
            c.same_iff d, a.same_iff b, Stmt.sameOption_iff a' b',
            and_forall₂_append_iff (length_eq_of_eq Expr.length_numbers),
            and_forall₂_append_iff (length_eq_of_eq Stmt.length_numbers)]
          tauto
      | _ => simp [same, withoutNumbers]
  | whileLoop c a =>
      cases b with
      | whileLoop d b =>
          simp only [same, withoutNumbers, numbers, Bool.and_eq_true, beq_iff_eq, whileLoop.injEq,
            c.same_iff d, a.same_iff b,
            and_forall₂_append_iff (length_eq_of_eq Expr.length_numbers)]
          tauto
      | _ => simp [same, withoutNumbers]
  | forLoop i c n a =>
      cases b with
      | forLoop j d m b =>
          simp only [same, withoutNumbers, numbers, Bool.and_eq_true, beq_iff_eq, forLoop.injEq,
            Stmt.sameOption_iff i j, Expr.sameOption_iff c d, Expr.sameOption_iff n m, a.same_iff b,
            and_forall₂_append_iff (length_eq_of_eq Stmt.length_numbersOptional),
            and_forall₂_append_iff (length_eq_of_eq Expr.length_numbersOptional)]
          tauto
      | _ => simp [same, withoutNumbers]
  | function f ps as =>
      cases b with
      | function g qs bs =>
          simp only [same, withoutNumbers, numbers, Bool.and_eq_true, beq_iff_eq, function.injEq,
            Stmt.sameAll_iff as bs]
          tauto
      | _ => simp [same, withoutNumbers]

theorem Stmt.sameAll_iff (as bs : List Stmt) :
    Stmt.sameAll as bs = true ↔
      Stmt.withoutNumbersAll as = Stmt.withoutNumbersAll bs ∧
        List.Forall₂ SameNumber (Stmt.numbersAll as) (Stmt.numbersAll bs) := by
  cases as with
  | nil => cases bs <;> simp [Stmt.sameAll, Stmt.withoutNumbersAll, Stmt.numbersAll]
  | cons a as =>
      cases bs with
      | nil => simp [Stmt.sameAll, Stmt.withoutNumbersAll]
      | cons b bs =>
          simp only [Stmt.sameAll, Stmt.withoutNumbersAll, Stmt.numbersAll, Bool.and_eq_true,
            List.cons.injEq, a.same_iff b, Stmt.sameAll_iff as bs,
            and_forall₂_append_iff (length_eq_of_eq Stmt.length_numbers)]

theorem Stmt.sameOption_iff (a b : Option Stmt) :
    Stmt.sameOption a b = true ↔
      Stmt.withoutNumbersOptional a = Stmt.withoutNumbersOptional b ∧
        List.Forall₂ SameNumber (Stmt.numbersOptional a) (Stmt.numbersOptional b) := by
  cases a with
  | none => cases b <;> simp [sameOption, withoutNumbersOptional, numbersOptional]
  | some a =>
      cases b with
      | none => simp [sameOption, withoutNumbersOptional]
      | some b =>
          simp [sameOption, withoutNumbersOptional, numbersOptional, a.same_iff b]

end

theorem Stmt.beq_list_iff (as bs : List Stmt) :
    (as == bs) = true ↔
      Stmt.withoutNumbersAll as = Stmt.withoutNumbersAll bs ∧
        List.Forall₂ SameNumber (Stmt.numbersAll as) (Stmt.numbersAll bs) := by
  rw [← Stmt.sameAll_iff]
  induction as generalizing bs with
  | nil => cases bs <;> simp [Stmt.sameAll]
  | cons a as ih =>
      cases bs with
      | nil => simp [Stmt.sameAll]
      | cons b bs =>
          rw [List.cons_beq_cons, Stmt.sameAll, Bool.and_eq_true, Bool.and_eq_true, ih]
          rfl

theorem forall₂_trans {n : List α} (hR : ∀ x y z, R x y → R y z → R x z)
    (h : List.Forall₂ R l m) (h' : List.Forall₂ R m n) : List.Forall₂ R l n := by
  induction h generalizing n with
  | nil => exact h'
  | cons hxy _ ih =>
      cases h' with
      | cons hyz h' => exact .cons (hR _ _ _ hxy hyz) (ih h')

theorem Stmt.beq_list_symm {as bs : List Stmt} (h : (as == bs) = true) : (bs == as) = true := by
  rw [Stmt.beq_list_iff] at h ⊢
  exact ⟨h.1.symm, .flip (h.2.imp fun _ _ => Binary64.Equals.symm)⟩

/-- Equality of lists of statements. Two of them are equal if they are the same but for their number
literals, and these, of which there are as many, are equal in their order: no one of them is not a
number, and they have the same value, whatever the signs of zeros. -/
theorem trees_are_equal_iff_same_up_to_equal_numbers (as bs cs : List Stmt) :
    (as == bs) = (bs == as) ∧
      ((as == bs) = true → (bs == cs) = true → (as == cs) = true) ∧
      ((as == bs) = true ↔
        Stmt.withoutNumbersAll as = Stmt.withoutNumbersAll bs ∧
          List.Forall₂ SameNumber (Stmt.numbersAll as) (Stmt.numbersAll bs)) ∧
      ((as == as) = true ↔
        ∀ x ∈ Stmt.numbersAll as, Binary64.ofBits x.toBits ≠ .notANumber) := by
  refine ⟨Bool.eq_iff_iff.mpr ⟨Stmt.beq_list_symm, Stmt.beq_list_symm⟩, fun hab hbc => ?_,
    Stmt.beq_list_iff as bs, ?_⟩
  · rw [Stmt.beq_list_iff] at hab hbc ⊢
    exact ⟨hab.1.trans hbc.1, forall₂_trans (fun _ _ _ => Binary64.Equals.trans) hab.2 hbc.2⟩
  · rw [Stmt.beq_list_iff, and_iff_right rfl, List.forall₂_same]
    exact forall₂_congr fun _ _ => Binary64.equals_self_iff

def printing (x : Float) : List Stmt :=
  let s : Span := ⟨⟨1, 1⟩, ⟨1, 9⟩⟩
  [.function ⟨"f", s⟩ [] [.print (.literal (.number x) s) s] s s]

theorem trees_are_equal_iff_same_up_to_equal_numbers_zeros :
    (printing 0 == printing (-0)) = true ∧ (printing (-0) == printing 0) = true ∧
      (printing 0 == printing 0) = true := by
  have h : (printing 0 == printing (-0)) = true := by decide
  have h' : (printing (-0) == printing 0) = true := by decide
  have heq := trees_are_equal_iff_same_up_to_equal_numbers (printing 0) (printing (-0)) (printing 0)
  exact ⟨h, h', heq.2.1 h h'⟩

end Scriptlet
