import Scriptlet.Syntax.Basic

namespace Scriptlet

namespace Literal

def same : Literal → Literal → Bool
  | .number x, .number y => x == y
  | .string s, .string t => s == t
  | .bool b, .bool c => b == c
  | .nil, .nil => true
  | _, _ => false

instance : BEq Literal := ⟨same⟩

end Literal

mutual

def Expr.same : Expr → Expr → Bool
  | .literal a s, .literal b t => a == b && s == t
  | .grouping a s, .grouping b t => a.same b && s == t
  | .var a s, .var b t => a == b && s == t
  | .assign x a s, .assign y b t => x == y && a.same b && s == t
  | .logical a o a' s, .logical b p b' t => a.same b && o == p && a'.same b' && s == t
  | .conditional a a' a'' s, .conditional b b' b'' t =>
    a.same b && a'.same b' && a''.same b'' && s == t
  | .unary o a s, .unary p b t => o == p && a.same b && s == t
  | .binary a o a' s, .binary b p b' t => a.same b && o == p && a'.same b' && s == t
  | .call a as p s, .call b bs q t => a.same b && Expr.sameAll as bs && p == q && s == t
  | _, _ => false

def Expr.sameAll : List Expr → List Expr → Bool
  | [], [] => true
  | a :: as, b :: bs => a.same b && Expr.sameAll as bs
  | _, _ => false

end

instance : BEq Expr := ⟨Expr.same⟩

def Expr.sameOption : Option Expr → Option Expr → Bool
  | none, none => true
  | some a, some b => a.same b
  | _, _ => false

mutual

def Stmt.same : Stmt → Stmt → Bool
  | .expr a s, .expr b t => a.same b && s == t
  | .print a s, .print b t => a.same b && s == t
  | .declare x a s, .declare y b t => x == y && Expr.sameOption a b && s == t
  | .block as s, .block bs t => Stmt.sameAll as bs && s == t
  | .ifElse c a a' s, .ifElse d b b' t =>
    c.same d && a.same b && Stmt.sameOption a' b' && s == t
  | .whileLoop c a s, .whileLoop d b t => c.same d && a.same b && s == t
  | .forLoop i c n a s, .forLoop j d m b t =>
    Stmt.sameOption i j && Expr.sameOption c d && Expr.sameOption n m && a.same b && s == t
  | .function f ps as r s, .function g qs bs r' t =>
    f == g && ps == qs && Stmt.sameAll as bs && r == r' && s == t
  | _, _ => false

def Stmt.sameOption : Option Stmt → Option Stmt → Bool
  | none, none => true
  | some a, some b => a.same b
  | _, _ => false

def Stmt.sameAll : List Stmt → List Stmt → Bool
  | [], [] => true
  | a :: as, b :: bs => a.same b && Stmt.sameAll as bs
  | _, _ => false

end

instance : BEq Stmt := ⟨Stmt.same⟩

end Scriptlet
