import Scriptlet.Span

namespace Scriptlet

structure Ident where
  name : String
  span : Span
  deriving DecidableEq

/-- An operator together with the place of its token, which is where its errors point. -/
structure Located (α : Type) where
  node : α
  span : Span
  deriving DecidableEq

inductive Literal where
  | number (x : Float)
  | string (s : String)
  | bool (b : Bool)
  | nil

inductive UnaryOp where
  | neg
  | not
  deriving DecidableEq

inductive LogicalOp where
  | and
  | or
  deriving DecidableEq

inductive BinaryOp where
  | add
  | sub
  | mul
  | div
  | greater
  | greaterEq
  | less
  | lessEq
  | eq
  | notEq
  | comma
  deriving DecidableEq

def BinaryOp.symbol : BinaryOp → String
  | .add => "+"
  | .sub => "-"
  | .mul => "*"
  | .div => "/"
  | .greater => ">"
  | .greaterEq => ">="
  | .less => "<"
  | .lessEq => "<="
  | .eq => "=="
  | .notEq => "!="
  | .comma => ","

/-- Expressions. The last field of every node is the span of the whole node; in a call, `paren` is
the place of the closing parenthesis. -/
inductive Expr where
  | literal (value : Literal) (span : Span)
  | grouping (inner : Expr) (span : Span)
  | var (name : Ident) (span : Span)
  | assign (name : Ident) (value : Expr) (span : Span)
  | logical (left : Expr) (op : Located LogicalOp) (right : Expr) (span : Span)
  | conditional (condition thenBranch elseBranch : Expr) (span : Span)
  | unary (op : Located UnaryOp) (operand : Expr) (span : Span)
  | binary (left : Expr) (op : Located BinaryOp) (right : Expr) (span : Span)
  | call (callee : Expr) (args : List Expr) (paren : Span) (span : Span)

/-- Statements. The last field of every node is the span of the whole node; a function keeps the
span of its declaration beside it. -/
inductive Stmt where
  | expr (e : Expr) (span : Span)
  | print (e : Expr) (span : Span)
  | declare (name : Ident) (initial : Option Expr) (span : Span)
  | block (body : List Stmt) (span : Span)
  | ifElse (condition : Expr) (thenBranch : Stmt) (elseBranch : Option Stmt) (span : Span)
  | whileLoop (condition : Expr) (body : Stmt) (span : Span)
  | forLoop (initial : Option Stmt) (condition increment : Option Expr) (body : Stmt) (span : Span)
  | function (name : Ident) (params : List Ident) (body : List Stmt) (declSpan : Span) (span : Span)

def Expr.span : Expr → Span
  | .literal _ s | .grouping _ s | .var _ s | .assign _ _ s | .logical _ _ _ s
  | .conditional _ _ _ s | .unary _ _ s | .binary _ _ _ s | .call _ _ _ s => s

def Stmt.span : Stmt → Span
  | .expr _ s | .print _ s | .declare _ _ s | .block _ s | .ifElse _ _ _ s | .whileLoop _ _ s
  | .forLoop _ _ _ _ s | .function _ _ _ _ s => s

structure Declaration where
  name : Ident
  params : List Ident
  body : List Stmt
  span : Span

end Scriptlet
