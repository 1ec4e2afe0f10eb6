import Scriptlet.Syntax.Basic

namespace Scriptlet.Node

def literal (value : Literal) (span : Span) : Expr :=
  .literal value span

def grouping (inner : Expr) (span : Span) : Expr :=
  .grouping inner span

def var (name : Ident) : Expr :=
  .var name name.span

def assign (name : Ident) (value : Expr) : Expr :=
  .assign name value (name.span.hull value.span)

def logical (left : Expr) (op : Located LogicalOp) (right : Expr) : Expr :=
  .logical left op right (left.span.hull right.span)

def conditional (condition thenBranch elseBranch : Expr) : Expr :=
  .conditional condition thenBranch elseBranch (condition.span.hull elseBranch.span)

def unary (op : Located UnaryOp) (operand : Expr) : Expr :=
  .unary op operand (op.span.hull operand.span)

def binary (left : Expr) (op : Located BinaryOp) (right : Expr) : Expr :=
  .binary left op right (left.span.hull right.span)

def call (callee : Expr) (args : List Expr) (paren : Span) : Expr :=
  .call callee args paren (callee.span.hull paren)

def expr (e : Expr) : Stmt :=
  .expr e e.span

/-- `keyword` is the place of the word that introduces the statement. -/
def print (e : Expr) (keyword : Span) : Stmt :=
  .print e (keyword.hull e.span)

def declare (name : Ident) (initial : Option Expr) : Stmt :=
  .declare name initial (initial.elim name.span fun e => name.span.hull e.span)

def block (body : List Stmt) (span : Span) : Stmt :=
  .block body span

def ifElse (condition : Expr) (thenBranch : Stmt) (elseBranch : Option Stmt) : Stmt :=
  .ifElse condition thenBranch elseBranch
    (condition.span.hull (elseBranch.elim thenBranch.span Stmt.span))

def whileLoop (condition : Expr) (body : Stmt) : Stmt :=
  .whileLoop condition body (condition.span.hull body.span)

def forLoop (initial : Option Stmt) (condition increment : Option Expr) (body : Stmt)
    (span : Span) : Stmt :=
  .forLoop initial condition increment body span

def function (name : Ident) (params : List Ident) (body : List Stmt) (span : Span) : Stmt :=
  .function name params body span span

end Scriptlet.Node
