import Scriptlet.Text.Quoted
import Scriptlet.Value

namespace Scriptlet

abbrev ScopeId := Nat

abbrev CellId := Nat

structure Scope where
  bindings : List (String × CellId) := []
  parent : Option ScopeId := none
  deriving DecidableEq

abbrev NativeBody := List Value → Except String Value

/-- All scopes, variables and functions of a run. Nothing in it is ever freed or moved, so a number
handed out once keeps its meaning. A scope lists its variables, the most recent first, by the cells
that hold their values; the same cell can stand in the lists of many scopes. -/
structure Store where
  scopes : Array Scope := #[]
  cells : Array Value := #[]
  captured : Array ScopeId := #[]
  natives : Array NativeBody := #[]

namespace Store

def bindings (s : Store) (i : ScopeId) : List (String × CellId) :=
  s.scopes[i]?.elim [] Scope.bindings

/-- The enclosing scope. It is always older than the scope itself. -/
def parent? (s : Store) (i : ScopeId) : Option ScopeId :=
  (s.scopes[i]?.bind Scope.parent).filter (· < i)

theorem lt_of_parent?_eq_some {s : Store} {i p : ScopeId} (h : s.parent? i = some p) : p < i := by
  simpa using (Option.filter_eq_some_iff.mp h).2

def chain (s : Store) (i : ScopeId) : List ScopeId :=
  i :: match h : s.parent? i with
    | some p => s.chain p
    | none => []
termination_by i
decreasing_by exact lt_of_parent?_eq_some h

def depth (s : Store) (i : ScopeId) : Nat :=
  (s.chain i).length

def localNames (s : Store) (i : ScopeId) : List String :=
  (s.bindings i).map Prod.fst

/-- The cell a name denotes in a scope: its most recent binding in the innermost scope that has
one. -/
def resolve (s : Store) (i : ScopeId) (name : String) : Option CellId :=
  match (s.bindings i).lookup name with
  | some c => some c
  | none =>
    match h : s.parent? i with
    | some p => s.resolve p name
    | none => none
termination_by i
decreasing_by exact lt_of_parent?_eq_some h

def contains (s : Store) (i : ScopeId) (name : String) : Bool :=
  (s.resolve i name).isSome

def get? (s : Store) (i : ScopeId) (name : String) : Option Value :=
  (s.resolve i name).bind fun c => s.cells[c]?

def set (s : Store) (c : CellId) (v : Value) : Store :=
  { s with cells := s.cells.setIfInBounds c v }

def addScope (s : Store) (bindings : List (String × CellId)) (parent : Option ScopeId) :
    ScopeId × Store :=
  (s.scopes.size, { s with scopes := s.scopes.push ⟨bindings, parent⟩ })

def global (s : Store) : ScopeId × Store :=
  s.addScope [] none

def child (s : Store) (i : ScopeId) : ScopeId × Store :=
  s.addScope [] (some i)

/-- Puts a new variable in front of a scope's list, where everyone who holds the scope sees it. -/
def bind (s : Store) (i : ScopeId) (name : String) (v : Value) : Store :=
  let cell := s.cells.size
  { s with
    cells := s.cells.push v
    scopes := s.scopes.modify i fun scope =>
      { scope with bindings := (name, cell) :: scope.bindings } }

/-- Declares a variable. The scope that takes over as the current one starts from the same list and
is enclosed by the old one, so what is declared later stays unseen by those who hold the old one. -/
def define (s : Store) (i : ScopeId) (name : String) (v : Value) : ScopeId × Store :=
  let s := s.bind i name v
  s.addScope (s.bindings i) (some i)

def frame (s : Store) (i : ScopeId) (params : List Ident) (args : List Value) : ScopeId × Store :=
  let (scope, s) := s.child i
  (scope, (params.zip args).foldl (fun s (p, v) => s.bind scope p.name v) s)

def describe (s : Store) (i : ScopeId) : String :=
  let names := ", ".intercalate ((s.localNames i).map Text.quoted)
  s!"Environment \x7b locals: [{names}], depth: {s.depth i} \x7d"

def addFunction (s : Store) (declaration : Declaration) (scope : ScopeId) : Callable × Store :=
  (.function s.captured.size declaration, { s with captured := s.captured.push scope })

def capturedScope (s : Store) (id : FunctionId) : ScopeId :=
  s.captured.getD id 0

def rebind (s : Store) (id : FunctionId) (scope : ScopeId) : Store :=
  { s with captured := s.captured.setIfInBounds id scope }

def addNative (s : Store) (name : String) (arity : Nat) (body : NativeBody) : Callable × Store :=
  (.native s.natives.size name arity, { s with natives := s.natives.push body })

def nativeBody (s : Store) (id : NativeId) : NativeBody :=
  s.natives.getD id fun _ => .ok .nil

end Store

end Scriptlet
