import Scriptlet.Eval

namespace Scriptlet

/-- A program run as a host sees it. The current scope starts out as the global one and moves on
with every declaration at the top level, from one run to the next. -/
structure Interpreter (σ : Type) where
  machine : Machine σ
  globals : ScopeId
  environment : ScopeId
  source : Option Source := none

namespace Interpreter

variable {σ ρ α : Type}

def new (sink : σ) (config : Config := {}) (source : Option Source := none) : Interpreter σ :=
  let (globals, store) := Store.global {}
  { machine := { sink, store, config }, globals, environment := globals, source }

def atTop (x : Step (Cursor σ) α) : Step (Interpreter σ) α :=
  fun i =>
    let r := x ⟨i.environment, i.machine⟩
    (r.1, { i with machine := r.2.machine, environment := r.2.scope })

def defineNative (i : Interpreter σ) (name : String) (arity : Nat) (body : NativeBody) :
    Interpreter σ :=
  let r := i.machine.store.addNative name arity body
  { i with machine := { i.machine with store := r.2.bind i.globals name (.callable r.1) } }

variable [Sink σ]

def run (fuel : Nat) (program : List Stmt) : Step (Interpreter σ) Value :=
  atTop (execBlock fuel program)

def evaluate (fuel : Nat) (e : Expr) : Step (Interpreter σ) Value :=
  atTop (Cursor.here (evalExpr fuel e))

/-- Runs statements and reports the error that stops them. The answer is whether all of them ran. -/
def interpret [Reporter ρ] (fuel : Nat) (program : List Stmt) : Step (ρ × Interpreter σ) Bool
  | (reporter, i) =>
    match run fuel program i with
    | (.ok _, i) => (.ok true, reporter, i)
    | (.error e, i) => (.ok false, Reporter.report e i.source reporter, i)
    | (.outOfFuel, i) => (.outOfFuel, reporter, i)

end Interpreter

end Scriptlet
