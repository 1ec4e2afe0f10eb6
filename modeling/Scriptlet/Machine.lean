import Scriptlet.Config
import Scriptlet.Output
import Scriptlet.Step
import Scriptlet.Store

namespace Scriptlet

/-- The state every evaluation works on: the store, the sink for printed lines, and the number of
program functions whose bodies are active. -/
structure Machine (σ : Type) where
  sink : σ
  store : Store := {}
  config : Config := {}
  callDepth : UInt64 := 0

structure Cursor (σ : Type) where
  scope : ScopeId
  machine : Machine σ

variable {σ α : Type}

namespace Machine

def onStore (f : Store → α × Store) : Step (Machine σ) α :=
  fun m =>
    let r := f m.store
    (.ok r.1, { m with store := r.2 })

def println [Sink σ] (line : String) : Step (Machine σ) Unit :=
  fun m => (.ok (), { m with sink := Sink.println line m.sink })

def read (scope : ScopeId) (x : Ident) : Step (Machine σ) Value :=
  fun m =>
    match m.store.get? scope x.name with
    | some v => (.ok v, m)
    | none => Step.fail (.undefinedVariable x.name) x.span m

def write (scope : ScopeId) (x : Ident) (v : Value) : Step (Machine σ) Unit :=
  fun m =>
    match m.store.resolve scope x.name with
    | some c => (.ok (), { m with store := m.store.set c v })
    | none => Step.fail (.undefinedVariable x.name) x.span m

def invoke (id : NativeId) (name : String) (args : List Value) (paren : Span) :
    Step (Machine σ) Value :=
  fun m =>
    Step.blame paren ((m.store.nativeBody id args).mapError (Fault.nativeFailure name)) m

def checkDepth (paren : Span) : Step (Machine σ) Unit :=
  fun m =>
    if m.callDepth < m.config.maxCallDepth then (.ok (), m)
    else Step.fail (.stackOverflow m.config.maxCallDepth) paren m

/-- Counts one more active body while `x` runs. -/
def nested (x : Step (Machine σ) α) : Step (Machine σ) α :=
  fun m =>
    let r := x { m with callDepth := m.callDepth + 1 }
    (r.1, { r.2 with callDepth := r.2.callDepth - 1 })

/-- Runs statements from a given scope; where they end up is forgotten. -/
def within (scope : ScopeId) (x : Step (Cursor σ) α) : Step (Machine σ) α :=
  fun m =>
    let r := x ⟨scope, m⟩
    (r.1, r.2.machine)

end Machine

namespace Cursor

def here (f : ScopeId → Step (Machine σ) α) : Step (Cursor σ) α :=
  fun c =>
    let r := f c.scope c.machine
    (r.1, { c with machine := r.2 })

/-- Declares a variable in the current scope and moves on to the scope that takes over from it. -/
def declare (name : String) (v : Value) : Step (Cursor σ) Value :=
  fun c =>
    let r := c.machine.store.define c.scope name v
    (.ok v, ⟨r.1, { c.machine with store := r.2 }⟩)

end Cursor

end Scriptlet
