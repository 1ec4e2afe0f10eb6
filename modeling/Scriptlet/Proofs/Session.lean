import Scriptlet.Interpreter
import Scriptlet.Proofs.StoreExtension

namespace Scriptlet

structure HostFunction where
  name : String
  arity : Nat
  body : NativeBody

variable {σ ρ α : Type}

def Step.second (x : Step σ α) : Step (ρ × σ) α :=
  fun s =>
    let r := x s.2
    (r.1, s.1, r.2)

namespace Interpreter

def equip (i : Interpreter σ) (natives : List HostFunction) : Interpreter σ :=
  natives.foldl (fun i f => i.defineNative f.name f.arity f.body) i

/-- The current scope is one of the store, and every listed variable has its cell. -/
structure Sound (i : Interpreter σ) : Prop where
  environment : i.environment < i.machine.store.scopes.size
  backed : i.machine.store.Backed

theorem sound_new (sink : σ) (config : Config) (source : Option Source) :
    (new sink config source).Sound where
  environment := by simp [new, Store.global]
  backed := by
    refine Store.Backed.addScope ?_ (fun _ hb => absurd hb List.not_mem_nil) none
    intro i b hb
    simp [Store.bindings] at hb

theorem Sound.defineNative {i : Interpreter σ} (h : i.Sound) (name : String) (arity : Nat)
    (body : NativeBody) : (i.defineNative name arity body).Sound where
  environment := by simpa [Interpreter.defineNative, Store.addNative] using h.environment
  backed := Store.Backed.bind (fun j b hb => h.backed j b hb) i.globals name _

theorem Sound.equip {i : Interpreter σ} (h : i.Sound) (natives : List HostFunction) :
    (i.equip natives).Sound := by
  induction natives generalizing i with
  | nil => exact h
  | cons f natives ih => exact ih (h.defineNative f.name f.arity f.body)

theorem snd_snd_interpret [Sink σ] [Reporter ρ] (fuel : Nat) (program : List Stmt)
    (s : ρ × Interpreter σ) :
    (interpret fuel program s).2.2 = (run fuel program s.2).2 := by
  obtain ⟨reporter, i⟩ := s
  simp only [interpret]
  obtain ⟨o, j⟩ := run fuel program i
  cases o <;> rfl

end Interpreter

/-- What a host sees after a run: how it ended, what has been printed and which names are declared
at the top level. -/
structure Sight (σ : Type) where
  outcome : Outcome Value
  sink : σ
  names : List String

def Interpreter.runs [Sink σ] (fuel : Nat) : List (List Stmt) → Interpreter σ → List (Sight σ)
  | [], _ => []
  | program :: programs, i =>
    let r := run fuel program i
    ⟨r.1, r.2.machine.sink, r.2.machine.store.localNames r.2.environment⟩ ::
      runs fuel programs r.2

inductive Request where
  | run (program : List Stmt)
  | interpret (program : List Stmt)
  | evaluate (e : Expr)
  | provide (f : HostFunction)
  /-- The host makes a function that works in a scope it holds. No program knows of it yet. -/
  | function (d : Declaration) (scope : ScopeId)
  | native (f : HostFunction)
  | rebind (id : FunctionId) (scope : ScopeId)

inductive Answer where
  | value (v : Value)
  | finished (all : Bool)
  | done

def Request.perform [Sink σ] [Reporter ρ] (fuel : Nat) :
    Request → Step (ρ × Interpreter σ) Answer
  | .run program => Answer.value <$> Step.second (Interpreter.run fuel program)
  | .interpret program => Answer.finished <$> Interpreter.interpret fuel program
  | .evaluate e => Answer.value <$> Step.second (Interpreter.evaluate fuel e)
  | .provide f => Step.second fun i => (.ok .done, i.defineNative f.name f.arity f.body)
  | .function d scope => Step.second fun i =>
    let r := i.machine.store.addFunction d scope
    (.ok (.value (.callable r.1)), { i with machine.store := r.2 })
  | .native f => Step.second fun i =>
    let r := i.machine.store.addNative f.name f.arity f.body
    (.ok (.value (.callable r.1)), { i with machine.store := r.2 })
  | .rebind id scope => Step.second fun i =>
    (.ok .done, { i with machine.store := i.machine.store.rebind id scope })

/-- Answers requests one after the other, whether or not they fail. -/
def session [Sink σ] [Reporter ρ] (fuel : Nat) :
    List Request → ρ × Interpreter σ → List (Outcome Answer)
  | [], _ => []
  | request :: requests, s =>
    let r := request.perform fuel s
    r.1 :: session fuel requests r.2

def sessionState [Sink σ] [Reporter ρ] (fuel : Nat) (requests : List Request)
    (s : ρ × Interpreter σ) : ρ × Interpreter σ :=
  requests.foldl (fun s request => (request.perform fuel s).2) s

end Scriptlet
