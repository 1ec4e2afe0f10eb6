import Scriptlet.Proofs.Computation
import Scriptlet.Proofs.StoreExtension

namespace Scriptlet

variable {σ α : Type}

namespace Machine

structure Grows (m m' : Machine σ) : Prop where
  store : m.store.Extends m'.store
  config : m'.config = m.config
  callDepth : m'.callDepth = m.callDepth

namespace Grows

theorem refl (m : Machine σ) : m.Grows m :=
  ⟨.refl _, rfl, rfl⟩

theorem trans (m m' m'' : Machine σ) (h : m.Grows m') (k : m'.Grows m'') : m.Grows m'' :=
  ⟨h.store.trans k.store, k.config.trans h.config, k.callDepth.trans h.callDepth⟩

end Grows

open Step

theorem read_grows (scope : ScopeId) (x : Ident) :
    Preserves Grows (read scope x : Step (Machine σ) Value) := by
  intro m
  unfold read
  cases m.store.get? scope x.name with
  | none => exact .refl m
  | some v => exact .refl m

theorem write_grows (scope : ScopeId) (x : Ident) (v : Value) :
    Preserves Grows (write scope x v : Step (Machine σ) Unit) := by
  intro m
  unfold write
  cases m.store.resolve scope x.name with
  | none => exact .refl m
  | some c => exact ⟨m.store.extends_set c v, rfl, rfl⟩

theorem println_grows [Sink σ] (line : String) :
    Preserves Grows (println line : Step (Machine σ) Unit) :=
  fun _ => ⟨.refl _, rfl, rfl⟩

theorem invoke_grows (id : NativeId) (name : String) (args : List Value) (paren : Span) :
    Preserves Grows (invoke id name args paren : Step (Machine σ) Value) :=
  fun m => Preserves.blame Grows.refl paren _ m

theorem checkDepth_grows (paren : Span) :
    Preserves Grows (checkDepth paren : Step (Machine σ) Unit) := by
  intro m
  unfold checkDepth
  split
  · exact .refl m
  · exact .refl m

theorem onStore_grows {f : Store → α × Store} (h : ∀ s : Store, s.Extends (f s).2) :
    Preserves Grows (onStore f : Step (Machine σ) α) :=
  fun m => ⟨h m.store, rfl, rfl⟩

end Machine

end Scriptlet
