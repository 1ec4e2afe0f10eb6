import Scriptlet.Json.Reader

namespace Scriptlet

structure Config where
  maxCallDepth : UInt64 := 200
  deriving DecidableEq

namespace Config

def ofLimit? (j : Json) : Option Config :=
  (j.natBelow? UInt64.size).map fun n => ⟨n.toUInt64⟩

/-- A configuration is an object with at most its one field, or the list of its fields; what is
absent has its default. -/
def ofJson? : Json → Option Config
  | .object [] => some {}
  | .object [(key, j)] => if key = some "max_call_depth" then ofLimit? j else none
  | .array [] => some {}
  | .array [j] => ofLimit? j
  | _ => none

def parse? (s : String) : Option Config :=
  (Json.parse? s).bind ofJson?

end Config

end Scriptlet
