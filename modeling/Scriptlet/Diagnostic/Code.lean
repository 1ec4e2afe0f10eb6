namespace Scriptlet

inductive Category where
  | scope
  | type
  | arithmetic
  | call
  | internal
  deriving DecidableEq

namespace Category

def text : Category → String
  | .scope => "scope"
  | .type => "type"
  | .arithmetic => "arithmetic"
  | .call => "call"
  | .internal => "internal"

def ofText? : String → Option Category
  | "scope" => some .scope
  | "type" => some .type
  | "arithmetic" => some .arithmetic
  | "call" => some .call
  | "internal" => some .internal
  | _ => none

@[simp] theorem ofText?_text (c : Category) : ofText? c.text = some c := by
  cases c <;> rfl

end Category

structure ErrorCode where
  number : UInt16
  deriving DecidableEq

namespace ErrorCode

def undefinedVariable : ErrorCode := ⟨700⟩

def typeMismatch : ErrorCode := ⟨720⟩

def notCallable : ErrorCode := ⟨721⟩

def divisionByZero : ErrorCode := ⟨740⟩

def arityMismatch : ErrorCode := ⟨760⟩

def stackOverflow : ErrorCode := ⟨761⟩

def nativeFailure : ErrorCode := ⟨762⟩

def unsupported : ErrorCode := ⟨780⟩

/-- Codes come in bands of twenty from 700 on; outside the four named bands the fault is the
interpreter's own. -/
def category (c : ErrorCode) : Category :=
  let n := c.number
  if n < 700 then .internal
  else if n < 720 then .scope
  else if n < 740 then .type
  else if n < 760 then .arithmetic
  else if n < 780 then .call
  else .internal

def text (c : ErrorCode) : String :=
  s!"E{c.number}"

instance : Ord ErrorCode := ⟨fun a b => compare a.number b.number⟩

end ErrorCode

end Scriptlet
