import Scriptlet.Diagnostic.Basic

namespace Scriptlet

inductive Fault where
  | undefinedVariable (name : String)
  | typeMismatch (message : String)
  | notCallable
  | divisionByZero
  | arityMismatch (expected found : Nat)
  | stackOverflow (limit : UInt64)
  | nativeFailure (name message : String)
  | unsupported (construct : String)
  deriving DecidableEq

namespace Fault

def message : Fault → String
  | .undefinedVariable name => s!"Undefined variable '{name}'."
  | .typeMismatch message => message
  | .notCallable => "Can only call functions."
  | .divisionByZero => "Cannot divide by zero."
  | .arityMismatch expected found => s!"Expected {expected} arguments but got {found}."
  | .stackOverflow limit => s!"Stack overflow: call depth exceeded {limit}."
  | .nativeFailure name message => s!"{name}: {message}"
  | .unsupported construct => s!"{construct} are not interpreted."

def code : Fault → ErrorCode
  | .undefinedVariable _ => .undefinedVariable
  | .typeMismatch _ => .typeMismatch
  | .notCallable => .notCallable
  | .divisionByZero => .divisionByZero
  | .arityMismatch _ _ => .arityMismatch
  | .stackOverflow _ => .stackOverflow
  | .nativeFailure _ _ => .nativeFailure
  | .unsupported _ => .unsupported

end Fault

structure EvalError where
  fault : Fault
  span : Span
  deriving DecidableEq

namespace EvalError

def message (e : EvalError) : String :=
  e.fault.message

def code (e : EvalError) : ErrorCode :=
  e.fault.code

/-- The diagnostic of an error. Without a source the file is the anonymous input. -/
def toDiagnostic (e : EvalError) (source : Option Source) : Diagnostic :=
  let d := Diagnostic.ofCode "<input>" e.code e.message e.span
  source.elim d d.withSource

end EvalError

end Scriptlet
