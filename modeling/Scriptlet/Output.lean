import Scriptlet.EvalError

namespace Scriptlet

class Sink (σ : Type) where
  println : String → σ → σ

structure Buffer where
  lines : Array String := #[]

namespace Buffer

def println (line : String) (b : Buffer) : Buffer :=
  ⟨b.lines.push line⟩

instance : Sink Buffer := ⟨println⟩

def clear (_ : Buffer) : Buffer :=
  {}

def text (b : Buffer) : String :=
  String.join (b.lines.toList.map (· ++ "\n"))

end Buffer

/-- A growing text, as a terminal receives it. -/
structure Transcript where
  text : String := ""

namespace Transcript

def println (line : String) (t : Transcript) : Transcript :=
  ⟨t.text ++ line ++ "\n"⟩

instance : Sink Transcript := ⟨println⟩

end Transcript

class Reporter (ρ : Type) where
  report : EvalError → Option Source → ρ → ρ

structure DiagnosticLog where
  diagnostics : Array Diagnostic := #[]

namespace DiagnosticLog

def report (e : EvalError) (source : Option Source) (log : DiagnosticLog) : DiagnosticLog :=
  ⟨log.diagnostics.push (e.toDiagnostic source)⟩

instance : Reporter DiagnosticLog := ⟨report⟩

def hasErrors (log : DiagnosticLog) : Bool :=
  !log.diagnostics.isEmpty

end DiagnosticLog

instance : Reporter Transcript :=
  ⟨fun e source t => t.println (e.toDiagnostic source).text⟩

end Scriptlet
