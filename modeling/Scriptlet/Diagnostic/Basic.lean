import Scriptlet.Diagnostic.Code
import Scriptlet.Source
import Scriptlet.Text.Blank

namespace Scriptlet

/-- A failure made ready for a reader. The source line is empty when there is no text to quote. -/
structure Diagnostic where
  file : String
  code : ErrorCode
  category : Category
  message : String
  span : Span
  sourceLine : String
  deriving DecidableEq

namespace Diagnostic

def ofCode (file : String) (code : ErrorCode) (message : String) (span : Span) : Diagnostic :=
  { file, code, category := code.category, message, span, sourceLine := "" }

def withSource (d : Diagnostic) (source : Source) : Diagnostic :=
  { d with
    file := source.name
    sourceLine := (source.line? d.span.start.line).getD "" }

def text (d : Diagnostic) : String :=
  let headline := s!"{d.span.text} {d.code.text} [{d.category.text}] {d.message}"
  if d.sourceLine = "" then headline else headline ++ "\n    " ++ Text.trim d.sourceLine

end Diagnostic

end Scriptlet
