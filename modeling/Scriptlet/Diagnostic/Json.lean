import Scriptlet.Diagnostic.Basic
import Scriptlet.Json.Reader
import Scriptlet.Json.Tame
import Scriptlet.Json.Writer

namespace Scriptlet

def Json.word16? (j : Json) : Option UInt16 :=
  (j.natBelow? UInt16.size).map Nat.toUInt16

def Json.word32? (j : Json) : Option UInt32 :=
  (j.natBelow? UInt32.size).map Nat.toUInt32

namespace Span

def jsonMembers (s : Span) : List (Option String × Json) :=
  [(some "line", .nat s.start.line.toNat), (some "column", .nat s.start.column.toNat),
   (some "end_line", .nat s.stop.line.toNat), (some "end_column", .nat s.stop.column.toNat)]

def toJson (s : Span) : Json :=
  .object s.jsonMembers

def ofMembers? (ms : List (Option String × Json)) : Option Span := do
  let line ← (Json.sole? "line" ms).bind Json.word32?
  let column ← (Json.sole? "column" ms).bind Json.word32?
  let endLine ← (Json.sole? "end_line" ms).bind Json.word32?
  let endColumn ← (Json.sole? "end_column" ms).bind Json.word32?
  return ⟨⟨line, column⟩, ⟨endLine, endColumn⟩⟩

/-- A span is an object with its four fields, where other members are passed over, or the list of
the four. -/
def ofJson? : Json → Option Span
  | .object ms => if ms.all (·.1.isSome) then ofMembers? ms else none
  | .array [a, b, c, d] => do
    return ⟨⟨← a.word32?, ← b.word32?⟩, ⟨← c.word32?, ← d.word32?⟩⟩
  | _ => none

end Span

namespace ErrorCode

def toJson (c : ErrorCode) : Json :=
  .nat c.number.toNat

def ofJson? (j : Json) : Option ErrorCode :=
  j.word16?.map ErrorCode.mk

end ErrorCode

namespace Category

def toJson (c : Category) : Json :=
  .text c.text

/-- A category is its name, or an object whose one key is the name and whose value is null. -/
def ofJson? : Json → Option Category
  | .string (some s) => ofText? s
  | .object [(some s, .null)] => ofText? s
  | _ => none

end Category

namespace Diagnostic

def toJson (d : Diagnostic) : Json :=
  .object <|
    [(some "file", .text d.file), (some "code", d.code.toJson),
     (some "category", d.category.toJson), (some "message", .text d.message)] ++
    d.span.jsonMembers ++ [(some "source_line", .text d.sourceLine)]

def maxNesting : Nat := 127

/-- A diagnostic is an object with its nine fields. The category is taken as it stands, whatever the
code; other members are passed over, but they have to be data that can be kept. -/
def ofJson? : Json → Option Diagnostic
  | .object ms =>
    if (Json.object ms).isTame maxNesting then do
      let file ← (Json.sole? "file" ms).bind Json.text?
      let code ← (Json.sole? "code" ms).bind ErrorCode.ofJson?
      let category ← (Json.sole? "category" ms).bind Category.ofJson?
      let message ← (Json.sole? "message" ms).bind Json.text?
      let span ← Span.ofMembers? ms
      let sourceLine ← (Json.sole? "source_line" ms).bind Json.text?
      return { file, code, category, message, span, sourceLine }
    else none
  | _ => none

def parse? (s : String) : Option Diagnostic :=
  (Json.parse? s).bind ofJson?

end Diagnostic

end Scriptlet
