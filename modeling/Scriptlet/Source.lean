import Scriptlet.Span

namespace Scriptlet

namespace Bytes

def length (cs : List Char) : Nat :=
  cs.foldr (fun c n => c.utf8Size + n) 0

def drop? : Nat → List Char → Option (List Char)
  | 0, cs => some cs
  | _ + 1, [] => none
  | n + 1, c :: cs => if c.utf8Size ≤ n + 1 then drop? (n + 1 - c.utf8Size) cs else none

def take? : Nat → List Char → Option (List Char)
  | 0, _ => some []
  | _ + 1, [] => none
  | n + 1, c :: cs =>
    if c.utf8Size ≤ n + 1 then (take? (n + 1 - c.utf8Size) cs).map (c :: ·) else none

/-- The text between two byte offsets, if they are ordered, within the text and on character
boundaries. -/
def slice? (start stop : Nat) (cs : List Char) : Option (List Char) :=
  if start ≤ stop then (drop? start cs).bind (take? (stop - start)) else none

def afterNewlines (offset : Nat) : List Char → List Nat
  | [] => []
  | c :: cs =>
    let next := offset + c.utf8Size
    if c = '\n' then next :: afterNewlines next cs else afterNewlines next cs

end Bytes

structure Source where
  name : String
  text : String
  deriving DecidableEq

namespace Source

def lineStarts (s : Source) : List Nat :=
  0 :: Bytes.afterNewlines 0 s.text.toList

def lineCount (s : Source) : Nat :=
  s.lineStarts.length

def stripReturns (cs : List Char) : List Char :=
  (cs.reverse.dropWhile (· = '\r')).reverse

/-- The line with a given number, counted from one, without its terminator. -/
def line? (s : Source) (number : UInt32) : Option String :=
  if number = 0 then none
  else
    let index := number.toNat - 1
    match s.lineStarts[index]? with
    | none => none
    | some start =>
      let stop := match s.lineStarts[index + 1]? with
        | some next => next - 1
        | none => Bytes.length s.text.toList
      (Bytes.slice? start stop s.text.toList).map fun cs => String.ofList (stripReturns cs)

end Source

end Scriptlet
