import Scriptlet.Json.Basic

namespace Scriptlet.Json

/-- Quote, backslash and controls are escaped, and nothing else. -/
def escape (c : Char) : List Char :=
  if c = '"' then ['\\', '"']
  else if c = '\\' then ['\\', '\\']
  else if c = '\x08' then ['\\', 'b']
  else if c = '\t' then ['\\', 't']
  else if c = '\n' then ['\\', 'n']
  else if c = '\x0c' then ['\\', 'f']
  else if c = '\r' then ['\\', 'r']
  else if c.toNat < 0x20 then
    ['\\', 'u', '0', '0', Nat.digitChar (c.toNat / 16), Nat.digitChar (c.toNat % 16)]
  else [c]

def renderString : Option String → List Char
  | some s => '"' :: (s.toList.flatMap escape ++ ['"'])
  | none => ['"', '\\', 'u', 'd', '8', '0', '0', '"']

def renderNumeral (n : Numeral) : List Char :=
  (if n.negative then ['-'] else []) ++ Nat.toDigits 10 n.coefficient ++
    match n.power with
    | none => []
    | some k => 'e' :: ((if k < 0 then ['-'] else []) ++ Nat.toDigits 10 k.natAbs)

mutual

def render : Json → List Char
  | .null => ['n', 'u', 'l', 'l']
  | .bool true => ['t', 'r', 'u', 'e']
  | .bool false => ['f', 'a', 'l', 's', 'e']
  | .number n => renderNumeral n
  | .string s => renderString s
  | .array [] => ['[', ']']
  | .array (j :: js) => '[' :: (render j ++ renderItems js)
  | .object [] => ['\x7b', '\x7d']
  | .object ((key, j) :: ms) => '\x7b' :: (renderString key ++ ':' :: (render j ++ renderMembers ms))

def renderItems : List Json → List Char
  | [] => [']']
  | j :: js => ',' :: (render j ++ renderItems js)

def renderMembers : List (Option String × Json) → List Char
  | [] => ['\x7d']
  | (key, j) :: ms => ',' :: (renderString key ++ ':' :: (render j ++ renderMembers ms))

end

def toText (j : Json) : String :=
  String.ofList (render j)

end Scriptlet.Json
