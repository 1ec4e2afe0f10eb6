import Scriptlet.Json.Basic

namespace Scriptlet.Json.Reader

def isSpace (c : Char) : Bool :=
  c == ' ' || c == '\t' || c == '\n' || c == '\r'

def skip (cs : List Char) : List Char :=
  cs.dropWhile isSpace

def hexDigit? (c : Char) : Option Nat :=
  if '0' ≤ c ∧ c ≤ '9' then some (c.toNat - '0'.toNat)
  else if 'a' ≤ c ∧ c ≤ 'f' then some (c.toNat - 'a'.toNat + 10)
  else if 'A' ≤ c ∧ c ≤ 'F' then some (c.toNat - 'A'.toNat + 10)
  else none

def hexUnit? (a b c d : Char) : Option Nat := do
  let a ← hexDigit? a
  let b ← hexDigit? b
  let c ← hexDigit? c
  let d ← hexDigit? d
  return ((a * 16 + b) * 16 + c) * 16 + d

def shortEscape? (c : Char) : Option Char :=
  if c = '"' ∨ c = '\\' ∨ c = '/' then some c
  else if c = 'b' then some '\x08'
  else if c = 'f' then some '\x0c'
  else if c = 'n' then some '\n'
  else if c = 'r' then some '\r'
  else if c = 't' then some '\t'
  else none

inductive Piece where
  | char (c : Char)
  | unit (n : Nat)
  deriving DecidableEq

def pieces : List Char → Option (List Piece × List Char)
  | [] => none
  | c :: cs =>
    if c = '"' then some ([], cs)
    else if c = '\\' then
      match cs with
      | [] => none
      | e :: cs =>
        if e = 'u' then
          match cs with
          | a :: b :: c :: d :: cs => do
            let n ← hexUnit? a b c d
            let (ps, rest) ← pieces cs
            return (.unit n :: ps, rest)
          | _ => none
        else do
          let c ← shortEscape? e
          let (ps, rest) ← pieces cs
          return (.char c :: ps, rest)
    else if c.toNat < 0x20 then none
    else do
      let (ps, rest) ← pieces cs
      return (.char c :: ps, rest)

def isHigh (n : Nat) : Bool :=
  0xd800 ≤ n && n < 0xdc00

def isLow (n : Nat) : Bool :=
  0xdc00 ≤ n && n < 0xe000

/-- The text that pieces spell: a high and a low unit make one character, and neither may stand
alone. -/
def spelled? : List Piece → Option (List Char)
  | [] => some []
  | .char c :: ps => (spelled? ps).map (c :: ·)
  | .unit n :: .unit m :: ps =>
    if isHigh n && isLow m then
      (spelled? ps).map (Char.ofNat (0x10000 + (n - 0xd800) * 0x400 + (m - 0xdc00)) :: ·)
    else if isHigh n || isLow n then none
    else (spelled? (.unit m :: ps)).map (Char.ofNat n :: ·)
  | .unit n :: ps =>
    if isHigh n || isLow n then none else (spelled? ps).map (Char.ofNat n :: ·)

/-- The rest of a string whose opening quote has been read. -/
def string (cs : List Char) : Option (Option String × List Char) :=
  (pieces cs).map fun (ps, rest) => ((spelled? ps).map String.ofList, rest)

def natOfDigits (ds : List Char) : Nat :=
  ds.foldl (fun n d => 10 * n + (d.toNat - '0'.toNat)) 0

def digits (cs : List Char) : Option (List Char × List Char) :=
  match cs.takeWhile Char.isDigit with
  | [] => none
  | ds => some (ds, cs.dropWhile Char.isDigit)

def whole : List Char → Option (List Char × List Char)
  | [] => none
  | c :: cs => if c = '0' then some (['0'], cs) else digits (c :: cs)

def fraction : List Char → Option (List Char × List Char)
  | [] => some ([], [])
  | c :: cs => if c = '.' then digits cs else some ([], c :: cs)

def signed : List Char → Option (Int × List Char)
  | [] => none
  | c :: cs =>
    if c = '-' then (digits cs).map fun (ds, rest) => (-(natOfDigits ds : Int), rest)
    else
      (digits (if c = '+' then cs else c :: cs)).map fun (ds, rest) =>
        ((natOfDigits ds : Int), rest)

def exponent : List Char → Option (Option Int × List Char)
  | [] => some (none, [])
  | c :: cs =>
    if c = 'e' ∨ c = 'E' then (signed cs).map fun (k, rest) => (some k, rest)
    else some (none, c :: cs)

def unsigned (negative : Bool) (cs : List Char) : Option (Numeral × List Char) := do
  let (ds, cs) ← whole cs
  let (fs, cs) ← fraction cs
  let (k, cs) ← exponent cs
  let power := if fs = [] then k else some (k.getD 0 - fs.length)
  return (⟨negative, natOfDigits (ds ++ fs), power⟩, cs)

def numeral : List Char → Option (Numeral × List Char)
  | [] => none
  | c :: cs => if c = '-' then unsigned true cs else unsigned false (c :: cs)

def after? : List Char → List Char → Option (List Char)
  | [], cs => some cs
  | _ :: _, [] => none
  | w :: ws, c :: cs => if w = c then after? ws cs else none

def word? (c : Char) : Option (List Char × Json) :=
  if c = 'n' then some (['u', 'l', 'l'], .null)
  else if c = 't' then some (['r', 'u', 'e'], .bool true)
  else if c = 'f' then some (['a', 'l', 's', 'e'], .bool false)
  else none

mutual

def value : Nat → List Char → Option (Json × List Char)
  | 0, _ => none
  | fuel + 1, cs =>
    match skip cs with
    | [] => none
    | c :: cs =>
      if c = '"' then (string cs).map fun (s, rest) => (.string s, rest)
      else if c = '[' then
        match after? [']'] (skip cs) with
        | some rest => some (.array [], rest)
        | none => (items fuel cs).map fun (js, rest) => (.array js, rest)
      else if c = '\x7b' then
        match after? ['\x7d'] (skip cs) with
        | some rest => some (.object [], rest)
        | none => (members fuel cs).map fun (ms, rest) => (.object ms, rest)
      else
        match word? c with
        | some (letters, j) => (after? letters cs).map fun rest => (j, rest)
        | none => (numeral (c :: cs)).map fun (n, rest) => (.number n, rest)

def items : Nat → List Char → Option (List Json × List Char)
  | 0, _ => none
  | fuel + 1, cs => do
    let (j, cs) ← value fuel cs
    match skip cs with
    | [] => none
    | c :: cs =>
      if c = ',' then (items fuel cs).map fun (js, rest) => (j :: js, rest)
      else if c = ']' then some ([j], cs)
      else none

def members : Nat → List Char → Option (List (Option String × Json) × List Char)
  | 0, _ => none
  | fuel + 1, cs => do
    let cs ← after? ['"'] (skip cs)
    let (key, cs) ← string cs
    let cs ← after? [':'] (skip cs)
    let (j, cs) ← value fuel cs
    match skip cs with
    | [] => none
    | c :: cs =>
      if c = ',' then (members fuel cs).map fun (ms, rest) => ((key, j) :: ms, rest)
      else if c = '\x7d' then some ([(key, j)], cs)
      else none

end

/-- A text that holds one value and nothing but white space around it. No text nests deeper than it
is long. -/
def parse (cs : List Char) : Option Json := do
  let (j, rest) ← value (2 * cs.length + 2) cs
  if skip rest = [] then some j else none

end Scriptlet.Json.Reader

namespace Scriptlet

def Json.parse? (s : String) : Option Json :=
  Json.Reader.parse s.toList

end Scriptlet
