import Conveyor.Json.Basic

/-!
Compact JSON text: no blanks, members in key order, and escapes only where the grammar asks for
them.
-/

namespace Conveyor.Json

def hexDigit (n : Nat) : Char := Nat.digitChar n

/-- A character inside a JSON string. Controls without a letter of their own are written as
`\u00XX`. -/
def escapeChar (c : Char) : List Char :=
  if c = '"' then ['\\', '"']
  else if c = '\\' then ['\\', '\\']
  else if c = '\n' then ['\\', 'n']
  else if c = '\r' then ['\\', 'r']
  else if c = '\t' then ['\\', 't']
  else if c = '\x08' then ['\\', 'b']
  else if c = '\x0c' then ['\\', 'f']
  else if c.toNat < 0x20 then
    ['\\', 'u', '0', '0', hexDigit (c.toNat / 16), hexDigit (c.toNat % 16)]
  else [c]

/-- The inside of a JSON string. -/
def escape (cs : List Char) : List Char := cs.flatMap escapeChar

def writeString (s : String) : List Char := '"' :: escape s.toList ++ ['"']

def writeInt (n : Int) : List Char :=
  if n < 0 then '-' :: Nat.toDigits 10 n.natAbs else Nat.toDigits 10 n.natAbs

def writeNumber : Number → List Char
  | .int n => writeInt n
  | .real x => x.toText

mutual

def write : Json → List Char
  | null => "null".toList
  | bool true => "true".toList
  | bool false => "false".toList
  | number n => writeNumber n
  | string s => writeString s
  | array xs => '[' :: writeElements xs ++ [']']
  | object ms => '\x7b' :: writeMembers ms ++ ['\x7d']

def writeElements : List Json → List Char
  | [] => []
  | [x] => write x
  | x :: y :: xs => write x ++ ',' :: writeElements (y :: xs)

def writeMembers : List (String × Json) → List Char
  | [] => []
  | [(k, v)] => writeString k ++ ':' :: write v
  | (k, v) :: m :: ms => writeString k ++ ':' :: (write v ++ ',' :: writeMembers (m :: ms))

end

/-- The compact text of a value. -/
def render (j : Json) : String := String.ofList j.write

end Conveyor.Json
