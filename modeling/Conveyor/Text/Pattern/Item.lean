import Conveyor.Text.Blank
import Conveyor.Text.Hex

/-!
The single items of patterns, characters and escapes, and the room that may be between them.
-/

namespace Conveyor.Text.Pattern

/-- How a stretch of a pattern is read. -/
structure Mode where
  /-- Whether white space and comments are there for the reader only. -/
  spaced : Bool := false
  /-- Whether the pattern is about characters of all scripts rather than about bytes. About bytes it
  can only have sets that are free of characters outside of ASCII. -/
  wide : Bool := true
  deriving DecidableEq, Repr

/-- The text after white space and comments. A comment ends with its line. -/
def skipSpace (comment : Bool) : List Char → List Char
  | [] => []
  | c :: cs =>
    if comment then skipSpace (c ≠ '\n') cs
    else if c = '#' then skipSpace true cs
    else if isBlank c then skipSpace false cs
    else c :: cs

namespace Mode

/-- The text from where the pattern goes on. -/
def skip (m : Mode) (cs : List Char) : List Char := if m.spaced then skipSpace false cs else cs

/-- The mode after flags, of which those behind a dash are cleared. -/
def withFlags (m : Mode) (flags : List Char) : Mode :=
  let set := flags.takeWhile (· ≠ '-')
  let cleared := flags.drop set.length
  { spaced := (m.spaced || set.contains 'x') && !cleared.contains 'x'
    wide := (m.wide || set.contains 'u') && !cleared.contains 'u' }

end Mode

/-- What a character or an escape stands for. -/
inductive Item where
  | char (code : Nat)
  | set
  /-- A place in the text, such as its end. -/
  | place
  deriving DecidableEq, Repr

def Item.isAscii : Item → Bool
  | .char code => code < 0x80
  | _ => true

/-- A character by the given count of hexadecimal digits of its code. -/
def readCode (m : Mode) (digits code : Nat) (cs : List Char) : Option (Item × List Char) :=
  match digits with
  | 0 => if Nat.isValidChar code then some (.char code, cs) else none
  | digits + 1 =>
    match m.skip cs with
    | [] => none
    | c :: cs => (hexValue? c).bind fun n => readCode m digits (code * 16 + n) cs

/-- The general categories that are known by one letter. -/
def categoryLetters : List Char := ['c', 'l', 'm', 'n', 'p', 's', 'z']

/-- The characters that are known by a letter after a backslash. -/
def controlLetters : List (Char × Nat) :=
  [('a', 7), ('t', 9), ('n', 10), ('v', 11), ('f', 12), ('r', 13)]

/-- An escape after its backslash. The bounds of words can be told among bytes only. -/
def readEscape (m : Mode) : List Char → Option (Item × List Char)
  | [] => none
  | 'x' :: cs => (readCode m 2 0 cs).filter fun found => m.wide || found.1.isAscii
  | 'u' :: cs => readCode m 4 0 cs
  | 'U' :: cs => readCode m 8 0 cs
  | c :: cs =>
    if c = 'p' ∨ c = 'P' then
      match m.skip cs with
      | [] => none
      | letter :: cs =>
        if m.wide && categoryLetters.contains letter.toLower then some (.set, cs) else none
    else if ['d', 's', 'w'].contains c then some (.set, cs)
    else if ['D', 'S', 'W'].contains c then if m.wide then some (.set, cs) else none
    else if c = 'A' ∨ c = 'z' then some (.place, cs)
    else if ['b', 'B', '<', '>'].contains c then if m.wide then none else some (.place, cs)
    else
      match controlLetters.lookup c with
      | some code => some (.char code, cs)
      | none => if 0x7F < c.toNat ∨ c.isAlphanum then none else some (.char c.toNat, cs)

def readItem (m : Mode) : List Char → Option (Item × List Char)
  | [] => none
  | '\\' :: cs => readEscape m cs
  | c :: cs => some (.char c.toNat, cs)

end Conveyor.Text.Pattern
