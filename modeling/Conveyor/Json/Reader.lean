import Conveyor.Json.Basic
import Conveyor.Text.Bytes
import Conveyor.Text.Hex

/-!
Reading JSON text. A reading step takes the unread characters and gives a value with what is left of
them, or the reason why the text is no JSON together with how many bytes were still unread at the
fault; line and column are worked out from that number once, at the end.

Read strictly, a text gives a value: objects come out well formed, the last of several members with
one key staying, and values may be nested 127 deep. Read loosely, it only has to have the form of
JSON. Members stay in their order and as often as they are there, and what is no value is left
unreadable: a number out of range, half of a surrogate pair, what is nested too deep. So the parts
of the text that nobody asks for cannot make it fail.
-/

namespace Conveyor.Json

/-- Why a text is no JSON. -/
inductive SyntaxFault where
  | endInList
  | endInObject
  | endInString
  | endInValue
  | colonExpected
  | listCommaOrEndExpected
  | objectCommaOrEndExpected
  | wordExpected
  | valueExpected
  | invalidEscape
  | invalidNumber
  | numberOutOfRange
  | controlCharacter
  | keyNotString
  | loneSurrogate
  | trailingComma
  | trailingCharacters
  | endInHexEscape
  | nestedTooDeep
  deriving DecidableEq, Repr

def SyntaxFault.message : SyntaxFault → String
  | endInList => "EOF while parsing a list"
  | endInObject => "EOF while parsing an object"
  | endInString => "EOF while parsing a string"
  | endInValue => "EOF while parsing a value"
  | colonExpected => "expected `:`"
  | listCommaOrEndExpected => "expected `,` or `]`"
  | objectCommaOrEndExpected => "expected `,` or `\x7d`"
  | wordExpected => "expected ident"
  | valueExpected => "expected value"
  | invalidEscape => "invalid escape"
  | invalidNumber => "invalid number"
  | numberOutOfRange => "number out of range"
  | controlCharacter => "control character (\\u0000-\\u001F) found while parsing a string"
  | keyNotString => "key must be a string"
  | loneSurrogate => "lone leading surrogate in hex escape"
  | trailingComma => "trailing comma"
  | trailingCharacters => "trailing characters"
  | endInHexEscape => "unexpected end of hex escape"
  | nestedTooDeep => "recursion limit exceeded"

/-- A fault and where it was met: lines count from one, columns are the bytes before it in its line.
-/
structure SyntaxError where
  fault : SyntaxFault
  line : Nat
  column : Nat
  deriving DecidableEq, Repr

def SyntaxError.message (e : SyntaxError) : String :=
  e.fault.message ++ " at line " ++ toString e.line ++ " column " ++ toString e.column

/-- A fault with the number of bytes left unread. -/
structure Stop where
  fault : SyntaxFault
  unread : Nat

/-- How a text is read: for its value, or for its form. -/
inductive Manner where
  | strict
  | loose
  deriving DecidableEq, Repr

abbrev Reading (α : Type) := Except Stop (α × List Char)

/-- A fault met with `n` bytes of the rest already taken. -/
def stop {α : Type} (fault : SyntaxFault) (rest : List Char) (n : Nat := 0) : Except Stop α :=
  .error ⟨fault, Text.byteCount rest - n⟩

def isSpace (c : Char) : Bool := c == ' ' || c == '\n' || c == '\t' || c == '\r'

def skipSpace (cs : List Char) : List Char := cs.dropWhile isSpace

def isDigit (c : Char) : Bool := '0' ≤ c && c ≤ '9'

def digitValue (c : Char) : Nat := c.toNat - '0'.toNat

/-- The number that four hexadecimal digits write. -/
def hex4? (a b c d : Char) : Option Nat := do
  let a ← Text.hexValue? a
  let b ← Text.hexValue? b
  let c ← Text.hexValue? c
  let d ← Text.hexValue? d
  return ((a * 16 + b) * 16 + c) * 16 + d

/-- The fault of four bytes that are no hexadecimal digits, or of fewer than four. -/
def badHex {α : Type} (rest : List Char) : Except Stop α :=
  if Text.byteCount rest < 4 then stop .endInString [] else stop .invalidEscape rest 4

/-- The character that an escape letter stands for. -/
def escaped? (c : Char) : Option Char :=
  if c = '"' then some '"'
  else if c = '\\' then some '\\'
  else if c = '/' then some '/'
  else if c = 'b' then some '\x08'
  else if c = 'f' then some '\x0c'
  else if c = 'n' then some '\n'
  else if c = 'r' then some '\r'
  else if c = 't' then some '\t'
  else none

def consChar (c : Char) (r : Reading (List Char)) : Reading (List Char) :=
  match r with
  | .ok (cs, rest) => .ok (c :: cs, rest)
  | .error e => .error e

/-- The character of a surrogate pair. -/
def surrogatePair (high low : Nat) : Char :=
  Char.ofNat ((high - 0xD800) * 0x400 + (low - 0xDC00) + 0x10000)

/-- The rest of a string after its opening quote. -/
def readString : List Char → Reading (List Char)
  | [] => stop .endInString []
  | '"' :: rest => .ok ([], rest)
  | '\\' :: rest =>
    match rest with
    | [] => stop .endInString []
    | 'u' :: hex =>
      match hex with
      | a :: b :: c :: d :: rest =>
        match hex4? a b c d with
        | none => badHex hex
        | some n =>
          if 0xDC00 ≤ n ∧ n ≤ 0xDFFF then stop .loneSurrogate rest
          else if 0xD800 ≤ n ∧ n ≤ 0xDBFF then
            match rest with
            | [] => stop .endInString []
            | '\\' :: [] => stop .endInString []
            | '\\' :: 'u' :: low =>
              match low with
              | e :: f :: g :: h :: rest =>
                match hex4? e f g h with
                | none => badHex low
                | some m =>
                  if 0xDC00 ≤ m ∧ m ≤ 0xDFFF then
                    consChar (surrogatePair n m) (readString rest)
                  else stop .loneSurrogate rest
              | low => badHex low
            | '\\' :: rest => stop .endInHexEscape rest 1
            | rest => stop .endInHexEscape rest 1
          else consChar (Char.ofNat n) (readString rest)
      | hex => badHex hex
    | c :: after =>
      match escaped? c with
      | some x => consChar x (readString after)
      | none => stop .invalidEscape rest 1
  | c :: rest =>
    if c.toNat < 0x20 then stop .controlCharacter (c :: rest) 1 else consChar c (readString rest)

/-- What follows a string of which only the form counts, after its opening quote. -/
def skipString : List Char → Option (List Char)
  | [] => none
  | '"' :: rest => some rest
  | '\\' :: 'u' :: a :: b :: c :: d :: rest =>
    if (hex4? a b c d).isSome then skipString rest else none
  | '\\' :: c :: rest => if (escaped? c).isSome then skipString rest else none
  | c :: rest => if c.toNat < 0x20 then none else skipString rest

/-- The rest of a string after its opening quote; nothing for one that is unreadable. -/
def readText (m : Manner) (cs : List Char) : Reading (Option String) :=
  match readString cs with
  | .ok (s, rest) => .ok (some (String.ofList s), rest)
  | .error e =>
    match m, skipString cs with
    | .loose, some rest => .ok (none, rest)
    | _, _ => .error e

/-- The rest of one of the words `null`, `true` and `false`. -/
def readWord (value : Json) : List Char → List Char → Reading Json
  | [], rest => .ok (value, rest)
  | _ :: _, [] => stop .endInValue []
  | w :: ws, c :: rest => if c = w then readWord value ws rest else stop .wordExpected (c :: rest) 1

/-- The greatest significand that is kept exactly. -/
def significandLimit : Nat := 0xFFFFFFFFFFFFFFFF

/-- Takes digits into the significand while it stays within its limit. -/
def takeDigits (significand : Nat) : List Char → Nat × List Char
  | [] => (significand, [])
  | c :: cs =>
    let next := significand * 10 + digitValue c
    if next ≤ significandLimit then takeDigits next cs else (significand, c :: cs)

/-- Significand times a power of ten, rounded after each multiplication or division by at most
`10 ^ 308`; nothing when it is too great. -/
def scale (x : Float) (exponent : Int) : Nat → Option Float
  | 0 => some x
  | fuel + 1 =>
    if exponent.natAbs ≤ 308 then
      let power := Float.ofScientific 1 false exponent.natAbs
      if 0 ≤ exponent then
        let y := x * power
        if y.isInf then none else some y
      else some (x / power)
    else if x == 0 then some x
    else if 0 ≤ exponent then none
    else scale (x / Float.ofScientific 1 false 308) (exponent + 308) fuel

/-- A floating point number, with the text after it; nothing for one out of range. -/
def finishReal (negative : Bool) (significand : Nat) (exponent : Int) (rest : List Char) :
    Reading (Option Json) :=
  match scale significand.toUInt64.toFloat exponent (exponent.natAbs / 308 + 2) with
  | some x => .ok (some (number (.real (.ofFloat (if negative then -x else x)))), rest)
  | none => .ok (none, rest)

/-- The greatest written exponent. -/
def exponentLimit : Nat := 0x7FFFFFFF

/-- Takes exponent digits; the flag tells that they went over the limit. -/
def takeExponent (exponent : Nat) : List Char → Nat × Bool × List Char
  | [] => (exponent, false, [])
  | c :: cs =>
    if isDigit c then
      let next := exponent * 10 + digitValue c
      if next ≤ exponentLimit then takeExponent next cs else (exponent, true, cs)
    else (exponent, false, c :: cs)

/-- The exponent of a number, after its `e`. -/
def readExponent (negative : Bool) (significand : Nat) (exponent : Int) (cs : List Char) :
    Reading (Option Json) :=
  let (down, cs) :=
    match cs with
    | '+' :: cs => (false, cs)
    | '-' :: cs => (true, cs)
    | cs => (false, cs)
  match cs with
  | [] => stop .endInValue []
  | c :: rest =>
    if isDigit c then
      match takeExponent (digitValue c) rest with
      | (n, false, rest) =>
        finishReal negative significand (if down then exponent - n else exponent + n) rest
      | (_, true, rest) =>
        if significand ≠ 0 ∧ !down then .ok (none, rest)
        else finishReal negative 0 0 (rest.dropWhile isDigit)
    else stop .invalidNumber cs 1

/-- The fraction of a number, after its point. -/
def readFraction (negative : Bool) (significand : Nat) (exponent : Int) (cs : List Char) :
    Reading (Option Json) :=
  let digits := cs.takeWhile isDigit
  let rest := cs.dropWhile isDigit
  let (significand, dropped) := takeDigits significand digits
  let exponent := exponent - (digits.length - dropped.length : Int)
  match digits, rest with
  | [], [] => stop .endInValue []
  | [], _ :: _ => stop .invalidNumber rest 1
  | _ :: _, c :: after =>
    if c = 'e' || c = 'E' then readExponent negative significand exponent after
    else finishReal negative significand exponent rest
  | _ :: _, [] => finishReal negative significand exponent []

/-- What follows the whole part of a number. -/
def finishWhole (negative : Bool) (significand dropped : Nat) (rest : List Char) :
    Reading (Option Json) :=
  match rest with
  | '.' :: after => readFraction negative significand dropped after
  | 'e' :: after => readExponent negative significand dropped after
  | 'E' :: after => readExponent negative significand dropped after
  | rest =>
    if dropped ≠ 0 || negative && (significand = 0 || significand > 0x8000000000000000) then
      finishReal negative significand dropped rest
    else .ok (some (int (if negative then -significand else significand)), rest)

/-- A number, after its sign. -/
def readNumber (negative : Bool) (cs : List Char) : Reading (Option Json) :=
  match cs with
  | [] => stop .endInValue []
  | '0' :: rest =>
    match rest with
    | c :: _ => if isDigit c then stop .invalidNumber rest 1 else finishWhole negative 0 0 rest
    | [] => finishWhole negative 0 0 []
  | c :: _ =>
    if isDigit c then
      let (significand, dropped) := takeDigits 0 (cs.takeWhile isDigit)
      finishWhole negative significand dropped.length (cs.dropWhile isDigit)
    else stop .invalidNumber cs 1

/-- A number, after its sign; one out of range is unreadable. -/
def readSigned (m : Manner) (negative : Bool) (cs : List Char) : Reading Json :=
  match readNumber negative cs with
  | .ok (some j, rest) => .ok (j, rest)
  | .ok (none, rest) =>
    match m with
    | .strict => stop .numberOutOfRange rest
    | .loose => .ok (unreadable, rest.dropWhile isDigit)
  | .error e => .error e

/-- The object with the members read, of which none may have an unreadable key. -/
def objectOf (m : Manner) (ms : List (Option String × Json)) : Json :=
  match ms.mapM fun (k, v) => k.map (·, v), m with
  | some ms, .strict => ofMembers ms
  | some ms, .loose => object ms
  | none, _ => unreadable

mutual

/-- A value. The fuel bounds the number of reading steps, `depth` the levels of nesting still
allowed. -/
def readValue (m : Manner) (fuel depth : Nat) (cs : List Char) : Reading Json :=
  match fuel with
  | 0 => stop .endInValue []
  | fuel + 1 =>
    match skipSpace cs with
    | [] => stop .endInValue []
    | 'n' :: rest => readWord null "ull".toList rest
    | 't' :: rest => readWord (bool true) "rue".toList rest
    | 'f' :: rest => readWord (bool false) "alse".toList rest
    | '-' :: rest => readSigned m true rest
    | '"' :: rest =>
      match readText m rest with
      | .ok (s, rest) => .ok ((s.map string).getD unreadable, rest)
      | .error e => .error e
    | '[' :: rest =>
      if depth ≤ 1 ∧ m = .strict then stop .nestedTooDeep ('[' :: rest) 1
      else
        match readElements m fuel (depth - 1) true rest with
        | .ok (xs, rest) => .ok (if depth ≤ 1 then unreadable else array xs, rest)
        | .error e => .error e
    | '\x7b' :: rest =>
      if depth ≤ 1 ∧ m = .strict then stop .nestedTooDeep ('\x7b' :: rest) 1
      else
        match readMembers m fuel (depth - 1) true rest with
        | .ok (ms, rest) => .ok (if depth ≤ 1 then unreadable else objectOf m ms, rest)
        | .error e => .error e
    | c :: rest =>
      if isDigit c then readSigned m false (c :: rest) else stop .valueExpected (c :: rest) 1

/-- The elements of an array up to its closing bracket. -/
def readElements (m : Manner) (fuel depth : Nat) (first : Bool) (cs : List Char) :
    Reading (List Json) :=
  match fuel with
  | 0 => stop .endInList []
  | fuel + 1 =>
    match skipSpace cs with
    | [] => stop .endInList []
    | ']' :: rest => .ok ([], rest)
    | c :: rest =>
      if first then readElement m fuel depth (c :: rest)
      else if c = ',' then
        match skipSpace rest with
        | [] => stop .endInValue []
        | ']' :: rest => stop .trailingComma (']' :: rest) 1
        | rest => readElement m fuel depth rest
      else stop .listCommaOrEndExpected (c :: rest) 1

/-- One element and those after it. -/
def readElement (m : Manner) (fuel depth : Nat) (cs : List Char) : Reading (List Json) :=
  match fuel with
  | 0 => stop .endInList []
  | fuel + 1 =>
    match readValue m fuel depth cs with
    | .error e => .error e
    | .ok (x, rest) =>
      match readElements m fuel depth false rest with
      | .error e => .error e
      | .ok (xs, rest) => .ok (x :: xs, rest)

/-- The members of an object up to its closing brace. -/
def readMembers (m : Manner) (fuel depth : Nat) (first : Bool) (cs : List Char) :
    Reading (List (Option String × Json)) :=
  match fuel with
  | 0 => stop .endInObject []
  | fuel + 1 =>
    match skipSpace cs with
    | [] => stop .endInObject []
    | '\x7d' :: rest => .ok ([], rest)
    | c :: rest =>
      if first then
        if c = '"' then readMember m fuel depth rest else stop .keyNotString (c :: rest) 1
      else if c = ',' then
        match skipSpace rest with
        | [] => stop .endInValue []
        | '"' :: rest => readMember m fuel depth rest
        | '\x7d' :: rest => stop .trailingComma ('\x7d' :: rest) 1
        | rest => stop .keyNotString rest 1
      else stop .objectCommaOrEndExpected (c :: rest) 1

/-- One member, after the opening quote of its key, and those after it. -/
def readMember (m : Manner) (fuel depth : Nat) (cs : List Char) :
    Reading (List (Option String × Json)) :=
  match fuel with
  | 0 => stop .endInObject []
  | fuel + 1 =>
    match readText m cs with
    | .error e => .error e
    | .ok (k, rest) =>
      match skipSpace rest with
      | [] => stop .endInObject []
      | ':' :: rest =>
        match readValue m fuel depth rest with
        | .error e => .error e
        | .ok (v, rest) =>
          match readMembers m fuel depth false rest with
          | .error e => .error e
          | .ok (ms, rest) => .ok ((k, v) :: ms, rest)
      | rest => stop .colonExpected rest 1

end

/-- Line and column after `n` bytes of a text. -/
def position (n : Nat) (cs : List Char) : Nat × Nat :=
  go n 1 0 cs
where
  go (n line column : Nat) : List Char → Nat × Nat
    | [] => (line, column)
    | c :: cs =>
      if n = 0 then (line, column)
      else if n < c.utf8Size then (line, column + n)
      else if c = '\n' then go (n - 1) (line + 1) 0 cs
      else go (n - c.utf8Size) line (column + c.utf8Size) cs

/-- The value and nothing after it but blanks. -/
def readAll (m : Manner) (cs : List Char) : Except Stop Json :=
  match readValue m (2 * cs.length + 2) 128 cs with
  | .error e => .error e
  | .ok (v, rest) =>
    match skipSpace rest with
    | [] => .ok v
    | rest => stop .trailingCharacters rest 1

/-- The value that a text writes. -/
def read (s : String) : Except SyntaxError Json :=
  match readAll .strict s.toList with
  | .ok v => .ok v
  | .error e =>
    let (line, column) := position (Text.byteCount s.toList - e.unread) s.toList
    .error ⟨e.fault, line, column⟩

/-- What a text writes, as far as it can be read, if the text has the form of JSON. -/
def readLoosely? (s : String) : Option Json := (readAll .loose s.toList).toOption

end Conveyor.Json
