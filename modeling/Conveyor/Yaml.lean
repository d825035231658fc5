import Conveyor.Json.Printer

/-!
JSON values as YAML documents in block style. Texts stand bare where that cannot be misread, else
between single quotes; a text of several lines is a literal block. Lists are not indented under
their keys.
-/

namespace Conveyor.Yaml

abbrev Line := List Char

/-- Characters with which a bare text cannot begin. -/
def indicators : List Char :=
  ['-', '?', ':', ',', '[', ']', '\x7b', '\x7d', '#', '&', '*', '!', '|', '>', '\'', '"', '%', '@',
    '\x60']

/-- Words that would be read as something other than text. -/
def reservedWords : List String :=
  ["null", "Null", "NULL", "~", "true", "True", "TRUE", "false", "False", "FALSE", ".inf", ".Inf",
    ".INF", ".nan", ".NaN", ".NAN"]

/-- Whether a text might be read as a number. -/
def startsAsNumber : List Char → Bool
  | [] => false
  | c :: cs => c.isDigit || (c == '+' || c == '.') && cs.head?.any Char.isDigit

/-- Whether a colon with a blank after it, or a `#` with one before it, is in the text, or a colon
ends it. -/
def hasMark : List Char → Bool
  | [] => false
  | [c] => c == ':'
  | a :: b :: cs => a == ':' && b == ' ' || a == ' ' && b == '#' || hasMark (b :: cs)

/-- Whether a text of one line may stand without quotes. -/
def isBare (s : String) : Bool :=
  match s.toList with
  | [] => false
  | c :: cs =>
    !indicators.contains c && c != ' ' && (c :: cs).getLast? != some ' ' && !hasMark (c :: cs) &&
      !reservedWords.contains s && !startsAsNumber (c :: cs)

/-- A text between single quotes, which are written twice inside. -/
def quoted (cs : List Char) : Line :=
  '\'' :: (cs.flatMap fun c => if c = '\'' then ['\'', '\''] else [c]) ++ ['\'']

def indented (l : Line) : Line := if l.isEmpty then [] else ' ' :: ' ' :: l

/-- The lines of a text. -/
def textLines : List Char → List Line
  | [] => [[]]
  | c :: cs =>
    match textLines cs with
    | [] => [[c]]
    | l :: ls => if c = '\n' then [] :: l :: ls else (c :: l) :: ls

/-- A text as it stands after a key or a dash: its first line, and the lines below. -/
def textForm (s : String) : Line × List Line :=
  if s.toList.contains '\n' then ("|-".toList, (textLines s.toList).map indented)
  else if isBare s then (s.toList, [])
  else (quoted s.toList, [])

/-- A line that begins with a dash, and the lines that belong to it. -/
def dashed : List Line → List Line
  | [] => []
  | l :: ls => ('-' :: ' ' :: l) :: ls.map indented

/-- A value that takes part of a line only, with the lines that belong to it. -/
def inlineForm : Json → Option (Line × List Line)
  | .null => some ("null".toList, [])
  | .bool b => some ((if b then "true" else "false").toList, [])
  | .number n => some (Json.writeNumber n, [])
  | .string s => some (textForm s)
  | .array [] => some ("[]".toList, [])
  | .object [] => some (['\x7b', '\x7d'], [])
  | .array _ | .object _ => none

/-- The parts of a key's entry. -/
def entry (key : String) (value : Json) (below : List Line) : List Line :=
  let k := (textForm key).1
  match inlineForm value, value with
  | some (l, ls), _ => (k ++ ':' :: ' ' :: l) :: ls
  | none, .array _ => (k ++ [':']) :: below
  | none, _ => (k ++ [':']) :: below.map indented

mutual

/-- The lines of a value. -/
def lines : Json → List Line
  | .array xs => elementLines xs
  | .object ms => memberLines ms
  | j =>
    match inlineForm j with
    | some (l, ls) => l :: ls
    | none => []

def elementLines : List Json → List Line
  | [] => []
  | x :: xs =>
    (match inlineForm x with
      | some (l, ls) => ('-' :: ' ' :: l) :: ls
      | none => dashed (lines x)) ++ elementLines xs

def memberLines : List (String × Json) → List Line
  | [] => []
  | (k, v) :: ms => entry k v (lines v) ++ memberLines ms

end

/-- The text of a document. -/
def render (j : Json) : String :=
  String.ofList ((lines j).flatMap fun l => l ++ ['\n'])

end Conveyor.Yaml
