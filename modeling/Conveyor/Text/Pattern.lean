import Conveyor.Text.Alphanumeric
import Conveyor.Text.Pattern.Class

/-!
Which texts are patterns. A pattern is a regular expression: characters, escapes and classes of
characters in brackets, which may be repeated, in groups and alternatives. Patterns are free of
looking around and of closing braces, so that whatever opens a brace is left unfinished, and they
are not nested too deep.
-/

namespace Conveyor.Text

namespace Pattern

/-! ### Groups -/

/-- What an opening parenthesis begins. -/
inductive Opening where
  | group (mode : Mode) (name : Option (List Char))
  /-- Flags for the rest of the group around. -/
  | flags (mode : Mode)

/-- Whether these are flags to set and, after a dash, to clear. -/
def areFlags (cs : List Char) : Bool :=
  cs.all ['i', 'm', 's', 'U', 'u', 'R', 'x', '-'].contains && cs.eraseDups.length == cs.length &&
    cs.getLast? != some '-'

def isGroupName : List Char → Bool
  | [] => false
  | c :: cs =>
    (c == '_' || alphabetic.contains c) &&
      cs.all fun c => ['_', '.', '[', ']'].contains c || isAlphanumeric c

/-- The name of a group up to the angle bracket behind it. -/
def readName (m : Mode) (cs : List Char) : Option (Opening × List Char) :=
  let name := cs.takeWhile (· ≠ '>')
  match cs.drop name.length with
  | _ :: rest => if isGroupName name then some (.group m (some name), rest) else none
  | [] => none

/-- What follows an opening parenthesis. -/
def readOpening (m : Mode) (cs : List Char) : Option (Opening × List Char) :=
  match m.skip cs with
  | '?' :: 'P' :: '<' :: cs => readName m cs
  | '?' :: '<' :: cs => readName m cs
  | '?' :: cs =>
    let flags := cs.takeWhile fun c => c ≠ ':' ∧ c ≠ ')'
    match areFlags flags, cs.drop flags.length with
    | true, ':' :: rest => some (.group (m.withFlags flags) none, rest)
    | true, ')' :: rest => if flags.isEmpty then none else some (.flags (m.withFlags flags), rest)
    | _, _ => none
  | cs => some (.group m none, cs)

/-- A group under way, by how deep its parts are nested. -/
structure OpenGroup where
  mode : Mode := {}
  /-- How many alternatives there are before the present one. -/
  alternatives : Nat := 0
  /-- The greatest height of these alternatives. -/
  tallest : Nat := 0
  /-- How many parts the present alternative has. -/
  size : Nat := 0
  /-- The greatest height of these parts. -/
  inner : Nat := 0
  /-- The height of the last part, if that can be repeated. -/
  last : Option Nat := none

namespace OpenGroup

def add (g : OpenGroup) (height : Nat) : OpenGroup :=
  { g with size := g.size + 1, inner := max g.inner height, last := some height }

def addFlags (g : OpenGroup) (mode : Mode) : OpenGroup :=
  { g with mode, size := g.size + 1, last := none }

/-- The last part repeated, which makes it one level higher. -/
def repeated? (g : OpenGroup) : Option OpenGroup :=
  g.last.map fun height =>
    { g with inner := max g.inner (height + 1), last := some (height + 1) }

/-- The greatest height of the alternatives. Several parts in a row count as a level. -/
def tallestSoFar (g : OpenGroup) : Nat :=
  max g.tallest (if 1 < g.size then g.inner + 1 else g.inner)

/-- The group at the start of its next alternative. -/
def alternative (g : OpenGroup) : OpenGroup :=
  { mode := g.mode, alternatives := g.alternatives + 1, tallest := g.tallestSoFar }

/-- The height of what there is so far. Several alternatives count as a level. -/
def height (g : OpenGroup) : Nat :=
  if g.alternatives = 0 then g.tallestSoFar else g.tallestSoFar + 1

end OpenGroup

/-! ### Patterns -/

/-- How many levels a pattern may have. -/
def greatestHeight : Nat := 250

/-- Whether the rest of a pattern is right, from within a group and those around it. A name may be
given to one group only. The fuel bounds the parts read. -/
def isRest (fuel : Nat) (names : List (List Char)) (g : OpenGroup) (outer : List OpenGroup)
    (cs : List Char) : Bool :=
  match fuel with
  | 0 => false
  | fuel + 1 =>
    match g.mode.skip cs with
    | [] => outer.isEmpty && g.height ≤ greatestHeight
    | '(' :: cs =>
      match readOpening g.mode cs with
      | some (.group mode name, cs) =>
        !name.any names.contains && isRest fuel (name.toList ++ names) { mode } (g :: outer) cs
      | some (.flags mode, cs) => isRest fuel names (g.addFlags mode) outer cs
      | none => false
    | ')' :: cs =>
      match outer with
      | [] => false
      | around :: outer => isRest fuel names (around.add (g.height + 1)) outer cs
    | '|' :: cs => isRest fuel names g.alternative outer cs
    | '[' :: cs =>
      match readClass g.mode cs with
      | some (height, cs) => isRest fuel names (g.add height) outer cs
      | none => false
    | '\x7b' :: _ => false
    | c :: cs =>
      if ['*', '+', '?'].contains c then
        match g.repeated? with
        | some g => isRest fuel names g outer (if cs.head? = some '?' then cs.drop 1 else cs)
        | none => false
      else if c = '.' && !g.mode.wide then false
      else
        match readItem g.mode (c :: cs) with
        | some (_, cs) => isRest fuel names (g.add 0) outer cs
        | none => false

end Pattern

/-- Whether a text without closing braces is a pattern. -/
def isPattern (cs : List Char) : Bool := Pattern.isRest (cs.length + 1) [] {} [] cs

end Conveyor.Text
