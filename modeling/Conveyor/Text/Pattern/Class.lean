import Conveyor.Text.Pattern.Item

/-!
Classes: sets of characters in brackets. A class may have other classes within it, and may be put
together from two by an operation such as the intersection.
-/

namespace Conveyor.Text.Pattern

/-- A class under way, by how deep its parts are nested. -/
structure OpenClass where
  /-- The height of what is left of the last operation. -/
  left : Option Nat := none
  /-- How many members there are since then. -/
  size : Nat := 0
  /-- The greatest height of these members. -/
  inner : Nat := 0

namespace OpenClass

def add (c : OpenClass) (height : Nat) : OpenClass :=
  { c with size := c.size + 1, inner := max c.inner height }

/-- The height of what there is so far. Several members count as a level, and so does an operation.
-/
def height (c : OpenClass) : Nat :=
  let right := if 1 < c.size then c.inner + 1 else c.inner
  match c.left with
  | some left => max left right + 1
  | none => right

/-- The class after the sign of an operation. -/
def operation (c : OpenClass) : OpenClass := { left := some c.height }

end OpenClass

/-- The rest of a text that has to go on. -/
def goOn (m : Mode) (cs : List Char) : Option (List Char) :=
  match m.skip cs with
  | [] => none
  | cs => some cs

/-- The dashes at the start of a class, which stand for themselves. The fuel bounds their number. -/
def leadingDashes (m : Mode) (fuel : Nat) (cs : List Char) : Nat × List Char :=
  match fuel, cs with
  | fuel + 1, '-' :: cs =>
    let (n, rest) := leadingDashes m fuel (m.skip cs)
    (n + 1, rest)
  | _, cs => (0, cs)

/-- The start of a class after its bracket: a negation, and dashes or else a closing bracket that
stand for themselves. -/
def openClass (m : Mode) (cs : List Char) : Option (OpenClass × List Char) := do
  let cs ← goOn m cs
  let cs ← if cs.head? = some '^' then if m.wide then goOn m (cs.drop 1) else none else some cs
  let (dashes, cs) := leadingDashes m cs.length cs
  let cs ← goOn m cs
  if dashes = 0 ∧ cs.head? = some ']' then do
    let cs ← goOn m (cs.drop 1)
    some ({ size := 1 }, cs)
  else some ({ size := dashes }, cs)

/-- Names of classes of ASCII characters. -/
def asciiClasses : List String :=
  ["alnum", "alpha", "ascii", "blank", "cntrl", "digit", "graph", "lower", "print", "punct",
    "space", "upper", "word", "xdigit"]

/-- A named class after its bracket, and whether it is negated. -/
def namedClass (cs : List Char) : Option (Bool × List Char) :=
  match cs with
  | ':' :: cs =>
    let negated := cs.head? == some '^'
    let cs := if negated then cs.drop 1 else cs
    let name := cs.takeWhile (· ≠ ':')
    match cs.drop name.length with
    | ':' :: ']' :: rest =>
      if asciiClasses.contains (String.ofList name) then some (negated, rest) else none
    | _ => none
  | _ => none

/-- A member of a class by itself. -/
def readMember (m : Mode) (cs : List Char) : Option (Item × List Char) :=
  (readItem m cs).filter fun found => m.wide || found.1.isAscii

/-- One member of a class: a character, a set, or a range of characters. -/
def classMember (m : Mode) (cs : List Char) : Option (List Char) := do
  let (first, rest) ← readMember m cs
  let rest ← goOn m rest
  let next := m.skip (rest.drop 1)
  if rest.head? ≠ some '-' ∨ next.head? = some ']' ∨ next.head? = some '-' then
    if first = .place then none else some rest
  else do
    let (last, rest) ← readMember m next
    match first, last with
    | .char a, .char b => if a ≤ b then some rest else none
    | _, _ => none

/-- The rest of a class, from within those around it, to its closing bracket, with the height of the
whole. The fuel bounds the members read. -/
def classRest (m : Mode) (fuel : Nat) (c : OpenClass) (outer : List OpenClass) (cs : List Char) :
    Option (Nat × List Char) :=
  match fuel with
  | 0 => none
  | fuel + 1 =>
    match m.skip cs with
    | [] => none
    | '&' :: '&' :: cs => classRest m fuel c.operation outer cs
    | '-' :: '-' :: cs => classRest m fuel c.operation outer cs
    | '~' :: '~' :: cs => classRest m fuel c.operation outer cs
    | ']' :: cs =>
      match outer with
      | [] => some (c.height + 1, cs)
      | around :: outer => classRest m fuel (around.add (c.height + 1)) outer cs
    | '[' :: cs =>
      match namedClass cs with
      | some (negated, rest) =>
        if negated && !m.wide then none else classRest m fuel (c.add 0) outer rest
      | none => (openClass m cs).bind fun (d, rest) => classRest m fuel d (c :: outer) rest
    | cs => (classMember m cs).bind (classRest m fuel (c.add 0) outer)

/-- A class after its bracket. -/
def readClass (m : Mode) (cs : List Char) : Option (Nat × List Char) :=
  (openClass m cs).bind fun (c, rest) => classRest m (cs.length + 1) c [] rest

end Conveyor.Text.Pattern
