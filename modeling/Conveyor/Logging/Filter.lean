import Conveyor.Logging.Line
import Conveyor.Text.Lowercase
import Conveyor.Text.Blank
import Conveyor.Text.Bytes
import Conveyor.Text.Pattern
import Conveyor.Text.Separated

/-!
Which log lines are written. A filter is a list of directives such as `info` or `conveyor=debug`. Of
the directives that speak about a line the most specific decides, and a line about which none speaks
is dropped.
-/

namespace Conveyor

/-- How far down the severities a directive lets lines through. -/
inductive Verbosity where
  | off
  | upTo (lowest : Severity)
  deriving DecidableEq, Repr

namespace Verbosity

def admits (v : Verbosity) (s : Severity) : Bool :=
  match v with
  | off => false
  | upTo lowest => s.rank ≤ lowest.rank

def all : Verbosity := upTo .trace

/-- The number that digits write, after a plus sign if there is one. -/
def readNumber (cs : List Char) : Option Nat :=
  let digits := match cs with
    | '+' :: cs => cs
    | cs => cs
  if digits.isEmpty || !digits.all Char.isDigit then none
  else some (digits.foldl (fun n c => n * 10 + (c.toNat - '0'.toNat)) 0)

def ofNumber? (n : Nat) : Option Verbosity :=
  if n = 0 then some off else (Severity.all.find? fun s => s.rank = n).map upTo

def ofName? (s : String) : Option Verbosity :=
  let word := Text.lowercaseAscii s
  if word = "off" then some off
  else (Severity.all.find? fun s => Text.lowercaseAscii s.name = word).map upTo

/-- The verbosity of a name in any case, or of a number up to five. -/
def ofText? (s : String) : Option Verbosity :=
  match readNumber s.toList with
  | some n => ofNumber? n
  | none => ofName? s

end Verbosity

/-- Spans are stretches of the program's run that have names; lines outside them are not in any. -/
structure LogDirective where
  /-- How the targets begin that the directive speaks about; all of them when absent. -/
  target : Option String := none
  span : Option String := none
  /-- A field that has to be there. -/
  field : Option String := none
  /-- Whether the field has to have a certain value as well. -/
  asksValue : Bool := false
  verbosity : Verbosity := .all

namespace LogDirective

/-- Whether the directive can speak about a line by the line's own parts. -/
def isStatic (d : LogDirective) : Bool := d.span.isNone && !d.asksValue

def speaksAbout (d : LogDirective) (l : LogLine) : Bool :=
  d.isStatic && d.target.all (fun t => t.toList.isPrefixOf l.target.toList) &&
    d.field.all l.fieldNames.contains

/-- Whether `d` is at least as specific as `e`: by the length of the target first, then by the
field. -/
def isAsSpecificAs (d e : LogDirective) : Bool :=
  let length (d : LogDirective) : Nat := (d.target.map String.utf8ByteSize).getD 0
  if length d ≠ length e then length e < length d
  else match d.field, e.field with
    | _, none => true
    | none, some _ => false
    | some a, some b => b ≤ a

/-! ### Reading

A directive is a level, a target, or a target or bracketed span with a level after an equals sign.
No level means the most verbose one. White space at the ends of a directive does not count where its
parts are told apart. The parts, though, are cut out of the directive as it stands, by the bytes in
front of them without the white space, so that white space in front displaces them. -/

/-- Whether a text writes a number, or infinity or no number by name. -/
def isNumber (cs : List Char) : Bool :=
  let cs := match cs with
    | '+' :: cs | '-' :: cs => cs
    | cs => cs
  let whole := cs.takeWhile Char.isDigit
  let (fraction, rest) := match cs.drop whole.length with
    | '.' :: cs => cs.span Char.isDigit
    | cs => ([], cs)
  ["inf", "infinity", "nan"].contains (Text.lowercaseAscii (String.ofList cs)) ||
    !(whole ++ fraction).isEmpty &&
      match rest with
      | [] => true
      | c :: cs =>
        let digits := match cs with
          | '+' :: cs | '-' :: cs => cs
          | cs => cs
        (c == 'e' || c == 'E') && !digits.isEmpty && digits.all Char.isDigit

/-- A field, with the value asked for after an equals sign: a number or a pattern. -/
def readField (d : LogDirective) (s : String) : Option LogDirective :=
  match Text.Separated.pieces '=' s.toList with
  | name :: value :: _ =>
    if isNumber value || Text.isPattern value then
      some { d with field := some (String.ofList name), asksValue := true }
    else none
  | _ => some { d with field := some s }

/-- What may stand after a span. Of the directive as it stands, `rest` is left unread after `start`
bytes without the white space. -/
def readLevel (d : LogDirective) (whole : List Char) (start : Nat) (rest : List Char) :
    Option LogDirective :=
  match rest with
  | [] => some d
  | '=' :: _ =>
    let level := Text.dropBytes (start + 1) whole
    if level.isEmpty then some d
    else (Verbosity.ofText? (String.ofList level)).map fun v => { d with verbosity := v }
  | _ => none

/-- A span's name, with a field between braces if one is asked for, up to the closing bracket. -/
def readSpan (d : LogDirective) (whole : List Char) (start : Nat) (rest : List Char) :
    Option LogDirective :=
  let name := rest.takeWhile fun c => c ≠ ']' ∧ c ≠ '\x7b'
  let stop := start + Text.byteCount name
  let span := String.ofList (Text.part whole start stop)
  match rest.drop name.length with
  | ']' :: rest => { d with span := some span }.readLevel whole (stop + 1) rest
  | '\x7b' :: rest =>
    let inner := rest.takeWhile (· ≠ '\x7d')
    let close := stop + 1 + Text.byteCount inner
    match rest.drop inner.length with
    | '\x7d' :: ']' :: rest =>
      if inner.isEmpty then none
      else do
        let d ← { d with span := if span.isEmpty then none else some span }.readField
          (String.ofList (Text.part whole (stop + 1) close))
        d.readLevel whole (close + 2) rest
    | _ => none
  | _ => none

def startsTarget (c : Char) : Bool :=
  c == '-' || c == ':' || c == '_' || Text.isAlphanumeric c

def read (whole : List Char) : Option LogDirective :=
  match (Text.trimBlank (String.ofList whole)).toList with
  | [] => none
  | '[' :: rest => readSpan {} whole 1 rest
  | c :: rest =>
    if !startsTarget c then none
    else
      let name := (c :: rest).takeWhile fun c => c ≠ '=' ∧ c ≠ '['
      let stop := Text.byteCount name
      let d : LogDirective := { target := some (String.ofList (Text.part whole 0 stop)) }
      match (c :: rest).drop name.length with
      | [] =>
        match Verbosity.ofText? (String.ofList whole) with
        | some v => some { verbosity := v }
        | none => some { target := some (String.ofList whole) }
      | '[' :: rest => d.readSpan whole (stop + 1) rest
      | rest => d.readLevel whole stop rest

end LogDirective

structure LogFilter where
  directives : List LogDirective

namespace LogFilter

/-- The environment variable that holds the filter. -/
def variableName : String := "RUST_LOG"

/-- The filter in use when the environment gives none, or none that can be read. -/
def standardText : String := "info,conveyor=debug,kube=info,tower=warn,hyper=warn"

/-- The directives between the commas; every one of them has to be readable. -/
def ofText? (s : String) : Option LogFilter :=
  ((Text.Separated.pieces ',' s.toList).filter (!·.isEmpty)).mapM LogDirective.read |>.map .mk

def standard : LogFilter := (ofText? standardText).getD ⟨[]⟩

/-- The filter that the value of the environment's variable asks for. -/
def ofVariable (value : Option String) : LogFilter := (value.bind ofText?).getD standard

/-- The directive that decides about a line: the last of the most specific ones that speak about it.
-/
def deciding (f : LogFilter) (l : LogLine) : Option LogDirective :=
  (f.directives.filter (·.speaksAbout l)).foldl
    (fun best d =>
      match best with
      | none => some d
      | some b => if d.isAsSpecificAs b then some d else some b)
    none

def admits (f : LogFilter) (l : LogLine) : Bool :=
  match f.deciding l with
  | some d => d.verbosity.admits l.severity
  | none => false

end LogFilter

end Conveyor
