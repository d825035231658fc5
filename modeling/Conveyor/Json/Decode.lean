import Conveyor.Json.Printer
import Conveyor.Text.Quoted
import Conveyor.Time.Text

/-!
Typed values from JSON. A record is described once, field by field in declaration order (`Record`),
and read in either of its two forms: as an object, whose members are looked at in key order before
the fields that are not there, or as an array of the fields' values. Members that no field claims
are passed over.

Values come from loosely read text as well, where members may be repeated and parts may be
unreadable. A part that no field asks for may be so without harm. Of a repeated field every value
has to be right, and whether it may be repeated at all depends on the kind of record.
-/

namespace Conveyor

/-- What a decoder accepts. -/
inductive Expected where
  | text
  | boolean
  | sequence
  | dictionary
  | int32
  | int64
  | statusCode
  | instant
  | value
  | record (type : String)
  | object (type : String)
  | choice (type : String)
  deriving DecidableEq, Repr

def Expected.description : Expected → String
  | text => "a string"
  | boolean => "a boolean"
  | sequence => "a sequence"
  | dictionary => "a map"
  | int32 => "i32"
  | int64 => "i64"
  | statusCode => "u16"
  | instant => "an RFC 3339 formatted date and time string"
  | value => "any valid JSON value"
  | record type => "struct " ++ type
  | object type => type
  | choice type => "enum " ++ type

/-- Why a JSON value is no value of a type. -/
inductive DecodeError where
  | unexpected (found : Json) (expected : Expected)
  | outOfRange (n : Int) (expected : Expected)
  | missingMember (name : String)
  | repeatedMember (name : String)
  | tooShort (count : Nat) (type : String) (size : Nat)
  | tooLong (count : Nat)
  | badInstant (fault : TimeFault)
  | otherText (found expected : String)
  deriving DecidableEq

namespace DecodeError

/-- A value by its kind, with its content where that is short. -/
def describe : Json → String
  | .null => "null"
  | .bool b => "boolean `" ++ (if b then "true" else "false") ++ "`"
  | .number (.int n) => "integer `" ++ String.ofList (Json.writeInt n) ++ "`"
  | .number (.real x) => "floating point `" ++ String.ofList x.toText ++ "`"
  | .string s => "string " ++ Text.quote s
  | .array _ => "sequence"
  | .object _ => "map"

def message : DecodeError → String
  | unexpected found expected =>
    "invalid type: " ++ describe found ++ ", expected " ++ expected.description
  | outOfRange n expected =>
    "invalid value: " ++ describe (.int n) ++ ", expected " ++ expected.description
  | missingMember name => "missing field `" ++ name ++ "`"
  | repeatedMember name => "duplicate field `" ++ name ++ "`"
  | tooShort count type size =>
    "invalid length " ++ toString count ++ ", expected struct " ++ type ++ " with " ++
      toString size ++
      " elements"
  | tooLong count => "invalid length " ++ toString count ++ ", expected fewer elements in array"
  | badInstant fault => fault.message
  | otherText found expected =>
    "invalid value: " ++ describe (.string found) ++ ", expected " ++ expected

end DecodeError

/-- A way to read values of a type. -/
abbrev Decoder (α : Type) := Json → Except DecodeError α

namespace Decoder

variable {α : Type}

def text : Decoder String
  | .string s => .ok s
  | j => .error (.unexpected j .text)

def boolean : Decoder Bool
  | .bool b => .ok b
  | j => .error (.unexpected j .boolean)

/-- A whole number between two bounds. -/
def integer (least greatest : Int) (expected : Expected) : Decoder Int
  | .number (.int n) =>
    if least ≤ n ∧ n ≤ greatest then .ok n else .error (.outOfRange n expected)
  | j => .error (.unexpected j expected)

def int32 : Decoder Int := integer (-0x80000000) 0x7FFFFFFF .int32

def int64 : Decoder Int := integer (-0x8000000000000000) 0x7FFFFFFFFFFFFFFF .int64

def statusCode : Decoder Nat := fun j => (integer 0 0xFFFF .statusCode j).map Int.toNat

def instant : Decoder Timestamp
  | .string s =>
    match Timestamp.ofText s with
    | .ok t => .ok t
    | .error fault => .error (.badInstant fault)
  | j => .error (.unexpected j .instant)

/-- Any value at all. -/
def anything : Decoder Json := fun j =>
  match j.settled? with
  | some v => .ok v
  | none => .error (.unexpected j .value)

def list (f : Decoder α) : Decoder (List α)
  | .array xs => xs.mapM f
  | j => .error (.unexpected j .sequence)

/-- The members of an object by their keys. -/
def dict (f : Decoder α) : Decoder (Dict String α)
  | .object ms => do
    let es ← ms.mapM fun m => do .ok (m.1, ← f m.2)
    .ok (.ofList es)
  | j => .error (.unexpected j .dictionary)

/-- Null, or a value. -/
def nullable (f : Decoder α) : Decoder (Option α)
  | .null => .ok none
  | j => (f j).map some

/-- A value, with null for the default one. -/
def orDefault (a : α) (f : Decoder α) : Decoder α
  | .null => .ok a
  | j => f j

/-- One given text. -/
def exactly (expected : String) : Decoder Unit := fun j => do
  let found ← text j
  if found = expected then .ok () else .error (.otherText found expected)

end Decoder

/-- One field of a record. -/
structure Field (α : Type) where
  name : String
  decode : Decoder α
  /-- The value when an object has no such member; without one the member is required. -/
  absent : Option α
  /-- The value when an array ends before the field. -/
  beyond : Option α

namespace Field

variable {α : Type}

def required (name : String) (f : Decoder α) : Field α := ⟨name, f, none, none⟩

def withDefault (name : String) (a : α) (f : Decoder α) : Field α := ⟨name, f, some a, some a⟩

def optional (name : String) (f : Decoder α) : Field (Option α) :=
  ⟨name, .nullable f, some none, some none⟩

/-- A field for which null and absence mean the default value. -/
def lenient (name : String) (a : α) (f : Decoder α) : Field α :=
  ⟨name, .orDefault a f, some a, some a⟩

end Field

/-- The value of the last member with a name. -/
def lastMember? (name : String) (ms : List (String × Json)) : Option Json :=
  (ms.filter (·.1 = name)).getLast?.map Prod.snd

/-- A record type by its fields. -/
structure Record (α : Type) where
  size : Nat
  /-- The members that the record looks at. -/
  names : List String
  /-- Decodes a member for its field, keeping only whether that is possible. -/
  check : String → Json → Except DecodeError Unit
  ofMembers : List (String × Json) → Except DecodeError α
  /-- The record at the front of a list of values, with the values after it. -/
  ofElements : String → Nat → List Json → Except DecodeError (α × List Json)

namespace Record

variable {α β : Type}

/-- The record without fields. -/
def make (a : α) : Record α :=
  ⟨0, [], fun _ _ => .ok (), fun _ => .ok a, fun _ _ es => .ok (a, es)⟩

/-- One more field at the end. -/
def field (r : Record (β → α)) (f : Field β) : Record α where
  size := r.size + 1
  names := r.names ++ [f.name]
  check name j := if name = f.name then (f.decode j).map fun _ => () else r.check name j
  ofMembers ms := do
    let g ← r.ofMembers ms
    match lastMember? f.name ms with
    | some j => .ok (g (← f.decode j))
    | none =>
      match f.absent with
      | some b => .ok (g b)
      | none => .error (.missingMember f.name)
  ofElements type size es := do
    let (g, es) ← r.ofElements type size es
    match es with
    | j :: es => .ok (g (← f.decode j), es)
    | [] =>
      match f.beyond with
      | some b => .ok (g b, [])
      | none => .error (.tooShort r.size type size)

/-- The same record with members that carry nothing but are checked where they are given. -/
def guard (r : Record α) (checks : List (String × Decoder Unit)) : Record α where
  size := r.size
  names := r.names ++ checks.map (·.1)
  check name j :=
    match checks.find? (·.1 = name) with
    | some c => c.2 j
    | none => r.check name j
  ofMembers := r.ofMembers
  ofElements := r.ofElements

/-- Every member is decoded in order first, so that the earliest bad value is reported before any
absence. -/
def decodeMembers (r : Record α) (ms : List (String × Json)) : Except DecodeError α := do
  ms.forM fun m => r.check m.1 m.2
  r.ofMembers ms

/-- The first of the record's members that is there more than once. -/
def repeated? (r : Record α) (ms : List (String × Json)) : Option String :=
  r.names.find? fun name => 1 < (ms.filter (·.1 = name)).length

/-- The members of a record none of which may be repeated. -/
def decodeDistinct (r : Record α) (ms : List (String × Json)) : Except DecodeError α :=
  match r.repeated? ms with
  | some name => .error (.repeatedMember name)
  | none => r.decodeMembers ms

/-- The record in one of its two forms. -/
def decode (type : String) (r : Record α) : Decoder α
  | .object ms => r.decodeDistinct ms
  | .array es => do
    let (a, rest) ← r.ofElements type r.size es
    if rest.isEmpty then .ok a else .error (.tooLong es.length)
  | j => .error (.unexpected j (.record type))

/-- The record as an object only, where the last of several members with one name counts. -/
def decodeObject (type : String) (r : Record α) : Decoder α
  | .object ms => r.decodeMembers ms
  | j => .error (.unexpected j (.object type))

/-- The record as an object only, in which the members that the record does not look at have to be
readable too. -/
def decodeOpen (type : String) (r : Record α) : Decoder α
  | .object ms => do
    (ms.filter (!r.names.contains ·.1)).forM fun m => (Decoder.anything m.2).map fun _ => ()
    r.decodeDistinct ms
  | j => .error (.unexpected j (.object type))

end Record

end Conveyor
