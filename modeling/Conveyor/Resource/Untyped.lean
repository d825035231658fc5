import Conveyor.Error
import Conveyor.Resource.Access

/-!
Objects of which only the metadata matter here: namespaces, tenancy objects, lists, and the status
objects that report the outcome of a removal. What else they hold is checked for its shape where the
shape is known.
-/

namespace Conveyor

/-- Checks a value and forgets it. -/
def Decoder.shape {α : Type} (f : Decoder α) : Decoder Unit := fun j => (f j).map fun _ => ()

/-- Checks a value unless it is null. -/
def Decoder.shape? {α : Type} (f : Decoder α) : Decoder Unit := (Decoder.nullable f).shape

/-- One of several words, alone or as the only key of an object with the value null. -/
def Decoder.word (type : String) (words : List String) : Decoder Unit
  | .string s => if words.contains s then .ok () else .error (.otherText s type)
  | .object [(s, .null)] => if words.contains s then .ok () else .error (.otherText s type)
  | j => .error (.unexpected j (.choice type))

namespace NamespaceObject

/-- A condition that a namespace reports. -/
def condition : Decoder Unit :=
  ((Record.make ()).guard [("lastTransitionTime", .shape? .instant), ("message", .shape? .text),
    ("reason", .shape? .text), ("status", .shape? .text), ("type", .shape? .text)]).decodeObject
    "NamespaceCondition"

def spec : Decoder Unit :=
  ((Record.make ()).guard [("finalizers", .shape? (.list .text))]).decodeObject "NamespaceSpec"

def status : Decoder Unit :=
  ((Record.make ()).guard
    [("conditions", .shape? (.list condition)), ("phase", .shape? .text)]).decodeObject
    "NamespaceStatus"

def record : Record Metadata :=
  (Kind.namespaceKind.header (Record.make id)).guard
    [("spec", .shape? spec), ("status", .shape? status)]

/-- The metadata of a namespace. -/
def decode : Decoder Metadata := record.decodeObject "Namespace"

def toJson (m : Metadata) : Json :=
  .ofPresent (Kind.namespaceKind.members ++ [("metadata", some m.toJson)])

end NamespaceObject

namespace DynamicObject

/-- The metadata of an object of any kind; they may be missing but not null. -/
def decode : Decoder Metadata :=
  ((Record.make id).field (.withDefault "metadata" {} Metadata.decode)).decodeOpen "DynamicObject"

/-- An object of a kind with further members. -/
def toJson (k : Kind) (m : Metadata) (more : List (String × Json)) : Json :=
  .ofPresent (k.members ++ ("metadata", some m.toJson) :: more.map fun e => (e.1, some e.2))

end DynamicObject

namespace ObjectList

def metadata : Decoder Unit :=
  ((Record.make ()).guard [("continue", .shape? .text), ("remainingItemCount", .shape? .int64),
    ("resourceVersion", .shape? .text), ("selfLink", .shape? .text)]).decodeObject "ListMeta"

/-- The items of a list object; null means that there are none. -/
def decode {α : Type} (f : Decoder α) : Decoder (List α) :=
  (((Record.make id).field (.required "items" (.orDefault [] (.list f)))).guard
    [("metadata", .shape metadata)]).decodeOpen "ObjectList"

end ObjectList

namespace StatusObject

def causeRecord : Record Unit :=
  (Record.make fun _ _ _ => ())
    |>.field (.withDefault "reason" "" .text)
    |>.field (.withDefault "message" "" .text)
    |>.field (.withDefault "field" "" .text)

def cause : Decoder Unit := causeRecord.decode "StatusCause"

def detailsRecord : Record Unit :=
  (Record.make fun _ _ _ _ _ _ => ())
    |>.field (.withDefault "name" "" .text)
    |>.field (.withDefault "group" "" .text)
    |>.field (.withDefault "kind" "" .text)
    |>.field (.withDefault "uid" "" .text)
    |>.field (.withDefault "causes" [] (.list cause))
    |>.field (.withDefault "retryAfterSeconds" 0 (.integer 0 0xFFFFFFFF .int64))

def details : Decoder Unit := detailsRecord.decode "StatusDetails"

/-- The kind that marks a status object. -/
def kindName : String := "Status"

/-- The shape of the report on a removal. -/
def decode : Decoder Unit :=
  ((Record.make ()).guard
    [("status", .shape? (.word "StatusSummary" ["Success", "Failure"])),
      ("code", .shape .statusCode), ("message", .shape .text), ("reason", .shape .text),
      ("details", .shape? details)]).decode "Status"

def toJson (status message reason : String) (code : Nat) : Json :=
  .ofMembers [("apiVersion", .string "v1"), ("kind", .string kindName), ("status", .string status),
    ("message", .string message), ("reason", .string reason), ("code", .nat code)]

end StatusObject

namespace Refusal

def record : Record Refusal :=
  (Record.make Refusal.mk)
    |>.field (.required "status" .text)
    |>.field (.withDefault "message" "" .text)
    |>.field (.withDefault "reason" "" .text)
    |>.field (.required "code" .statusCode)

def decode : Decoder Refusal := record.decode "ErrorResponse"

end Refusal

end Conveyor
