import Conveyor.Json.Decode

/-!
The metadata that all cluster objects have. Lists and dictionaries are optional, and an empty one is
not the same as none: what was read as there is written again.
-/

namespace Conveyor

/-- An object that another one belongs to. -/
structure OwnerReference where
  apiVersion : String
  blockOwnerDeletion : Option Bool
  controller : Option Bool
  kind : String
  name : String
  uid : String
  deriving DecidableEq

namespace OwnerReference

def toJson (o : OwnerReference) : Json :=
  .ofPresent [("apiVersion", some (.string o.apiVersion)),
    ("blockOwnerDeletion", o.blockOwnerDeletion.map .bool), ("controller", o.controller.map .bool),
    ("kind", some (.string o.kind)), ("name", some (.string o.name)), ("uid", some (.string o.uid))]

def record : Record OwnerReference :=
  (Record.make OwnerReference.mk)
    |>.field (.lenient "apiVersion" "" .text)
    |>.field (.optional "blockOwnerDeletion" .boolean)
    |>.field (.optional "controller" .boolean)
    |>.field (.lenient "kind" "" .text)
    |>.field (.lenient "name" "" .text)
    |>.field (.lenient "uid" "" .text)

def decode : Decoder OwnerReference := record.decodeObject "OwnerReference"

/-- Whether the owner is the one that controls the object. -/
def isController (o : OwnerReference) : Bool := o.controller == some true

end OwnerReference

/-- Which manager last set which fields. -/
structure ManagedFields where
  apiVersion : Option String
  fieldsType : Option String
  fields : Option Json
  manager : Option String
  operation : Option String
  subresource : Option String
  time : Option Timestamp
  deriving DecidableEq

namespace ManagedFields

def instantJson (t : Timestamp) : Json := .string t.toTextWholeSeconds

def toJson (m : ManagedFields) : Json :=
  .ofPresent [("apiVersion", m.apiVersion.map .string), ("fieldsType", m.fieldsType.map .string),
    ("fieldsV1", m.fields), ("manager", m.manager.map .string),
    ("operation", m.operation.map .string),
    ("subresource", m.subresource.map .string), ("time", m.time.map instantJson)]

def record : Record ManagedFields :=
  (Record.make ManagedFields.mk)
    |>.field (.optional "apiVersion" .text)
    |>.field (.optional "fieldsType" .text)
    |>.field (.optional "fieldsV1" .anything)
    |>.field (.optional "manager" .text)
    |>.field (.optional "operation" .text)
    |>.field (.optional "subresource" .text)
    |>.field (.optional "time" .instant)

def decode : Decoder ManagedFields := record.decodeObject "ManagedFieldsEntry"

end ManagedFields

structure Metadata where
  annotations : Option (Dict String String) := none
  creationTimestamp : Option Timestamp := none
  deletionGracePeriodSeconds : Option Int := none
  deletionTimestamp : Option Timestamp := none
  finalizers : Option (List String) := none
  generateName : Option String := none
  generation : Option Int := none
  labels : Option (Dict String String) := none
  managedFields : Option (List ManagedFields) := none
  name : Option String := none
  namespaceName : Option String := none
  ownerReferences : Option (List OwnerReference) := none
  resourceVersion : Option String := none
  selfLink : Option String := none
  uid : Option String := none
  deriving DecidableEq

namespace Metadata

instance : Inhabited Metadata := ⟨{}⟩

def toJson (m : Metadata) : Json :=
  .ofPresent [("annotations", m.annotations.map .ofDict),
    ("creationTimestamp", m.creationTimestamp.map ManagedFields.instantJson),
    ("deletionGracePeriodSeconds", m.deletionGracePeriodSeconds.map .int),
    ("deletionTimestamp", m.deletionTimestamp.map ManagedFields.instantJson),
    ("finalizers", m.finalizers.map .strings), ("generateName", m.generateName.map .string),
    ("generation", m.generation.map .int), ("labels", m.labels.map .ofDict),
    ("managedFields", m.managedFields.map fun fs => .array (fs.map ManagedFields.toJson)),
    ("name", m.name.map .string), ("namespace", m.namespaceName.map .string),
    ("ownerReferences", m.ownerReferences.map fun os => .array (os.map OwnerReference.toJson)),
    ("resourceVersion", m.resourceVersion.map .string), ("selfLink", m.selfLink.map .string),
    ("uid", m.uid.map .string)]

def record : Record Metadata :=
  (Record.make Metadata.mk)
    |>.field (.optional "annotations" (.dict .text))
    |>.field (.optional "creationTimestamp" .instant)
    |>.field (.optional "deletionGracePeriodSeconds" .int64)
    |>.field (.optional "deletionTimestamp" .instant)
    |>.field (.optional "finalizers" (.list .text))
    |>.field (.optional "generateName" .text)
    |>.field (.optional "generation" .int64)
    |>.field (.optional "labels" (.dict .text))
    |>.field (.optional "managedFields" (.list ManagedFields.decode))
    |>.field (.optional "name" .text)
    |>.field (.optional "namespace" .text)
    |>.field (.optional "ownerReferences" (.list OwnerReference.decode))
    |>.field (.optional "resourceVersion" .text)
    |>.field (.optional "selfLink" .text)
    |>.field (.optional "uid" .text)

def decode : Decoder Metadata := record.decodeObject "ObjectMeta"

/-- The name, or the stem of a name still to be made. -/
def nameOrStem (m : Metadata) : String := m.name.getD (m.generateName.getD "")

def namespaceOrEmpty (m : Metadata) : String := m.namespaceName.getD ""

def nameOrEmpty (m : Metadata) : String := m.name.getD ""

/-- The metadata of a new object. -/
def named (name : String) : Metadata := { name := some name }

end Metadata

end Conveyor
