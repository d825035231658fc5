import Conveyor.Resource.Basic

/-!
Roles and their bindings to users, groups and service accounts.
-/

namespace Conveyor

/-- Verbs allowed on resources or on addresses. -/
structure PolicyRule where
  apiGroups : Option (List String) := none
  nonResourceUrls : Option (List String) := none
  resourceNames : Option (List String) := none
  resources : Option (List String) := none
  verbs : List String
  deriving DecidableEq

namespace PolicyRule

def toJson (r : PolicyRule) : Json :=
  .ofPresent [("apiGroups", r.apiGroups.map .strings),
    ("nonResourceURLs", r.nonResourceUrls.map .strings),
    ("resourceNames", r.resourceNames.map .strings), ("resources", r.resources.map .strings),
    ("verbs", some (.strings r.verbs))]

def record : Record PolicyRule :=
  (Record.make PolicyRule.mk)
    |>.field (.optional "apiGroups" (.list .text))
    |>.field (.optional "nonResourceURLs" (.list .text))
    |>.field (.optional "resourceNames" (.list .text))
    |>.field (.optional "resources" (.list .text))
    |>.field (.lenient "verbs" [] (.list .text))

def decode : Decoder PolicyRule := record.decodeObject "PolicyRule"

end PolicyRule

/-- The fields at the head of an object of a fixed kind: the kind's names, where given, and
metadata. -/
def Kind.header {α : Type} (k : Kind) (r : Record (Metadata → α)) : Record α :=
  (r.field (.lenient "metadata" {} Metadata.decode)).guard
    [("apiVersion", .exactly k.apiVersion), ("kind", .exactly k.name)]

structure Role where
  metadata : Metadata
  rules : Option (List PolicyRule)
  deriving DecidableEq

namespace Role

def toJson (r : Role) : Json :=
  .ofPresent (Kind.role.members ++
    [("metadata", some r.metadata.toJson),
      ("rules", r.rules.map fun rs => .array (rs.map PolicyRule.toJson))])

def record : Record Role :=
  (Kind.role.header (Record.make Role.mk))
    |>.field (.optional "rules" (.list PolicyRule.decode))

def decode : Decoder Role := record.decodeObject "Role"

instance : Resource Role where
  kind := .role
  metadata := metadata
  withMetadata r m := { r with metadata := m }
  toJson := toJson
  decode := decode
  metadata_withMetadata _ _ := rfl
  withMetadata_withMetadata _ _ _ := rfl
  withMetadata_metadata _ := rfl

end Role

/-- Who a binding is for. -/
structure Subject where
  apiGroup : Option String := none
  kind : String
  name : String
  namespaceName : Option String := none
  deriving DecidableEq

namespace Subject

def toJson (s : Subject) : Json :=
  .ofPresent [("apiGroup", s.apiGroup.map .string), ("kind", some (.string s.kind)),
    ("name", some (.string s.name)), ("namespace", s.namespaceName.map .string)]

def record : Record Subject :=
  (Record.make Subject.mk)
    |>.field (.optional "apiGroup" .text)
    |>.field (.lenient "kind" "" .text)
    |>.field (.lenient "name" "" .text)
    |>.field (.optional "namespace" .text)

def decode : Decoder Subject := record.decodeObject "Subject"

end Subject

/-- Which role a binding gives. -/
structure RoleReference where
  apiGroup : String := ""
  kind : String := ""
  name : String := ""
  deriving DecidableEq

namespace RoleReference

def toJson (r : RoleReference) : Json :=
  .ofMembers [("apiGroup", .string r.apiGroup), ("kind", .string r.kind), ("name", .string r.name)]

def record : Record RoleReference :=
  (Record.make RoleReference.mk)
    |>.field (.lenient "apiGroup" "" .text)
    |>.field (.lenient "kind" "" .text)
    |>.field (.lenient "name" "" .text)

def decode : Decoder RoleReference := record.decodeObject "RoleRef"

end RoleReference

structure RoleBinding where
  metadata : Metadata
  roleRef : RoleReference
  subjects : Option (List Subject)
  deriving DecidableEq

namespace RoleBinding

def toJson (b : RoleBinding) : Json :=
  .ofPresent (Kind.roleBinding.members ++
    [("metadata", some b.metadata.toJson), ("roleRef", some b.roleRef.toJson),
      ("subjects", b.subjects.map fun ss => .array (ss.map Subject.toJson))])

def record : Record RoleBinding :=
  (Kind.roleBinding.header (Record.make RoleBinding.mk))
    |>.field (.lenient "roleRef" {} RoleReference.decode)
    |>.field (.optional "subjects" (.list Subject.decode))

def decode : Decoder RoleBinding := record.decodeObject "RoleBinding"

instance : Resource RoleBinding where
  kind := .roleBinding
  metadata := metadata
  withMetadata b m := { b with metadata := m }
  toJson := toJson
  decode := decode
  metadata_withMetadata _ _ := rfl
  withMetadata_withMetadata _ _ _ := rfl
  withMetadata_metadata _ := rfl

end RoleBinding

end Conveyor
