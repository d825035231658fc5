import Conveyor.Resource.Basic

/-!
Platform components and their endpoints. The one of interest here is the registry that images are
pushed to.
-/

namespace Conveyor

structure ComponentSpec where
  type : String := ""
  url : String
  icon : String := ""
  visible : Bool := false
  deriving DecidableEq

namespace ComponentSpec

def toJson (s : ComponentSpec) : Json :=
  .ofMembers [("type", .string s.type), ("url", .string s.url), ("icon", .string s.icon),
    ("visible", .bool s.visible)]

def record : Record ComponentSpec :=
  (Record.make ComponentSpec.mk)
    |>.field (.withDefault "type" "" .text)
    |>.field (.required "url" .text)
    |>.field (.withDefault "icon" "" .text)
    |>.field (.withDefault "visible" false .boolean)

def decode : Decoder ComponentSpec := record.decode "EDPComponentSpec"

end ComponentSpec

structure Component where
  metadata : Metadata
  spec : ComponentSpec
  deriving DecidableEq

namespace Component

/-- The component that describes the image registry. -/
def registryName : String := "docker-registry"

def toJson (c : Component) : Json :=
  .ofPresent (Kind.component.members ++
    [("metadata", some c.metadata.toJson), ("spec", some c.spec.toJson)])

def record : Record Component :=
  (Record.make Component.mk)
    |>.field (.required "metadata" Metadata.decode)
    |>.field (.required "spec" ComponentSpec.decode)

def decode : Decoder Component := record.decode "EDPComponent"

instance : Resource Component where
  kind := .component
  metadata := metadata
  withMetadata c m := { c with metadata := m }
  toJson := toJson
  decode := decode
  metadata_withMetadata _ _ := rfl
  withMetadata_withMetadata _ _ _ := rfl
  withMetadata_metadata _ := rfl

end Component

end Conveyor
