import Conveyor.Resource.Basic

/-!
Image streams: the tags built or promoted for one codebase.
-/

namespace Conveyor

/-- An image tag and when it was made, in the registry's words. -/
structure Tag where
  name : String
  created : Option String := none
  deriving DecidableEq

namespace Tag

def toJson (t : Tag) : Json :=
  .ofPresent [("name", some (.string t.name)), ("created", t.created.map .string)]

def record : Record Tag :=
  (Record.make Tag.mk)
    |>.field (.required "name" .text)
    |>.field (.optional "created" .text)

def decode : Decoder Tag := record.decode "Tag"

end Tag

structure ImageStreamSpec where
  codebase : String
  /-- The full name of the image, without a tag. -/
  imageName : String := ""
  tags : List Tag := []
  deriving DecidableEq

namespace ImageStreamSpec

def toJson (s : ImageStreamSpec) : Json :=
  .ofMembers [("codebase", .string s.codebase), ("imageName", .string s.imageName),
    ("tags", .array (s.tags.map Tag.toJson))]

def record : Record ImageStreamSpec :=
  (Record.make ImageStreamSpec.mk)
    |>.field (.required "codebase" .text)
    |>.field (.withDefault "imageName" "" .text)
    |>.field (.withDefault "tags" [] (.list Tag.decode))

def decode : Decoder ImageStreamSpec := record.decode "CodebaseImageStreamSpec"

end ImageStreamSpec

structure ImageStream where
  metadata : Metadata
  spec : ImageStreamSpec
  deriving DecidableEq

namespace ImageStream

def toJson (s : ImageStream) : Json :=
  .ofPresent (Kind.imageStream.members ++
    [("metadata", some s.metadata.toJson), ("spec", some s.spec.toJson)])

def record : Record ImageStream :=
  (Record.make ImageStream.mk)
    |>.field (.required "metadata" Metadata.decode)
    |>.field (.required "spec" ImageStreamSpec.decode)

def decode : Decoder ImageStream := record.decode "CodebaseImageStream"

instance : Resource ImageStream where
  kind := .imageStream
  metadata := metadata
  withMetadata s m := { s with metadata := m }
  toJson := toJson
  decode := decode
  metadata_withMetadata _ _ := rfl
  withMetadata_withMetadata _ _ _ := rfl
  withMetadata_metadata _ := rfl

def name (s : ImageStream) : String := s.metadata.nameOrStem

def labels (s : ImageStream) : Dict String String := s.metadata.labels.getD ∅

def annotations (s : ImageStream) : Dict String String := s.metadata.annotations.getD ∅

end ImageStream

end Conveyor
