import Conveyor.Resource.Kind
import Conveyor.Resource.Metadata

/-!
What the store and the client need to know of a type of cluster objects, and the layout that objects
of custom kinds share: metadata and a specification.
-/

namespace Conveyor

/-- A type of cluster objects. -/
class Resource (α : Type) where
  kind : Kind
  metadata : α → Metadata
  withMetadata : α → Metadata → α
  toJson : α → Json
  decode : Decoder α
  metadata_withMetadata : ∀ a m, metadata (withMetadata a m) = m
  withMetadata_withMetadata : ∀ a m n, withMetadata (withMetadata a m) n = withMetadata a n
  withMetadata_metadata : ∀ a, withMetadata a (metadata a) = a

namespace Resource

attribute [simp] metadata_withMetadata withMetadata_withMetadata withMetadata_metadata

variable {α : Type} [Resource α]

def nameOrStem (a : α) : String := (metadata a).nameOrStem

def namespaceOrEmpty (a : α) : String := (metadata a).namespaceOrEmpty

/-- The object as stored in a namespace under a revision. -/
def stored (a : α) (namespaceName revision : String) : α :=
  withMetadata a
    { metadata a with namespaceName := some namespaceName, resourceVersion := some revision }

end Resource

/-- The members that name the kind of an object. -/
def Kind.members (k : Kind) : List (String × Option Json) :=
  [("apiVersion", some (.string k.apiVersion)), ("kind", some (.string k.name))]

end Conveyor
