import Conveyor.Ordering

/-!
Verified image streams. Every stage has one for each input of its pipeline, which the next stage
consumes; the first stage consumes the inputs themselves.
-/

namespace Conveyor.Promotion

/-- The stream in which a stage publishes a codebase. -/
def verifiedName (pipeline stage codebase : String) : String :=
  pipeline ++ "-" ++ stage ++ "-" ++ codebase ++ "-verified"

theorem toList_verifiedName (pipeline stage codebase : String) :
    (verifiedName pipeline stage codebase).toList =
      pipeline.toList ++ '-' :: stage.toList ++ '-' :: codebase.toList ++
        ['-', 'v', 'e', 'r', 'i', 'f', 'i', 'e', 'd'] := by
  simp [verifiedName, String.toList_append]

/-- The pipeline that a stage belongs to. -/
def pipelineOf (stage : Stage) : Session Pipeline := do
  let found : Option Pipeline ←
    Session.request (.getPipeline stage.namespaceName stage.pipelineName)
  match found with
  | some pipeline => pure pipeline
  | none => Session.fail (.notFound Kind.pipeline.name stage.namespaceName stage.pipelineName)

/-- The input streams of a pipeline, of which there has to be one at least. -/
def inputs (pipeline : Pipeline) : Except Error (List String) :=
  if pipeline.spec.inputStreams.isEmpty then
    .error (.configuration
      (Kind.pipeline.name ++ " " ++ pipeline.metadata.namespaceOrEmpty ++ "/" ++ pipeline.name)
      "pipeline has no input docker streams")
  else .ok pipeline.spec.inputStreams

/-- The failure of a look-up that finds nothing. -/
def lookupError (kind namespaceName name : String) : Error :=
  .downstream "get" kind name (.notFound kind namespaceName name)

def stream (namespaceName name : String) : Session ImageStream := do
  let found : Option ImageStream ← Session.request (.getImageStream namespaceName name)
  match found with
  | some s => pure s
  | none => Session.fail (lookupError Kind.imageStream.name namespaceName name)

/-- The registry that images are pushed to. -/
def registryUrl (namespaceName : String) : Session String := do
  let found : Option Component ←
    Session.request (.getComponent namespaceName Component.registryName)
  match found with
  | some component => pure component.spec.url
  | none => Session.fail (lookupError Kind.component.name namespaceName Component.registryName)

/-- A codebase and the stream that a stage reads it from. -/
structure Consumed where
  codebase : String
  stream : ImageStream
  deriving DecidableEq

/-- What a stage consumes for one input: the input itself, or the predecessor's stream of its
codebase. -/
def consumedFor (stage : Stage) (pipeline : Pipeline) (predecessor : Option Stage)
    (input : String) :
    Session Consumed := do
  let source ← stream stage.namespaceName input
  let codebase := source.spec.codebase
  match predecessor with
  | none => pure ⟨codebase, source⟩
  | some p => do
    let verified ← stream stage.namespaceName (verifiedName pipeline.name p.spec.name codebase)
    pure ⟨codebase, verified⟩

def consumedForAll (stage : Stage) (pipeline : Pipeline) (predecessor : Option Stage) :
    List String → Session (List Consumed)
  | [] => pure []
  | input :: rest => do
    let c ← consumedFor stage pipeline predecessor input
    let cs ← consumedForAll stage pipeline predecessor rest
    pure (c :: cs)

/-- What a stage consumes, input by input; everything has to be there. -/
def consumed (stage : Stage) (pipeline : Pipeline) : Session (List Consumed) := do
  let names ← .done (inputs pipeline)
  let predecessor ←
    if stage.isFirst then pure none else some <$> stage.predecessor pipeline.name
  consumedForAll stage pipeline predecessor names

/-- Makes a verified stream, or corrects the codebase and image of one that is there. -/
def putVerified (namespaceName name : String) (spec : ImageStreamSpec) : Session Unit := do
  let found : Option ImageStream ← Session.request (.getImageStream namespaceName name)
  match found with
  | some s =>
    if s.spec.codebase = spec.codebase ∧ s.spec.imageName = spec.imageName then pure ()
    else
      Session.requestFor "update" Kind.imageStream.name name
        (.replaceImageStream namespaceName
          { s with spec := { s.spec with codebase := spec.codebase, imageName := spec.imageName } })
  | none =>
    Session.requestFor "create" Kind.imageStream.name name
      (.createImageStream namespaceName ⟨.named name, spec⟩)

/-- The verified stream of a stage for a codebase, in a registry. -/
def verifiedSpec (registry namespaceName codebase : String) : ImageStreamSpec :=
  { codebase, imageName := registry ++ "/" ++ namespaceName ++ "/" ++ codebase }

/-- Publishes all codebases of a stage, after everything that is needed has been looked up. -/
def promote (stage : Stage) : Session Unit := do
  let pipeline ← pipelineOf stage
  let cs ← consumed stage pipeline
  let registry ← registryUrl stage.namespaceName
  Session.each cs fun c =>
    putVerified stage.namespaceName (verifiedName pipeline.name stage.spec.name c.codebase)
      (verifiedSpec registry stage.namespaceName c.codebase)

end Conveyor.Promotion
