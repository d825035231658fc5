import Conveyor.Session.Basic

/-!
The order of a pipeline's stages. The predecessor of a stage is the sibling of the greatest lower
order, the last one among several; a stage under deletion waits for the siblings that come after it.
-/

namespace Conveyor

namespace Stage

/-- Whether the deletion of `a` has to wait for `b`: another stage that comes later, or at the same
place without being deleted itself. -/
def waitsFor (a b : Stage) : Bool :=
  b.name != a.name &&
    (a.spec.order < b.spec.order || (b.spec.order == a.spec.order && !b.isBeingDeleted))

def hasDependents (siblings : List Stage) (s : Stage) : Bool := siblings.any s.waitsFor

/-- The last stage of the greatest order below a given one. -/
def previousOf (order : Int) : List Stage → Option Stage
  | [] => none
  | s :: ss =>
    match previousOf order ss with
    | none => if s.spec.order < order then some s else none
    | some p => if p.spec.order < s.spec.order ∧ s.spec.order < order then some s else some p

/-- The stages of a pipeline in the namespace of a stage, itself included. -/
def siblings (s : Stage) (pipeline : String) : Session (List Stage) := do
  let stages : List Stage ← Session.request (.listStages s.namespaceName)
  pure (stages.filter (·.pipelineName = pipeline))

/-- The predecessor of a stage; a pipeline without one lacks a step. -/
def predecessor (s : Stage) (pipeline : String) : Session Stage := do
  match previousOf s.spec.order (← s.siblings pipeline) with
  | some p => pure p
  | none =>
    Session.fail (.notFound Kind.stage.name s.namespaceName
      (pipeline ++ " order<" ++ String.ofList (Json.writeInt s.spec.order)))

end Stage

end Conveyor
