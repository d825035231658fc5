import Conveyor.Proofs.Contents
import Conveyor.Proofs.Reachable
import Conveyor.Reconcile
import Mathlib.Data.List.Nodup

/-!
Where the provisioning of a stage leads to. When all look-ups are made (`Plan`), the state that a
reconcile ends in is a function of the contents it starts from, `Contents.aim`. Each of its parts is
an alteration that one part of the provisioning makes, and all that an interrupted provisioning has
made is absorbed by it.
-/

namespace Conveyor

open Resource (inNamespace)

/-! ### The stage itself -/

namespace Stage

/-- The stage with the operator's finalizer. -/
def withFinalizer (s : Stage) : Stage :=
  match Finalizers.add? s.metadata.finalizers finalizer with
  | none => s
  | some finalizers => { s with metadata := { s.metadata with finalizers := some finalizers } }

/-- The stage under its pipeline. -/
def withOwner (p : Pipeline) (s : Stage) : Stage :=
  if s.isOwnedBy p then s
  else
    { s with
      metadata :=
        { s.metadata with
          ownerReferences :=
            some (s.ownerReferences.filter (!isPipelineOwner ·) ++ [p.ownerReference])
          labels :=
            some ((s.metadata.labels.getD ∅).extend (.singleton pipelineLabelKey p.name)) } }

/-- The stage with a status that bears no date. -/
def withStatus (status : StageStatus) (s : Stage) : Stage :=
  { s with status := some status.undated }

/-- The stage after a provisioning that went well. -/
def settled (p : Pipeline) (s : Stage) : Stage :=
  (s.withFinalizer.withOwner p).withStatus (.provisioned .epoch s.status)

theorem withFinalizer_of_none {s : Stage}
    (h : Finalizers.add? s.metadata.finalizers finalizer = none) : s.withFinalizer = s := by
  rw [withFinalizer, h]

theorem withFinalizer_of_some {s : Stage} {finalizers : List String}
    (h : Finalizers.add? s.metadata.finalizers finalizer = some finalizers) :
    s.withFinalizer =
      { s with metadata := { s.metadata with finalizers := some finalizers } } := by
  rw [withFinalizer, h]

theorem add?_of_mem {fs : Option (List String)} {f : String} (h : f ∈ fs.getD []) :
    Finalizers.add? fs f = none := by
  simp [Finalizers.add?, h]

theorem add?_eq_some {fs : Option (List String)} {f : String} {added : List String}
    (h : Finalizers.add? fs f = some added) : added = fs.getD [] ++ [f] := by
  unfold Finalizers.add? at h
  dsimp only at h
  split at h
  · cases h
  · cases h
    rfl

theorem withFinalizer_withFinalizer (s : Stage) :
    s.withFinalizer.withFinalizer = s.withFinalizer := by
  cases h : Finalizers.add? s.metadata.finalizers finalizer with
  | none => rw [withFinalizer_of_none h, withFinalizer_of_none h]
  | some finalizers =>
      rw [withFinalizer_of_some h]
      refine withFinalizer_of_none (add?_of_mem ?_)
      rw [add?_eq_some h]
      exact List.mem_append_right _ List.mem_cons_self

theorem isOwnedBy_withOwner (p : Pipeline) (s : Stage) : (s.withOwner p).isOwnedBy p = true := by
  unfold withOwner
  split
  · next h => exact h
  · have hlabel : ((s.metadata.labels.getD ∅).extend (.singleton pipelineLabelKey p.name)).get?
        pipelineLabelKey = some p.name := Dict.get?_insert_self ..
    simp [isOwnedBy, ownerReferences, pipelineLabel, hlabel, isPipelineOwner,
      Pipeline.ownerReference]

theorem withOwner_of_isOwnedBy {p : Pipeline} {s : Stage} (h : s.isOwnedBy p = true) :
    s.withOwner p = s := if_pos h

theorem withOwner_withOwner (p : Pipeline) (s : Stage) :
    (s.withOwner p).withOwner p = s.withOwner p :=
  withOwner_of_isOwnedBy (isOwnedBy_withOwner p s)

theorem withFinalizer_withOwner (p : Pipeline) (s : Stage) :
    (s.withOwner p).withFinalizer = s.withFinalizer.withOwner p := by
  have howned : s.withFinalizer.isOwnedBy p = s.isOwnedBy p := by
    unfold withFinalizer
    split <;> rfl
  cases h : s.isOwnedBy p with
  | true => rw [withOwner_of_isOwnedBy h, withOwner_of_isOwnedBy (howned.trans h)]
  | false =>
      simp only [withOwner, howned, h, Bool.false_eq_true, if_false]
      unfold withFinalizer
      dsimp only
      cases Finalizers.add? s.metadata.finalizers finalizer <;> rfl

theorem status_withFinalizer (s : Stage) : s.withFinalizer.status = s.status := by
  unfold withFinalizer
  split <;> rfl

theorem status_withOwner (p : Pipeline) (s : Stage) : (s.withOwner p).status = s.status := by
  unfold withOwner
  split <;> rfl

/-! What an interrupted reconcile leaves at the stage makes no difference to where it is going. -/

theorem settled_withFinalizer (p : Pipeline) (s : Stage) :
    s.withFinalizer.settled p = s.settled p := by
  rw [settled, withFinalizer_withFinalizer, status_withFinalizer, settled]

theorem settled_withOwner (p : Pipeline) (s : Stage) : (s.withOwner p).settled p = s.settled p := by
  rw [settled, withFinalizer_withOwner, withOwner_withOwner, status_withOwner, settled]

/-- What a status takes over from the one before it. -/
structure SameBacklog (a b : Option StageStatus) : Prop where
  username : (a.getD {}).username = (b.getD {}).username
  shouldBeHandled : (a.getD {}).shouldBeHandled = (b.getD {}).shouldBeHandled

theorem SameBacklog.refl (a : Option StageStatus) : SameBacklog a a := ⟨rfl, rfl⟩

theorem SameBacklog.trans {a b c : Option StageStatus} (h : SameBacklog a b)
    (k : SameBacklog b c) : SameBacklog a c :=
  ⟨h.username.trans k.username, h.shouldBeHandled.trans k.shouldBeHandled⟩

theorem SameBacklog.symm {a b : Option StageStatus} (h : SameBacklog a b) : SameBacklog b a :=
  ⟨h.username.symm, h.shouldBeHandled.symm⟩

theorem SameBacklog.provisioned {a b : Option StageStatus} (h : SameBacklog a b)
    (now : Timestamp) : StageStatus.provisioned now a = StageStatus.provisioned now b := by
  simp only [StageStatus.provisioned, h.username, h.shouldBeHandled]

theorem sameBacklog_provisioned (now : Timestamp) (a : Option StageStatus) :
    SameBacklog (some (.provisioned now a)) a := ⟨rfl, rfl⟩

theorem sameBacklog_failed (now : Timestamp) (e : Error) (a : Option StageStatus) :
    SameBacklog (some (.failed now e a)) a := ⟨rfl, rfl⟩

theorem sameBacklog_undated (a : Option StageStatus) :
    SameBacklog (a.map StageStatus.undated) a := by
  cases a <;> exact ⟨rfl, rfl⟩

theorem withFinalizer_withStatus (status : StageStatus) (s : Stage) :
    (s.withStatus status).withFinalizer = s.withFinalizer.withStatus status := by
  unfold withFinalizer withStatus
  dsimp only
  split <;> rfl

theorem withOwner_withStatus (p : Pipeline) (status : StageStatus) (s : Stage) :
    (s.withStatus status).withOwner p = (s.withOwner p).withStatus status := by
  have howned : (s.withStatus status).isOwnedBy p = s.isOwnedBy p := rfl
  unfold withOwner
  rw [howned]
  split <;> rfl

theorem settled_withStatus (p : Pipeline) {status : StageStatus} {s : Stage}
    (h : SameBacklog (some status) s.status) : (s.withStatus status).settled p = s.settled p := by
  have hstatus : StageStatus.provisioned .epoch (s.withStatus status).status =
      StageStatus.provisioned .epoch s.status :=
    ((sameBacklog_undated (some status)).trans h).provisioned .epoch
  rw [settled, hstatus, withFinalizer_withStatus, withOwner_withStatus, settled]
  rfl

/-! What a provisioning that went well leaves at the stage. -/

/-- The stage is under the finalizer and under its pipeline, and its status is that of success, of
whatever date. -/
structure Provisioned (p : Pipeline) (t : Stage) : Prop where
  finalizer : t.hasFinalizer = true
  owner : t.isOwnedBy p = true
  status : ∃ status, t.status = some status ∧
    status = { StageStatus.provisioned .epoch t.status with
      lastTimeUpdated := status.lastTimeUpdated }

theorem hasFinalizer_withFinalizer (s : Stage) : s.withFinalizer.hasFinalizer = true := by
  cases h : Finalizers.add? s.metadata.finalizers finalizer with
  | none =>
      rw [withFinalizer_of_none h]
      unfold Finalizers.add? at h
      dsimp only at h
      split at h
      · next hin => exact hin
      · cases h
  | some finalizers =>
      rw [withFinalizer_of_some h]
      simp [hasFinalizer, Stage.finalizers, add?_eq_some h]

theorem finalizers_withOwner (p : Pipeline) (s : Stage) :
    (s.withOwner p).metadata.finalizers = s.metadata.finalizers := by
  unfold withOwner
  split <;> rfl

/-- Another provisioning only dates the status. -/
theorem Provisioned.status_again {p : Pipeline} {t : Stage} (h : t.Provisioned p)
    (now : Timestamp) :
    ∃ status, t.status = some status ∧ StageStatus.provisioned now t.status =
      { status with lastTimeUpdated := some now } := by
  obtain ⟨status, hsome, hstatus⟩ := h.status
  exact ⟨status, hsome, congrArg (fun x : StageStatus => { x with lastTimeUpdated := some now })
    hstatus.symm⟩

/-- The contents of a stage tell that it was provisioned. -/
theorem provisioned_of_content {p : Pipeline} {s t : Stage} (h : t.content = s.settled p) :
    t.Provisioned p where
  finalizer := by
    have hfinalizers : t.metadata.finalizers = s.withFinalizer.metadata.finalizers :=
      (congrArg (·.metadata.finalizers) h).trans (finalizers_withOwner p s.withFinalizer)
    have hhas := hasFinalizer_withFinalizer s
    rw [hasFinalizer, finalizers] at hhas ⊢
    rw [hfinalizers, hhas]
  owner := by
    have howned : t.content.isOwnedBy p = (s.withFinalizer.withOwner p).isOwnedBy p :=
      congrArg (·.isOwnedBy p) h
    exact howned.trans (isOwnedBy_withOwner p _)
  status := by
    have hstatus : t.status.map StageStatus.undated =
        some (StageStatus.provisioned .epoch s.status).undated := congrArg (·.status) h
    obtain ⟨status, hsome, hundated⟩ := Option.map_eq_some_iff.1 hstatus
    refine ⟨status, hsome, ?_⟩
    rw [hsome]
    obtain ⟨available, updated, name, username, action, result, message, value, handled⟩ := status
    simp only [StageStatus.undated, StageStatus.provisioned, StageStatus.mk.injEq] at hundated
    obtain ⟨rfl, -, rfl, -, rfl, rfl, rfl, rfl, -⟩ := hundated
    rfl

end Stage

/-! ### The things around it -/

/-- What the provisioning of a stage has to find out. -/
structure Plan where
  pipeline : Pipeline
  codebases : List String
  registry : String

namespace Places

/-- The places with that of a stage among them, as the platform makes it. One that is there stays as
it is. -/
def supply (config : Config) (s : Stage) (x : Places) : Places :=
  if !config.managesNamespaces then x
  else if config.isKubernetes && config.usesSpaces then
    if x.spaces.contains s.targetNamespace then x
    else
      { x with
        spaces := x.spaces.insert s.targetNamespace s.namespaceName
        namespaces := x.namespaces.insert s.targetNamespace () }
  else if config.isKubernetes then
    if x.namespaces.contains s.targetNamespace then x
    else { x with namespaces := x.namespaces.insert s.targetNamespace () }
  else if x.projects.contains s.targetNamespace then x
  else
    { x with
      projects := x.projects.insert s.targetNamespace ()
      namespaces := x.namespaces.insert s.targetNamespace () }

variable {config : Config} {s : Stage} {x : Places}

theorem supply_spaces (hm : config.managesNamespaces = true)
    (hspaces : (config.isKubernetes && config.usesSpaces) = true) :
    x.supply config s =
      if x.spaces.contains s.targetNamespace then x
      else
        { x with
          spaces := x.spaces.insert s.targetNamespace s.namespaceName
          namespaces := x.namespaces.insert s.targetNamespace () } := by
  rw [supply, hm, if_neg (by decide), if_pos hspaces]

theorem supply_namespaces (hm : config.managesNamespaces = true)
    (hspaces : ¬ (config.isKubernetes && config.usesSpaces) = true)
    (hk : config.isKubernetes = true) :
    x.supply config s =
      if x.namespaces.contains s.targetNamespace then x
      else { x with namespaces := x.namespaces.insert s.targetNamespace () } := by
  rw [supply, hm, if_neg (by decide), if_neg hspaces, if_pos hk]

theorem supply_projects (hm : config.managesNamespaces = true)
    (hspaces : ¬ (config.isKubernetes && config.usesSpaces) = true)
    (hk : ¬ config.isKubernetes = true) :
    x.supply config s =
      if x.projects.contains s.targetNamespace then x
      else
        { x with
          projects := x.projects.insert s.targetNamespace ()
          namespaces := x.namespaces.insert s.targetNamespace () } := by
  rw [supply, hm, if_neg (by decide), if_neg hspaces, if_neg hk]

theorem supply_supply (config : Config) (s : Stage) (x : Places) :
    (x.supply config s).supply config s = x.supply config s := by
  unfold supply
  repeat' split
  all_goals simp_all [Dict.contains, Dict.get?_insert_self]

end Places

/-- A new object goes into a namespace; one that is there stays as it is. -/
def Access.supply {α : Type} [Resource α] (a : α) (namespaceName : String) :
    Option α → Option α
  | none => some (inNamespace a namespaceName)
  | some b => some b

/-- The stream of a name has the codebase and the image of a specification. -/
def Promotion.supply (namespaceName name : String) (spec : ImageStreamSpec) :
    Option ImageStream → Option ImageStream
  | none => some (inNamespace ⟨.named name, spec⟩ namespaceName)
  | some x =>
    some { x with spec := { x.spec with codebase := spec.codebase, imageName := spec.imageName } }

def ReleaseJob.supply (namespaceName : String) (job : ReleaseJob) :
    Option ReleaseJob → Option ReleaseJob
  | none => some (inNamespace job namespaceName)
  | some x => some { x with spec := job.spec }

/-- The key of a new binding. -/
def Access.bindingKey (target : String) (b : RoleBinding) : ObjectKey :=
  ⟨target, b.metadata.nameOrEmpty⟩

/-- The key of the stream in which a stage publishes a codebase. -/
def Plan.streamKey (s : Stage) (p : Plan) (codebase : String) : ObjectKey :=
  ⟨s.namespaceName, Promotion.verifiedName p.pipeline.name s.spec.name codebase⟩

def Plan.supplyStream (s : Stage) (p : Plan) (codebase : String) :
    Option ImageStream → Option ImageStream :=
  Promotion.supply s.namespaceName (Promotion.verifiedName p.pipeline.name s.spec.name codebase)
    (Promotion.verifiedSpec p.registry s.namespaceName codebase)

/-! ### Nothing is asked for in two ways -/

theorem Access.supply_supply {α : Type} [Resource α] (a : α) (namespaceName : String)
    (o : Option α) :
    supply a namespaceName (supply a namespaceName o) = supply a namespaceName o := by
  cases o <;> rfl

theorem Promotion.supply_supply (namespaceName name : String) (spec : ImageStreamSpec)
    (o : Option ImageStream) :
    supply namespaceName name spec (supply namespaceName name spec o) =
      supply namespaceName name spec o := by
  cases o <;> rfl

theorem ReleaseJob.supply_supply (namespaceName : String) (job : ReleaseJob)
    (o : Option ReleaseJob) :
    supply namespaceName job (supply namespaceName job o) = supply namespaceName job o := by
  cases o <;> rfl

/-- A stage publishes different codebases in different streams. -/
theorem Promotion.verifiedName_injective {pipeline stage x y : String}
    (h : verifiedName pipeline stage x = verifiedName pipeline stage y) : x = y := by
  have hchars := congrArg String.toList h
  rw [toList_verifiedName, toList_verifiedName] at hchars
  have htails := List.append_cancel_left (List.append_cancel_right hchars)
  exact String.toList_injective (List.cons.inj htails).2

theorem Plan.consistent_streams (s : Stage) (p : Plan) :
    Table.Consistent (p.streamKey s) (p.supplyStream s) p.codebases where
  agree x _ y _ h := by
    have hname := Promotion.verifiedName_injective (congrArg ObjectKey.name h)
    rw [hname]
  again _ _ _ := Promotion.supply_supply ..

/-- The tenant's viewers are bound under a name that is none of the fixed ones. -/
theorem Access.view_ne {source name : String} (h : name.toList.getLast? ≠ some 'w') :
    source ++ "-view" ≠ name := by
  rintro rfl
  refine h ?_
  rw [String.toList_append, List.getLast?_append]
  rfl

/-- The names tell the bindings apart, whatever the source namespace is called. -/
theorem Access.nodup_bindings (source target : String) (config : Config) :
    ((bindings source target config).map (·.metadata.nameOrEmpty)).Nodup := by
  have hdeployments := @view_ne source deploymentsViewerBinding (by decide)
  have hjenkins := @view_ne source jenkinsAdminBinding (by decide)
  have hfixed : deploymentsViewerBinding ≠ jenkinsAdminBinding := by decide
  unfold bindings
  cases hk : config.isKubernetes <;>
    simp [binding, metadata, Metadata.nameOrEmpty, hdeployments.symm, hjenkins.symm, hfixed]

theorem Access.consistent_bindings (source target : String) (config : Config) :
    Table.Consistent (bindingKey target) (supply · target) (bindings source target config) where
  agree i hi j hj h := by
    have hname : i.metadata.nameOrEmpty = j.metadata.nameOrEmpty := congrArg ObjectKey.name h
    rw [List.inj_on_of_nodup_map (nodup_bindings source target config) hi hj hname]
  again _ _ _ := supply_supply ..

namespace Contents

/-! One alteration for each part of a reconcile. -/

def atStage (s : Stage) (f : Stage → Stage) (d : Contents) : Contents :=
  { d with stages := d.stages.alter s.key (Option.map f) }

def withTarget (config : Config) (s : Stage) (d : Contents) : Contents :=
  { d with places := d.places.supply config s }

def withRole (s : Stage) (d : Contents) : Contents :=
  { d with
    roles := d.roles.alter ⟨s.targetNamespace, Access.viewDeploymentsRole⟩
      (Access.supply (Access.deploymentsRole s.targetNamespace) s.targetNamespace) }

def withBinding (s : Stage) (d : Contents) (b : RoleBinding) : Contents :=
  { d with
    roleBindings := d.roleBindings.alter (Access.bindingKey s.targetNamespace b)
      (Access.supply b s.targetNamespace) }

def withBindings (s : Stage) (bs : List RoleBinding) (d : Contents) : Contents :=
  { d with
    roleBindings := Table.alterAll (Access.bindingKey s.targetNamespace)
      (Access.supply · s.targetNamespace) bs d.roleBindings }

def withStream (s : Stage) (p : Plan) (d : Contents) (codebase : String) : Contents :=
  { d with
    imageStreams := d.imageStreams.alter (p.streamKey s codebase) (p.supplyStream s codebase) }

def withStreams (s : Stage) (p : Plan) (codebases : List String) (d : Contents) : Contents :=
  { d with
    imageStreams := Table.alterAll (p.streamKey s) (p.supplyStream s) codebases d.imageStreams }

def withJob (s : Stage) (p : Pipeline) (d : Contents) : Contents :=
  { d with
    releaseJobs := d.releaseJobs.alter s.key
      (ReleaseJob.supply s.namespaceName (ReleaseJob.desired s p)) }

def withAccess (config : Config) (s : Stage) (d : Contents) : Contents :=
  (d.withRole s).withBindings s (Access.bindings s.namespaceName s.targetNamespace config)

/-- All that a plan asks for around the stage. -/
def provided (config : Config) (s : Stage) (p : Plan) (d : Contents) : Contents :=
  (((d.withTarget config s).withAccess config s).withStreams s p p.codebases).withJob s p.pipeline

/-- What the contents are to become. -/
def aim (config : Config) (s : Stage) (p : Plan) (d : Contents) : Contents :=
  (d.atStage s (Stage.settled p.pipeline)).provided config s p

theorem foldl_withBinding (s : Stage) (bs : List RoleBinding) (d : Contents) :
    bs.foldl (withBinding s) d = d.withBindings s bs := by
  induction bs generalizing d with
  | nil => rfl
  | cons b bs ih => exact ih _

theorem foldl_withStream (s : Stage) (p : Plan) (codebases : List String) (d : Contents) :
    codebases.foldl (withStream s p) d = d.withStreams s p codebases := by
  induction codebases generalizing d with
  | nil => rfl
  | cons x xs ih => exact ih _

variable {config : Config} {s : Stage} {p : Plan} {d : Contents}

/-- The aim table by table. -/
theorem aim_eq : d.aim config s p =
    { d with
      stages := d.stages.alter s.key (Option.map (Stage.settled p.pipeline))
      places := d.places.supply config s
      roles := d.roles.alter ⟨s.targetNamespace, Access.viewDeploymentsRole⟩
        (Access.supply (Access.deploymentsRole s.targetNamespace) s.targetNamespace)
      roleBindings := Table.alterAll (Access.bindingKey s.targetNamespace)
        (Access.supply · s.targetNamespace)
        (Access.bindings s.namespaceName s.targetNamespace config) d.roleBindings
      imageStreams := Table.alterAll (p.streamKey s) (p.supplyStream s) p.codebases d.imageStreams
      releaseJobs := d.releaseJobs.alter s.key
        (ReleaseJob.supply s.namespaceName (ReleaseJob.desired s p.pipeline)) } := rfl

/-- The parts of a reconcile, one after the other, lead to the aim. -/
theorem parts_eq_aim (now : Timestamp) {status : Option StageStatus}
    (h : ∀ t, d.stages s.key = some t → Stage.SameBacklog status t.status) :
    ((((d.atStage s Stage.withFinalizer).atStage s (Stage.withOwner p.pipeline)).provided config s
      p).atStage s (Stage.withStatus (.provisioned now status))) = d.aim config s p := by
  have hstages : Table.alter s.key (Option.map (Stage.withStatus (.provisioned now status)))
      (Table.alter s.key (Option.map (Stage.withOwner p.pipeline))
        (Table.alter s.key (Option.map Stage.withFinalizer) d.stages)) =
      Table.alter s.key (Option.map (Stage.settled p.pipeline)) d.stages := by
    rw [Table.alter_alter, Table.alter_alter]
    refine Table.alter_congr ?_
    cases ht : d.stages s.key with
    | none => rfl
    | some t =>
        simp only [Option.map_some, Stage.settled, (h t ht).provisioned now]
        rfl
  rw [aim_eq, ← hstages]
  rfl

/-! What an interrupted provisioning has made is absorbed by the aim. -/

theorem aim_atStage {f : Stage → Stage}
    (h : ∀ t, d.stages s.key = some t → (f t).settled p.pipeline = t.settled p.pipeline) :
    aim config s p (d.atStage s f) = aim config s p d := by
  have hstages : Table.alter s.key (Option.map (Stage.settled p.pipeline))
      (Table.alter s.key (Option.map f) d.stages) =
        Table.alter s.key (Option.map (Stage.settled p.pipeline)) d.stages := by
    rw [Table.alter_alter]
    refine Table.alter_congr ?_
    cases ht : d.stages s.key with
    | none => rfl
    | some t => exact congrArg some (h t ht)
  simp only [aim_eq, atStage, hstages]

theorem atStage_eq_self {f : Stage → Stage} (h : ∀ t, d.stages s.key = some t → f t = t) :
    d.atStage s f = d := by
  have hstages : Table.alter s.key (Option.map f) d.stages = d.stages := by
    refine Table.alter_eq_self ?_
    cases ht : d.stages s.key with
    | none => rfl
    | some t => exact congrArg some (h t ht)
  rw [atStage, hstages]

theorem aim_withTarget : aim config s p (d.withTarget config s) = aim config s p d := by
  simp only [aim_eq, withTarget, Places.supply_supply]

theorem aim_withRole : aim config s p (d.withRole s) = aim config s p d := by
  simp only [aim_eq, withRole, Table.alter_alter, Access.supply_supply]

theorem aim_withBinding {b : RoleBinding}
    (hb : b ∈ Access.bindings s.namespaceName s.targetNamespace config) :
    aim config s p (d.withBinding s b) = aim config s p d := by
  have hbindings := Table.alterAll_alter
    (Access.consistent_bindings s.namespaceName s.targetNamespace config) hb d.roleBindings
  simp only [aim_eq, withBinding, hbindings]

theorem aim_withStream {codebase : String} (h : codebase ∈ p.codebases) :
    aim config s p (d.withStream s p codebase) = aim config s p d := by
  have hstreams := Table.alterAll_alter (p.consistent_streams s) h d.imageStreams
  simp only [aim_eq, withStream, hstreams]

theorem aim_withJob : aim config s p (d.withJob s p.pipeline) = aim config s p d := by
  simp only [aim_eq, withJob, Table.alter_alter, ReleaseJob.supply_supply]

end Contents

end Conveyor
