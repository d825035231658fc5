import Conveyor.Http.Api
import Conveyor.Proofs.Contents
import Conveyor.Proofs.RoundTrips
import Conveyor.Proofs.Scenario

/-!
Patches of stages in memory and by message. The cluster in memory changes fields of the stage that
it has; the cluster's interface writes the stage, merges the body of the message into it and reads
the outcome. Both make the same stage of it, apart from its version.

Of the metadata of the stored stage it is supposed that they are read as they were written. Metadata
in which a patch has changed some members are then read as what the patch says of these, and as
before else (`Metadata.ReadFrom.patched`).
-/

namespace Conveyor

open Json Record
open Resource (unversioned)

namespace Metadata

/-- What the members of an object say of metadata, field by field. -/
structure ReadFrom (ms : List (String × Json)) (m : Metadata) : Prop where
  annotations : (Field.optional "annotations" (.dict .text)).read
    (Entries.get? "annotations" ms) = .ok m.annotations
  creationTimestamp : (Field.optional "creationTimestamp" .instant).read
    (Entries.get? "creationTimestamp" ms) = .ok m.creationTimestamp
  deletionGracePeriodSeconds : (Field.optional "deletionGracePeriodSeconds" .int64).read
    (Entries.get? "deletionGracePeriodSeconds" ms) = .ok m.deletionGracePeriodSeconds
  deletionTimestamp : (Field.optional "deletionTimestamp" .instant).read
    (Entries.get? "deletionTimestamp" ms) = .ok m.deletionTimestamp
  finalizers : (Field.optional "finalizers" (.list .text)).read
    (Entries.get? "finalizers" ms) = .ok m.finalizers
  generateName : (Field.optional "generateName" .text).read
    (Entries.get? "generateName" ms) = .ok m.generateName
  generation : (Field.optional "generation" .int64).read
    (Entries.get? "generation" ms) = .ok m.generation
  labels : (Field.optional "labels" (.dict .text)).read
    (Entries.get? "labels" ms) = .ok m.labels
  managedFields : (Field.optional "managedFields" (.list ManagedFields.decode)).read
    (Entries.get? "managedFields" ms) = .ok m.managedFields
  name : (Field.optional "name" .text).read (Entries.get? "name" ms) = .ok m.name
  namespaceName : (Field.optional "namespace" .text).read
    (Entries.get? "namespace" ms) = .ok m.namespaceName
  ownerReferences : (Field.optional "ownerReferences" (.list OwnerReference.decode)).read
    (Entries.get? "ownerReferences" ms) = .ok m.ownerReferences
  resourceVersion : (Field.optional "resourceVersion" .text).read
    (Entries.get? "resourceVersion" ms) = .ok m.resourceVersion
  selfLink : (Field.optional "selfLink" .text).read (Entries.get? "selfLink" ms) = .ok m.selfLink
  uid : (Field.optional "uid" .text).read (Entries.get? "uid" ms) = .ok m.uid

variable {ms : List (String × Json)} {m : Metadata}

theorem ReadFrom.decode (h : ReadFrom ms m) (hms : Entries.Ascending ms) :
    decode (.object ms) = .ok m := by
  obtain ⟨annotations, creationTimestamp, deletionGracePeriodSeconds, deletionTimestamp, finalizers,
    generateName, generation, labels, managedFields, name, namespaceName, ownerReferences,
    resourceVersion, selfLink, uid⟩ := m
  refine Reads.decodeObject ?_ "ObjectMeta"
  refine .field ?_ hms h.uid
  refine .field ?_ hms h.selfLink
  refine .field ?_ hms h.resourceVersion
  refine .field ?_ hms h.ownerReferences
  refine .field ?_ hms h.namespaceName
  refine .field ?_ hms h.name
  refine .field ?_ hms h.managedFields
  refine .field ?_ hms h.labels
  refine .field ?_ hms h.generation
  refine .field ?_ hms h.generateName
  refine .field ?_ hms h.finalizers
  refine .field ?_ hms h.deletionTimestamp
  refine .field ?_ hms h.deletionGracePeriodSeconds
  refine .field ?_ hms h.creationTimestamp
  exact .field (reads_make _) hms h.annotations

theorem readFrom_of_decode (hms : Entries.Ascending ms) (h : decode (.object ms) = .ok m) :
    ReadFrom ms m := by
  have h₀ : record.ofMembers ms = .ok m := ofMembers_of_decodeObject h
  obtain ⟨_, _, h₁, huid, rfl⟩ := exists_of_ofMembers_field hms h₀
  obtain ⟨_, _, h₂, hselfLink, rfl⟩ := exists_of_ofMembers_field hms h₁
  obtain ⟨_, _, h₃, hresourceVersion, rfl⟩ := exists_of_ofMembers_field hms h₂
  obtain ⟨_, _, h₄, hownerReferences, rfl⟩ := exists_of_ofMembers_field hms h₃
  obtain ⟨_, _, h₅, hnamespaceName, rfl⟩ := exists_of_ofMembers_field hms h₄
  obtain ⟨_, _, h₆, hname, rfl⟩ := exists_of_ofMembers_field hms h₅
  obtain ⟨_, _, h₇, hmanagedFields, rfl⟩ := exists_of_ofMembers_field hms h₆
  obtain ⟨_, _, h₈, hlabels, rfl⟩ := exists_of_ofMembers_field hms h₇
  obtain ⟨_, _, h₉, hgeneration, rfl⟩ := exists_of_ofMembers_field hms h₈
  obtain ⟨_, _, h₁₀, hgenerateName, rfl⟩ := exists_of_ofMembers_field hms h₉
  obtain ⟨_, _, h₁₁, hfinalizers, rfl⟩ := exists_of_ofMembers_field hms h₁₀
  obtain ⟨_, _, h₁₂, hdeletionTimestamp, rfl⟩ := exists_of_ofMembers_field hms h₁₁
  obtain ⟨_, _, h₁₃, hdeletionGracePeriodSeconds, rfl⟩ := exists_of_ofMembers_field hms h₁₂
  obtain ⟨_, _, h₁₄, hcreationTimestamp, rfl⟩ := exists_of_ofMembers_field hms h₁₃
  obtain ⟨_, _, h₁₅, hannotations, rfl⟩ := exists_of_ofMembers_field hms h₁₄
  obtain rfl := Except.ok.inj h₁₅
  exact ⟨hannotations, hcreationTimestamp, hdeletionGracePeriodSeconds, hdeletionTimestamp,
    hfinalizers, hgenerateName, hgeneration, hlabels, hmanagedFields, hname, hnamespaceName,
    hownerReferences, hresourceVersion, hselfLink, huid⟩

theorem nodup_names : ["annotations", "creationTimestamp", "deletionGracePeriodSeconds",
    "deletionTimestamp", "finalizers", "generateName", "generation", "labels", "managedFields",
    "name", "namespace", "ownerReferences", "resourceVersion", "selfLink", "uid"].Nodup := by decide

/-- The members that patches of stages are about. -/
def patchable : List String := ["finalizers", "labels", "ownerReferences", "resourceVersion"]

/-- Of patched metadata the fields in question are read from what the patch makes of their members,
and the other ones are as they were. -/
theorem decode_patched (hm : decode m.toJson = .ok m) {ps : List (String × Option Json)}
    (hnames : (ps.map (·.1)).Nodup) (hps : ps.map (·.1) ⊆ patchable)
    {finalizers : Option (List String)} {labels : Option (Dict String String)}
    {ownerReferences : Option (List OwnerReference)} {resourceVersion : Option String}
    (hfinalizers : (Field.optional "finalizers" (.list .text)).read (merged?
      (Entries.get? "finalizers" m.toJson.members) (ps.lookup "finalizers").join) = .ok finalizers)
    (hlabels : (Field.optional "labels" (.dict .text)).read (merged?
      (Entries.get? "labels" m.toJson.members) (ps.lookup "labels").join) = .ok labels)
    (howners : (Field.optional "ownerReferences" (.list OwnerReference.decode)).read (merged?
      (Entries.get? "ownerReferences" m.toJson.members) (ps.lookup "ownerReferences").join) =
        .ok ownerReferences)
    (hversion : (Field.optional "resourceVersion" .text).read (merged?
      (Entries.get? "resourceVersion" m.toJson.members) (ps.lookup "resourceVersion").join) =
        .ok resourceVersion) :
    decode (mergePatch m.toJson (.ofPresent ps)) =
      .ok { m with finalizers, labels, ownerReferences, resourceVersion } := by
  have hms : Entries.Ascending m.toJson.members := Entries.ascending_ofList _
  have h := readFrom_of_decode hms hm
  have hsame (k : String) (hk : k ∉ patchable) := get?_patched_of_not_mem ps hms hnames
    fun hmem => hk (hps hmem)
  rw [← get?_patched ps hms hnames] at hfinalizers hlabels howners hversion
  rw [mergePatch_ofPresent]
  refine ReadFrom.decode ?_ (ascending_mergeMembers _ hms)
  exact {
    annotations := hsame "annotations" (by decide) ▸ h.annotations
    creationTimestamp := hsame "creationTimestamp" (by decide) ▸ h.creationTimestamp
    deletionGracePeriodSeconds :=
      hsame "deletionGracePeriodSeconds" (by decide) ▸ h.deletionGracePeriodSeconds
    deletionTimestamp := hsame "deletionTimestamp" (by decide) ▸ h.deletionTimestamp
    finalizers := hfinalizers
    generateName := hsame "generateName" (by decide) ▸ h.generateName
    generation := hsame "generation" (by decide) ▸ h.generation
    labels := hlabels
    managedFields := hsame "managedFields" (by decide) ▸ h.managedFields
    name := hsame "name" (by decide) ▸ h.name
    namespaceName := hsame "namespace" (by decide) ▸ h.namespaceName
    ownerReferences := howners
    resourceVersion := hversion
    selfLink := hsame "selfLink" (by decide) ▸ h.selfLink
    uid := hsame "uid" (by decide) ▸ h.uid }

/-- The new finalizers take the place of the earlier ones, and so does a version if it is given. -/
theorem decode_finalizersPatch (hm : decode m.toJson = .ok m) (version : Option String)
    (finalizers : List String) :
    decode (mergePatch m.toJson (.ofPresent
        [("finalizers", some (.strings finalizers)), ("resourceVersion", version.map .string)])) =
      .ok { m with
        finalizers := some finalizers
        resourceVersion := version.or m.resourceVersion } := by
  have hms : Entries.Ascending m.toJson.members := Entries.ascending_ofList _
  have h := readFrom_of_decode hms hm
  have hnames : ["finalizers", "resourceVersion"].Nodup := by decide
  have hps : ["finalizers", "resourceVersion"] ⊆ patchable := by decide
  refine decode_patched hm (by exact hnames) (by exact hps) ?_ h.labels h.ownerReferences ?_
  · exact Field.read_optional (o := some finalizers) _ fun ss _ => ⟨Decoder.list_strings ss, rfl⟩
  · cases version with
    | none => exact h.resourceVersion
    | some v => rfl

/-- The new owners take the place of the earlier ones, and the new labels are put over the earlier
ones. -/
theorem decode_ownershipPatch (hm : decode m.toJson = .ok m) (owners : List OwnerReference)
    (labels : Dict String String) :
    decode (mergePatch m.toJson (.ofPresent
        [("ownerReferences", some (.array (owners.map OwnerReference.toJson))),
          ("labels", some (.ofDict labels))])) =
      .ok { m with
        ownerReferences := some owners
        labels := some ((m.labels.getD ∅).extend labels) } := by
  have hms : Entries.Ascending m.toJson.members := Entries.ascending_ofList _
  have h := readFrom_of_decode hms hm
  have hnames : ["ownerReferences", "labels"].Nodup := by decide
  have hps : ["ownerReferences", "labels"] ⊆ patchable := by decide
  have hlabels : Entries.get? "labels" m.toJson.members = m.labels.map .ofDict :=
    get?_members (j := m.toJson) rfl nodup_names _
  -- Where there are no labels yet, the new ones are put over none.
  have hmerged : mergePatch ((m.labels.map ofDict).getD null) (.ofDict labels) =
      .ofDict ((m.labels.getD ∅).extend labels) := by
    cases m.labels with
    | none => exact mergePatch_ofDict ∅ labels
    | some d => exact mergePatch_ofDict d labels
  refine decode_patched hm (by exact hnames) (by exact hps) h.finalizers ?_ ?_ h.resourceVersion
  · rw [hlabels]
    refine (congrArg _ (congrArg some hmerged)).trans ?_
    exact Field.read_optional (o := some _) _ fun d _ => ⟨Decoder.dict_ofDict d, rfl⟩
  · exact Field.read_optional (o := some owners) _ fun os _ =>
      ⟨Decoder.list_map fun o _ => o.decode_toJson, rfl⟩

end Metadata

namespace Stage

variable {s : Stage}

theorem nodup_names : ["apiVersion", "kind", "metadata", "spec", "status"].Nodup := by decide

/-- A stage is read from its three parts. -/
theorem decode_of_parts {ms : List (String × Json)} (hms : Entries.Ascending ms) {m : Metadata}
    {spec : StageSpec} {status : Option StageStatus}
    (hmetadata : (Field.required "metadata" Metadata.decode).read
      (Entries.get? "metadata" ms) = .ok m)
    (hspec : (Field.required "spec" StageSpec.decode).read (Entries.get? "spec" ms) = .ok spec)
    (hstatus : (Field.optional "status" StageStatus.decode).read
      (Entries.get? "status" ms) = .ok status) :
    decode (.object ms) = .ok ⟨m, spec, status⟩ := by
  refine Reads.decode ?_ hms "Stage"
  refine .field ?_ hms hstatus
  refine .field ?_ hms hspec
  exact .field (reads_make _) hms hmetadata

variable (horder : -0x80000000 ≤ s.spec.order ∧ s.spec.order ≤ 0x7FFFFFFF)
include horder

/-- A patch of the metadata only. -/
theorem decode_metadataPatch {body : Json} (hbody : body.isNull = false) {m : Metadata}
    (hm : Metadata.decode (mergePatch s.metadata.toJson body) = .ok m) :
    decode (mergePatch s.toJson (.ofPresent [("metadata", some body)])) =
      .ok { s with metadata := m } := by
  have hms : Entries.Ascending s.toJson.members := Entries.ascending_ofList _
  have hgiven := get?_members (j := s.toJson) rfl nodup_names
  have hget := get?_patched [("metadata", some body)] hms (List.pairwise_singleton _ _)
  rw [mergePatch_ofPresent]
  refine decode_of_parts (ascending_mergeMembers _ hms) ?_ ?_ ?_
  · have hmerged : merged? (some s.metadata.toJson) (some body) =
        some (mergePatch s.metadata.toJson body) := by
      simp only [merged?, hbody, Bool.false_eq_true, ↓reduceIte, Option.getD_some]
    rw [hget, hgiven]
    exact (congrArg _ hmerged).trans hm
  · rw [hget, hgiven]
    exact s.spec.decode_toJson horder
  · rw [hget, hgiven]
    exact Field.read_optional _ fun status _ => ⟨status.decode_toJson, rfl⟩

/-- A patch of the status only. -/
theorem decode_statusPatch (hm : Metadata.decode s.metadata.toJson = .ok s.metadata)
    (status : StageStatus) :
    decode (mergePatch s.toJson (Http.statusPatch status)) =
      .ok { s with status := some (status.replacing s.status) } := by
  have hbody : Http.statusPatch status = .ofPresent [("status", some status.toJson)] := rfl
  have hms : Entries.Ascending s.toJson.members := Entries.ascending_ofList _
  have hgiven := get?_members (j := s.toJson) rfl nodup_names
  have hget := get?_patched [("status", some status.toJson)] hms (List.pairwise_singleton _ _)
  -- Where there is no status yet, the patch is merged into an empty object.
  have hmerged : mergePatch ((s.status.map StageStatus.toJson).getD null) status.toJson =
      mergePatch ((s.status.map StageStatus.toJson).getD (.object [])) status.toJson := by
    cases s.status <;> rfl
  have hread := StageStatus.decode_mergePatch status s.status
  rw [hbody, mergePatch_ofPresent]
  refine decode_of_parts (ascending_mergeMembers _ hms) ?_ ?_ ?_
  · rw [hget, hgiven]
    exact hm
  · rw [hget, hgiven]
    exact s.spec.decode_toJson horder
  · rw [hget, hgiven]
    refine (congrArg _ (congrArg some hmerged)).trans ?_
    exact congrArg (Except.map some) hread

end Stage

namespace Http

/-- A message that is a patch has the changes as its body. -/
theorem message_of_patch {base name part : String} {changes : Json} {m : Message}
    (h : patch base name part changes = .ok m) :
    m.method = .patch ∧ m.contentType = some "application/merge-patch+json" ∧
      m.body = some changes := by
  unfold patch messageAbout message at h
  split at h
  · cases h
  · split at h
    · cases h
      exact ⟨rfl, rfl, rfl⟩
    · cases h

end Http

namespace Cluster

/-- A request about the stage at the key makes the same of it in both ways. In memory `t` is what is
stored then. By message the body is a merge patch, and the stage that is written, merged and read is
`t` too, apart from its version. -/
structure PatchesAlike (c : Cluster) (key : ObjectKey) (s : Stage) (r : Request) (body : Json)
    (t : Stage) : Prop where
  answered : (c.serve r).1.isOk = true
  stored : (c.serve r).2.stages.get? key = some t
  sent : ∀ m, Http.requestMessage r = .ok m →
    m.method = .patch ∧ m.contentType = some "application/merge-patch+json" ∧ m.body = some body
  read : ∃ u, Stage.decode (mergePatch s.toJson body) = .ok u ∧ unversioned u = unversioned t

variable {c : Cluster} {n name : String} {s : Stage}

/-- **The cluster in memory and the cluster's interface make the same update.** This is so for every
stored stage whose metadata are read as they were written and whose order is one of 32 bits: under
any status, under any finalizers when the version given is that of the stage and the stage stays,
and under any owners and labels. A status without a message takes an earlier message away, and one
without a date keeps the earlier date. -/
theorem patches_alike (hs : c.stages.get? ⟨n, name⟩ = some s)
    (hmetadata : Metadata.decode s.metadata.toJson = .ok s.metadata)
    (horder : -0x80000000 ≤ s.spec.order ∧ s.spec.order ≤ 0x7FFFFFFF) :
    (∀ status, ∃ t patched,
      c.PatchesAlike ⟨n, name⟩ s (.patchStageStatus n name status) (Http.statusPatch status) t ∧
      t.status = some patched ∧ (status.detailedMessage = none → patched.detailedMessage = none) ∧
      (status.lastTimeUpdated = none →
        patched.lastTimeUpdated = s.status.bind (·.lastTimeUpdated))) ∧
    (∀ version finalizers, versionMatches version s.metadata.resourceVersion = true →
      (finalizers.isEmpty && s.isBeingDeleted) = false →
      ∃ t, c.PatchesAlike ⟨n, name⟩ s (.patchStageFinalizers n name version finalizers)
        (Http.finalizersPatch version finalizers) t) ∧
    ∀ owners labels, ∃ t, c.PatchesAlike ⟨n, name⟩ s (.patchStageOwnership n name owners labels)
      (Http.ownershipPatch owners labels) t := by
  refine ⟨fun status => ?status, fun version finalizers hversion hkept => ?finalizers,
    fun owners labels => ?ownership⟩
  case status =>
    have hserved := patchStatus_of_stored hs (patchedStatus_eq s.status status)
    refine ⟨{ s with status := some (status.replacing s.status) }, _,
      ⟨?_, ?_, fun m hm => Http.message_of_patch hm, _, Stage.decode_statusPatch horder hmetadata _,
        rfl⟩, rfl, id, fun h => ?_⟩
    · rw [serve, hserved]
      rfl
    · rw [serve, hserved]
      exact Dict.get?_insert_self ..
    · simp only [StageStatus.replacing, h, Option.none_or]
  case finalizers =>
    have hserved := patchFinalizers_of_matching hs hversion hkept
    have hread := Stage.decode_metadataPatch horder rfl
      (s.metadata.decode_finalizersPatch hmetadata version finalizers)
    refine ⟨{ s with metadata := { s.metadata with
        finalizers := some finalizers
        resourceVersion := some c.nextVersion } },
      ?_, ?_, fun m hm => Http.message_of_patch hm, _, hread, rfl⟩
    · rw [serve, hserved]
      rfl
    · rw [serve, hserved]
      exact Dict.get?_insert_self ..
  case ownership =>
    have hserved : c.patchOwnership ⟨n, name⟩ owners labels = _ := patchOwnership_of_stored hs
    have hread := Stage.decode_metadataPatch horder rfl
      (s.metadata.decode_ownershipPatch hmetadata owners labels)
    refine ⟨{ s with metadata := { s.metadata with
        ownerReferences := some owners
        labels := some ((s.metadata.labels.getD ∅).extend labels)
        resourceVersion := some c.nextVersion } },
      ?_, ?_, fun m hm => Http.message_of_patch hm, _, hread, rfl⟩
    · rw [serve, hserved]
      rfl
    · rw [serve, hserved]
      exact Dict.get?_insert_self ..

open Sample in
/-- A stage whose provisioning has failed is patched by a status without a message and a date, by a
finalizer without a version, and by an owner and a label. -/
theorem patches_alike_of_failed_stage :
    let c := (({} : World).run strayStage).cluster
    ∃ s failed, c.stages.get? (key "dev") = some s ∧ s.status = some failed ∧
      failed.detailedMessage.isSome = true ∧ failed.lastTimeUpdated = some .epoch ∧
      (∃ t patched, c.PatchesAlike (key "dev") s (.patchStageStatus "edp" "dev" {})
        (Http.statusPatch {}) t ∧ t.status = some patched ∧ patched.detailedMessage = none ∧
        patched.lastTimeUpdated = some .epoch) ∧
      (Http.requestMessage (.patchStageStatus "edp" "dev" {})).isOk = true ∧
      (∃ t, c.PatchesAlike (key "dev") s (.patchStageFinalizers "edp" "dev" none ["other"])
        (Http.finalizersPatch none ["other"]) t) ∧
      ∃ t, c.PatchesAlike (key "dev") s
        (.patchStageOwnership "edp" "dev" [team true] (.singleton "team" "web"))
        (Http.ownershipPatch [team true] (.singleton "team" "web")) t := by
  intro c
  obtain ⟨s, hs, hfacts⟩ := (Option.any_eq_true (fun s : Stage => decide
    (Metadata.decode s.metadata.toJson = .ok s.metadata ∧ s.spec.order = 0 ∧
      (s.status.bind (·.detailedMessage)).isSome = true ∧
      s.status.bind (·.lastTimeUpdated) = some .epoch))
    (c.stages.get? (key "dev"))).1 (by decide +kernel)
  obtain ⟨hmetadata, horder, hmessage, hdate⟩ := of_decide_eq_true hfacts
  obtain ⟨hstatus, hfinalizers, hownership⟩ :=
    patches_alike (c := c) hs hmetadata (by rw [horder]; decide)
  obtain ⟨t, patched, halike, hpatched, hnone, hkept⟩ := hstatus {}
  cases hfailed : s.status with
  | none =>
    rw [hfailed] at hmessage
    cases hmessage
  | some failed =>
    rw [hfailed] at hmessage hdate
    refine ⟨s, failed, hs, hfailed, hmessage, hdate, ⟨t, patched, halike, hpatched, hnone rfl, ?_⟩,
      by decide +kernel, hfinalizers none ["other"] rfl rfl,
      hownership [team true] (.singleton "team" "web")⟩
    rw [hkept rfl, hfailed]
    exact hdate

end Cluster

end Conveyor
