import Conveyor.Proofs.Statuses

/-!
What is written is read again. Each part of a stage, and each specification of the other kinds, is
read as what it was written from; of the order of a stage this is so within 32 bits. There is a step
for each field, the last one first.
-/

namespace Conveyor

open Record

/-- Members that are all there. -/
theorem Json.ofMembers_eq (ms : List (String × Json)) :
    ofMembers ms = ofPresent (ms.map fun m => (m.1, some m.2)) := by
  rw [ofPresent, List.filterMap_map]
  exact congrArg _ List.filterMap_some.symm

theorem QualityGate.decode_toJson (g : QualityGate) : decode g.toJson = .ok g := by
  obtain ⟨type, stepName, autotestName, branchName⟩ := g
  have hnames : ["qualityGateType", "stepName", "autotestName", "branchName"].Nodup := by decide
  refine Reads.decode_ofPresent ?_ "QualityGate"
  refine .present ?_ hnames (Field.read_optional _ fun _ _ => ⟨rfl, rfl⟩)
  refine .present ?_ hnames (Field.read_optional _ fun _ _ => ⟨rfl, rfl⟩)
  refine .present ?_ hnames rfl
  exact .present (reads_make _) hnames rfl

theorem Library.decode_toJson (l : Library) : decode l.toJson = .ok l := by
  obtain ⟨name, branch⟩ := l
  have hnames : ["name", "branch"].Nodup := by decide
  rw [toJson, Json.ofMembers_eq]
  refine Reads.decode_ofPresent ?_ "Library"
  refine .present ?_ hnames rfl
  exact .present (reads_make _) hnames rfl

theorem Source.decode_toJson (s : Source) : decode s.toJson = .ok s := by
  obtain ⟨type, library⟩ := s
  have hnames : ["type", "library"].Nodup := by decide
  refine Reads.decode_ofPresent ?_ "Source"
  refine .present ?_ hnames (Field.read_optional _ fun l _ => ⟨l.decode_toJson, rfl⟩)
  exact .present (reads_make _) hnames rfl

theorem StageSpec.decode_toJson (s : StageSpec)
    (horder : -0x80000000 ≤ s.order ∧ s.order ≤ 0x7FFFFFFF) : decode s.toJson = .ok s := by
  obtain ⟨name, pipeline, description, triggerType, order, qualityGates, source,
    jobProvisioner⟩ := s
  have hnames : ["name", "cdPipeline", "description", "triggerType", "order", "qualityGates",
      "source", "jobProvisioning"].Nodup := by decide
  refine Reads.decode_ofPresent ?_ "StageSpec"
  refine .present ?_ hnames (Field.read_optional _ fun _ _ => ⟨rfl, rfl⟩)
  refine .present ?_ hnames source.decode_toJson
  refine .present ?_ hnames (Decoder.list_map fun g _ => g.decode_toJson)
  refine .present ?_ hnames (if_pos horder)
  refine .present ?_ hnames rfl
  refine .present ?_ hnames rfl
  refine .present ?_ hnames rfl
  exact .present (reads_make _) hnames rfl

theorem StageStatus.decode_toJson (s : StageStatus) : decode s.toJson = .ok s := by
  obtain ⟨available, updated, status, username, action, result, message, value, handled⟩ := s
  refine Reads.decode_ofPresent ?_ "StageStatus"
  refine .present ?_ nodup_names rfl
  refine .present ?_ nodup_names rfl
  refine .present ?_ nodup_names (by cases message <;> rfl)
  refine .present ?_ nodup_names rfl
  refine .present ?_ nodup_names rfl
  refine .present ?_ nodup_names rfl
  refine .present ?_ nodup_names rfl
  refine .present ?_ nodup_names (read_date updated)
  exact .present (reads_make _) nodup_names rfl

theorem OwnerReference.decode_toJson (o : OwnerReference) : decode o.toJson = .ok o := by
  obtain ⟨apiVersion, blockOwnerDeletion, controller, kind, name, uid⟩ := o
  have hnames : ["apiVersion", "blockOwnerDeletion", "controller", "kind", "name",
      "uid"].Nodup := by decide
  refine Reads.decodeObject_ofPresent ?_ "OwnerReference"
  refine .present ?_ hnames rfl
  refine .present ?_ hnames rfl
  refine .present ?_ hnames rfl
  refine .present ?_ hnames (Field.read_optional _ fun _ _ => ⟨rfl, rfl⟩)
  refine .present ?_ hnames (Field.read_optional _ fun _ _ => ⟨rfl, rfl⟩)
  exact .present (reads_make _) hnames rfl

/-! ### The other kinds -/

theorem PipelineSpec.decode_toJson (s : PipelineSpec) : decode s.toJson = .ok s := by
  obtain ⟨name, inputStreams, deploymentType, applications, applicationsToPromote⟩ := s
  have hnames : ["name", "inputDockerStreams", "deploymentType", "applications",
      "applicationsToPromote"].Nodup := by decide
  rw [toJson, Json.ofMembers_eq]
  refine Reads.decode_ofPresent ?_ "CDPipelineSpec"
  refine .present ?_ hnames (Decoder.list_strings applicationsToPromote)
  refine .present ?_ hnames (Decoder.list_strings applications)
  refine .present ?_ hnames rfl
  refine .present ?_ hnames (Decoder.list_strings inputStreams)
  exact .present (reads_make _) hnames rfl

theorem Tag.decode_toJson (t : Tag) : decode t.toJson = .ok t := by
  obtain ⟨name, created⟩ := t
  have hnames : ["name", "created"].Nodup := by decide
  refine Reads.decode_ofPresent ?_ "Tag"
  refine .present ?_ hnames (Field.read_optional _ fun _ _ => ⟨rfl, rfl⟩)
  exact .present (reads_make _) hnames rfl

theorem ImageStreamSpec.decode_toJson (s : ImageStreamSpec) : decode s.toJson = .ok s := by
  obtain ⟨codebase, imageName, tags⟩ := s
  have hnames : ["codebase", "imageName", "tags"].Nodup := by decide
  rw [toJson, Json.ofMembers_eq]
  refine Reads.decode_ofPresent ?_ "CodebaseImageStreamSpec"
  refine .present ?_ hnames (Decoder.list_map fun t _ => t.decode_toJson)
  refine .present ?_ hnames rfl
  exact .present (reads_make _) hnames rfl

theorem ComponentSpec.decode_toJson (s : ComponentSpec) : decode s.toJson = .ok s := by
  obtain ⟨type, url, icon, visible⟩ := s
  have hnames : ["type", "url", "icon", "visible"].Nodup := by decide
  rw [toJson, Json.ofMembers_eq]
  refine Reads.decode_ofPresent ?_ "EDPComponentSpec"
  refine .present ?_ hnames rfl
  refine .present ?_ hnames rfl
  refine .present ?_ hnames rfl
  exact .present (reads_make _) hnames rfl

theorem ProvisionerCall.decode_toJson (c : ProvisionerCall) : decode c.toJson = .ok c := by
  obtain ⟨name, config⟩ := c
  have hnames : ["name", "config"].Nodup := by decide
  rw [toJson, Json.ofMembers_eq]
  refine Reads.decode_ofPresent ?_ "Job"
  refine .present ?_ hnames rfl
  exact .present (reads_make _) hnames rfl

theorem ReleaseJobSpec.decode_toJson (s : ReleaseJobSpec) : decode s.toJson = .ok s := by
  obtain ⟨ownerName, stageName, folder, job⟩ := s
  have hnames : ["ownerName", "stageName", "jenkinsFolder", "job"].Nodup := by decide
  refine Reads.decode_ofPresent ?_ "JenkinsJobSpec"
  refine .present ?_ hnames job.decode_toJson
  refine .present ?_ hnames rfl
  refine .present ?_ hnames rfl
  exact .present (reads_make _) hnames (Field.read_optional _ fun _ _ => ⟨rfl, rfl⟩)

end Conveyor
