import Conveyor.Proofs.FixedPoint
import Conveyor.Proofs.QualityGates
import Conveyor.Proofs.Strictness

/-!
What a release job says of its stage. The configuration is the text of a JSON object, and one of its
members may be the text of the gates; both can be read back, so the configuration is the same
exactly for the same parameters. The specifications of two jobs of one name, for pipelines of one
name, then differ exactly where the parameters do, and a job is brought up to date for no other
reason.
-/

namespace Conveyor

open Session Cluster

namespace Json

theorem plain_ofDict {depth : Nat} (h : 1 < depth) (d : Dict String String) :
    (ofDict d).Plain depth := by
  refine ⟨h, List.pairwise_map.2 d.ascending, plainMembers_iff.2 fun m hm => ?_⟩
  obtain ⟨e, -, rfl⟩ := List.mem_map.1 hm
  trivial

theorem ofDict_injective : Function.Injective ofDict := by
  intro d e h
  have hread := Decoder.dict_ofDict d
  rw [h, Decoder.dict_ofDict e] at hread
  exact (Except.ok.inj hread).symm

end Json

namespace ReleaseJob

variable {s t : Stage} {p q : Pipeline}

/-- What the call of a provisioner tells of a stage and its pipeline. -/
structure Tells (s : Stage) (p : Pipeline) (call : ProvisionerCall) : Prop where
  /-- The configuration is an object of the parameters, and its members ascend in the text. -/
  config : ∃ ms, Json.read call.config = .ok (.object ms) ∧
    Json.readLoosely? call.config = some (.object ms) ∧ Entries.Ascending ms ∧
    Decoder.dict .text (.object ms) = .ok (parameters s p)
  gates : (parameters s p).contains "QG_STAGES" = true ↔ s.spec.qualityGates ≠ []
  marks : ∀ text, (parameters s p).get? "QG_STAGES" = some text →
    ∃ blocks, Gates.Tells text blocks ∧ blocks.flatten = s.spec.qualityGates.map Gates.mark
  libraryName : ∀ name, (parameters s p).get? "LIBRARY_NAME" = some name ↔
    s.spec.source.type = "library" ∧ ∃ l ∈ s.spec.source.library, l.name = name
  libraryBranch : ∀ branch, (parameters s p).get? "LIBRARY_BRANCH" = some branch ↔
    s.spec.source.type = "library" ∧ ∃ l ∈ s.spec.source.library, l.branch = branch
  provisioner : ∀ name, (parameters s p).get? "JOB_PROVISIONING" = some name ↔
    s.spec.jobProvisioner = some name ∧ name ≠ ""
  name : call.name = "job-provisions/job/cd/job/" ++
    ((parameters s p).get? "JOB_PROVISIONING").getD "default"

/-- The library that the job of a stage is made with. -/
def usedLibrary (s : Stage) : Option Library :=
  if s.spec.source.type = Source.libraryType then s.spec.source.library else none

theorem mem_usedLibrary {l : Library} :
    l ∈ usedLibrary s ↔ s.spec.source.type = "library" ∧ l ∈ s.spec.source.library := by
  unfold usedLibrary
  split
  · next h => exact (and_iff_right h).symm
  · next h => exact ⟨fun hl => (Option.not_mem_none l hl).elim, fun hl => (h hl.1).elim⟩

/-- The parameters that are not always there. -/
theorem get?_parameters (s : Stage) (p : Pipeline) :
    (parameters s p).get? "QG_STAGES" = Gates.toText s.spec.qualityGates ∧
      (parameters s p).get? "LIBRARY_NAME" = (usedLibrary s).map (·.name) ∧
      (parameters s p).get? "LIBRARY_BRANCH" = (usedLibrary s).map (·.branch) ∧
      (parameters s p).get? "JOB_PROVISIONING" = s.spec.jobProvisioner.filter (· ≠ "") := by
  rw [parameters, ← usedLibrary]
  simp only [Dict.get?, Dict.ofList, Entries.get?_ofList, List.filter_append]
  cases Gates.toText s.spec.qualityGates <;> cases usedLibrary s <;>
    cases s.spec.jobProvisioner.filter (· ≠ "") <;> simp

/-- **The call tells all parameters**, whatever words are in them. -/
theorem tells_desired (s : Stage) (p : Pipeline) : Tells s p (desired s p).spec.job := by
  obtain ⟨hgates, hname, hbranch, hprovisioner⟩ := get?_parameters s p
  have hplain : (Json.ofDict (parameters s p)).Plain 128 := Json.plain_ofDict (by decide) _
  refine ⟨⟨_, Json.read_render hplain, Json.readLoosely?_render hplain, ?ascending, ?read⟩,
    ?gates, fun text htext => ?marks, fun name => ?name, fun branch => ?branch,
    fun name => ?provisioner, ?job⟩
  case ascending => exact hplain.2.1
  case read => exact Decoder.dict_ofDict _
  case gates =>
    rw [Dict.contains, hgates]
    by_cases h : s.spec.qualityGates = []
    · simp [h, Gates.toText]
    · simp [h, Gates.toText_eq h]
  case marks =>
    have hnonempty : s.spec.qualityGates ≠ [] := by
      intro h
      rw [hgates, h] at htext
      cases htext
    rw [hgates, Gates.toText_eq hnonempty] at htext
    cases htext
    exact ⟨_, Gates.tells_blocks _, List.flatten_splitBy _ _⟩
  case name =>
    rw [hname, Option.map_eq_some_iff]
    simp only [← Option.mem_def, mem_usedLibrary, and_assoc, exists_and_left]
  case branch =>
    rw [hbranch, Option.map_eq_some_iff]
    simp only [← Option.mem_def, mem_usedLibrary, and_assoc, exists_and_left]
  case provisioner =>
    rw [hprovisioner, Option.filter_eq_some_iff, decide_eq_true_eq]
  case job =>
    rw [hprovisioner]
    rfl

/-- Jobs of one name, for pipelines of one name, differ exactly where their parameters do. -/
theorem spec_desired_eq_iff (hname : t.name = s.name) (hpipeline : q.name = p.name) :
    (desired t q).spec = (desired s p).spec ↔ parameters t q = parameters s p := by
  constructor
  · intro h
    have hconfig : (Json.ofDict (parameters t q)).render = (Json.ofDict (parameters s p)).render :=
      congrArg (·.job.config) h
    exact Json.ofDict_injective (Json.render_injective (Json.plain_ofDict (by decide) _)
      (Json.plain_ofDict (by decide) _) hconfig)
  · intro h
    -- The provisioner in the name of the call is one of the parameters.
    have hcall : (desired t q).spec.job.name = (desired s p).spec.job.name := by
      rw [(tells_desired t q).name, (tells_desired s p).name, h]
    have hjob : (desired t q).spec.job = (desired s p).spec.job :=
      congrArg₂ ProvisionerCall.mk hcall (congrArg (fun d => (Json.ofDict d).render) h)
    calc
      (desired t q).spec = ⟨none, t.name, q.name ++ "-cd-pipeline", (desired t q).spec.job⟩ := rfl
      _ = (desired s p).spec := by rw [hname, hpipeline, hjob]; rfl

/-! ### Putting a job again -/

variable {c c' : Cluster}

/-- Where a job was put, it is there as it has to be. -/
theorem job_of_put (hc : c.Coherent) (hp : c.pipelineOf s = .ok p)
    (hrun : (put s).run client c = (.ok (), c')) :
    ∃ j, c'.releaseJobs.get? s.key = some j ∧ keyIn s.namespaceName j = s.key ∧
      j.spec = (desired s p).spec := by
  have hput : (put s).Ensures NoFailure c.calm (Effect NoFailure {} s True _ _ c.calm) :=
    ensures_put hc.calm
  have hrun' := run_calm_of_ensures (fun _ _ => trivial)
    (((strict_put s).ensures hput).and (hc.calm.ensures (put s)) (F := fun _ => True))
  rw [hrun] at hrun'
  obtain ⟨hok, hc'⟩ := hrun'
  obtain ⟨q, hq, hcontents⟩ := ((hok () rfl).success () rfl).resolve_left (by simp)
  obtain rfl : p = q := Except.ok.inj (hp.symm.trans hq)
  obtain ⟨j, hj, hspec⟩ : ∃ j, c'.releaseJobs.get? s.key = some j ∧ j.spec = (desired s p).spec :=
    job_of_supplied ((congrArg (·.releaseJobs s.key) hcontents).trans (Table.alter_self ..))
  exact ⟨j, hj, hc'.releaseJobs.keyIn_eq hj, hspec⟩

theorem takes_replace (hc : ∀ o ∈ c.failures, o ∈ failable) {j : ReleaseJob}
    (hj : c.releaseJobs.get? s.key = some j) (hkey : keyIn s.namespaceName j = s.key) :
    (request (.replaceReleaseJob s.namespaceName { j with spec := (desired s p).spec })).Takes c
      [⟨.replaceReleaseJob s.namespaceName { j with spec := (desired s p).spec }, none⟩] (.ok ())
      (c.wrote releaseJobShelf s.key
        (Resource.versioned { j with spec := (desired s p).spec } (some c.nextVersion))) := by
  let j' : ReleaseJob := { j with spec := (desired s p).spec }
  have hkey' : keyIn s.namespaceName j' = s.key := hkey
  have hserve : c.serve (.replaceReleaseJob s.namespaceName j') = (.ok (),
      c.wrote releaseJobShelf s.key (Resource.versioned j' (some c.nextVersion))) := by
    have hfound : (releaseJobShelf.get c).get? (keyIn s.namespaceName j') = some j := hkey' ▸ hj
    refine (replace_of_current hfound rfl).trans ?_
    rw [hkey']
    rfl
  exact takes_request_of_not_mem (fun h => absurd (hc .replaceReleaseJob h) (by decide)) rfl hserve

/-- **A job is replaced exactly when its parameters have changed**, if it was put for a stage of
the same name and a pipeline of the same name before and nobody has touched it since. The call
tells all parameters, whatever words are in them. -/
theorem put_replaces_changed :
    (∀ (s : Stage) (p : Pipeline), Tells s p (desired s p).spec.job) ∧
    ∀ (c₀ c₁ c : Cluster) (s t : Stage) (p q : Pipeline), c₀.Reachable →
      c₀.pipelineOf s = .ok p → (put s).run client c₀ = (.ok (), c₁) →
      t.key = s.key → c.pipelineOf t = .ok q → q.name = p.name →
      c.releaseJobs.get? s.key = c₁.releaseJobs.get? s.key → (∀ o ∈ c.failures, o ∈ failable) →
        ∃ j, c.releaseJobs.get? s.key = some j ∧
          if parameters t q = parameters s p then (put t).Takes c [] (.ok ()) c else
            let j' : ReleaseJob := { j with spec := (desired t q).spec }
            (put t).Takes c [⟨.replaceReleaseJob s.namespaceName j', none⟩] (.ok ())
              (c.wrote releaseJobShelf s.key (Resource.versioned j' (some c.nextVersion))) := by
  refine ⟨tells_desired, fun c₀ c₁ c s t p q hreachable hp hrun hkey hq hname hsame hc => ?_⟩
  obtain ⟨j, hj, hkeyIn, hspec⟩ := job_of_put hreachable.coherent hp hrun
  obtain ⟨hnamespace, hname'⟩ := ObjectKey.mk.inj hkey
  rw [← hsame, ← hkey] at hj
  rw [← hkey, ← hnamespace] at hkeyIn ⊢
  refine ⟨j, hj, ?_⟩
  have hiff : j.spec = (desired t q).spec ↔ parameters t q = parameters s p := by
    rw [hspec, eq_comm, spec_desired_eq_iff hname' hname]
  split
  · next h =>
    exact takes_put_of_stored hc hq hj (takes_if_pos (hiff.2 h) (takes_pure ()))
  · next h =>
    refine takes_put_of_stored hc hq hj (takes_if_neg (mt hiff.1 h) ?_)
    exact Takes.andThen (takes_replace hc hj hkeyIn) (takes_pure ())

open Sample in
/-- A job with an odd gate is left alone for a stage with another description, and replaced for one
that has lost the gate, while the next stream is to fail. -/
theorem put_replaces_changed_gate :
    let c := (({} : World).run (arranging ++ [.failNext .createImageStream])).cluster
    let s : Stage := { stage "dev" 0 with spec.qualityGates := [⟨"a\"]", "\n", none, none⟩] }
    let t : Stage := { s with spec.description := "first" }
    let u : Stage := { s with spec.qualityGates := [] }
    let p : Pipeline := Resource.stored pipeline "edp" (versionText 1)
    let c' := ((put s).run client c).2
    Tells s p (desired s p).spec.job ∧ (put t).Takes c' [] (.ok ()) c' ∧
      ∃ j, (put u).writes c' = [⟨.replaceReleaseJob "edp" j, none⟩] ∧
        j.spec = (desired u p).spec := by
  intro c s t u p c'
  have hc : c.Reachable := World.reachable_run _
  have hok : ((put s).run client c).1 = .ok () := by decide +kernel
  have hrun : (put s).run client c = (.ok (), c') := Prod.ext hok rfl
  have hp : c.pipelineOf s = .ok p ∧ c'.pipelineOf t = .ok p ∧ c'.pipelineOf u = .ok p := by
    decide +kernel
  have hsame : parameters t p = parameters s p ∧ parameters u p ≠ parameters s p := by
    decide +kernel
  have hfailures : ∀ o ∈ c'.failures, o ∈ failable := by decide +kernel
  obtain ⟨hp, ht, hu⟩ := hp
  obtain ⟨i, hi, hkept⟩ := put_replaces_changed.2 c c' c' s t p p hc hp hrun rfl ht rfl rfl
    hfailures
  obtain ⟨j, hj, hreplaced⟩ := put_replaces_changed.2 c c' c' s u p p hc hp hrun rfl hu rfl
    rfl hfailures
  rw [if_pos hsame.1] at hkept
  rw [if_neg hsame.2] at hreplaced
  exact ⟨put_replaces_changed.1 s p, hkept, _, hreplaced.writes, rfl⟩

end ReleaseJob

end Conveyor
