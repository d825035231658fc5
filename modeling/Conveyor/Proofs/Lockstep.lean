import Conveyor.Proofs.Provisioning
import Conveyor.Proofs.Retirement
import Conveyor.Proofs.Scenario
import Conveyor.Proofs.Twins

/-!
Sessions in lockstep. Two sessions that run on twin clusters, one on each, concur when they come to
the same end, publish the same notices, note the same writes of stages, and leave twins behind.
Results are compared by a relation `R`, since objects that were read have versions, which go by
other names in the second cluster.

A reconcile concurs with itself at another time: it asks both clusters the same, up to versions and
dates, and neither has a say in where it goes.
-/

namespace Conveyor

/-- Without failures to come a request is served. -/
theorem ObservedCluster.answer_of_quiet {o : ObservedCluster} (ho : o.FailsWith NoFailure)
    (r : Request) :
    (o.answer r).1 = (o.cluster.serve r).1 ∧ (o.answer r).2.cluster = (o.cluster.serve r).2 ∧
      (o.answer r).2.notices = o.notices := by
  have hscripts : o.scripts = [] := List.eq_nil_iff_forall_not_mem.2 ho.scripted
  have hfailures : o.cluster.failures = [] := List.eq_nil_iff_forall_not_mem.2 ho.stored
  simp only [answer, hscripts, FaultScript.next, Cluster.answer_eq_serve hfailures, and_self]

namespace Session

open ObservedCluster (client)

variable {ρ : String → String} {s : Stage} {α β γ δ : Type} {R : α → β → Prop} {S : γ → δ → Prop}

/-- Two runs from `o` and from `o'` have come to the same. -/
structure Concluded (ρ : String → String) (s : Stage) (R : α → β → Prop) (o o' : ObservedCluster)
    (x : Except Error α × ObservedCluster) (y : Except Error β × ObservedCluster) : Prop where
  result : SameEnd R x.1 y.1
  twins : Cluster.Twins ρ s x.2.cluster y.2.cluster
  notices : ∃ ns, x.2.notices = o.notices ++ ns ∧ y.2.notices = o'.notices ++ ns
  writes : ∃ ws, x.2.cluster.stageWrites = o.cluster.stageWrites ++ ws ∧
    y.2.cluster.stageWrites = o'.cluster.stageWrites ++ ws

/-- The sessions come to the same on twin clusters. -/
def Concur (ρ : String → String) (s : Stage) (R : α → β → Prop) (p : Session α) (q : Session β) :
    Prop :=
  ∀ o o', o.FailsWith NoFailure → o'.FailsWith NoFailure →
    Cluster.Twins ρ s o.cluster o'.cluster → Concluded ρ s R o o' (p.run client o) (q.run client o')

/-! ### The rules -/

theorem concur_done {x : Except Error α} {y : Except Error β} (h : SameEnd R x y) :
    (done x).Concur ρ s R (done y) := fun _ _ _ _ htwins =>
  ⟨h, htwins, ⟨[], (List.append_nil _).symm, (List.append_nil _).symm⟩,
    [], (List.append_nil _).symm, (List.append_nil _).symm⟩

theorem concur_pure {a : α} {b : β} (h : R a b) :
    (pure a : Session α).Concur ρ s R (pure b : Session β) := concur_done (.ok h)

theorem concur_fail (e : Error) : (fail e : Session α).Concur ρ s R (fail e : Session β) :=
  concur_done (.error e)

/-- A request is answered alike in both clusters. -/
theorem concur_request (r r' : Request) {R : r.Response → r'.Response → Prop}
    (h : ∀ c c', Cluster.Twins ρ s c c' → Cluster.Served ρ s R c c' (c.serve r) (c'.serve r')) :
    (request r).Concur ρ s R (request r') := by
  intro o o' ho ho' htwins
  obtain ⟨hanswer, hcluster, hnotices⟩ := o.answer_of_quiet ho r
  obtain ⟨hanswer', hcluster', hnotices'⟩ := o'.answer_of_quiet ho' r'
  obtain ⟨hend, hafter, ws, hws, hws'⟩ := h _ _ htwins
  refine ⟨?_, ?_, ⟨[], ?_, ?_⟩, ws, ?_, ?_⟩
  · simp only [request, run, client, hanswer, hanswer']
    exact hend
  · simp only [request, run, client, hcluster, hcluster']
    exact hafter
  · simp only [request, run, client, hnotices, List.append_nil]
  · simp only [request, run, client, hnotices', List.append_nil]
  · simp only [request, run, client, hcluster]
    exact hws
  · simp only [request, run, client, hcluster']
    exact hws'

/-- The same request of both clusters. -/
theorem concur_same (r : Request) {R : r.Response → r.Response → Prop}
    (h : ∀ c c', Cluster.Twins ρ s c c' → Cluster.Served ρ s R c c' (c.serve r) (c'.serve r)) :
    (request r).Concur ρ s R (request r) :=
  concur_request r r h

theorem concur_publish (n : Notice) : (publish n).Concur ρ s Eq (publish n) :=
  fun _ _ _ _ htwins =>
    ⟨.ok rfl, htwins, ⟨[n], rfl, rfl⟩, [], (List.append_nil _).symm, (List.append_nil _).symm⟩

theorem Concur.andThen {p : Session α} {q : Session β} {f : Except Error α → Session γ}
    {g : Except Error β → Session δ} (h : p.Concur ρ s R q)
    (k : ∀ x y, SameEnd R x y → (f x).Concur ρ s S (g y)) :
    (p.andThen f).Concur ρ s S (q.andThen g) := by
  intro o o' ho ho' htwins
  have hfirst := h o o' ho ho' htwins
  have hrest := k _ _ hfirst.result _ _ (ObservedCluster.failsWith_run p ho)
    (ObservedCluster.failsWith_run q ho') hfirst.twins
  obtain ⟨ns, hns, hns'⟩ := hfirst.notices
  obtain ⟨ms, hms, hms'⟩ := hrest.notices
  obtain ⟨ws, hws, hws'⟩ := hfirst.writes
  obtain ⟨vs, hvs, hvs'⟩ := hrest.writes
  rw [run_andThen, run_andThen]
  exact ⟨hrest.result, hrest.twins,
    ⟨ns ++ ms, by rw [hms, hns, List.append_assoc], by rw [hms', hns', List.append_assoc]⟩,
    ws ++ vs, by rw [hvs, hws, List.append_assoc], by rw [hvs', hws', List.append_assoc]⟩

theorem Concur.bind {p : Session α} {q : Session β} {f : α → Session γ} {g : β → Session δ}
    (h : p.Concur ρ s R q) (k : ∀ a b, R a b → (f a).Concur ρ s S (g b)) :
    (p >>= f).Concur ρ s S (q >>= g) :=
  Concur.andThen h fun x y hxy => by
    cases hxy with
    | ok hab => exact k _ _ hab
    | error e => exact concur_fail e

/-- A part that comes to one and the same result in both. -/
theorem Concur.bind_eq {p q : Session α} {f : α → Session γ} {g : α → Session δ}
    (h : p.Concur ρ s Eq q) (k : ∀ a, (f a).Concur ρ s S (g a)) :
    (p >>= f).Concur ρ s S (q >>= g) :=
  h.bind fun a b hab => by
    obtain rfl := hab
    exact k a

theorem concur_ite {b : Prop} [Decidable b] {p p' : Session α} {q q' : Session β}
    (hp : p.Concur ρ s R q) (hp' : p'.Concur ρ s R q') :
    (if b then p else p').Concur ρ s R (if b then q else q') := by
  split
  · exact hp
  · exact hp'

theorem Concur.attempt {p : Session α} {q : Session β} (h : p.Concur ρ s R q) :
    p.attempt.Concur ρ s (SameEnd R) q.attempt :=
  h.andThen fun _ _ hxy => concur_done (.ok hxy)

theorem Concur.mapError {p : Session α} {q : Session β} (h : p.Concur ρ s R q) (f : Error → Error) :
    (p.mapError f).Concur ρ s R (q.mapError f) :=
  h.andThen fun x y hxy => by
    cases hxy with
    | ok hab => exact concur_done (.ok hab)
    | error e => exact concur_done (.error (f e))

/-- The rounds of loops over corresponding members. -/
theorem concur_each {ι κ : Type} {T : ι → κ → Prop} {f : ι → Session Unit} {g : κ → Session Unit}
    {is : List ι} {js : List κ} (hmembers : List.Forall₂ T is js)
    (h : ∀ i j, T i j → (f i).Concur ρ s Eq (g j)) : (each is f).Concur ρ s Eq (each js g) := by
  induction hmembers with
  | nil => exact concur_pure rfl
  | cons hij _ ih =>
      rw [each_cons, each_cons]
      exact (h _ _ hij).bind_eq fun _ => ih

theorem concur_each_self {ι : Type} {f : ι → Session Unit} (is : List ι)
    (h : ∀ i ∈ is, (f i).Concur ρ s Eq (f i)) : (each is f).Concur ρ s Eq (each is f) := by
  induction is with
  | nil => exact concur_pure rfl
  | cons i is ih =>
      obtain ⟨hi, his⟩ := List.forall_mem_cons.1 h
      rw [each_cons]
      exact hi.bind_eq fun _ => ih his

end Session

open Session Cluster
open Resource (renamed)
open Promotion (Consumed)

variable {ρ : String → String} {s : Stage} {config : Config}

/-! ### What is looked up -/

namespace Stage

/-- Whether a stage belongs to a pipeline, and whether it is waited for, is told by what it is known
by. -/
theorem map_identity_filter (pipeline : String) (bs : List Stage) :
    (bs.filter (·.pipelineName = pipeline)).map identity =
      (bs.map identity).filter (·.2.2.1 = pipeline) := by
  rw [List.filter_map]
  rfl

theorem hasDependents_of_identity {bs bs' : List Stage} (h : bs'.map identity = bs.map identity) :
    s.hasDependents bs' = s.hasDependents bs := by
  have hknown (as : List Stage) : s.hasDependents as = (as.map identity).any fun i =>
      i.1.name != s.name &&
        (s.spec.order < i.2.2.2.order || (i.2.2.2.order == s.spec.order && !i.2.1)) := by
    rw [List.any_map]
    rfl
  rw [hknown, hknown, h]

/-- Siblings are the same as far as stages know each other. -/
theorem concur_siblings (pipeline : String) :
    (s.siblings pipeline).Concur ρ s (fun bs bs' => bs'.map identity = bs.map identity)
      (s.siblings pipeline) := by
  let known (bs bs' : List Stage) : Prop := bs'.map identity = bs.map identity
  refine (concur_same (R := known) (.listStages s.namespaceName)
    fun c c' h => h.found h.stagesOf).bind
      fun (bs bs' : List Stage) (hsame : known bs bs') => concur_pure ?_
  rw [map_identity_filter, map_identity_filter, hsame]

theorem concur_predecessor (pipeline : String) :
    (s.predecessor pipeline).Concur ρ s (fun p p' => p'.spec = p.spec)
      (s.predecessor pipeline) := by
  refine (concur_siblings pipeline).bind fun bs bs' hsame => ?_
  have hprevious := previousOf_map_identity s.spec.order hsame
  cases hp : previousOf s.spec.order bs with
  | none =>
      rw [hp] at hprevious
      rw [Option.map_eq_none_iff.1 hprevious]
      exact concur_fail _
  | some p =>
      rw [hp] at hprevious
      obtain ⟨p', hp', hidentity⟩ := Option.map_eq_some_iff.1 hprevious
      rw [hp']
      exact concur_pure (spec_of_identity hidentity)

end Stage

namespace Promotion

theorem concur_pipelineOf : (pipelineOf s).Concur ρ s Eq (pipelineOf s) := by
  refine (concur_same (R := Eq) (.getPipeline s.namespaceName s.pipelineName)
    fun c c' h => h.found (h.pipelines.get?_eq rfl)).bind_eq fun found => ?_
  cases found with
  | none => exact concur_fail _
  | some p => exact concur_pure rfl

theorem concur_stream (name : String) :
    (stream s.namespaceName name).Concur ρ s (fun x y => y = renamed ρ x)
      (stream s.namespaceName name) := by
  refine (concur_same (.getImageStream s.namespaceName name)
    fun c c' h => h.found (h.imageStreams _ rfl)).bind fun x y hxy => ?_
  cases hxy with
  | none => exact concur_fail _
  | some hxy => exact concur_pure hxy

theorem concur_registryUrl :
    (registryUrl s.namespaceName).Concur ρ s Eq (registryUrl s.namespaceName) := by
  refine (concur_same (R := Eq) (.getComponent s.namespaceName Component.registryName)
    fun c c' h => h.found (h.components.get?_eq rfl)).bind_eq fun found => ?_
  cases found with
  | none => exact concur_fail _
  | some registry => exact concur_pure rfl

/-- What is consumed is the same, but the versions of the streams have other names. -/
def Consumed.Twin (ρ : String → String) (d e : Consumed) : Prop :=
  e = ⟨d.codebase, renamed ρ d.stream⟩

theorem concur_consumedFor (p : Pipeline) {q q' : Option Stage}
    (hq : Option.Rel (fun a b => b.spec = a.spec) q q') (input : String) :
    (consumedFor s p q input).Concur ρ s (Consumed.Twin ρ) (consumedFor s p q' input) := by
  refine (concur_stream input).bind fun x y hxy => ?_
  obtain rfl := hxy
  cases hq with
  | none => exact concur_pure rfl
  | some hspec =>
      dsimp only
      rw [hspec]
      refine (concur_stream _).bind fun x' y' hxy' => ?_
      obtain rfl := hxy'
      exact concur_pure rfl

theorem concur_consumedForAll (p : Pipeline) {q q' : Option Stage}
    (hq : Option.Rel (fun a b => b.spec = a.spec) q q') (inputs : List String) :
    (consumedForAll s p q inputs).Concur ρ s (List.Forall₂ (Consumed.Twin ρ))
      (consumedForAll s p q' inputs) := by
  induction inputs with
  | nil => exact concur_pure .nil
  | cons input rest ih =>
      exact (concur_consumedFor p hq input).bind fun d e hde =>
        ih.bind fun ds es hrest => concur_pure (.cons hde hrest)

theorem concur_consumed (p : Pipeline) :
    (consumed s p).Concur ρ s (List.Forall₂ (Consumed.Twin ρ)) (consumed s p) := by
  have hnames : (done (inputs p)).Concur ρ s Eq (done (inputs p)) := by
    cases inputs p with
    | ok names => exact concur_pure rfl
    | error e => exact concur_fail e
  refine hnames.bind_eq fun names => concur_ite ?_ ?_
  · exact (concur_pure (R := Option.Rel _) .none).bind fun q q' hq =>
      concur_consumedForAll p hq names
  · rw [← bind_pure_comp]
    refine ((Stage.concur_predecessor p.name).bind fun q q' hq => ?_).bind fun q q' hq =>
      concur_consumedForAll p hq names
    exact concur_pure (.some hq)

end Promotion

/-! ### What is written -/

theorem concur_requestFor (r r' : Request) {R : r.Response → r'.Response → Prop}
    (h : ∀ c c', Twins ρ s c c' → Served ρ s R c c' (c.serve r) (c'.serve r'))
    (action kind name : String) :
    (requestFor action kind name r).Concur ρ s R (requestFor action kind name r') :=
  (concur_request r r' h).mapError _

namespace Target

theorem concur_tolerate {p q : Session Unit} (h : p.Concur ρ s Eq q) (tolerable : Error → Bool)
    (action kind name : String) :
    (tolerate tolerable action kind name p).Concur ρ s Eq
      (tolerate tolerable action kind name q) :=
  h.andThen fun x y hxy => by
    cases hxy with
    | ok _ => exact concur_pure rfl
    | error e =>
        dsimp only
        split
        · exact concur_pure rfl
        · exact concur_fail _

theorem concur_require : (require s).Concur ρ s Eq (require s) := by
  refine (concur_same (R := Eq) (.namespaceExists s.targetNamespace)
    fun c c' h => h.found (h.namespaces.contains_eq rfl).symm).bind_eq fun (found : Bool) => ?_
  exact concur_ite (concur_pure rfl) (concur_fail _)

theorem concur_placing : (placing config s).Concur ρ s Eq (placing config s) := by
  refine concur_ite concur_require (concur_ite (concur_tolerate ?space _ _ _ _)
    (concur_ite (concur_tolerate ?place _ _ _ _) (concur_tolerate ?project _ _ _ _)))
  case space => exact concur_same (.createSpace _ _) fun c c' h => h.createSpace rfl _
  case place => exact concur_same (.createNamespace _) fun c c' h => h.createNamespace rfl
  case project => exact concur_same (.createProject _ _) fun c c' h => h.createProject rfl

theorem concur_removal : (removal config s).Concur ρ s Eq (removal config s) := by
  refine concur_ite (concur_ite (concur_tolerate ?place _ _ _ _)
    (concur_tolerate ?project _ _ _ _)) (concur_pure rfl)
  case place => exact concur_same (.deleteNamespace _) fun c c' h => h.deleteNamespace rfl
  case project => exact concur_same (.deleteProject _) fun c c' h => h.deleteProject rfl

end Target

namespace Access

theorem concur_ensureRole {role : Role}
    (hrole : role.metadata.namespaceOrEmpty = s.targetNamespace) :
    (ensureRole role).Concur ρ s Eq (ensureRole role) := by
  unfold ensureRole
  rw [hrole]
  refine (concur_same (.getRole s.targetNamespace _)
    fun c c' h => h.found (h.roles _ rfl)).bind fun x y hxy => ?_
  cases hxy with
  | none =>
      exact concur_requestFor (.createRole _ _) (.createRole _ _)
        (fun c c' h => h.createRole rfl _) _ _ _
  | some _ => exact concur_pure rfl

theorem concur_ensureBinding {b : RoleBinding}
    (hb : b.metadata.namespaceOrEmpty = s.targetNamespace) :
    (ensureBinding b).Concur ρ s Eq (ensureBinding b) := by
  unfold ensureBinding
  rw [hb]
  refine (concur_same (.getRoleBinding s.targetNamespace _)
    fun c c' h => h.found (h.roleBindings _ rfl)).bind fun x y hxy => ?_
  cases hxy with
  | none =>
      exact concur_requestFor (.createRoleBinding _ _) (.createRoleBinding _ _)
        (fun c c' h => h.createRoleBinding rfl _) _ _ _
  | some _ => exact concur_pure rfl

/-- All access is access to the target. -/
theorem concur_configure : (configure config s).Concur ρ s Eq (configure config s) := by
  refine (concur_ensureRole rfl).bind_eq fun _ => concur_each_self _ fun b hb => ?_
  obtain ⟨name, hmetadata⟩ := metadata_of_mem_bindings hb
  exact concur_ensureBinding (by rw [hmetadata]; rfl)

end Access

namespace Promotion

theorem concur_putVerified (name : String) (spec : ImageStreamSpec) (hρ : Function.Injective ρ) :
    (putVerified s.namespaceName name spec).Concur ρ s Eq
      (putVerified s.namespaceName name spec) := by
  refine (concur_same (.getImageStream s.namespaceName name)
    fun c c' h => h.found (h.imageStreams _ rfl)).bind fun x y hxy => ?_
  cases hxy with
  | none =>
      exact concur_requestFor (.createImageStream _ _) (.createImageStream _ _)
        (fun c c' h => h.createImageStream rfl _) _ _ _
  | some hxy =>
      obtain rfl := hxy
      exact concur_ite (concur_pure rfl)
        (concur_requestFor (.replaceImageStream _ _) (.replaceImageStream _ _)
          (fun c c' h => h.replaceImageStream hρ rfl _) _ _ _)

theorem concur_promote (hρ : Function.Injective ρ) : (promote s).Concur ρ s Eq (promote s) := by
  refine concur_pipelineOf.bind_eq fun p => (concur_consumed p).bind fun ds es hds => ?_
  refine concur_registryUrl.bind_eq fun registry => concur_each hds fun d e hde => ?_
  obtain rfl := hde
  exact concur_putVerified _ _ hρ

end Promotion

theorem ReleaseJob.concur_put (hρ : Function.Injective ρ) : (put s).Concur ρ s Eq (put s) := by
  refine Promotion.concur_pipelineOf.bind_eq fun p => ?_
  refine (concur_same (.getReleaseJob s.namespaceName s.name)
    fun c c' h => h.found (h.releaseJobs _ rfl)).bind fun x y hxy => ?_
  cases hxy with
  | none =>
      exact concur_requestFor (.createReleaseJob _ _) (.createReleaseJob _ _)
        (fun c c' h => h.createReleaseJob rfl _) _ _ _
  | some hxy =>
      obtain rfl := hxy
      exact concur_ite (concur_pure rfl)
        (concur_requestFor (.replaceReleaseJob _ _) (.replaceReleaseJob _ _)
          (fun c c' h => h.replaceReleaseJob hρ rfl _) _ _ _)

theorem concur_provision (hρ : Function.Injective ρ) :
    (provision config s).Concur ρ s Eq (provision config s) := by
  rw [Target.provision_eq]
  refine Target.concur_placing.bind_eq fun _ => Access.concur_configure.bind_eq fun _ => ?_
  exact (Promotion.concur_promote hρ).bind_eq fun _ => ReleaseJob.concur_put hρ

theorem Retirement.concur_deleteEnvironmentLabels (hρ : Function.Injective ρ) :
    (deleteEnvironmentLabels s).Concur ρ s Eq (deleteEnvironmentLabels s) := by
  refine Promotion.concur_pipelineOf.bind_eq fun p => ?_
  refine (Promotion.concur_consumed p).bind fun ds es hds => concur_each hds fun d e hde => ?_
  obtain rfl := hde
  refine concur_ite ?_ (concur_pure rfl)
  exact concur_requestFor (.replaceImageStream _ _) (.replaceImageStream _ _)
    (fun c c' h => h.replaceImageStream hρ rfl _) _ _ _

theorem concur_deprovision (hρ : Function.Injective ρ) :
    (deprovision config s).Concur ρ s Eq (deprovision config s) := by
  rw [Target.deprovision_eq]
  exact (Retirement.concur_deleteEnvironmentLabels hρ).bind_eq fun _ => Target.concur_removal

/-! ### The stage itself

The copy that is reconciled is the same in both runs. Its version has to be one that goes by its own
name. -/

namespace Stage

section

variable (hρ : Function.Injective ρ)
  (hversion : s.metadata.resourceVersion.map ρ = s.metadata.resourceVersion)
include hρ hversion

theorem concur_writeFinalizers (finalizers : List String) :
    (s.writeFinalizers finalizers).Concur ρ s Eq (s.writeFinalizers finalizers) :=
  concur_same (.patchStageFinalizers _ _ _ _) fun c c' h => by
    have hserved := h.patchFinalizers s.atHome_key hρ s.metadata.resourceVersion finalizers
    rw [hversion] at hserved
    exact hserved

theorem concur_ensureFinalizer : s.ensureFinalizer.Concur ρ s Eq s.ensureFinalizer := by
  unfold ensureFinalizer
  split
  · exact concur_pure rfl
  · exact (concur_writeFinalizers hρ hversion _).bind_eq fun _ => concur_pure rfl

theorem concur_releaseFinalizer : s.releaseFinalizer.Concur ρ s Eq s.releaseFinalizer := by
  unfold releaseFinalizer
  split
  · exact concur_pure rfl
  · exact concur_writeFinalizers hρ hversion _

theorem concur_advanceDeletion :
    (s.advanceDeletion config).Concur ρ s Eq (s.advanceDeletion config) := by
  refine (concur_siblings _).bind fun bs bs' hsame => ?_
  have hstate : s.deletionState bs' = s.deletionState bs := by
    rw [deletionState, deletionState, hasDependents_of_identity hsame]
  rw [hstate]
  refine concur_ite ?_ (concur_pure rfl)
  refine (concur_deprovision hρ).bind_eq fun _ => ?_
  exact (concur_releaseFinalizer hρ hversion).bind_eq fun _ => concur_pure rfl

theorem concur_reconcileDeletion :
    (s.reconcileDeletion config).Concur ρ s Eq (s.reconcileDeletion config) := by
  refine (concur_advanceDeletion hρ hversion).attempt.bind fun x y hxy => ?_
  cases hxy with
  | error e => exact (concur_publish _).bind_eq fun _ => concur_fail e
  | @ok a b hab =>
      obtain rfl : a = b := hab
      cases a with
      | pendingDependents | finalizing =>
          exact (concur_publish _).bind_eq fun _ => concur_pure rfl
      | active | gone => exact concur_pure rfl

end

theorem concur_ensureOwnership : s.ensureOwnership.Concur ρ s Eq s.ensureOwnership := by
  refine Promotion.concur_pipelineOf.bind_eq fun p => concur_ite (concur_pure rfl) ?_
  refine Concur.bind_eq (p := .done _) (q := .done _) ?_ fun owners =>
    concur_same (.patchStageOwnership _ _ _ _) fun c c' h =>
      h.patchOwnership s.atHome_key _ _
  cases s.ownersWith p.ownerReference with
  | ok owners => exact concur_pure rfl
  | error e => exact concur_fail e

/-- Statuses of different times are the same else. -/
theorem concur_writeStatus {status status' : StageStatus} {t t' : Timestamp}
    (hdated : status.lastTimeUpdated = some t) (hdated' : status'.lastTimeUpdated = some t')
    (hsame : status'.undated = status.undated) :
    (s.writeStatus status).Concur ρ s Eq (s.writeStatus status') :=
  concur_request (R := Eq) (.patchStageStatus s.namespaceName s.name status)
    (.patchStageStatus s.namespaceName s.name status') fun _ _ h =>
      h.patchStatus s.atHome_key hdated hdated' hsame

theorem concur_report (now now' : Timestamp) (r : Except Error Unit) :
    (s.report now r).Concur ρ s Eq (s.report now' r) := by
  cases r with
  | ok u =>
      have hwrite : (s.writeStatus (.provisioned now s.status)).Concur ρ s Eq
          (s.writeStatus (.provisioned now' s.status)) := concur_writeStatus rfl rfl rfl
      refine hwrite.bind_eq fun _ => ?_
      exact (concur_publish _).bind_eq fun _ => concur_pure rfl
  | error e =>
      have hwrite : (s.writeStatus (.failed now e s.status)).Concur ρ s Eq
          (s.writeStatus (.failed now' e s.status)) := concur_writeStatus rfl rfl rfl
      refine hwrite.attempt.bind fun _ _ _ => ?_
      exact (concur_publish _).bind_eq fun _ => concur_fail e

/-- **A reconcile goes the same way on twin clusters**, at whatever times the two happen. -/
theorem concur_reconcile (hρ : Function.Injective ρ)
    (hversion : s.metadata.resourceVersion.map ρ = s.metadata.resourceVersion)
    (config : Config) (now now' : Timestamp) :
    (s.reconcile config now).Concur ρ s Eq (s.reconcile config now') := by
  refine concur_ite (concur_reconcileDeletion hρ hversion) ?_
  refine (concur_ensureFinalizer hρ hversion).bind_eq fun _ => ?_
  have howned : (s.provisionOwned config).Concur ρ s Eq (s.provisionOwned config) :=
    concur_ensureOwnership.bind_eq fun _ => concur_provision hρ
  refine howned.attempt.bind fun x y hxy => ?_
  cases hxy with
  | ok hab => exact concur_report now now' _
  | error e => exact concur_report now now' _

end Stage

end Conveyor
