import Conveyor.Proofs.Cleanup
import Conveyor.Proofs.Convergence

/-!
Changes of stored objects. Dictionaries are compared key by key: an entry is what it was, or it has
changed in a way that is allowed at its key. Streams and jobs are written back whole, from copies
that were read a moment before, and of stages it is the store that patches the parts a request
names; in each case all but a few fields are what they were.
-/

namespace Conveyor

open Promotion (KeyOf)

/-! ### Changes of dictionaries -/

namespace Dict

variable {κ α : Type} [KeyOrder κ] {R S : κ → Option α → Option α → Prop} {d d' d'' : Dict κ α}

/-- Every entry is what it was, or it has changed in a way that is allowed at its key. -/
def ChangesBy (R : κ → Option α → Option α → Prop) (d d' : Dict κ α) : Prop :=
  ∀ k, d'.get? k = d.get? k ∨ R k (d.get? k) (d'.get? k)

theorem ChangesBy.of_eq (h : d' = d) : d.ChangesBy R d' := fun _ => .inl (by rw [h])

theorem ChangesBy.refl (R : κ → Option α → Option α → Prop) (d : Dict κ α) : d.ChangesBy R d :=
  .of_eq rfl

theorem ChangesBy.trans (hR : ∀ k x y z, R k x y → R k y z → R k x z) (h : d.ChangesBy R d')
    (h' : d'.ChangesBy R d'') : d.ChangesBy R d'' := by
  intro k
  rcases h k with hsame | hchange
  · rw [← hsame]
    exact h' k
  · rcases h' k with hsame' | hchange'
    · exact .inr (hsame'.symm ▸ hchange)
    · exact .inr (hR k _ _ _ hchange hchange')

/-- What can only come new comes once. -/
theorem ChangesBy.trans_of_new (hR : ∀ k x y, R k x y → x = none ∧ y.isSome = true)
    (h : d.ChangesBy R d') (h' : d'.ChangesBy R d'') : d.ChangesBy R d'' := by
  refine h.trans (fun k x y z hxy hyz => ?_) h'
  have hy := (hR k x y hxy).2
  rw [(hR k y z hyz).1] at hy
  cases hy

theorem ChangesBy.mono (h : d.ChangesBy R d') (hRS : ∀ k x y, R k x y → S k x y) :
    d.ChangesBy S d' := fun k => (h k).imp_right (hRS k _ _)

variable [DecidableEq κ]

theorem changesBy_insert {k : κ} {a : α} (h : R k (d.get? k) (some a)) :
    d.ChangesBy R (d.insert k a) := by
  intro l
  by_cases hl : l = k
  · subst hl
    rw [get?_insert_self]
    exact .inr h
  · exact .inl (get?_insert_of_ne d a hl)

theorem changesBy_erase {k : κ} (h : R k (d.get? k) none) : d.ChangesBy R (d.erase k) := by
  intro l
  by_cases hl : l = k
  · subst hl
    rw [get?_erase_self]
    exact .inr h
  · exact .inl (get?_erase_of_ne d hl)

end Dict

namespace Cluster

variable {α : Type} [Resource α] (shelf : Shelf α) {R : ObjectKey → Option α → Option α → Prop}
  {n : String} {a : α} {c : Cluster} (hcounted : shelf.get c.counted = shelf.get c)
  (hset : ∀ os, shelf.get (shelf.set c.counted os) = os)
include hcounted hset

/-- Creating an object changes nothing, or the object is there where none was. -/
theorem changesBy_create (hR : R (keyIn n a) none (some (Resource.stored a n c.nextVersion))) :
    (shelf.get c).ChangesBy R (shelf.get (c.create shelf n a).2) := by
  cases hfound : (shelf.get c).get? (keyIn n a) with
  | some old =>
      rw [create_of_present hfound]
      exact .of_eq hcounted
  | none =>
      rw [create_of_absent hfound, hset]
      exact Dict.changesBy_insert (hfound ▸ hR)

/-- Replacing an object changes nothing, or the object is there instead of the earlier one. -/
theorem changesBy_replace (hR : R (keyIn n a) ((shelf.get c).get? (keyIn n a))
      (some (Resource.versioned a (some c.nextVersion)))) :
    (shelf.get c).ChangesBy R (shelf.get (c.replace shelf n a).2) := by
  rcases replace_snd shelf n a c with hafter | hafter
  · rw [hafter]
    exact .of_eq hcounted
  · rw [hafter, hset]
    exact Dict.changesBy_insert hR

end Cluster

/-- An object is there after, and if there was one before, the two are related. -/
def Put {α : Type} (rel : α → α → Prop) (before after : Option α) : Prop :=
  ∃ b, after = some b ∧ ∀ a ∈ before, rel a b

theorem Put.trans {α : Type} {rel : α → α → Prop} (hrel : ∀ a b c, rel a b → rel b c → rel a c)
    {x y z : Option α} (h : Put rel x y) (k : Put rel y z) : Put rel x z := by
  obtain ⟨b, rfl, hb⟩ := h
  obtain ⟨c, rfl, hc⟩ := k
  exact ⟨c, rfl, fun a ha => hrel a b c (hb a ha) (hc b rfl)⟩

/-! ### What may change of an object -/

/-- Two metadata that differ in nothing but the version. -/
def Metadata.SameButVersion (m n : Metadata) : Prop :=
  n = { m with resourceVersion := n.resourceVersion }

theorem Metadata.SameButVersion.trans {m n o : Metadata} (h : m.SameButVersion n)
    (k : n.SameButVersion o) : m.SameButVersion o := by
  rw [SameButVersion, k, h]

theorem ImageStream.Repoints.trans {x y z : ImageStream} (h : x.Repoints y) (k : y.Repoints z) :
    x.Repoints z where
  tags := k.tags.trans h.tags
  metadata := Metadata.SameButVersion.trans h.metadata k.metadata

/-- The second stream is the first one without the environment's label and with another history. -/
structure ImageStream.RetiredAs (env : String) (x y : ImageStream) : Prop where
  spec : y.spec = x.spec
  labels : y.labels = x.labels.erase env
  annotations : ∀ a, a ≠ EnvironmentHistory.annotationKey →
    y.annotations.get? a = x.annotations.get? a
  metadata : y.metadata = { x.metadata with
    labels := y.metadata.labels
    annotations := y.metadata.annotations
    resourceVersion := y.metadata.resourceVersion }

theorem ImageStream.retiredAs_retire (env : String) (x : ImageStream) (version : Option String) :
    x.RetiredAs env (Resource.versioned (x.retire env) version) where
  spec := rfl
  labels := rfl
  annotations _ ha := Dict.get?_insert_of_ne _ _ ha
  metadata := rfl

namespace Stage

/-- The second stage is the first one with other finalizers, owners, pipeline label and status. -/
structure Attends (t u : Stage) : Prop where
  spec : u.spec = t.spec
  labels : ∀ l, l ≠ pipelineLabelKey →
    (u.metadata.labels.getD ∅).get? l = (t.metadata.labels.getD ∅).get? l
  metadata : u.metadata = { t.metadata with
    finalizers := u.metadata.finalizers
    ownerReferences := u.metadata.ownerReferences
    labels := u.metadata.labels
    resourceVersion := u.metadata.resourceVersion }

theorem Attends.trans {t u v : Stage} (h : t.Attends u) (k : u.Attends v) : t.Attends v where
  spec := k.spec.trans h.spec
  labels l hl := (k.labels l hl).trans (h.labels l hl)
  metadata := by rw [k.metadata, h.metadata]

/-- How the stage `s` may change in a reconcile while it is live. -/
def Attended (s : Stage) (k : ObjectKey) (before after : Option Stage) : Prop :=
  k = s.key ∧ ∃ t u, before = some t ∧ after = some u ∧ t.Attends u

/-- How the stage `s` may change in a reconcile under deletion: its finalizers are those of others,
and without any it is gone. -/
def Released (s : Stage) (k : ObjectKey) (before after : Option Stage) : Prop :=
  k = s.key ∧ ∃ t, before = some t ∧
    (after = none ∧ s.otherFinalizers = [] ∨
      ∃ version, after = some { t with metadata := { t.metadata with
        finalizers := some s.otherFinalizers
        resourceVersion := version } })

theorem Attended.trans {s : Stage} {k : ObjectKey} {x y z : Option Stage} (h : s.Attended k x y)
    (h' : s.Attended k y z) : s.Attended k x z := by
  obtain ⟨hk, t, u, rfl, rfl, htu⟩ := h
  obtain ⟨-, u', v, hu, rfl, huv⟩ := h'
  obtain rfl := Option.some.inj hu
  exact ⟨hk, t, v, rfl, rfl, htu.trans huv⟩

theorem Released.trans {s : Stage} {k : ObjectKey} {x y z : Option Stage} (h : s.Released k x y)
    (h' : s.Released k y z) : s.Released k x z := by
  obtain ⟨hk, t, rfl, h⟩ := h
  obtain ⟨-, u, rfl, h'⟩ := h'
  rcases h with ⟨hgone, -⟩ | ⟨version, hu⟩
  · cases hgone
  · cases hu
    exact ⟨hk, t, rfl, h'⟩

/-- The role in the target namespace of the stage `s` is made. -/
def GainsRole (s : Stage) (k : ObjectKey) (before after : Option Role) : Prop :=
  k = ⟨s.targetNamespace, Access.viewDeploymentsRole⟩ ∧ before = none ∧ ∃ version,
    after = some
      (Resource.stored (Access.deploymentsRole s.targetNamespace) s.targetNamespace version)

/-- A binding in the target namespace of the stage `s` is made. -/
def GainsBinding (config : Config) (s : Stage) (k : ObjectKey) (before after : Option RoleBinding) :
    Prop :=
  ∃ b ∈ Access.bindings s.namespaceName s.targetNamespace config,
    k = Access.bindingKey s.targetNamespace b ∧ before = none ∧ ∃ version,
      after = some (Resource.stored b s.targetNamespace version)

/-- The target of the stage `s` is made. -/
def GainsPlace {α : Type} (s : Stage) (k : String) (before after : Option α) : Prop :=
  k = s.targetNamespace ∧ before = none ∧ after.isSome = true

theorem changesBy_insert_place {α : Type} {s : Stage} {d : Dict String α} {a : α}
    (h : d.contains s.targetNamespace = false) :
    d.ChangesBy s.GainsPlace (d.insert s.targetNamespace a) :=
  Dict.changesBy_insert ⟨rfl, Dict.contains_eq_false.1 h, rfl⟩

/-- A name that is in a set already may be put in again. -/
theorem changesBy_insert_name (s : Stage) (names : NameSet) :
    names.ChangesBy s.GainsPlace (names.insert s.targetNamespace ()) := by
  cases h : names.contains s.targetNamespace with
  | false => exact changesBy_insert_place h
  | true =>
      obtain ⟨u, hu⟩ := Option.isSome_iff_exists.1 h
      intro k
      rw [Dict.get?_insert]
      split
      · next hk => exact .inl (hk ▸ hu.symm)
      · exact .inl rfl

/-- The target of the stage `s` goes. -/
def LosesPlace {α : Type} (s : Stage) (k : String) (_before after : Option α) : Prop :=
  k = s.targetNamespace ∧ after = none

end Stage

/-- The keys of the streams in which a stage publishes the codebases of its pipeline. -/
def Cluster.PublishesAt (s : Stage) (c : Cluster) (k : ObjectKey) : Prop :=
  ∃ p codebase, c.pipelineOf s = .ok p ∧ c.Feeds s.namespaceName p codebase ∧
    k = ⟨s.namespaceName, Promotion.verifiedName p.name s.spec.name codebase⟩

/-- How streams may change when a stage publishes. -/
def Cluster.Republishes (s : Stage) (c : Cluster) (k : ObjectKey)
    (before after : Option ImageStream) : Prop :=
  c.PublishesAt s k ∧ Put ImageStream.Repoints before after

theorem Cluster.Republishes.trans {s : Stage} {c : Cluster} {k : ObjectKey}
    {x y z : Option ImageStream} (h : c.Republishes s k x y) (h' : c.Republishes s k y z) :
    c.Republishes s k x z :=
  ⟨h.1, h.2.trans (fun _ _ _ => .trans) h'.2⟩

/-- How jobs may change when the job of the stage `s` is put. -/
def Stage.Reissues (s : Stage) (k : ObjectKey) (before after : Option ReleaseJob) : Prop :=
  k = s.key ∧ Put (fun j j' => j.metadata.SameButVersion j'.metadata) before after

theorem Stage.Reissues.trans {s : Stage} {k : ObjectKey} {x y z : Option ReleaseJob}
    (h : s.Reissues k x y) (h' : s.Reissues k y z) : s.Reissues k x z :=
  ⟨h.1, h.2.trans (fun _ _ _ => .trans) h'.2⟩

/-- How streams may change when the environment of a deleted stage is retired. -/
def Cluster.RetiresFrom (s : Stage) (c : Cluster) (k : ObjectKey)
    (before after : Option ImageStream) : Prop :=
  ∃ env ds x y, c.retirement s = .ok (env, ds) ∧ KeyOf s.namespaceName ds k ∧ before = some x ∧
    after = some y ∧ x.RetiredAs env y

end Conveyor
