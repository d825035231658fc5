import Conveyor.Proofs.Versions
import Mathlib.Logic.Function.Basic

/-!
Copies that are stale. Every object that a cluster stores, of whatever type, lies at a place. A move
takes a stage away, or it writes at one place, under a version that was never given out before; so
no two objects ever have the same version, and a version that has left its place does not come back.
A stream or job that was written since a copy of it was read cannot be overwritten with the copy.
-/

namespace Conveyor

/-- The collections that a cluster stores objects in. -/
inductive Store where
  | stages
  | pipelines
  | components
  | imageStreams
  | releaseJobs
  | roles
  | roleBindings
  deriving DecidableEq

namespace Store

def Object : Store → Type
  | stages => Stage
  | pipelines => Pipeline
  | components => Component
  | imageStreams => ImageStream
  | releaseJobs => ReleaseJob
  | roles => Role
  | roleBindings => RoleBinding

instance : (s : Store) → Resource s.Object
  | stages => inferInstanceAs (Resource Stage)
  | pipelines => inferInstanceAs (Resource Pipeline)
  | components => inferInstanceAs (Resource Component)
  | imageStreams => inferInstanceAs (Resource ImageStream)
  | releaseJobs => inferInstanceAs (Resource ReleaseJob)
  | roles => inferInstanceAs (Resource Role)
  | roleBindings => inferInstanceAs (Resource RoleBinding)

def shelf : (s : Store) → Cluster.Shelf s.Object
  | stages => Cluster.stageShelf
  | pipelines => Cluster.pipelineShelf
  | components => Cluster.componentShelf
  | imageStreams => Cluster.imageStreamShelf
  | releaseJobs => Cluster.releaseJobShelf
  | roles => Cluster.roleShelf
  | roleBindings => Cluster.roleBindingShelf

end Store

/-- Where an object of any type is stored. -/
structure Place where
  store : Store
  key : ObjectKey
  deriving DecidableEq

namespace Objects

variable {α : Type} [Resource α]

/-- The version of the object at a key, if there is one. -/
def versionAt (os : Objects α) (k : ObjectKey) : Option (Option String) :=
  (os.get? k).map fun a => (Resource.metadata a).resourceVersion

theorem versionAt_insert (os : Objects α) (k : ObjectKey) (a : α) :
    versionAt (os.insert k a) =
      Function.update os.versionAt k (some (Resource.metadata a).resourceVersion) := by
  funext l
  by_cases hl : l = k
  · subst hl
    rw [Function.update_self, versionAt, Dict.get?_insert_self, Option.map_some]
  · rw [Function.update_of_ne hl, versionAt, Dict.get?_insert_of_ne _ _ hl, versionAt]

theorem versionAt_erase (os : Objects α) (k : ObjectKey) :
    versionAt (os.erase k) = Function.update os.versionAt k none := by
  funext l
  by_cases hl : l = k
  · subst hl
    rw [Function.update_self, versionAt, Dict.get?_erase_self, Option.map_none]
  · rw [Function.update_of_ne hl, versionAt, Dict.get?_erase_of_ne _ hl, versionAt]

end Objects

namespace Cluster

/-- The version of the object at a place, if there is one. -/
def versionAt (c : Cluster) (p : Place) : Option (Option String) :=
  (p.store.shelf.get c).versionAt p.key

/-! ### What a move does to all versions -/

/-- The version is one that the cluster has given out. -/
def HasGiven (c : Cluster) (version : Option String) : Prop :=
  ∃ n, n ≤ c.revision ∧ version = some (versionText n)

variable {c c' c'' : Cluster} {v : Option String} {p : Place}

theorem HasGiven.mono (h : c.HasGiven v) (hrevision : c.revision ≤ c'.revision) :
    c'.HasGiven v := by
  obtain ⟨n, hn, hversion⟩ := h
  exact ⟨n, Nat.le_trans hn hrevision, hversion⟩

/-- The next version is a new one. -/
theorem HasGiven.ne_next (h : c.HasGiven v) (hrevision : c.revision ≤ c'.revision) :
    v ≠ some c'.nextVersion := by
  rintro rfl
  obtain ⟨n, hn, hversion⟩ := h
  have := versionText_injective (Option.some.inj hversion)
  omega

/-- The versions of `c'` are those of `c`, but for one place at most. -/
inductive Stamps (c c' : Cluster) : Prop where
  | kept (hrevision : c.revision ≤ c'.revision) (h : c'.versionAt = c.versionAt)
  | removed (hrevision : c.revision ≤ c'.revision) (k : ObjectKey)
      (h : c'.versionAt = Function.update c.versionAt ⟨.stages, k⟩ none)
  | written (p : Place) (hrevision : c'.revision = c.revision + 1)
      (h : c'.versionAt = Function.update c.versionAt p (some (some c.nextVersion)))

theorem Stamps.revision (h : c.Stamps c') : c.revision ≤ c'.revision := by
  cases h with
  | kept hrevision | removed hrevision => exact hrevision
  | written p hrevision => omega

theorem versionAt_set (s : Store) (os : Objects s.Object) (c : Cluster) (p : Place) :
    (s.shelf.set c os).versionAt p = if p.store = s then os.versionAt p.key else c.versionAt p := by
  obtain ⟨store, k⟩ := p
  cases s <;> cases store <;> rfl

theorem revision_set (s : Store) (os : Objects s.Object) (c : Cluster) :
    (s.shelf.set c os).revision = c.revision := by
  cases s <;> rfl

/-- One collection is changed at one key. -/
theorem versionAt_set_update {s : Store} {os : Objects s.Object} {k : ObjectKey}
    {version : Option (Option String)}
    (h : os.versionAt = Function.update (s.shelf.get c).versionAt k version) :
    (s.shelf.set c os).versionAt = Function.update c.versionAt ⟨s, k⟩ version := by
  funext p
  rw [versionAt_set]
  by_cases hp : p = ⟨s, k⟩
  · subst hp
    rw [if_pos rfl, h, Function.update_self, Function.update_self]
  · rw [Function.update_of_ne hp]
    split
    · next hstore =>
      subst hstore
      have hkey : p.key ≠ k := fun hkey => hp (by rw [← hkey])
      rw [h, Function.update_of_ne hkey, versionAt]
    · rfl

@[simp] theorem get_counted (s : Store) (c : Cluster) : s.shelf.get c.counted = s.shelf.get c := by
  cases s <;> rfl

@[simp] theorem versionAt_counted (c : Cluster) : c.counted.versionAt = c.versionAt := by
  funext p
  rw [versionAt, get_counted, versionAt]

theorem stamps_counted (c : Cluster) : c.Stamps c.counted :=
  .kept (Nat.le_succ _) (versionAt_counted c)

/-- An object is stored under the next version. -/
theorem stamps_write {s : Store} {a : s.Object} (k : ObjectKey)
    (ha : (Resource.metadata a).resourceVersion = some c.nextVersion) :
    c.Stamps (s.shelf.set c.counted ((s.shelf.get c).insert k a)) := by
  refine .written ⟨s, k⟩ (revision_set ..) ?_
  rw [← versionAt_counted c]
  refine versionAt_set_update ?_
  rw [get_counted, Objects.versionAt_insert, ha]

theorem stamps_create (s : Store) (namespaceName : String) (a : s.Object) (c : Cluster) :
    c.Stamps (c.create s.shelf namespaceName a).2 := by
  rcases create_snd s.shelf namespaceName a c with h | h
  · exact h ▸ stamps_counted c
  · exact h ▸ stamps_write _ (by simp [Resource.stored])

theorem stamps_replace (s : Store) (namespaceName : String) (a : s.Object) (c : Cluster) :
    c.Stamps (c.replace s.shelf namespaceName a).2 := by
  rcases replace_snd s.shelf namespaceName a c with h | h
  · exact h ▸ stamps_counted c
  · exact h ▸ stamps_write _ (by simp [Resource.versioned])

theorem stamps_insert (s : Store) (namespaceName : String) (a : s.Object) (c : Cluster) :
    c.Stamps (c.insert s.shelf namespaceName a) := stamps_write _ (by simp [Resource.stored])

/-- The log of writes is no object. -/
theorem versionAt_log (ws : List (String × StageWrite)) (c : Cluster) :
    versionAt { c with stageWrites := ws } = c.versionAt := by
  funext p
  obtain ⟨store, k⟩ := p
  cases store <;> rfl

theorem versionAt_writeStage (key : ObjectKey) (s : Stage) (write : StageWrite) (c : Cluster) :
    (c.writeStage key s write).versionAt =
      Function.update c.versionAt ⟨.stages, key⟩ (some s.metadata.resourceVersion) :=
  (versionAt_log _ _).trans
    (versionAt_set_update (s := .stages) (Objects.versionAt_insert c.stages key s))

theorem versionAt_eraseStage (key : ObjectKey) (ws : List (String × StageWrite)) (c : Cluster) :
    versionAt { c with stages := c.stages.erase key, stageWrites := ws } =
      Function.update c.versionAt ⟨.stages, key⟩ none :=
  (versionAt_log ws (stageShelf.set c (c.stages.erase key))).trans
    (versionAt_set_update (s := .stages) (Objects.versionAt_erase c.stages key))

/-- A stage is patched under the next version. -/
theorem stamps_writeStage {key : ObjectKey} {s : Stage} {write : StageWrite}
    (hs : s.metadata.resourceVersion = some c.nextVersion) :
    c.Stamps (c.counted.writeStage key s write) := by
  refine .written ⟨.stages, key⟩ rfl ?_
  rw [versionAt_writeStage, versionAt_counted, hs]

theorem stamps_patchStatus (key : ObjectKey) (status : StageStatus) (c : Cluster) :
    c.Stamps (c.patchStatus key status).2 := by
  unfold patchStatus
  split
  · exact .kept (Nat.le_refl _) rfl
  · next s hs =>
    split
    · exact .kept (Nat.le_refl _) rfl
    · refine .kept (Nat.le_refl _) ?_
      -- The patched stage keeps its version.
      have hversion : c.versionAt ⟨.stages, key⟩ = some s.metadata.resourceVersion :=
        congrArg (Option.map fun s : Stage => s.metadata.resourceVersion) hs
      rw [versionAt_writeStage, ← hversion, Function.update_eq_self]

theorem stamps_patchFinalizers (key : ObjectKey) (version : Option String)
    (finalizers : List String) (c : Cluster) :
    c.Stamps (c.patchFinalizers key version finalizers).2 := by
  unfold patchFinalizers
  split
  · exact stamps_counted c
  · split
    · split
      · have hversions := versionAt_eraseStage key (c.stageWrites ++ [(key.name, .finalizers)])
          c.counted
        rw [versionAt_counted] at hversions
        exact .removed (Nat.le_succ _) key hversions
      · exact stamps_writeStage rfl
    · exact stamps_counted c

theorem stamps_patchOwnership (key : ObjectKey) (owners : List OwnerReference)
    (labels : Dict String String) (c : Cluster) :
    c.Stamps (c.patchOwnership key owners labels).2 := by
  unfold patchOwnership
  split
  · exact stamps_counted c
  · exact stamps_writeStage rfl

/-- Namespaces, spaces, projects and pending failures are no objects either. -/
theorem stamps_of_stores_eq (hrevision : c'.revision = c.revision)
    (h : ∀ s : Store, s.shelf.get c' = s.shelf.get c) : c.Stamps c' := by
  refine .kept (Nat.le_of_eq hrevision.symm) (funext fun p => ?_)
  rw [versionAt, h, versionAt]

theorem stamps_serve (r : Request) (c : Cluster) : c.Stamps (c.serve r).2 := by
  cases r with
  | patchStageStatus => exact stamps_patchStatus ..
  | patchStageFinalizers => exact stamps_patchFinalizers ..
  | patchStageOwnership => exact stamps_patchOwnership ..
  | createImageStream n x => exact stamps_create .imageStreams n x c
  | createReleaseJob n j => exact stamps_create .releaseJobs n j c
  | createRole n x => exact stamps_create .roles n x c
  | createRoleBinding n b => exact stamps_create .roleBindings n b c
  | replaceImageStream n x => exact stamps_replace .imageStreams n x c
  | replaceReleaseJob n j => exact stamps_replace .releaseJobs n j c
  | createNamespace | deleteNamespace | createSpace | createProject | deleteProject =>
      simp only [serve, createNamespace, deleteNamespace, createSpace, createProject,
        deleteProject]
      split <;> exact stamps_of_stores_eq rfl fun s => by cases s <;> rfl
  | _ => exact stamps_of_stores_eq rfl fun _ => rfl

theorem stamps_answer (r : Request) (c : Cluster) : c.Stamps (c.answer r).2 := by
  by_cases hr : r.operation ∈ c.failures
  · rw [answer_of_mem hr]
    exact stamps_of_stores_eq rfl fun s => by cases s <;> rfl
  · rw [answer_of_not_mem hr]
    exact stamps_serve r c

theorem Moves.stamps (h : c.Moves c') : c.Stamps c' := by
  cases h with
  | insertStage s => exact stamps_write (s := .stages) _ rfl
  | insertPipeline n p => exact stamps_insert .pipelines n p c
  | insertComponent n o => exact stamps_insert .components n o c
  | insertImageStream n x => exact stamps_insert .imageStreams n x c
  | insertRole n r => exact stamps_insert .roles n r c
  | insertNamespace => exact stamps_of_stores_eq rfl fun s => by cases s <;> rfl
  | failNext o =>
      unfold Cluster.failNext
      split <;> exact stamps_of_stores_eq rfl fun s => by cases s <;> rfl
  | answer r => exact stamps_answer r c

/-- Only one place may have a version that it did not have before, and that is the next one. -/
theorem Stamps.exists_place (h : c.Stamps c') :
    ∃ r, ∀ p v, c'.versionAt p = some v →
      c.versionAt p = some v ∨ p = r ∧ v = some c.nextVersion ∧ c.revision < c'.revision := by
  cases h with
  | kept _ h => exact ⟨⟨.stages, "", ""⟩, fun p v hp => .inl (h ▸ hp)⟩
  | removed _ k h =>
      refine ⟨⟨.stages, k⟩, fun p v hp => .inl ?_⟩
      rw [h, Function.update_apply] at hp
      split at hp
      · cases hp
      · exact hp
  | written r hrevision h =>
      refine ⟨r, fun p v hp => ?_⟩
      rw [h, Function.update_apply] at hp
      split at hp
      · next hpr => exact .inr ⟨hpr, (Option.some.inj hp).symm, by omega⟩
      · exact .inl hp

/-- Only stages are taken away. -/
theorem Stamps.isSome_versionAt (h : c.Stamps c') (hp : p.store ≠ .stages)
    (hc : (c.versionAt p).isSome = true) : (c'.versionAt p).isSome = true := by
  cases h with
  | kept _ h => exact h ▸ hc
  | removed _ k h =>
      have hne : p ≠ ⟨.stages, k⟩ := fun hpk => hp (by rw [hpk])
      rwa [h, Function.update_of_ne hne]
  | written q _ h =>
      rw [h, Function.update_apply]
      split
      · rfl
      · exact hc

/-! ### Versions over a run -/

/-- Every object has a version of its own, a number that the counter has come to. -/
structure Distinct (c : Cluster) : Prop where
  given : ∀ p v, c.versionAt p = some v →
    ∃ n, 1 ≤ n ∧ n ≤ c.revision ∧ v = some (versionText n)
  unique : ∀ p q v, c.versionAt p = some v → c.versionAt q = some v → p = q

theorem Distinct.hasGiven (h : c.Distinct) (hp : c.versionAt p = some v) : c.HasGiven v := by
  obtain ⟨n, -, hn⟩ := h.given p v hp
  exact ⟨n, hn⟩

theorem distinct_empty : ({} : Cluster).Distinct := by
  have hnone (p : Place) : ({} : Cluster).versionAt p = none := by
    obtain ⟨store, k⟩ := p
    cases store <;> rfl
  refine ⟨fun p v hp => ?_, fun p q v hp => ?_⟩ <;> rw [hnone] at hp <;> cases hp

theorem Stamps.distinct (h : c.Stamps c') (hc : c.Distinct) : c'.Distinct := by
  obtain ⟨r, hr⟩ := h.exists_place
  -- No object had the next version before.
  have hnew {p : Place} (hp : c.versionAt p = some (some c.nextVersion)) : False :=
    (hc.hasGiven hp).ne_next (Nat.le_refl _) rfl
  refine ⟨fun p v hp => ?_, fun p q v hp hq => ?_⟩
  · rcases hr p v hp with hp | ⟨-, rfl, hrevision⟩
    · obtain ⟨n, hpositive, hn, hversion⟩ := hc.given p v hp
      exact ⟨n, hpositive, Nat.le_trans hn h.revision, hversion⟩
    · exact ⟨c.revision + 1, Nat.le_add_left _ _, hrevision, rfl⟩
  · rcases hr p v hp with hp | ⟨rfl, rfl, -⟩ <;> rcases hr q _ hq with hq | ⟨hqr, hv, -⟩
    · exact hc.unique p q v hp hq
    · exact (hnew (hv ▸ hp)).elim
    · exact (hnew hq).elim
    · exact hqr.symm

theorem Leads.distinct (h : c.Leads c') (hc : c.Distinct) : c'.Distinct := by
  induction h with
  | refl => exact hc
  | tail _ hmove ih => exact hmove.stamps.distinct ih

theorem Reachable.distinct (h : c.Reachable) : c.Distinct :=
  (reachable_iff_leads.1 h).distinct distinct_empty

/-- The version was given out, and the place does not have it. -/
structure Gone (v : Option String) (p : Place) (c : Cluster) : Prop where
  given : c.HasGiven v
  absent : c.versionAt p ≠ some v

theorem Stamps.gone (h : c.Stamps c') (hc : c.Gone v p) : c'.Gone v p := by
  obtain ⟨r, hr⟩ := h.exists_place
  refine ⟨hc.given.mono h.revision, fun hp => ?_⟩
  rcases hr p v hp with hp | ⟨-, hv, -⟩
  · exact hc.absent hp
  · exact hc.given.ne_next (Nat.le_refl _) hv

/-- **A version does not come back** to a place that it has left. -/
theorem Leads.gone (h : c.Leads c') (hc : c.Gone v p) : c'.Gone v p := by
  induction h with
  | refl => exact hc
  | tail _ hmove ih => exact hmove.stamps.gone ih

theorem Leads.isSome_versionAt (h : c.Leads c') (hp : p.store ≠ .stages)
    (hc : (c.versionAt p).isSome = true) : (c'.versionAt p).isSome = true := by
  induction h with
  | refl => exact hc
  | tail _ hmove ih => exact hmove.stamps.isSome_versionAt hp ih

/-! ### Writing a copy back -/

/-- A write at the place of a stream that went well. -/
inductive WritesStream (key : ObjectKey) (c : Cluster) : Cluster → Prop where
  | insert {n : String} {x : ImageStream} (h : keyIn n x = key) :
      WritesStream key c (c.insert imageStreamShelf n x)
  | create {n : String} {x : ImageStream} (h : keyIn n x = key)
      (hok : (c.answer (.createImageStream n x)).1.isOk = true) :
      WritesStream key c (c.answer (.createImageStream n x)).2
  | replace {n : String} {x : ImageStream} (h : keyIn n x = key)
      (hok : (c.answer (.replaceImageStream n x)).1.isOk = true) :
      WritesStream key c (c.answer (.replaceImageStream n x)).2

/-- A write at the place of a job that went well. -/
inductive WritesJob (key : ObjectKey) (c : Cluster) : Cluster → Prop where
  | create {n : String} {j : ReleaseJob} (h : keyIn n j = key)
      (hok : (c.answer (.createReleaseJob n j)).1.isOk = true) :
      WritesJob key c (c.answer (.createReleaseJob n j)).2
  | replace {n : String} {j : ReleaseJob} (h : keyIn n j = key)
      (hok : (c.answer (.replaceReleaseJob n j)).1.isOk = true) :
      WritesJob key c (c.answer (.replaceReleaseJob n j)).2

/-- Since `c₀` something was written at the key, or there was nothing for a while. -/
def Renewed (Writes : ObjectKey → Cluster → Cluster → Prop) (s : Store) (key : ObjectKey)
    (c₀ c : Cluster) : Prop :=
  ∃ c₁ c₂, c₀.Leads c₁ ∧ (Writes key c₁ c₂ ∨ c₂ = c₁ ∧ c₁.versionAt ⟨s, key⟩ = none) ∧ c₂.Leads c

section

variable {s : Store} {n : String} {a : s.Object}

theorem versionAt_stored {k : ObjectKey} (ha : (Resource.metadata a).resourceVersion = v) :
    (s.shelf.set c.counted ((s.shelf.get c).insert k a)).versionAt ⟨s, k⟩ = some v := by
  rw [versionAt_set, if_pos rfl, Objects.versionAt_insert, Function.update_self, ha]

theorem versionAt_of_create (h : (c.create s.shelf n a).1.isOk = true) :
    (c.create s.shelf n a).2.versionAt ⟨s, keyIn n a⟩ = some (some c.nextVersion) := by
  rcases create_cases s.shelf n a c with ⟨e, hfail⟩ | hstored
  · rw [hfail] at h
    cases h
  · rw [hstored]
    exact versionAt_stored (by simp [Resource.stored])

theorem versionAt_of_replace (h : (c.replace s.shelf n a).1.isOk = true) :
    (c.replace s.shelf n a).2.versionAt ⟨s, keyIn n a⟩ = some (some c.nextVersion) := by
  rcases replace_cases s.shelf n a c with ⟨e, hfail⟩ | hstored
  · rw [hfail] at h
    cases h
  · rw [hstored]
    exact versionAt_stored (by simp [Resource.versioned])

/-- A copy whose version is gone is refused. -/
theorem replace_of_gone (hgone : c.Gone (Resource.metadata a).resourceVersion ⟨s, keyIn n a⟩)
    (hthere : (c.versionAt ⟨s, keyIn n a⟩).isSome = true) :
    c.replace s.shelf n a =
      (.error (.conflict (Resource.kind s.Object).name (keyIn n a).name), c.counted) := by
  obtain ⟨m, -, hversion⟩ := hgone.given
  obtain ⟨w, hw⟩ := Option.isSome_iff_exists.1 hthere
  obtain ⟨b, hb, rfl⟩ := Option.map_eq_some_iff.1 hw
  refine replace_of_outdated hb hversion fun hsame => hgone.absent ?_
  rw [hw, hsame, hversion]

end

/-- A request that went well was not made to fail. -/
theorem answer_of_isOk {r : Request} (h : (c.answer r).1.isOk = true) : c.answer r = c.serve r := by
  by_cases hr : r.operation ∈ c.failures
  · rw [answer_of_mem hr] at h
    cases h
  · exact answer_of_not_mem hr

/-- A move that stores an object at the place. -/
structure Refreshes (p : Place) (c c' : Cluster) : Prop where
  moves : c.Moves c'
  version : c'.versionAt p = some (some c.nextVersion)

theorem refreshes_answer {r : Request} (hok : (c.answer r).1.isOk = true)
    (h : (c.serve r).1.isOk = true → (c.serve r).2.versionAt p = some (some c.nextVersion)) :
    Refreshes p c (c.answer r).2 := by
  refine ⟨.answer c r, ?_⟩
  have hserve := answer_of_isOk hok
  rw [hserve] at hok ⊢
  exact h hok

variable {key : ObjectKey}

theorem WritesStream.refreshes (h : c.WritesStream key c') :
    Refreshes ⟨.imageStreams, key⟩ c c' := by
  cases h with
  | insert h =>
      subst h
      exact ⟨.insertImageStream .., versionAt_stored (s := .imageStreams) rfl⟩
  | create h hok =>
      subst h
      exact refreshes_answer hok (versionAt_of_create (s := .imageStreams))
  | replace h hok =>
      subst h
      exact refreshes_answer hok (versionAt_of_replace (s := .imageStreams))

theorem WritesJob.refreshes (h : c.WritesJob key c') : Refreshes ⟨.releaseJobs, key⟩ c c' := by
  cases h with
  | create h hok =>
      subst h
      exact refreshes_answer hok (versionAt_of_create (s := .releaseJobs))
  | replace h hok =>
      subst h
      exact refreshes_answer hok (versionAt_of_replace (s := .releaseJobs))

section

variable {Writes : ObjectKey → Cluster → Cluster → Prop} {s : Store} {c₀ : Cluster}

theorem Renewed.leads (h : Renewed Writes s key c₀ c)
    (hwrites : ∀ c c', Writes key c c' → Refreshes ⟨s, key⟩ c c') : c₀.Leads c := by
  obtain ⟨c₁, c₂, hbefore, hrenewed, hafter⟩ := h
  refine (hbefore.trans ?_).trans hafter
  rcases hrenewed with hwrite | ⟨rfl, -⟩
  · exact .single (hwrites _ _ hwrite).moves
  · exact .refl

/-- The version of a copy is gone once its place was renewed. -/
theorem Renewed.gone (h : Renewed Writes s key c₀ c)
    (hwrites : ∀ c c', Writes key c c' → Refreshes ⟨s, key⟩ c c') (hv : c₀.HasGiven v) :
    c.Gone v ⟨s, key⟩ := by
  obtain ⟨c₁, c₂, hbefore, hrenewed, hafter⟩ := h
  have hv₁ : c₁.HasGiven v := hv.mono hbefore.renews.revision
  refine hafter.gone ?_
  rcases hrenewed with hwrite | ⟨rfl, habsent⟩
  · obtain ⟨hmoves, hversion⟩ := hwrites _ _ hwrite
    refine ⟨hv₁.mono hmoves.renews.revision, fun hsame => ?_⟩
    rw [hversion] at hsame
    exact hv₁.ne_next (Nat.le_refl _) (Option.some.inj hsame).symm
  · exact ⟨hv₁, by rw [habsent]; exact nofun⟩

/-- A stream or job that was read has the version that is stored, and a copy of it that is written
back goes to where it was read. -/
theorem replace_of_renewed (hs : s ≠ .stages) {n m : String} {x y : s.Object}
    (hc₀ : c₀.Reachable) (hfiled : Objects.Filed (s.shelf.get c₀))
    (hx : (s.shelf.get c₀).get? ⟨n, m⟩ = some x) (h : Renewed Writes s ⟨n, m⟩ c₀ c)
    (hwrites : ∀ c c', Writes ⟨n, m⟩ c c' → Refreshes ⟨s, n, m⟩ c c')
    (hname : (Resource.metadata y).name = (Resource.metadata x).name)
    (hversion : (Resource.metadata y).resourceVersion = (Resource.metadata x).resourceVersion) :
    c.replace s.shelf n y = (.error (.conflict (Resource.kind s.Object).name m), c.counted) := by
  have hread : c₀.versionAt ⟨s, n, m⟩ = some (Resource.metadata y).resourceVersion :=
    (congrArg (Option.map _) hx).trans (congrArg some hversion.symm)
  have hkey : keyIn n y = ⟨n, m⟩ := by
    rw [← hfiled.keyIn_eq hx, keyIn, keyIn, Metadata.nameOrEmpty, hname, Metadata.nameOrEmpty]
  have hgone := h.gone hwrites (hc₀.distinct.hasGiven hread)
  have hthere : (c.versionAt ⟨s, n, m⟩).isSome = true :=
    (h.leads hwrites).isSome_versionAt hs (by rw [hread]; rfl)
  rw [← hkey] at hgone hthere
  rw [replace_of_gone hgone hthere, hkey]

end

/-! ### Failures -/

section

variable {α : Type} [Resource α] {shelf : Shelf α} {n : String} {a : α} {e : Error}

theorem snd_of_create_error (h : (c.create shelf n a).1 = .error e) :
    (c.create shelf n a).2 = c.counted := by
  rcases create_cases shelf n a c with ⟨_, hfail⟩ | hstored
  · rw [hfail]
  · rw [hstored] at h
    cases h

theorem snd_of_replace_error (h : (c.replace shelf n a).1 = .error e) :
    (c.replace shelf n a).2 = c.counted := by
  rcases replace_cases shelf n a c with ⟨_, hfail⟩ | hstored
  · rw [hfail]
  · rw [hstored] at h
    cases h

end

/-- What fails changes no more than the counter. -/
theorem serve_of_error {r : Request} {e : Error} (h : (c.serve r).1 = .error e) :
    (c.serve r).2 = c ∨ (c.serve r).2 = c.counted := by
  cases r with
  | patchStageStatus n m status =>
      revert h
      simp only [serve, patchStatus]
      split
      · exact fun _ => .inl rfl
      · split
        · exact fun _ => .inl rfl
        · exact fun h => absurd h.symm Session.error_ne_ok
  | patchStageFinalizers n m version finalizers =>
      revert h
      simp only [serve, patchFinalizers]
      split
      · exact fun _ => .inr rfl
      · split
        · split <;> exact fun h => absurd h.symm Session.error_ne_ok
        · exact fun _ => .inr rfl
  | patchStageOwnership n m owners labels =>
      revert h
      simp only [serve, patchOwnership]
      split
      · exact fun _ => .inr rfl
      · exact fun h => absurd h.symm Session.error_ne_ok
  | createImageStream n x => exact .inr (snd_of_create_error h)
  | createReleaseJob n j => exact .inr (snd_of_create_error h)
  | createRole n x => exact .inr (snd_of_create_error h)
  | createRoleBinding n b => exact .inr (snd_of_create_error h)
  | replaceImageStream n x => exact .inr (snd_of_replace_error h)
  | replaceReleaseJob n j => exact .inr (snd_of_replace_error h)
  | createNamespace | createSpace | createProject =>
      revert h
      simp only [serve, createNamespace, createSpace, createProject]
      split
      · exact fun _ => .inl rfl
      · exact fun h => absurd h.symm Session.error_ne_ok
  | deleteNamespace | deleteProject =>
      revert h
      simp only [serve, deleteNamespace, deleteProject]
      split
      · exact fun h => absurd h.symm Session.error_ne_ok
      · exact fun _ => .inl rfl
  | _ => cases h

/-- A request that fails leaves everything but the counter and the pending failures as it was. -/
theorem answer_of_error {r : Request} {e : Error} (h : (c.answer r).1 = .error e) :
    ∃ revision failures, (c.answer r).2 = { c with revision, failures } := by
  by_cases hr : r.operation ∈ c.failures
  · rw [answer_of_mem hr]
    exact ⟨_, _, rfl⟩
  · rw [answer_of_not_mem hr] at h ⊢
    rcases serve_of_error h with hsame | hcounted
    · exact ⟨_, _, hsame⟩
    · exact ⟨_, _, hcounted⟩

/-- **Nothing is overwritten with a copy that is stale.** All objects have versions of their own. A
stream that was written since it was read, by anyone, is not replaced with the copy that was read:
that is a conflict, unless replacing streams was to fail anyway. Neither is a job, and replacing
jobs cannot be made to fail. What fails leaves all objects as they were, and all else but for the
counter and the pending failures. -/
theorem stale_copies_are_refused :
    (∀ c : Cluster, c.Reachable → c.Distinct) ∧
    (∀ (c₀ c : Cluster) (n m : String) (x y : ImageStream), c₀.Reachable →
      c₀.imageStreams.get? ⟨n, m⟩ = some x →
      Renewed WritesStream .imageStreams ⟨n, m⟩ c₀ c →
      y.metadata.name = x.metadata.name →
      y.metadata.resourceVersion = x.metadata.resourceVersion →
        (c.answer (.replaceImageStream n y)).1 =
          if .replaceImageStream ∈ c.failures then .error (injectedFault .replaceImageStream)
          else .error (.conflict Kind.imageStream.name m)) ∧
    (∀ (c₀ c : Cluster) (n m : String) (x y : ReleaseJob), c₀.Reachable →
      c₀.releaseJobs.get? ⟨n, m⟩ = some x →
      Renewed WritesJob .releaseJobs ⟨n, m⟩ c₀ c →
      y.metadata.name = x.metadata.name →
      y.metadata.resourceVersion = x.metadata.resourceVersion →
      (∀ o ∈ c.failures, o ∈ failable) →
        (c.answer (.replaceReleaseJob n y)).1 = .error (.conflict Kind.releaseJob.name m)) ∧
    ∀ (c : Cluster) (r : Request) (e : Error), (c.answer r).1 = .error e →
      ∃ revision failures, (c.answer r).2 = { c with revision, failures } := by
  refine ⟨fun c hc => hc.distinct, ?streams, ?jobs, fun c r e he => answer_of_error he⟩
  case streams =>
    intro c₀ c n m x y hc₀ hx h hname hversion
    have hserve := replace_of_renewed (s := .imageStreams) nofun hc₀ hc₀.coherent.imageStreams hx h
      (fun _ _ hw => hw.refreshes) hname hversion
    split
    · next hr => rw [answer_of_mem hr]; rfl
    · next hr =>
      rw [answer_of_not_mem hr]
      exact congrArg Prod.fst hserve
  case jobs =>
    intro c₀ c n m x y hc₀ hx h hname hversion hfailures
    have hserve := replace_of_renewed (s := .releaseJobs) nofun hc₀ hc₀.coherent.releaseJobs hx h
      (fun _ _ hw => hw.refreshes) hname hversion
    rw [answer_of_not_mem fun hr => absurd (hfailures .replaceReleaseJob hr) (by decide)]
    exact congrArg Prod.fst hserve

open Sample in
/-- A stream and a job are read and written back. The copies are stale then, whatever was changed in
them. -/
theorem stale_copies_are_refused_after_update :
    let job : ReleaseJob := ⟨.named "dev", { stageName := "dev", folder := "", job := ⟨"", ""⟩ }⟩
    let c₀ := (({} : Cluster).insert imageStreamShelf "edp" source).answer
      (.createReleaseJob "edp" job) |>.2
    let x : ImageStream := Resource.stored source "edp" (versionText 1)
    let y : ImageStream := { x with spec.codebase := "library" }
    let i : ReleaseJob := Resource.stored job "edp" (versionText 2)
    let j : ReleaseJob := { i with spec.folder := "mobile" }
    let c₁ := (c₀.answer (.replaceImageStream "edp" x)).2
    let c := (c₁.answer (.replaceReleaseJob "edp" i)).2
    c.Distinct ∧
      (c.answer (.replaceImageStream "edp" y)).1 =
        .error (.conflict Kind.imageStream.name "app-main") ∧
      (c.answer (.replaceReleaseJob "edp" j)).1 = .error (.conflict Kind.releaseJob.name "dev") ∧
      ∃ revision failures,
        (c.answer (.replaceReleaseJob "edp" j)).2 = { c with revision, failures } := by
  intro job c₀ x y i j c₁ c
  obtain ⟨hdistinct, hstreams, hjobs, herrors⟩ := stale_copies_are_refused
  have hc₀ : c₀.Reachable := (Reachable.empty.insertImageStream "edp" source).answer _
  have hc : c.Reachable := (hc₀.answer _).answer _
  have hx : c₀.imageStreams.get? ⟨"edp", "app-main"⟩ = some x := by decide +kernel
  have hi : c₀.releaseJobs.get? ⟨"edp", "dev"⟩ = some i := by decide +kernel
  have hstream : Renewed WritesStream .imageStreams ⟨"edp", "app-main"⟩ c₀ c :=
    ⟨c₀, c₁, .refl, .inl (.replace rfl (by decide +kernel)), .single (.answer ..)⟩
  have hjob : Renewed WritesJob .releaseJobs ⟨"edp", "dev"⟩ c₀ c :=
    ⟨c₁, c, .single (.answer ..), .inl (.replace rfl (by decide +kernel)), .refl⟩
  have hrefused := hstreams c₀ c "edp" "app-main" x y hc₀ hx hstream rfl rfl
  rw [if_neg (by decide +kernel)] at hrefused
  have hrefused' := hjobs c₀ c "edp" "dev" i j hc₀ hi hjob rfl rfl (by decide +kernel)
  exact ⟨hdistinct c hc, hrefused, hrefused', herrors c _ _ hrefused'⟩

open Sample in
/-- Where replacing a stream is to fail, the stale copy is not told to be one. -/
theorem stale_copy_fails_otherwise :
    let c₀ := ({} : Cluster).insert imageStreamShelf "edp" source
    let x : ImageStream := Resource.stored source "edp" (versionText 1)
    let c₁ := (c₀.answer (.replaceImageStream "edp" x)).2
    let c := c₁.failNext .replaceImageStream
    c₀.Reachable ∧ c₀.imageStreams.get? ⟨"edp", "app-main"⟩ = some x ∧
      Renewed WritesStream .imageStreams ⟨"edp", "app-main"⟩ c₀ c ∧
      (c.answer (.replaceImageStream "edp" x)).1 = .error (injectedFault .replaceImageStream) ∧
      injectedFault .replaceImageStream ≠ .conflict Kind.imageStream.name "app-main" := by
  intro c₀ x c₁ c
  have hfails : Operation.replaceImageStream ∈ c.failures := by decide +kernel
  refine ⟨Reachable.empty.insertImageStream "edp" source, by decide +kernel, ?_, ?_, nofun⟩
  · exact ⟨c₀, c₁, .refl, .inl (.replace rfl (by decide +kernel)), .single (.failNext ..)⟩
  · rw [answer_of_mem hfails]
    rfl

end Cluster

end Conveyor
