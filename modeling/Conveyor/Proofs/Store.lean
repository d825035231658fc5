import Conveyor.Cluster.Store

/-!
What the writes of the cluster in memory do. Each write has an equation for each of its outcomes,
under the condition that decides between them, so that proofs about sessions never open the store.
-/

namespace Conveyor

namespace Dict

variable {κ α : Type} [KeyOrder κ] [DecidableEq κ]

theorem get?_insert_self (d : Dict κ α) (k : κ) (a : α) : (d.insert k a).get? k = some a := by
  rw [get?_insert, if_pos rfl]

theorem get?_insert_of_ne (d : Dict κ α) {k l : κ} (a : α) (h : l ≠ k) :
    (d.insert k a).get? l = d.get? l := by
  rw [get?_insert, if_neg (Ne.symm h)]

theorem get?_erase_self (d : Dict κ α) (k : κ) : (d.erase k).get? k = none := by
  rw [get?_erase, if_pos rfl]

theorem get?_erase_of_ne (d : Dict κ α) {k l : κ} (h : l ≠ k) :
    (d.erase k).get? l = d.get? l := by
  rw [get?_erase, if_neg (Ne.symm h)]

theorem insert_of_get? {d : Dict κ α} {k : κ} {a : α} (h : d.get? k = some a) :
    d.insert k a = d := by
  refine ext fun l => ?_
  rw [get?_insert]
  split
  · next hl => rw [← hl, h]
  · rfl

theorem erase_of_get? {d : Dict κ α} {k : κ} (h : d.get? k = none) : d.erase k = d := by
  refine ext fun l => ?_
  rw [get?_erase]
  split
  · next hl => rw [← hl, h]
  · rfl

omit [DecidableEq κ] in
theorem contains_eq_false {d : Dict κ α} {k : κ} : d.contains k = false ↔ d.get? k = none := by
  simp [contains]

theorem contains_insert (d : Dict κ α) (k l : κ) (a : α) :
    (d.insert k a).contains l = (decide (k = l) || d.contains l) := by
  rw [contains, contains, get?_insert]
  by_cases h : k = l <;> simp [h]

theorem contains_erase (d : Dict κ α) (k l : κ) :
    (d.erase k).contains l = (!decide (k = l) && d.contains l) := by
  rw [contains, contains, get?_erase]
  by_cases h : k = l <;> simp [h]

end Dict

/-- An object under a version. -/
def Resource.versioned {α : Type} [Resource α] (a : α) (version : Option String) : α :=
  withMetadata a { metadata a with resourceVersion := version }

namespace Cluster

variable {α : Type} [Resource α] {c : Cluster}

/-! ### Objects -/

theorem create_of_present {shelf : Shelf α} {namespaceName : String} {a b : α}
    (h : (shelf.get c).get? (keyIn namespaceName a) = some b) :
    c.create shelf namespaceName a =
      (.error (.alreadyExists (Resource.kind α).name (Resource.metadata a).nameOrEmpty),
        c.counted) := by
  simp only [create, Dict.contains, h, Option.isSome_some, if_true]
  rfl

theorem create_of_absent {shelf : Shelf α} {namespaceName : String} {a : α}
    (h : (shelf.get c).get? (keyIn namespaceName a) = none) :
    c.create shelf namespaceName a =
      (.ok (), shelf.set c.counted ((shelf.get c).insert (keyIn namespaceName a)
        (Resource.stored a namespaceName c.nextVersion))) := by
  simp only [create, Dict.contains, h, Option.isSome_none, Bool.false_eq_true, if_false]

/-- An object that is written back with the version it was read at takes the place of the stored
one. -/
theorem replace_of_current {shelf : Shelf α} {namespaceName : String} {a b : α}
    (h : (shelf.get c).get? (keyIn namespaceName a) = some b)
    (hversion : (Resource.metadata a).resourceVersion = (Resource.metadata b).resourceVersion) :
    c.replace shelf namespaceName a =
      (.ok (), shelf.set c.counted ((shelf.get c).insert (keyIn namespaceName a)
        (Resource.versioned a (some c.nextVersion)))) := by
  simp only [replace, h, versionMatches, hversion, beq_self_eq_true, Bool.or_true, if_true]
  rfl

/-- Creating fails and just counts, or it succeeds and stores the object. -/
theorem create_cases (shelf : Shelf α) (namespaceName : String) (a : α) (c : Cluster) :
    (∃ e, c.create shelf namespaceName a = (.error e, c.counted)) ∨
      c.create shelf namespaceName a =
        (.ok (), shelf.set c.counted ((shelf.get c).insert (keyIn namespaceName a)
          (Resource.stored a namespaceName c.nextVersion))) := by
  cases h : (shelf.get c).get? (keyIn namespaceName a) with
  | none => exact .inr (create_of_absent h)
  | some b => exact .inl ⟨_, create_of_present h⟩

theorem create_snd (shelf : Shelf α) (namespaceName : String) (a : α) (c : Cluster) :
    (c.create shelf namespaceName a).2 = c.counted ∨
      (c.create shelf namespaceName a).2 =
        shelf.set c.counted ((shelf.get c).insert (keyIn namespaceName a)
          (Resource.stored a namespaceName c.nextVersion)) := by
  rcases create_cases shelf namespaceName a c with ⟨e, h⟩ | h
  · exact .inl (by rw [h])
  · exact .inr (by rw [h])

/-- A copy of another version than the stored object is not written back. -/
theorem replace_of_outdated {shelf : Shelf α} {namespaceName version : String} {a b : α}
    (h : (shelf.get c).get? (keyIn namespaceName a) = some b)
    (hversion : (Resource.metadata a).resourceVersion = some version)
    (hb : (Resource.metadata b).resourceVersion ≠ some version) :
    c.replace shelf namespaceName a =
      (.error (.conflict (Resource.kind α).name (keyIn namespaceName a).name), c.counted) := by
  have hmatches : (some version == (Resource.metadata b).resourceVersion) = false :=
    beq_false_of_ne hb.symm
  simp only [replace, h, versionMatches, hversion, hmatches, Option.isNone_some, Bool.or_self,
    Bool.false_eq_true, if_false]

/-- Replacing fails and just counts, or it succeeds and stores the object. -/
theorem replace_cases (shelf : Shelf α) (namespaceName : String) (a : α) (c : Cluster) :
    (∃ e, c.replace shelf namespaceName a = (.error e, c.counted)) ∨
      c.replace shelf namespaceName a =
        (.ok (), shelf.set c.counted ((shelf.get c).insert (keyIn namespaceName a)
          (Resource.versioned a (some c.nextVersion)))) := by
  unfold replace
  dsimp only
  split
  · exact .inl ⟨_, rfl⟩
  · split
    · exact .inr rfl
    · exact .inl ⟨_, rfl⟩

theorem replace_snd (shelf : Shelf α) (namespaceName : String) (a : α) (c : Cluster) :
    (c.replace shelf namespaceName a).2 = c.counted ∨
      (c.replace shelf namespaceName a).2 =
        shelf.set c.counted ((shelf.get c).insert (keyIn namespaceName a)
          (Resource.versioned a (some c.nextVersion))) := by
  rcases replace_cases shelf namespaceName a c with ⟨e, h⟩ | h
  · exact .inl (by rw [h])
  · exact .inr (by rw [h])

/-! ### Stages -/

theorem patchStatus_of_stored {key : ObjectKey} {s : Stage} {status merged : StageStatus}
    (hs : c.stages.get? key = some s) (hmerged : patchedStatus s.status status = .ok merged) :
    c.patchStatus key status =
      (.ok (), c.writeStage key { s with status := some merged } .status) := by
  simp only [patchStatus, hs, hmerged]

theorem patchFinalizers_of_matching {key : ObjectKey} {s : Stage} {version : Option String}
    {finalizers : List String} (hs : c.stages.get? key = some s)
    (hversion : versionMatches version s.metadata.resourceVersion = true)
    (hkept : (finalizers.isEmpty && s.isBeingDeleted) = false) :
    c.patchFinalizers key version finalizers =
      (.ok (), c.counted.writeStage key
        { s with metadata := { s.metadata with
          finalizers := some finalizers
          resourceVersion := some c.nextVersion } } .finalizers) := by
  simp only [patchFinalizers, hs, hversion, if_true, hkept, Bool.false_eq_true, if_false]

/-- Finalizers are written at the version that they were read at. -/
theorem patchFinalizers_of_kept {key : ObjectKey} {s : Stage} {finalizers : List String}
    (hs : c.stages.get? key = some s)
    (hkept : (finalizers.isEmpty && s.isBeingDeleted) = false) :
    c.patchFinalizers key s.metadata.resourceVersion finalizers =
      (.ok (), c.counted.writeStage key
        { s with metadata := { s.metadata with
          finalizers := some finalizers
          resourceVersion := some c.nextVersion } } .finalizers) :=
  patchFinalizers_of_matching hs
    (by simp only [versionMatches, beq_self_eq_true, Bool.or_true]) hkept

/-- A stage under deletion goes with its last finalizer. -/
theorem patchFinalizers_of_last {key : ObjectKey} {s : Stage}
    (hs : c.stages.get? key = some s) (hdeleted : s.isBeingDeleted = true) :
    c.patchFinalizers key s.metadata.resourceVersion [] =
      (.ok (), { c.counted with
        stages := c.stages.erase key
        stageWrites := c.stageWrites ++ [(key.name, .finalizers)] }) := by
  simp only [patchFinalizers, hs, versionMatches, beq_self_eq_true, Bool.or_true, if_true,
    List.isEmpty_nil, hdeleted, Bool.and_self]

theorem patchFinalizers_of_absent {key : ObjectKey} (version : Option String)
    (finalizers : List String) (hnone : c.stages.get? key = none) :
    c.patchFinalizers key version finalizers =
      (.error (.notFound Kind.stage.name key.namespaceName key.name), c.counted) := by
  simp only [patchFinalizers, hnone]

/-- A writer whose copy is out of date is refused. -/
theorem patchFinalizers_of_outdated {key : ObjectKey} {s : Stage} {version : String}
    (finalizers : List String) (hs : c.stages.get? key = some s)
    (hversion : s.metadata.resourceVersion ≠ some version) :
    c.patchFinalizers key (some version) finalizers =
      (.error (.conflict Kind.stage.name key.name), c.counted) := by
  have hother : versionMatches (some version) s.metadata.resourceVersion = false := by
    simpa [versionMatches] using hversion.symm
  simp only [patchFinalizers, hs, hother, Bool.false_eq_true, if_false]

theorem patchOwnership_of_stored {key : ObjectKey} {s : Stage} {owners : List OwnerReference}
    {labels : Dict String String} (hs : c.stages.get? key = some s) :
    c.patchOwnership key owners labels =
      (.ok (), c.counted.writeStage key
        { s with metadata := { s.metadata with
          ownerReferences := some owners
          labels := some ((s.metadata.labels.getD ∅).extend labels)
          resourceVersion := some c.nextVersion } } .ownership) := by
  simp only [patchOwnership, hs]

/-- A patch of finalizers is about one stage only. -/
theorem get?_stages_patchFinalizers {key k : ObjectKey} (hk : k ≠ key) (version : Option String)
    (finalizers : List String) (c : Cluster) :
    (c.patchFinalizers key version finalizers).2.stages.get? k = c.stages.get? k := by
  unfold patchFinalizers
  split
  · rfl
  · split
    · split
      · exact Dict.get?_erase_of_ne _ hk
      · exact Dict.get?_insert_of_ne _ _ hk
    · rfl

end Cluster

end Conveyor
