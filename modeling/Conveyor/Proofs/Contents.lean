import Conveyor.Proofs.Faults
import Conveyor.Proofs.Store
import Mathlib.Logic.Function.Basic

/-!
What a cluster holds, apart from versions, counters, the log of writes, pending failures and the
dates of statuses. Two runs that take different ways are compared by the contents they end in.

Contents are tables: functions of the key. A write at a key is `Table.alter`, and the whole work on
a table is a list of such writes, one for each item that has to be there. Where items with one key
ask for the same and asking twice is asking once, an item that was written early makes no difference
to the whole (`Table.alterAll_alter`). That is why interrupted work can simply be done again.
-/

namespace Conveyor

/-- Objects of one type by their keys. -/
abbrev Table (α : Type) := ObjectKey → Option α

namespace Table

variable {α ι : Type}

/-- The table with another entry at a key, made from the earlier one. -/
def alter (k : ObjectKey) (g : Option α → Option α) (t : Table α) : Table α :=
  Function.update t k (g (t k))

theorem alter_self (k : ObjectKey) (g : Option α → Option α) (t : Table α) :
    alter k g t k = g (t k) := Function.update_self ..

theorem alter_of_ne {k l : ObjectKey} (h : l ≠ k) (g : Option α → Option α) (t : Table α) :
    alter k g t l = t l := Function.update_of_ne h ..

/-- Only the entry at the key counts for what is made of it. -/
theorem alter_congr {k : ObjectKey} {g h : Option α → Option α} {t : Table α}
    (hgh : g (t k) = h (t k)) : alter k g t = alter k h t := by
  rw [alter, alter, hgh]

theorem alter_eq_self {k : ObjectKey} {g : Option α → Option α} {t : Table α}
    (h : g (t k) = t k) : alter k g t = t := by
  rw [alter, h, Function.update_eq_self]

theorem alter_alter (k : ObjectKey) (g h : Option α → Option α) (t : Table α) :
    alter k g (alter k h t) = alter k (fun o => g (h o)) t := by
  rw [alter, alter_self, alter, Function.update_idem]
  rfl

/-! ### Many entries -/

variable {key : ι → ObjectKey} {g : ι → Option α → Option α} {is : List ι}

/-- One entry after the other is altered, each as its item asks. -/
def alterAll (key : ι → ObjectKey) (g : ι → Option α → Option α) (is : List ι) (t : Table α) :
    Table α :=
  is.foldl (fun t i => alter (key i) (g i) t) t

@[simp] theorem alterAll_cons (i : ι) (is : List ι) (t : Table α) :
    alterAll key g (i :: is) t = alterAll key g is (alter (key i) (g i) t) := rfl

/-- Items with one key ask for the same, and asking again changes nothing. -/
structure Consistent (key : ι → ObjectKey) (g : ι → Option α → Option α) (is : List ι) :
    Prop where
  agree : ∀ i ∈ is, ∀ j ∈ is, key i = key j → g i = g j
  again : ∀ i ∈ is, ∀ o, g i (g i o) = g i o

theorem Consistent.tail {i : ι} (h : Consistent key g (i :: is)) : Consistent key g is where
  agree j hj k hk := h.agree j (List.mem_cons_of_mem i hj) k (List.mem_cons_of_mem i hk)
  again j hj := h.again j (List.mem_cons_of_mem i hj)

theorem alterAll_of_not_mem {k : ObjectKey} (hk : ∀ i ∈ is, key i ≠ k) (t : Table α) :
    alterAll key g is t k = t k := by
  induction is generalizing t with
  | nil => rfl
  | cons i is ih =>
      obtain ⟨hi, his⟩ := List.forall_mem_cons.1 hk
      rw [alterAll_cons, ih his, alter_of_ne (Ne.symm hi)]

/-- Each item has its way in the end. -/
theorem alterAll_of_mem (h : Consistent key g is) {i : ι} (hi : i ∈ is) (t : Table α) :
    alterAll key g is t (key i) = g i (t (key i)) := by
  induction is generalizing i t with
  | nil => cases hi
  | cons j is ih =>
      rw [alterAll_cons]
      by_cases hj : key j = key i
      · have hgj : g j = g i := h.agree j List.mem_cons_self i hi hj
        -- The head has altered the entry already; the others ask for the same or stay away.
        have hhead : alter (key j) (g j) t (key i) = g i (t (key i)) := by
          rw [hgj, hj, alter_self]
        by_cases hrest : ∃ l ∈ is, key l = key i
        · obtain ⟨l, hl, hkey⟩ := hrest
          have hgl : g l = g i := h.agree l (List.mem_cons_of_mem j hl) i hi hkey
          have hl' := ih h.tail hl (alter (key j) (g j) t)
          rw [hkey, hgl, hhead, h.again i hi] at hl'
          exact hl'
        · rw [alterAll_of_not_mem fun l hl hkey => hrest ⟨l, hl, hkey⟩, hhead]
      · have hi' : i ∈ is := (List.mem_cons.1 hi).resolve_left fun e => hj (e ▸ rfl)
        rw [ih h.tail hi', alter_of_ne (Ne.symm hj)]

/-- **Early work does no harm.** An item that was seen to before makes no difference to the whole.
-/
theorem alterAll_alter (h : Consistent key g is) {i : ι} (hi : i ∈ is) (t : Table α) :
    alterAll key g is (alter (key i) (g i) t) = alterAll key g is t := by
  funext k
  by_cases hk : ∃ j ∈ is, key j = k
  · obtain ⟨j, hj, rfl⟩ := hk
    rw [alterAll_of_mem h hj, alterAll_of_mem h hj]
    by_cases hij : key i = key j
    · rw [hij, alter_self, h.agree i hi j hj hij, h.again j hj]
    · rw [alter_of_ne (Ne.symm hij)]
  · have hnot : ∀ j ∈ is, key j ≠ k := fun j hj e => hk ⟨j, hj, e⟩
    rw [alterAll_of_not_mem hnot, alterAll_of_not_mem hnot, alter_of_ne (Ne.symm (hnot i hi))]

end Table

/-! ### The contents of a cluster -/

namespace Objects

variable {α : Type}

/-- The stored objects as `f` sees them. -/
def seen (f : α → α) (os : Objects α) : Table α := fun k => (os.get? k).map f

theorem seen_of_stored {f : α → α} {os : Objects α} {k : ObjectKey} {a : α}
    (h : os.get? k = some a) : os.seen f k = some (f a) := by
  rw [seen, h, Option.map_some]

theorem seen_of_absent {f : α → α} {os : Objects α} {k : ObjectKey} (h : os.get? k = none) :
    os.seen f k = none := by
  rw [seen, h, Option.map_none]

/-- A write is seen as the alteration that asks for what was written. -/
theorem seen_insert {f : α → α} {g : Option α → Option α} {os : Objects α} {k : ObjectKey} {a : α}
    (h : g (os.seen f k) = some (f a)) : seen f (os.insert k a) = Table.alter k g (os.seen f) := by
  funext l
  by_cases hl : l = k
  · subst hl
    rw [Table.alter_self, h, seen, Dict.get?_insert_self, Option.map_some]
  · rw [Table.alter_of_ne hl, seen, Dict.get?_insert_of_ne _ _ hl, seen]

end Objects

namespace Resource

variable {α : Type} [Resource α]

/-- The object without a version. -/
def unversioned (a : α) : α := versioned a none

/-- A new object as it is stored in a namespace, apart from its version. -/
def inNamespace (a : α) (namespaceName : String) : α :=
  withMetadata a { metadata a with namespaceName := some namespaceName, resourceVersion := none }

theorem unversioned_stored (a : α) (namespaceName version : String) :
    unversioned (stored a namespaceName version) = inNamespace a namespaceName := by
  simp [unversioned, versioned, stored, inNamespace]

theorem unversioned_versioned (a : α) (version : Option String) :
    unversioned (versioned a version) = unversioned a := by
  simp [unversioned, versioned]

end Resource

open Resource (unversioned inNamespace)

/-! An alteration is made by creating an object, by replacing one, or it is there already. -/

namespace Objects

variable {α : Type} [Resource α] {os : Objects α} {k : ObjectKey} {a b : α}
  {g : Option α → Option α}

theorem seen_created (h : os.get? k = none) {namespaceName : String}
    (hg : g none = some (inNamespace a namespaceName)) (version : String) :
    seen unversioned (os.insert k (Resource.stored a namespaceName version)) =
      Table.alter k g (os.seen unversioned) :=
  seen_insert (by rw [seen_of_absent h, Resource.unversioned_stored, hg])

theorem seen_replaced (h : os.get? k = some b)
    (hg : g (some (unversioned b)) = some (unversioned a)) (version : Option String) :
    seen unversioned (os.insert k (Resource.versioned a version)) =
      Table.alter k g (os.seen unversioned) :=
  seen_insert (by rw [seen_of_stored h, Resource.unversioned_versioned, hg])

theorem seen_kept (h : os.get? k = some b)
    (hg : g (some (unversioned b)) = some (unversioned b)) :
    Table.alter k g (os.seen unversioned) = os.seen unversioned :=
  Table.alter_eq_self (by rw [seen_of_stored h, hg])

end Objects

/-- The status without the time of its last change. -/
def StageStatus.undated (s : StageStatus) : StageStatus := { s with lastTimeUpdated := none }

/-- The stage without its version and the time of its last status change. -/
def Stage.content (s : Stage) : Stage :=
  { unversioned s with status := s.status.map StageStatus.undated }

/-- The namespaces that are there, in their three forms. -/
structure Places where
  namespaces : NameSet
  spaces : Dict String String
  projects : NameSet

/-- What a cluster holds. -/
structure Contents where
  stages : Table Stage
  pipelines : Objects Pipeline
  components : Objects Component
  imageStreams : Table ImageStream
  releaseJobs : Table ReleaseJob
  roles : Table Role
  roleBindings : Table RoleBinding
  places : Places

namespace Cluster

def places (c : Cluster) : Places := ⟨c.namespaces, c.spaces, c.projects⟩

def contents (c : Cluster) : Contents where
  stages := c.stages.seen Stage.content
  pipelines := c.pipelines
  components := c.components
  imageStreams := c.imageStreams.seen unversioned
  releaseJobs := c.releaseJobs.seen unversioned
  roles := c.roles.seen unversioned
  roleBindings := c.roleBindings.seen unversioned
  places := c.places

end Cluster

end Conveyor
