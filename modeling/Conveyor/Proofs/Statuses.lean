import Conveyor.Proofs.Instants
import Conveyor.Proofs.Records
import Conveyor.Proofs.Store
import Conveyor.Reconcile

/-!
What a status patch leaves. The store merges the patch into the text of what it has, member by
member, and reads the outcome again. A status is written with all its members but the date, null for
a message that there is none of, and so nothing of the earlier status is left but its date, and that
only when the patch has none. A dated status has nothing left of the earlier one.
-/

namespace Conveyor

namespace StageStatus

open Json Record

/-- The status in place of the current one, whose date it keeps unless it has one itself. -/
def replacing (s : StageStatus) (current : Option StageStatus) : StageStatus :=
  { s with lastTimeUpdated := s.lastTimeUpdated.or (current.bind (·.lastTimeUpdated)) }

theorem replacing_of_dated {s : StageStatus} {t : Timestamp} (h : s.lastTimeUpdated = some t)
    (current : Option StageStatus) : s.replacing current = s := by
  obtain ⟨available, updated, status, username, action, result, message, value, handled⟩ := s
  cases h
  rfl

theorem nodup_names : ["available", "last_time_updated", "status", "username", "action", "result",
    "detailed_message", "value", "shouldBeHandled"].Nodup := by decide

theorem read_date (o : Option Timestamp) :
    (Field.optional "last_time_updated" .instant).read (o.map fun t => .string t.toText) = .ok o :=
  Field.read_optional _ fun t _ => ⟨by simp only [Decoder.instant, Timestamp.ofText_toText], rfl⟩

/-- The date is the one member that may be missing. -/
theorem get?_date (current : Option StageStatus) :
    Entries.get? "last_time_updated" ((current.map toJson).getD (.object [])).members =
      (current.bind (·.lastTimeUpdated)).map fun t => .string t.toText := by
  cases current with
  | none => rfl
  | some c => exact get?_members (j := c.toJson) rfl nodup_names _

theorem decode_mergePatch (patch : StageStatus) (current : Option StageStatus) :
    decode (mergePatch ((current.map toJson).getD (.object [])) patch.toJson) =
      .ok (patch.replacing current) := by
  have hcurrent : Entries.Ascending ((current.map toJson).getD (.object [])).members := by
    cases current with
    | none => exact Entries.ascending_nil
    | some c => exact Entries.ascending_ofList _
  have hpatch : Entries.Ascending patch.toJson.members := Entries.ascending_ofList _
  have hms := ascending_mergeMembers patch.toJson.members hcurrent
  have hmerged := get?_mergeMembers hcurrent hpatch
  have hgiven := get?_members (j := patch.toJson) rfl nodup_names
  have hdate := get?_date current
  obtain ⟨available, updated, status, username, action, result, message, value, handled⟩ := patch
  refine Reads.decode ?_ hms "StageStatus"
  -- One step for each field, the last one first.
  refine .field ?_ hms (by rw [hmerged, hgiven]; rfl)
  refine .field ?_ hms (by rw [hmerged, hgiven]; rfl)
  refine .field ?_ hms (by rw [hmerged, hgiven]; cases message <;> rfl)
  refine .field ?_ hms (by rw [hmerged, hgiven]; rfl)
  refine .field ?_ hms (by rw [hmerged, hgiven]; rfl)
  refine .field ?_ hms (by rw [hmerged, hgiven]; rfl)
  refine .field ?_ hms (by rw [hmerged, hgiven]; rfl)
  refine .field (.field (reads_make _) hms (by rw [hmerged, hgiven]; rfl)) hms ?_
  rw [hmerged, hgiven]
  cases updated with
  | none => exact Eq.trans (congrArg _ hdate) (read_date _)
  | some t => exact read_date (some t)

end StageStatus

namespace Cluster

/-- **Any status can be patched by any other.** The patch takes the place of the stored status, but
for its date when the patch has none. -/
theorem patchedStatus_eq (current : Option StageStatus) (patch : StageStatus) :
    patchedStatus current patch = .ok (patch.replacing current) :=
  patch.decode_mergePatch current

/-- **A dated status takes the place of any other.** -/
theorem patchedStatus_of_dated {patch : StageStatus} {t : Timestamp}
    (h : patch.lastTimeUpdated = some t) (current : Option StageStatus) :
    patchedStatus current patch = .ok patch := by
  rw [patchedStatus_eq, StageStatus.replacing_of_dated h]

theorem patchStatus_of_dated {c : Cluster} {key : ObjectKey} {s : Stage} {patch : StageStatus}
    {t : Timestamp} (hs : c.stages.get? key = some s) (h : patch.lastTimeUpdated = some t) :
    c.patchStatus key patch = (.ok (), c.writeStage key { s with status := some patch } .status) :=
  patchStatus_of_stored hs (patchedStatus_of_dated h s.status)

end Cluster

end Conveyor
