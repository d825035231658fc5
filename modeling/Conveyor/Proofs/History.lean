import Conveyor.Environment

/-!
The history of environments that stopped consuming a stream. It is kept as one text, which is read
and written anew by every stage that leaves. For environments that a history can hold at all,
reading gives back what was written, so an environment is recorded once however often it is retired.
-/

namespace Conveyor

namespace Text.Separated

theorem not_mem_of_mem_pieces {sep : Char} {cs p : List Char} (h : p ∈ pieces sep cs) :
    sep ∉ p := by
  induction cs generalizing p with
  | nil =>
      rw [pieces, List.mem_singleton] at h
      rw [h]
      exact List.not_mem_nil
  | cons c cs ih =>
      rw [pieces] at h
      split at h
      · rcases List.mem_cons.1 h with rfl | h
        · exact List.not_mem_nil
        · exact ih h
      · next hc =>
        split at h
        · rw [List.mem_singleton] at h
          rw [h, List.mem_singleton]
          exact Ne.symm hc
        · next q qs hqs =>
          rcases List.mem_cons.1 h with rfl | h
          · intro hmem
            rcases List.mem_cons.1 hmem with rfl | hmem
            · exact hc rfl
            · exact ih (hqs ▸ List.mem_cons_self) hmem
          · exact ih (hqs ▸ List.mem_cons_of_mem _ h)

theorem not_mem_of_mem_split {sep : Char} {s t : String} (h : t ∈ split sep s) :
    sep ∉ t.toList := by
  obtain ⟨p, hp, rfl⟩ := List.mem_map.1 h
  rw [String.toList_ofList]
  exact not_mem_of_mem_pieces hp

end Text.Separated

namespace EnvironmentHistory

/-- An environment that a history can hold: one that is not empty and has no comma. -/
def IsEntry (env : String) : Prop := env ≠ "" ∧ ',' ∉ env.toList

theorem isEntry_of_mem_ofText {s env : String} (h : env ∈ ofText s) : IsEntry env := by
  obtain ⟨hmem, hne⟩ := List.mem_filter.1 h
  exact ⟨of_decide_eq_true hne, Text.Separated.not_mem_of_mem_split hmem⟩

/-- A history that is written is read back. -/
theorem ofText_toText {envs : List String} (hne : envs ≠ []) (h : ∀ env ∈ envs, IsEntry env) :
    ofText (toText envs) = envs := by
  rw [ofText, toText, Text.Separated.split_join hne fun env henv => (h env henv).2]
  exact List.filter_eq_self.2 fun env henv => decide_eq_true (h env henv).1

theorem mem_record (env : String) (envs : List String) : env ∈ record env envs := by
  unfold record
  split
  · next h => exact List.contains_iff_mem.1 h
  · exact List.mem_append_right _ (List.mem_singleton.2 rfl)

theorem record_of_mem {env : String} {envs : List String} (h : env ∈ envs) :
    record env envs = envs := if_pos (List.contains_iff_mem.2 h)

theorem record_record (env : String) (envs : List String) :
    record env (record env envs) = record env envs := record_of_mem (mem_record env envs)

theorem isEntry_of_mem_record {env e s : String} (henv : IsEntry env)
    (h : e ∈ record env (ofText s)) : IsEntry e := by
  unfold record at h
  split at h
  · exact isEntry_of_mem_ofText h
  · rcases List.mem_append.1 h with h | h
    · exact isEntry_of_mem_ofText h
    · exact List.mem_singleton.1 h ▸ henv

/-- After one more environment a history lists what it listed, and the environment. -/
theorem ofText_append {env : String} (henv : IsEntry env) (current : Option String) :
    ofText (append current env) = record env (ofText (current.getD "")) :=
  ofText_toText (List.ne_nil_of_mem (mem_record env _)) fun _ he => isEntry_of_mem_record henv he

/-- Recording an environment a second time changes nothing, to the letter. -/
theorem append_append {env : String} (henv : IsEntry env) (current : Option String) :
    append (some (append current env)) env = append current env := by
  calc append (some (append current env)) env
    _ = toText (record env (ofText (append current env))) := rfl
    _ = toText (record env (record env (ofText (current.getD "")))) := by rw [ofText_append henv]
    _ = append current env := by rw [record_record, append]

end EnvironmentHistory

namespace ImageStream

open EnvironmentHistory

@[simp] theorem labels_retire (env : String) (s : ImageStream) :
    (s.retire env).labels = s.labels.erase env := rfl

@[simp] theorem annotations_retire (env : String) (s : ImageStream) :
    (s.retire env).annotations =
      s.annotations.insert annotationKey (append (s.annotations.get? annotationKey) env) := rfl

theorem lastDeletedEnvironments_eq (s : ImageStream) :
    s.lastDeletedEnvironments = ofText ((s.annotations.get? annotationKey).getD "") := by
  unfold lastDeletedEnvironments
  cases s.annotations.get? annotationKey with
  | none => rfl
  | some text => rfl

theorem needsRetiring_eq_false {env : String} {s : ImageStream} :
    s.needsRetiring env = false ↔ s.labels.get? env = none ∧
      s.annotations.get? annotationKey =
        some (append (s.annotations.get? annotationKey) env) := by
  simp [needsRetiring, Dict.contains, Dict.get?_insert]

/-- Retiring an environment puts it into the history, at the end if it is new there. -/
theorem lastDeletedEnvironments_retire {env : String} (henv : IsEntry env) (s : ImageStream) :
    (s.retire env).lastDeletedEnvironments =
      EnvironmentHistory.record env s.lastDeletedEnvironments := by
  rw [lastDeletedEnvironments_eq, lastDeletedEnvironments_eq, annotations_retire, Dict.get?_insert,
    if_pos rfl, Option.getD_some, ofText_append henv]

/-- A stream that is in no need of retiring has no label of the environment and has it in its
history already. -/
theorem retired_of_needsRetiring {env : String} (henv : IsEntry env) {s : ImageStream}
    (h : s.needsRetiring env = false) :
    s.labels.get? env = none ∧
      s.lastDeletedEnvironments = EnvironmentHistory.record env s.lastDeletedEnvironments := by
  obtain ⟨hlabel, htext⟩ := needsRetiring_eq_false.1 h
  refine ⟨hlabel, ?_⟩
  have hread := ofText_append henv (s.annotations.get? annotationKey)
  rw [lastDeletedEnvironments_eq]
  generalize s.annotations.get? annotationKey = current at htext hread
  rw [← hread, htext, Option.getD_some, append_append henv]

/-- Once is enough. -/
theorem needsRetiring_retire {env : String} (henv : IsEntry env) (s : ImageStream) :
    (s.retire env).needsRetiring env = false := by
  refine needsRetiring_eq_false.2 ⟨?_, ?_⟩
  · rw [labels_retire, Dict.get?_erase, if_pos rfl]
  · rw [annotations_retire, Dict.get?_insert, if_pos rfl, append_append henv]

end ImageStream

end Conveyor
