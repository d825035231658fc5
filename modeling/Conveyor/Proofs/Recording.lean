import Conveyor.Proofs.History
import Conveyor.Proofs.Scenario

/-!
Retiring an environment from one stream, and retiring it again. The history is a single text with
commas between its entries, and nothing marks a comma that belongs to a name. An environment without
one is recorded once and for all. One with a comma is read back in pieces, so that it is never found
among the entries and enters the history anew each time.
-/

namespace Conveyor

namespace EnvironmentHistory

/-- A text in which there is more than commas has an entry. -/
theorem ofText_ne_nil {s : String} {ch : Char} (hmem : ch ∈ s.toList) (hne : ch ≠ ',') :
    ofText s ≠ [] := by
  obtain ⟨p, hp, hch⟩ := Text.Separated.exists_mem_pieces hmem hne
  refine List.ne_nil_of_mem (a := String.ofList p) (List.mem_filter.2 ⟨List.mem_map_of_mem hp, ?_⟩)
  refine decide_eq_true fun hempty => ?_
  rw [← String.toList_ofList (l := p), hempty] at hch
  cases hch

/-- What comes last in a history is read in pieces, all that is before it as it was written. -/
theorem ofText_toText_append {envs : List String} (h : ∀ e ∈ envs, IsEntry e) (env : String) :
    ofText (toText (envs ++ [env])) = envs ++ ofText env := by
  have hkept : envs.filter (fun e => decide (e ≠ "")) = envs :=
    List.filter_eq_self.2 fun e he => decide_eq_true (h e he).1
  rw [ofText, toText, Text.Separated.split_join_append (fun e he => (h e he).2),
    List.filter_append, hkept, ofText]

/-- An environment with a comma is none of the entries, so it comes at the end, in pieces. -/
theorem ofText_append_of_comma {env : String} (hcomma : ',' ∈ env.toList)
    (current : Option String) :
    ofText (append current env) = ofText (current.getD "") ++ ofText env := by
  have hentries (e : String) (he : e ∈ ofText (current.getD "")) : IsEntry e :=
    isEntry_of_mem_ofText he
  have hnew : record env (ofText (current.getD "")) = ofText (current.getD "") ++ [env] :=
    if_neg fun h => (hentries env (List.contains_iff_mem.1 h)).2 hcomma
  rw [append, hnew, ofText_toText_append hentries]

end EnvironmentHistory

namespace ImageStream

open EnvironmentHistory

variable {env : String} {s : ImageStream}

theorem lastDeletedEnvironments_retire_of_comma (hcomma : ',' ∈ env.toList) (s : ImageStream) :
    (s.retire env).lastDeletedEnvironments = s.lastDeletedEnvironments ++ ofText env := by
  rw [lastDeletedEnvironments_eq, lastDeletedEnvironments_eq, annotations_retire, Dict.get?_insert,
    if_pos rfl, Option.getD_some, ofText_append_of_comma hcomma]

/-- An environment that is read in pieces is in need of retiring forever. -/
theorem needsRetiring_of_comma (hcomma : ',' ∈ env.toList) (hentry : ofText env ≠ [])
    (s : ImageStream) : s.needsRetiring env = true := by
  refine Bool.of_not_eq_false fun hsettled => ?_
  have htext := (needsRetiring_eq_false.1 hsettled).2
  have hread := ofText_append_of_comma hcomma (s.annotations.get? annotationKey)
  rw [htext, Option.getD_some, ← htext] at hread
  exact hentry (List.self_eq_append_right.1 hread)

/-- A stream that needs no retiring is as it would be after it, where it has labels and annotations
at all. -/
theorem retire_of_not_needsRetiring {labels annotations : Dict String String}
    (hlabels : s.metadata.labels = some labels)
    (hannotations : s.metadata.annotations = some annotations)
    (h : s.needsRetiring env = false) : s.retire env = s := by
  obtain ⟨hlabel, htext⟩ := needsRetiring_eq_false.1 h
  have hl : s.labels.erase env = labels := by
    rw [Dict.erase_of_get? hlabel, ImageStream.labels, hlabels, Option.getD_some]
  have ha : s.annotations.insert annotationKey (append (s.annotations.get? annotationKey) env) =
      annotations := by
    rw [Dict.insert_of_get? htext, ImageStream.annotations, hannotations, Option.getD_some]
  simp only [retire, hl, ha, ← hlabels, ← hannotations]

/-- **Retiring an environment once and again.** The environment's label goes, all other labels and
annotations stay, and of the stream nothing else changes. There was something to do just if the
label was there or the text of the history has changed. An environment without a comma is in the
history then, at its end if it was not in it before, and there is nothing to do a second time. One
with a comma comes to its end in pieces, as often as it is retired. -/
theorem retiring_is_recorded (s : ImageStream) (pipeline : String) (stage : Stage) :
    let env := stage.environmentLabel pipeline
    let after := s.retire env
    after.labels.get? env = none ∧
    (∀ l, l ≠ env → after.labels.get? l = s.labels.get? l) ∧
    (∀ a, a ≠ annotationKey → after.annotations.get? a = s.annotations.get? a) ∧
    after.spec = s.spec ∧
    after.metadata = { s.metadata with
      labels := after.metadata.labels
      annotations := after.metadata.annotations } ∧
    (s.needsRetiring env = true ↔ (s.labels.get? env).isSome = true ∨
      after.annotations.get? annotationKey ≠ s.annotations.get? annotationKey) ∧
    if ',' ∈ env.toList then
      after.lastDeletedEnvironments = s.lastDeletedEnvironments ++ ofText env ∧
        ofText env ≠ [] ∧ env ∉ s.lastDeletedEnvironments ∧ after.needsRetiring env = true
    else
      after.lastDeletedEnvironments =
          (if env ∈ s.lastDeletedEnvironments then s.lastDeletedEnvironments
            else s.lastDeletedEnvironments ++ [env]) ∧
        after.needsRetiring env = false ∧ after.retire env = after := by
  intro env after
  have hslash : '/' ∈ env.toList := by simp [env, Stage.toList_environmentLabel]
  have hne : env ≠ "" := by
    intro hempty
    rw [hempty] at hslash
    cases hslash
  refine ⟨Dict.get?_erase_self _ _, fun l hl => Dict.get?_erase_of_ne _ hl,
    fun a ha => Dict.get?_insert_of_ne _ _ ha, rfl, rfl, ?flag, ?_⟩
  case flag =>
    simp only [needsRetiring, Dict.contains, Bool.or_eq_true, bne_iff_ne, ne_comm]
    rfl
  split
  · next hcomma =>
    have hentry : ofText env ≠ [] := ofText_ne_nil hslash (by decide)
    refine ⟨lastDeletedEnvironments_retire_of_comma hcomma s, hentry, fun hmem => ?_,
      needsRetiring_of_comma hcomma hentry after⟩
    rw [lastDeletedEnvironments_eq] at hmem
    exact (isEntry_of_mem_ofText hmem).2 hcomma
  · next hcomma =>
    have henv : IsEntry env := ⟨hne, hcomma⟩
    have hsettled : after.needsRetiring env = false := needsRetiring_retire henv s
    refine ⟨?_, hsettled, retire_of_not_needsRetiring rfl rfl hsettled⟩
    rw [lastDeletedEnvironments_retire henv s, EnvironmentHistory.record_eq]

open Sample in
/-- The environment of a pipeline whose name has a comma is not found in the history that it was
recorded in, and it is recorded again. -/
theorem comma_is_recorded_again :
    let env := (stage "dev" 0).environmentLabel "mobile,web"
    let after := source.retire env
    env ∉ source.lastDeletedEnvironments ∧
      after.lastDeletedEnvironments ≠ source.lastDeletedEnvironments ++ [env] ∧
      after.needsRetiring env = true ∧ after.retire env ≠ after ∧
      (after.retire env).lastDeletedEnvironments = ["mobile", "web/dev", "mobile", "web/dev"] := by
  decide +kernel

end ImageStream

end Conveyor
