import Conveyor.Proofs.Completion
import Conveyor.Proofs.Scenario
import Conveyor.Proofs.StaleCopies
import Mathlib.Data.List.Count

/-!
Passes of the cleanup. A pass reads all consumed streams first and writes them back one by one, each
in the version that it was read in. A stream that is consumed for two inputs has another version
when its second turn comes, since it was written at the first one: the pass is refused there, and
what comes after it is left as it was. Nothing is lost by that, the next pass goes on from there.
-/

namespace Conveyor

open Session
open Promotion (Consumed KeyOf)
open EnvironmentHistory (IsEntry)

namespace Retirement

variable {c c' : Cluster} {s : Stage} {namespaceName env : String} {ds : List Consumed}

/-! ### One pass -/

/-- The second stream of a pass is another one than the first, if that one has to be written. -/
def Apart (env : String) (d e : Consumed) : Prop :=
  d.stream.needsRetiring env = true → e.stream ≠ d.stream

/-- A pass has been through these streams, and all turns went well. -/
structure Passed (namespaceName env : String) (ds : List Consumed) (c c' : Cluster) : Prop where
  apart : ds.Pairwise (Apart env)
  retired : ∀ d ∈ ds, d.stream.needsRetiring env = true → ∃ version, ¬ c.HasGiven version ∧
    c'.imageStreams.get? (Cluster.keyIn namespaceName d.stream) =
      some (Resource.versioned (d.stream.retire env) version)
  others : ∀ k, (∀ d ∈ ds, d.stream.needsRetiring env = true →
    Cluster.keyIn namespaceName d.stream ≠ k) → c'.imageStreams.get? k = c.imageStreams.get? k
  revision : c.revision ≤ c'.revision
  rest : { c' with imageStreams := c.imageStreams, revision := c.revision } = c

theorem passed_nil (namespaceName env : String) (c : Cluster) : Passed namespaceName env [] c c :=
  ⟨.nil, fun _ hd => absurd hd List.not_mem_nil, fun _ _ => rfl, Nat.le_refl _, rfl⟩

/-- How a pass ends: all turns go well, or one of them is refused because it is not the first one of
its stream. -/
inductive PassEnds (namespaceName env : String) (ds : List Consumed) (c : Cluster) :
    Except Error Unit → Cluster → Prop
  | passed {c' : Cluster} (h : Passed namespaceName env ds c c') :
      PassEnds namespaceName env ds c (.ok ()) c'
  | refused {c' : Cluster} (before : List Consumed) (d e : Consumed) (after : List Consumed)
      (hds : ds = before ++ d :: after) (h : Passed namespaceName env before c c')
      (he : e ∈ before) (hsame : e.stream = d.stream) (hneeds : d.stream.needsRetiring env = true) :
      PassEnds namespaceName env ds c
        (.error (.downstream "update" Kind.imageStream.name d.stream.name
          (.conflict Kind.imageStream.name d.stream.metadata.nameOrEmpty))) c'.counted

/-- A turn with nothing to write. -/
theorem Passed.keep {before : List Consumed} {d : Consumed}
    (h : Passed namespaceName env before c c') (hnone : d.stream.needsRetiring env = false) :
    Passed namespaceName env (before ++ [d]) c c' where
  apart := by
    refine List.pairwise_append.2 ⟨h.apart, List.pairwise_singleton _ d, fun e _ b hb => ?_⟩
    obtain rfl := List.mem_singleton.1 hb
    intro hneeds hsame
    cases hnone.symm.trans (hsame ▸ hneeds)
  retired e he hneeds := by
    rcases List.mem_append.1 he with he | he
    · exact h.retired e he hneeds
    · obtain rfl := List.mem_singleton.1 he
      cases hnone.symm.trans hneeds
  others k hk := h.others k fun e he => hk e (List.mem_append_left _ he)
  revision := h.revision
  rest := h.rest

/-- A turn at a stream that no turn before it has written. -/
theorem Passed.write {before : List Consumed} {d : Consumed}
    (h : Passed namespaceName env before c c') (hneeds : d.stream.needsRetiring env = true)
    (hnew : ∀ e ∈ before, e.stream.needsRetiring env = true →
      Cluster.keyIn namespaceName e.stream ≠ Cluster.keyIn namespaceName d.stream) :
    Passed namespaceName env (before ++ [d]) c
      (c'.wrote Cluster.imageStreamShelf (Cluster.keyIn namespaceName d.stream)
        (Resource.versioned (d.stream.retire env) (some c'.nextVersion))) where
  apart := by
    refine List.pairwise_append.2 ⟨h.apart, List.pairwise_singleton _ d, fun e he b hb => ?_⟩
    obtain rfl := List.mem_singleton.1 hb
    exact fun hwrites hsame => hnew e he hwrites (hsame ▸ rfl)
  retired e he hneeds := by
    rcases List.mem_append.1 he with he | he
    · obtain ⟨version, hversion, hget⟩ := h.retired e he hneeds
      exact ⟨version, hversion, (Dict.get?_insert_of_ne _ _ (hnew e he hneeds)).trans hget⟩
    · obtain rfl := List.mem_singleton.1 he
      refine ⟨some c'.nextVersion, fun hgiven => ?_, Dict.get?_insert_self ..⟩
      exact hgiven.ne_next h.revision rfl
  others k hk := by
    by_cases hkey : k = Cluster.keyIn namespaceName d.stream
    · exact absurd hkey.symm (hk d (List.mem_append_right _ List.mem_cons_self) hneeds)
    · exact (Dict.get?_insert_of_ne _ _ hkey).trans
        (h.others k fun e he => hk e (List.mem_append_left _ he))
  revision := Nat.le_succ_of_le h.revision
  rest := h.rest

/-- One turn of a pass. It goes well, or it is refused because its stream was written before. -/
theorem ensures_retireFrom_turn {before : List Consumed} {d : Consumed}
    (hstored : ∀ e ∈ before,
      c.imageStreams.get? (Cluster.keyIn namespaceName e.stream) = some e.stream)
    (hcurrent : c.imageStreams.get? (Cluster.keyIn namespaceName d.stream) = some d.stream)
    (hgiven : c.HasGiven d.stream.metadata.resourceVersion)
    (h : Passed namespaceName env before c c') :
    (retireFrom namespaceName env d.stream).Ensures NoFailure c' fun r c'' =>
      r = .ok () ∧ Passed namespaceName env (before ++ [d]) c c'' ∨
        (∃ e ∈ before, e.stream = d.stream) ∧ d.stream.needsRetiring env = true ∧
          r = .error (.downstream "update" Kind.imageStream.name d.stream.name
            (.conflict Kind.imageStream.name d.stream.metadata.nameOrEmpty)) ∧
          c'' = c'.counted := by
  unfold retireFrom
  refine ensures_ite (fun hneeds => ?_) fun hnone => ?_
  · refine ensures_requestFor.2 ⟨fun e he => he.elim, ?_⟩
    by_cases hagain : ∃ e ∈ before, e.stream.needsRetiring env = true ∧
        Cluster.keyIn namespaceName e.stream = Cluster.keyIn namespaceName d.stream
    · -- What the first turn has written came after all that was read for this pass.
      obtain ⟨e, he, heneeds, hkey⟩ := hagain
      obtain ⟨version, hversion, hget⟩ := h.retired e he heneeds
      obtain ⟨n, hn, hread⟩ := hgiven
      rw [hkey] at hget
      have hserve : c'.serve (.replaceImageStream namespaceName (d.stream.retire env)) =
          (.error (.conflict Kind.imageStream.name d.stream.metadata.nameOrEmpty), c'.counted) :=
        Cluster.replace_of_outdated hget hread fun hsame => hversion ⟨n, hn, hsame⟩
      have hsame : e.stream = d.stream := by
        have hread := hstored e he
        rw [hkey, hcurrent] at hread
        exact (Option.some.inj hread).symm
      rw [hserve]
      exact .inr ⟨⟨e, he, hsame⟩, hneeds, rfl, rfl⟩
    · -- The stream is as it was read.
      have hnew (e : Consumed) (he : e ∈ before) (heneeds : e.stream.needsRetiring env = true) :
          Cluster.keyIn namespaceName e.stream ≠ Cluster.keyIn namespaceName d.stream :=
        fun hkey => hagain ⟨e, he, heneeds, hkey⟩
      have hserve : c'.serve (.replaceImageStream namespaceName (d.stream.retire env)) =
          (.ok (), c'.wrote Cluster.imageStreamShelf (Cluster.keyIn namespaceName d.stream)
            (Resource.versioned (d.stream.retire env) (some c'.nextVersion))) :=
        Cluster.replace_of_current ((h.others _ hnew).trans hcurrent) rfl
      rw [hserve]
      exact .inl ⟨rfl, h.write hneeds hnew⟩
  · exact .inl ⟨rfl, h.keep (by simpa using hnone)⟩

/-- **Two turns of one stream.** Nothing but that keeps a pass from going through, where no request
fails for no fault of its own. -/
theorem ensures_each_retireFrom_pass
    (hstored : ∀ d ∈ ds,
      c.imageStreams.get? (Cluster.keyIn namespaceName d.stream) = some d.stream)
    (hgiven : ∀ d ∈ ds, c.HasGiven d.stream.metadata.resourceVersion) :
    (each ds fun d => retireFrom namespaceName env d.stream).Ensures NoFailure c
      (PassEnds namespaceName env ds c) := by
  refine ensures_each (I := fun rest c' => ∃ before, ds = before ++ rest ∧
    Passed namespaceName env before c c') ?_ ?_ ⟨[], rfl, passed_nil namespaceName env c⟩
  · rintro d rest c' ⟨before, hds, hbefore⟩
    have hd : d ∈ ds := by simp [hds]
    have hread (e : Consumed) (he : e ∈ before) := hstored e (by simp [hds, he])
    refine (ensures_retireFrom_turn hread (hstored d hd) (hgiven d hd) hbefore).mono ?_
    rintro r c'' (⟨rfl, hpassed⟩ | ⟨⟨e, he, hsame⟩, hneeds, rfl, rfl⟩)
    · exact ⟨before ++ [d], by simp [hds], hpassed⟩
    · exact .refused before d e rest hds hbefore he hsame hneeds
  · rintro c' ⟨before, hds, hbefore⟩
    rw [List.append_nil] at hds
    exact .passed (hds ▸ hbefore)

/-! ### What a pass leaves -/

section

variable (hstored : ∀ d ∈ ds,
  c.imageStreams.get? (Cluster.keyIn namespaceName d.stream) = some d.stream)

include hstored in
/-- The streams of a pass have been retired, whatever needed to be done for that. -/
theorem Passed.retired_at (h : Passed namespaceName env ds c c') {d : Consumed} (hd : d ∈ ds) :
    ∃ t, c'.imageStreams.get? (Cluster.keyIn namespaceName d.stream) = some t ∧
      t.labels.get? env = none ∧ (IsEntry env → env ∈ t.lastDeletedEnvironments) := by
  cases hneeds : d.stream.needsRetiring env with
  | true =>
      obtain ⟨version, -, hget⟩ := h.retired d hd hneeds
      refine ⟨_, hget, Dict.get?_erase_self .., fun henv => ?_⟩
      have hhistory := ImageStream.lastDeletedEnvironments_retire henv d.stream
      exact hhistory.symm ▸ EnvironmentHistory.mem_record env _
  | false =>
      have hkept := h.others (Cluster.keyIn namespaceName d.stream) fun e he heneeds hkey => by
        have hread := hstored e he
        rw [hkey, hstored d hd] at hread
        cases (Option.some.inj hread ▸ hneeds).symm.trans heneeds
      refine ⟨d.stream, hkept.trans (hstored d hd), ?_, fun henv => ?_⟩
      · exact (ImageStream.needsRetiring_eq_false.1 hneeds).1
      · rw [(ImageStream.retired_of_needsRetiring henv hneeds).2]
        exact EnvironmentHistory.mem_record env _

include hstored in
theorem Passed.retires (h : Passed namespaceName env ds c c') :
    Retires env (KeyOf namespaceName ds) c.imageStreams c'.imageStreams := by
  intro k
  by_cases hk : ∃ d ∈ ds, d.stream.needsRetiring env = true ∧
      Cluster.keyIn namespaceName d.stream = k
  · obtain ⟨d, hd, hneeds, rfl⟩ := hk
    obtain ⟨version, -, hget⟩ := h.retired d hd hneeds
    exact .inr ⟨⟨d, hd, rfl⟩, d.stream, version, hstored d hd, hneeds, hget⟩
  · exact .inl (h.others k fun d hd hneeds hkey => hk ⟨d, hd, hneeds, hkey⟩)

end

theorem pass_ends (hc : c.Reachable) (hcalm : c.failures = [])
    (hds : c.retirement s = .ok (env, ds)) :
    PassEnds s.namespaceName env ds c ((deleteEnvironmentLabels s).run Cluster.client c).1
      ((deleteEnvironmentLabels s).run Cluster.client c).2 := by
  have hstored := hc.coherent.stored_of_retirement hds
  have hgiven (d : Consumed) (hd : d ∈ ds) : c.HasGiven d.stream.metadata.resourceVersion := by
    refine hc.distinct.hasGiven (p := ⟨.imageStreams, Cluster.keyIn s.namespaceName d.stream⟩) ?_
    exact congrArg (Option.map fun a : ImageStream => a.metadata.resourceVersion) (hstored d hd)
  exact (Cluster.run_of_ensures hcalm (ensures_deleteEnvironmentLabels_of_resolved hds
    (ensures_each_retireFrom_pass hstored hgiven))).1

/-- A pass goes through where no stream has two turns. -/
theorem pass_ok_iff (hc : c.Reachable) (hcalm : c.failures = [])
    (hds : c.retirement s = .ok (env, ds)) :
    ((deleteEnvironmentLabels s).run Cluster.client c).1 = .ok () ↔ c.RetiresApart s := by
  have hends := pass_ends hc hcalm hds
  generalize (deleteEnvironmentLabels s).run Cluster.client c = run at hends
  obtain ⟨r, c'⟩ := run
  dsimp only at hends ⊢
  cases hends with
  | passed h =>
      refine iff_of_true rfl fun env' ds' hds' => ?_
      cases hds.symm.trans hds'
      exact h.apart
  | refused before d e after hsplit h he hsame hneeds =>
      refine iff_of_false error_ne_ok fun hapart => ?_
      have hpairs := hapart env ds hds
      rw [hsplit] at hpairs
      exact (List.pairwise_append.1 hpairs).2.2 e he d List.mem_cons_self (hsame ▸ hneeds)
        hsame.symm

/-! ### Pass after pass -/

/-- The cluster after a number of passes in which no request fails for no fault of its own. -/
def passes (s : Stage) : Nat → Cluster → Cluster
  | 0, c => c
  | n + 1, c => passes s n ((deleteEnvironmentLabels s).run Cluster.client c).2

/-- The stream at a key is still to be written. -/
def pends (env : String) (c : Cluster) (k : ObjectKey) : Bool :=
  (c.imageStreams.get? k).any (·.needsRetiring env)

theorem countP_lt_countP {α : Type} {p q : α → Bool} {as : List α}
    (h : ∀ a, q a = true → p a = true) {a : α} (ha : a ∈ as) (hp : p a = true) (hq : q a = false) :
    as.countP q < as.countP p := by
  have hboth : (fun a => q a && p a) = q := funext fun a => by
    cases hqa : q a with
    | true => rw [h a hqa, Bool.and_true]
    | false => rfl
  rw [← hboth, ← List.countP_filter, List.countP_eq_length_filter (p := p)]
  exact List.countP_lt_length_iff.2 ⟨a, List.mem_filter.2 ⟨ha, hp⟩, hq⟩

/-- A pass that is refused has written a stream, and it has left nothing to do that was not to do
before. -/
theorem pends_of_refused (henv : IsEntry env) {before : List Consumed} {e : Consumed}
    (hstored : ∀ d ∈ before,
      c.imageStreams.get? (Cluster.keyIn namespaceName d.stream) = some d.stream)
    (h : Passed namespaceName env before c c') (he : e ∈ before)
    (hneeds : e.stream.needsRetiring env = true) :
    (∀ k, pends env c' k = true → pends env c k = true) ∧
      pends env c (Cluster.keyIn namespaceName e.stream) = true ∧
        pends env c' (Cluster.keyIn namespaceName e.stream) = false := by
  refine ⟨fun k hk => ?_, ?_, ?_⟩
  · rcases h.retires hstored k with hsame | ⟨-, x, version, hx, hxneeds, hget⟩
    · rwa [pends, hsame] at hk
    · rw [pends, hx]
      exact hxneeds
  · rw [pends, hstored e he]
    exact hneeds
  · obtain ⟨version, -, hget⟩ := h.retired e he hneeds
    rw [pends, hget]
    exact ImageStream.needsRetiring_retire henv e.stream

/-- **With each pass that is refused there is less to do**, so that refusals come to an end. -/
theorem exists_passes (henv : IsEntry env) {ks : List ObjectKey} (hc : c.Reachable)
    (hcalm : c.failures = []) (hds : c.retirement s = .ok (env, ds))
    (hks : ∀ k, KeyOf s.namespaceName ds k → k ∈ ks) :
    ∃ n ≤ ks.countP (pends env c),
      ((deleteEnvironmentLabels s).run Cluster.client (passes s n c)).1 = .ok () := by
  -- Induction on how many of the keys are still to be written.
  induction hn : ks.countP (pends env c) using Nat.strong_induction_on generalizing c ds with
  | _ n ih =>
      subst hn
      have hstored := hc.coherent.stored_of_retirement hds
      have hends := pass_ends hc hcalm hds
      have hreachable := hc.run (deleteEnvironmentLabels s)
      have hquiet := (Cluster.run_of_ensures hcalm (ensures_true (deleteEnvironmentLabels s))).2
      rcases hrun : (deleteEnvironmentLabels s).run Cluster.client c with ⟨r, after⟩
      rw [hrun] at hends hreachable hquiet
      cases hends with
      | passed h => exact ⟨0, Nat.zero_le _, congrArg Prod.fst hrun⟩
      | @refused c' before d e after hsplit h he hsame hneeds =>
          have hbefore (x : Consumed) (hx : x ∈ before) : x ∈ ds := by simp [hsplit, hx]
          have hread (x : Consumed) (hx : x ∈ before) := hstored x (hbefore x hx)
          obtain ⟨hless, hpends, hdone⟩ := pends_of_refused henv hread h he (hsame ▸ hneeds)
          have hlt : ks.countP (pends env c'.counted) < ks.countP (pends env c) :=
            countP_lt_countP hless (hks _ ⟨e, hbefore e he, rfl⟩) hpends hdone
          have hpipelines := congrArg Cluster.pipelines h.rest
          have hstages := congrArg Cluster.stages h.rest
          have hretires := h.retires hread
          obtain ⟨ds', hds', hkeys⟩ : ∃ ds', c'.counted.retirement s = .ok (env, ds') ∧
              ∀ k, KeyOf s.namespaceName ds' k ↔ KeyOf s.namespaceName ds k :=
            Stage.retirement_of_retires hpipelines hstages hds hretires
          obtain ⟨n, hn, hok⟩ := ih _ hlt hreachable hquiet hds'
            (fun k hk => hks k ((hkeys k).1 hk)) rfl
          refine ⟨n + 1, Nat.succ_le_of_lt (Nat.lt_of_le_of_lt hn hlt), ?_⟩
          rw [passes, hrun]
          exact hok

/-- **The cleanup of a stage, pass by pass.** A pass that finds all that it looks up, and of which
no request fails, goes through just if no stream that has to be written is consumed for two inputs.
When it goes through, the environment's label is gone from all consumed streams, and their histories
have the environment if that can be an entry of a history at all. A pass that does not go through
was refused at the second turn of a stream that it had written itself. Passes like that come to an
end: one after the other, there are no more of them than inputs. -/
theorem pass_goes_through_iff_apart (hc : c.Reachable) (hcalm : c.failures = [])
    (hds : c.retirement s = .ok (env, ds)) :
    let run := (deleteEnvironmentLabels s).run Cluster.client c
    (run.1 = .ok () ↔ c.RetiresApart s) ∧
    (run.1 = .ok () → ∀ d ∈ ds, ∃ t,
      run.2.imageStreams.get? (Cluster.keyIn s.namespaceName d.stream) = some t ∧
        t.labels.get? env = none ∧ (IsEntry env → env ∈ t.lastDeletedEnvironments)) ∧
    PassEnds s.namespaceName env ds c run.1 run.2 ∧
    (IsEntry env → ∃ n ≤ ds.length,
      ((deleteEnvironmentLabels s).run Cluster.client (passes s n c)).1 = .ok ()) := by
  intro run
  have hends : PassEnds s.namespaceName env ds c run.1 run.2 := pass_ends hc hcalm hds
  refine ⟨pass_ok_iff hc hcalm hds, fun hok d hd => ?_, hends, fun henv => ?_⟩
  · rcases hrun : run with ⟨r, c'⟩
    rw [hrun] at hends hok
    cases hends with
    | passed h => exact h.retired_at (hc.coherent.stored_of_retirement hds) hd
    | refused => cases hok
  · let keys := ds.map fun d => Cluster.keyIn s.namespaceName d.stream
    have hkeys (k : ObjectKey) : KeyOf s.namespaceName ds k → k ∈ keys :=
      fun ⟨d, hd, hk⟩ => List.mem_map.2 ⟨d, hd, hk.symm⟩
    obtain ⟨n, hn, hok⟩ := exists_passes henv hc hcalm hds hkeys
    refine ⟨n, hn.trans ?_, hok⟩
    exact List.countP_le_length.trans_eq (List.length_map _)

open Sample in
/-- With one stream as the input twice, the pass does not go through, and one of the next two
does. -/
theorem pass_goes_through_iff_apart_of_repeated_input :
    let c := (({} : World).run arrangingRepeated).cluster
    let s := stage "dev" 0
    let read : Consumed := ⟨"app", Resource.stored source "edp" (Cluster.versionText 3)⟩
    c.retirement s = .ok ("mobile/dev", [read, read]) ∧ ¬ c.RetiresApart s ∧
      ((deleteEnvironmentLabels s).run Cluster.client c).1 ≠ .ok () ∧
      ∃ n ≤ 2, ((deleteEnvironmentLabels s).run Cluster.client (passes s n c)).1 = .ok () := by
  intro c s read
  have hds : c.retirement s = .ok ("mobile/dev", [read, read]) := by decide +kernel
  have hcalm : c.failures = [] := by decide +kernel
  obtain ⟨hok, -, -, hpasses⟩ := pass_goes_through_iff_apart
    (World.reachable_run arrangingRepeated) hcalm hds
  have hrefused : ((deleteEnvironmentLabels s).run Cluster.client c).1 ≠ .ok () := by
    decide +kernel
  exact ⟨hds, fun hapart => hrefused (hok.2 hapart), hrefused, hpasses ⟨by decide, by decide⟩⟩

open Sample in
/-- All that the cleanup looks up is there, no request fails for no fault of its own, and the
cleanup is refused. -/
theorem second_turn_is_refused :
    let c := (({} : World).run arrangingRepeated).cluster
    let s := stage "dev" 0
    c.failures = [] ∧ (∃ p, c.Supplies s p) ∧
      ((deleteEnvironmentLabels s).run Cluster.client c).1 =
        .error (.downstream "update" Kind.imageStream.name "app-main"
          (.conflict Kind.imageStream.name "app-main")) := by
  intro c s
  have hds : (c.retirement s).isOk = true := by decide +kernel
  refine ⟨by decide +kernel, ?_, by decide +kernel⟩
  cases h : c.retirement s with
  | ok r => exact Cluster.exists_retirement.1 ⟨r, h⟩
  | error e =>
      rw [h] at hds
      cases hds

end Retirement

end Conveyor
