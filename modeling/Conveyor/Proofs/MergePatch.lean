import Conveyor.Proofs.WrittenForms

/-!
Merge patches as a rule. `MergesTo` says what a patch makes of a value by what has to hold of the
outcome, key by key, and says neither how it is come by nor in which order. Values whose keys ascend
have just one outcome, and that is what `mergePatch` computes.

The other laws are read off key by key as well. What becomes of a member is one of three things
(`merged?_cases`), and the third is a patch again, so each law is an induction over the patch in
which nothing but its members counts (`inductOnMembers`).
-/

namespace Conveyor.Json

/-! ### Members of well-formed values -/

/-- What holds of all values that are no objects, and of an object when it holds of its members,
holds of every value. -/
@[elab_as_elim]
theorem inductOnMembers {motive : Json → Prop} (plain : ∀ j, j.isObject = false → motive j)
    (members : ∀ ms, (∀ e ∈ ms, motive e.2) → motive (object ms)) (j : Json) : motive j :=
  match j with
  | object ms => members ms fun e he =>
    have hlt : sizeOf e.2 < sizeOf (object ms) := by
      have hmem : sizeOf e < sizeOf ms := List.sizeOf_lt_of_mem he
      have hpair : sizeOf e = 1 + sizeOf e.1 + sizeOf e.2 := rfl
      rw [object.sizeOf_spec]
      omega
    inductOnMembers plain members e.2
  | null => plain _ rfl
  | bool _ => plain _ rfl
  | number _ => plain _ rfl
  | string _ => plain _ rfl
  | array _ => plain _ rfl
termination_by sizeOf j
decreasing_by exact hlt

theorem wellFormedMembers_iff {ms : List (String × Json)} :
    WellFormedMembers ms ↔ ∀ e ∈ ms, e.2.WellFormed := by
  induction ms with
  | nil => simp [WellFormedMembers]
  | cons e ms ih => rw [WellFormedMembers, ih, List.forall_mem_cons]

variable {target patch : Json} {ps : List (String × Json)} {k : String}

theorem wellFormed_null : null.WellFormed := trivial

theorem wellFormed_empty : (object []).WellFormed := ⟨Entries.ascending_nil, trivial⟩

theorem WellFormed.ascending (h : target.WellFormed) : Entries.Ascending target.members := by
  cases target with
  | object ms => exact h.1
  | _ => exact Entries.ascending_nil

theorem WellFormed.get? (h : target.WellFormed) {v : Json}
    (hv : Entries.get? k target.members = some v) : v.WellFormed := by
  cases target with
  | object ms => exact wellFormedMembers_iff.1 h.2 _ (Entries.mem_of_get? hv)
  | _ => cases hv

theorem WellFormed.getD (h : target.WellFormed) {d : Json} (hd : d.WellFormed) :
    ((Entries.get? k target.members).getD d).WellFormed := by
  cases hv : Entries.get? k target.members with
  | none => exact hd
  | some v => exact h.get? hv

mutual

/-- Values that have been read are well-formed. -/
theorem wellFormed_of_settled : ∀ {j v : Json}, settled? j = some v → v.WellFormed
  | array xs, v, h => by
      rw [settled?] at h
      obtain ⟨ys, hys, rfl⟩ := Option.map_eq_some_iff.1 h
      exact wellFormedElements_of_settled hys
  | object ms, v, h => by
      rw [settled?] at h
      obtain ⟨ns, hns, rfl⟩ := Option.map_eq_some_iff.1 h
      exact ⟨Entries.ascending_ofList ns, wellFormedMembers_iff.2 fun e he =>
        wellFormed_of_mem_settledMembers hns e (Entries.mem_of_mem_ofList he)⟩
  | null, v, h | bool b, v, h | string s, v, h => by
      cases h
      trivial
  | number n, v, h => by
      rw [settled?_number] at h
      split at h <;> cases h
      trivial

theorem wellFormedElements_of_settled :
    ∀ {xs ys : List Json}, settledElements? xs = some ys → WellFormedElements ys
  | [], ys, h => by
      cases h
      trivial
  | x :: xs, ys, h => by
      simp only [settledElements?, Option.bind_eq_bind, Option.bind_eq_some_iff] at h
      obtain ⟨y, hy, zs, hzs, h⟩ := h
      cases h
      exact ⟨wellFormed_of_settled hy, wellFormedElements_of_settled hzs⟩

theorem wellFormed_of_mem_settledMembers : ∀ {ms ns : List (String × Json)},
    settledMembers? ms = some ns → ∀ n ∈ ns, n.2.WellFormed
  | [], ns, h => by
      cases h
      exact fun n hn => absurd hn List.not_mem_nil
  | (k, v) :: ms, ns, h => by
      simp only [settledMembers?, Option.bind_eq_bind, Option.bind_eq_some_iff] at h
      obtain ⟨w, hw, ws, hws, h⟩ := h
      cases h
      exact List.forall_mem_cons.2 ⟨wellFormed_of_settled hw, wellFormed_of_mem_settledMembers hws⟩

end

/-! ### The patch, key by key -/

theorem mergePatch_of_not_isObject (h : patch.isObject = false) (target : Json) :
    mergePatch target patch = patch := by
  cases patch <;> first | rfl | cases h

theorem mergePatch_object (target : Json) (ps : List (String × Json)) :
    mergePatch target (object ps) = object (mergeMembers target.members ps) := by
  rw [mergePatch]

/-- For a patch, nothing is as good as an empty object. -/
theorem mergePatch_getD (o : Option Json) (patch : Json) :
    mergePatch (o.getD (object [])) patch = mergePatch (o.getD null) patch := by
  cases o with
  | some j => rfl
  | none => cases patch <;> rfl

theorem isNull_eq_true : patch.isNull = true ↔ patch = null := by
  cases patch <;> simp [isNull]

theorem merged?_of_ne_null {v : Json} (hv : v ≠ null) (o : Option Json) :
    merged? o (some v) = some (mergePatch (o.getD null) v) :=
  if_neg fun h => hv (isNull_eq_true.1 h)

/-- What can become of a member: the patch does not have it, or has it as null, or is a patch of it
as well. -/
theorem merged?_cases (o p : Option Json) :
    (p = none ∧ merged? o p = o) ∨ (p = some null ∧ merged? o p = none) ∨
      ∃ v, p = some v ∧ v ≠ null ∧ merged? o p = some (mergePatch (o.getD null) v) := by
  cases p with
  | none => exact .inl ⟨rfl, rfl⟩
  | some v =>
      by_cases hv : v = null
      · exact .inr (.inl ⟨congrArg some hv, hv ▸ rfl⟩)
      · exact .inr (.inr ⟨v, rfl, hv, merged?_of_ne_null hv o⟩)

theorem get?_mergePatch_object (ht : target.WellFormed) (hp : (object ps).WellFormed) (k : String) :
    Entries.get? k (mergePatch target (object ps)).members =
      merged? (Entries.get? k target.members) (Entries.get? k ps) := by
  rw [mergePatch_object]
  exact get?_mergeMembers ht.ascending hp.ascending k

/-- Well-formed objects are the same when they have the same members. -/
theorem WellFormed.ext {a b : Json} (ha : a.WellFormed) (hb : b.WellFormed)
    (hobjects : a.isObject = true ∧ b.isObject = true)
    (h : ∀ k, Entries.get? k a.members = Entries.get? k b.members) : a = b := by
  obtain ⟨hao, hbo⟩ := hobjects
  cases a <;> cases hao
  cases b <;> cases hbo
  exact congrArg object (Entries.eq_of_get? ha.1 hb.1 h)

theorem wellFormed_mergePatch (ht : target.WellFormed) (hp : patch.WellFormed) :
    (mergePatch target patch).WellFormed := by
  induction patch using inductOnMembers generalizing target with
  | plain p hplain => rwa [mergePatch_of_not_isObject hplain]
  | members ps ih =>
      have hms := ascending_mergeMembers ps ht.ascending
      rw [mergePatch_object]
      refine ⟨hms, wellFormedMembers_iff.2 fun e he => ?_⟩
      have hhere := get?_mergeMembers ht.ascending hp.1 e.1
      rw [Entries.get?_of_mem hms he] at hhere
      obtain ⟨-, hkept⟩ | ⟨-, hgone⟩ | ⟨v, hv, -, hmerged⟩ :=
        merged?_cases (Entries.get? e.1 target.members) (Entries.get? e.1 ps)
      · exact ht.get? (hhere.trans hkept).symm
      · cases hhere.trans hgone
      · rw [Option.some.inj (hhere.trans hmerged)]
        exact ih _ (Entries.mem_of_get? hv) (ht.getD wellFormed_null) (hp.get? hv)

/-! ### The rule -/

/-- What a patch makes of a value. A patch that is no object takes the place of the value. Of an
object, members that the patch does not have stay as they are, those that it has as null go, and any
other one is what the patch makes of the member, which counts as an empty object if it is not there.
The members of a value that is no object are none. -/
inductive MergesTo : (target patch result : Json) → Prop
  | replaced {target patch : Json} (h : patch.isObject = false) : MergesTo target patch patch
  | merged {target : Json} {patch result : List (String × Json)} (merged : String → Json)
    (kept : ∀ k, Entries.get? k patch = none →
      Entries.get? k result = Entries.get? k target.members)
    (removed : ∀ k, Entries.get? k patch = some null → Entries.get? k result = none)
    (altered : ∀ k v, Entries.get? k patch = some v → v ≠ null →
      Entries.get? k result = some (merged k))
    (follows : ∀ k v, Entries.get? k patch = some v → v ≠ null →
      MergesTo ((Entries.get? k target.members).getD (object [])) v (merged k)) :
    MergesTo target (object patch) (object result)

theorem mergesTo_mergePatch (ht : target.WellFormed) (hp : patch.WellFormed) :
    MergesTo target patch (mergePatch target patch) := by
  induction patch using inductOnMembers generalizing target with
  | plain p hplain =>
      rw [mergePatch_of_not_isObject hplain]
      exact .replaced hplain
  | members ps ih =>
      have hhere := get?_mergeMembers ht.ascending hp.1
      rw [mergePatch_object]
      refine .merged (fun k => mergePatch ((Entries.get? k target.members).getD (object []))
        ((Entries.get? k ps).getD null)) (fun k hk => ?_) (fun k hk => ?_) (fun k v hk hv => ?_)
        fun k v hk hv => ?_
      · rw [hhere, hk, merged?]
      · rw [hhere, hk]
        rfl
      · rw [hhere, hk, merged?_of_ne_null hv, mergePatch_getD]
        rfl
      · rw [hk, Option.getD_some]
        exact ih _ (Entries.mem_of_get? hk) (ht.getD wellFormed_empty) (hp.get? hk)

/-- The rule leaves no choice. -/
theorem MergesTo.eq {result : Json} (ht : target.WellFormed) (hp : patch.WellFormed)
    (hr : result.WellFormed) (h : MergesTo target patch result) :
    result = mergePatch target patch := by
  induction patch using inductOnMembers generalizing target result with
  | plain p hplain =>
      rw [mergePatch_of_not_isObject hplain]
      cases h with
      | replaced => rfl
      | merged => cases hplain
  | members ps ih =>
      cases h with
      | replaced hplain => cases hplain
      | @merged _ _ rs merged kept removed altered follows =>
          refine hr.ext (wellFormed_mergePatch ht hp) ⟨rfl, rfl⟩ fun k => ?_
          rw [get?_mergePatch_object ht hp]
          obtain ⟨hk, hkept⟩ | ⟨hk, hgone⟩ | ⟨v, hk, hv, hmerged⟩ :=
            merged?_cases (Entries.get? k target.members) (Entries.get? k ps)
          · exact (kept k hk).trans hkept.symm
          · exact (removed k hk).trans hgone.symm
          · have hmember : Entries.get? k (object rs).members = some (merged k) := altered k v hk hv
            rw [hmerged, hmember, ih _ (Entries.mem_of_get? hk) (ht.getD wellFormed_empty)
              (hp.get? hk) (hr.get? hmember) (follows k v hk hv), mergePatch_getD]

/-! ### Once more, and in another order -/

theorem mergePatch_again (ht : target.WellFormed) (hp : patch.WellFormed) :
    mergePatch (mergePatch target patch) patch = mergePatch target patch := by
  induction patch using inductOnMembers generalizing target with
  | plain p hplain => rw [mergePatch_of_not_isObject hplain, mergePatch_of_not_isObject hplain]
  | members ps ih =>
      have hm := wellFormed_mergePatch ht hp
      refine (wellFormed_mergePatch hm hp).ext hm ⟨rfl, rfl⟩ fun k => ?_
      rw [get?_mergePatch_object hm hp, get?_mergePatch_object ht hp]
      obtain ⟨hk, hkept⟩ | ⟨hk, hgone⟩ | ⟨v, hk, hv, hmerged⟩ :=
        merged?_cases (Entries.get? k target.members) (Entries.get? k ps)
      · rw [hkept, hk, merged?]
      · rw [hgone, hk]
        rfl
      · rw [hmerged, hk, merged?_of_ne_null hv, Option.getD_some,
          ih _ (Entries.mem_of_get? hk) (ht.getD wellFormed_null) (hp.get? hk)]

/-- Patches that have no key in common do not get into each other's way. -/
theorem mergePatch_comm {qs : List (String × Json)} (ht : target.WellFormed)
    (hp : (object ps).WellFormed) (hq : (object qs).WellFormed)
    (hapart : ∀ k, Entries.get? k ps = none ∨ Entries.get? k qs = none) :
    mergePatch (mergePatch target (object ps)) (object qs) =
      mergePatch (mergePatch target (object qs)) (object ps) := by
  have htp := wellFormed_mergePatch ht hp
  have htq := wellFormed_mergePatch ht hq
  refine (wellFormed_mergePatch htp hq).ext (wellFormed_mergePatch htq hp) ⟨rfl, rfl⟩ fun k => ?_
  rw [get?_mergePatch_object htp hq, get?_mergePatch_object ht hp, get?_mergePatch_object htq hp,
    get?_mergePatch_object ht hq]
  rcases hapart k with hk | hk
  · rw [hk, merged?, merged?]
  · rw [hk, merged?, merged?]

/-! ### Along paths of keys -/

/-- What a value has at the end of a path of keys. Paths lead through objects only. -/
def at? : Json → List String → Option Json
  | j, [] => some j
  | j, k :: path => (Entries.get? k j.members).bind (·.at? path)

/-- Whether a patch says anything of what is at the end of a path. Of itself it does, a patch that
is no object says all there is, and an object is silent about the paths that begin with a key that
it does not have. -/
def mentions : Json → List String → Bool
  | _, [] => true
  | patch, k :: path => !patch.isObject || (Entries.get? k patch.members).any (·.mentions path)

/-- Nothing has no members, so beyond it there is nothing. -/
theorem at?_getD_null {path : List String} (hpath : path ≠ []) (o : Option Json) :
    (o.getD null).at? path = o.bind (·.at? path) := by
  cases o with
  | some j => rfl
  | none =>
      cases path with
      | nil => exact absurd rfl hpath
      | cons k path => rfl

theorem at?_mergePatch_cons (ht : target.WellFormed) (hp : (object ps).WellFormed) (k : String)
    (path : List String) :
    (mergePatch target (object ps)).at? (k :: path) =
      (merged? (Entries.get? k target.members) (Entries.get? k ps)).bind (·.at? path) := by
  rw [at?, get?_mergePatch_object ht hp]

theorem mentions_null (path : List String) : null.mentions path = true := by
  cases path <;> rfl

theorem at?_mergePatch_of_not_mentions {path : List String} (ht : target.WellFormed)
    (hp : patch.WellFormed) (h : patch.mentions path = false) :
    (mergePatch target patch).at? path = target.at? path := by
  induction path generalizing target patch with
  | nil => cases h
  | cons k path ih =>
      cases patch with
      | object ps =>
          replace h : (Entries.get? k ps).any (·.mentions path) = false := h
          rw [at?_mergePatch_cons ht hp, at?]
          obtain ⟨-, hkept⟩ | ⟨hk, -⟩ | ⟨v, hk, -, hmerged⟩ :=
            merged?_cases (Entries.get? k target.members) (Entries.get? k ps)
          · rw [hkept]
          · rw [hk, Option.any_some, mentions_null] at h
            cases h
          · rw [hk, Option.any_some] at h
            have hrest : path ≠ [] := by
              rintro rfl
              cases h
            rw [hmerged, Option.bind_some, ih (ht.getD wellFormed_null) (hp.get? hk) h,
              at?_getD_null hrest]
      | _ => cases h

theorem mergePatch_ne_null (h : patch ≠ null) (target : Json) : mergePatch target patch ≠ null := by
  cases patch with
  | null => exact absurd rfl h
  | _ => exact nofun

theorem at?_mergePatch_eq_null {path : List String} (ht : target.WellFormed)
    (hp : patch.WellFormed) (hpath : path ≠ [])
    (h : (mergePatch target patch).at? path = some null) : target.at? path = some null := by
  induction path generalizing target patch with
  | nil => exact absurd rfl hpath
  | cons k path ih =>
      cases patch with
      | object ps =>
          rw [at?_mergePatch_cons ht hp] at h
          rw [at?]
          obtain ⟨-, hkept⟩ | ⟨-, hgone⟩ | ⟨v, hk, hv, hmerged⟩ :=
            merged?_cases (Entries.get? k target.members) (Entries.get? k ps)
          · rwa [hkept] at h
          · rw [hgone] at h
            cases h
          · rw [hmerged, Option.bind_some] at h
            -- The member itself is not null, so the path goes on.
            have hrest : path ≠ [] := by
              rintro rfl
              exact mergePatch_ne_null hv _ (Option.some.inj h)
            rw [← at?_getD_null hrest]
            exact ih (ht.getD wellFormed_null) (hp.get? hk) hrest h
      | _ => cases h

/-! ### All of it -/

/-- **A patch makes of a value what the rule says**, and nothing else. So to patch once more changes
nothing, no member is null in the outcome that was not null before, what is at the end of a path
that the patch does not mention stays there, and two patches that are objects can be applied in
either order if they have no key in common. All values are taken with ascending keys, as values that
have been read are (`wellFormed_of_settled`), and the outcome has ascending keys again. -/
theorem mergePatch_follows_rule (ht : target.WellFormed) (hp : patch.WellFormed) :
    (mergePatch target patch).WellFormed ∧
    (∀ result : Json, result.WellFormed →
      (MergesTo target patch result ↔ result = mergePatch target patch)) ∧
    mergePatch (mergePatch target patch) patch = mergePatch target patch ∧
    (∀ path, path ≠ [] → (mergePatch target patch).at? path = some null →
      target.at? path = some null) ∧
    (∀ path, patch.mentions path = false →
      (mergePatch target patch).at? path = target.at? path) ∧
    (∀ other : Json, other.WellFormed → patch.isObject = true → other.isObject = true →
      (∀ k, Entries.get? k patch.members = none ∨ Entries.get? k other.members = none) →
      mergePatch (mergePatch target patch) other = mergePatch (mergePatch target other) patch) := by
  refine ⟨wellFormed_mergePatch ht hp, fun result hr => ⟨MergesTo.eq ht hp hr, ?_⟩,
    mergePatch_again ht hp, fun path => at?_mergePatch_eq_null ht hp,
    fun path => at?_mergePatch_of_not_mentions ht hp, fun other ho hpatch hother hapart => ?_⟩
  · rintro rfl
    exact mergesTo_mergePatch ht hp
  · cases patch <;> cases hpatch
    cases other <;> cases hother
    exact mergePatch_comm ht hp ho hapart

/-- An object with an object, a number and a null in it. -/
def Sample.document : Json := object [
  ("a", object [("b", int 1), ("c", array [null])]), ("d", int 5), ("h", object [("i", null)])]

/-- Has nulls where there is a member and where there is no object yet, and an object in the place
of a number. -/
def Sample.change : Json := object [
  ("a", object [("b", null), ("e", object [("f", null)])]), ("d", object [("g", bool true)])]

def Sample.changed : Json := object [
  ("a", object [("c", array [null]), ("e", object [])]), ("d", object [("g", bool true)]),
  ("h", object [("i", null)])]

/-- Has no key in common with the other change. -/
def Sample.aside : Json := object [("h", null), ("j", string "k")]

theorem mergePatch_follows_rule_of_sample :
    MergesTo Sample.document Sample.change Sample.changed ∧
    mergePatch Sample.changed Sample.change = Sample.changed ∧
    (Sample.changed.at? ["h", "i"] = some null ∧ Sample.document.at? ["h", "i"] = some null) ∧
    Sample.changed.at? ["a", "c"] = Sample.document.at? ["a", "c"] ∧
    mergePatch Sample.changed Sample.aside =
      mergePatch (mergePatch Sample.document Sample.aside) Sample.change := by
  have hdocument : Sample.document.WellFormed :=
    wellFormed_of_settled (by decide : Sample.document.settled? = some Sample.document)
  have hchange : Sample.change.WellFormed :=
    wellFormed_of_settled (by decide : Sample.change.settled? = some Sample.change)
  have haside : Sample.aside.WellFormed :=
    wellFormed_of_settled (by decide : Sample.aside.settled? = some Sample.aside)
  have happlied : mergePatch Sample.document Sample.change = Sample.changed := by decide
  have happart (k : String) : Entries.get? k Sample.change.members = none ∨
      Entries.get? k Sample.aside.members = none := by
    simp only [Sample.change, Sample.aside, members, Entries.get?]
    grind
  obtain ⟨hresult, hrule, hagain, hnull, hsilent, horder⟩ :=
    mergePatch_follows_rule hdocument hchange
  rw [happlied] at hresult hrule hagain hnull hsilent horder
  have hthere : Sample.changed.at? ["h", "i"] = some null := by decide
  exact ⟨(hrule _ hresult).2 rfl, hagain, ⟨hthere, hnull _ (List.cons_ne_nil _ _) hthere⟩,
    hsilent _ (by decide), horder _ haside rfl rfl happart⟩

end Conveyor.Json
