import Conveyor.Proofs.FixedPoint

/-!
What is granted in a target namespace. The role and the bindings are made one after the other, each
only if nothing is there under its name. The names differ from one another, whatever the source
namespace is called, so that what is made of one never hides another. So an attempt that is cut
short has made the first of those that were missing, and the next one makes the rest.
-/

namespace Conveyor

open Session Cluster

variable {config : Config} {s : Stage} {F : Error → Prop} {c c' c'' : Cluster}

/-! ### Tables that gain objects -/

/-- The second table has these objects in a namespace besides all that is in the first one, and none
of them was there under its name. -/
structure Objects.Gains {α : Type} [Resource α] (namespaceName : String) (as : List α)
    (os os' : Objects α) : Prop where
  kept : ∀ k a, os.get? k = some a → os'.get? k = some a
  new : ∀ a ∈ as, os.get? (keyIn namespaceName a) = none ∧
    ∃ version, os'.get? (keyIn namespaceName a) = some (Resource.versioned a (some version))
  only : ∀ k a, os'.get? k = some a → os.get? k = some a ∨ ∃ b ∈ as, keyIn namespaceName b = k

namespace Objects.Gains

variable {α : Type} [Resource α] {namespaceName : String} {as bs : List α} {os os' os'' : Objects α}

theorem refl (namespaceName : String) (os : Objects α) : Gains namespaceName [] os os where
  kept _ _ h := h
  new _ h := absurd h List.not_mem_nil
  only _ _ h := .inl h

theorem insert {a : α} (hnone : os.get? (keyIn namespaceName a) = none) (version : String) :
    Gains namespaceName [a] os
      (os.insert (keyIn namespaceName a) (Resource.versioned a (some version))) where
  kept k b hb := by
    refine (Dict.get?_insert_of_ne _ _ fun hk => ?_).trans hb
    cases hnone.symm.trans (hk ▸ hb)
  new b hb := by
    obtain rfl := List.mem_singleton.1 hb
    exact ⟨hnone, version, Dict.get?_insert_self ..⟩
  only k b hb := by
    by_cases hk : k = keyIn namespaceName a
    · exact .inr ⟨a, List.mem_cons_self, hk.symm⟩
    · exact .inl ((Dict.get?_insert_of_ne _ _ hk).symm.trans hb)

theorem append (h : Gains namespaceName as os os') (k : Gains namespaceName bs os' os'') :
    Gains namespaceName (as ++ bs) os os'' where
  kept l a ha := k.kept l a (h.kept l a ha)
  new a ha := by
    rcases List.mem_append.1 ha with ha | ha
    · obtain ⟨hnone, version, hmade⟩ := h.new a ha
      exact ⟨hnone, version, k.kept _ _ hmade⟩
    · obtain ⟨hnone, hmade⟩ := k.new a ha
      refine ⟨Option.eq_none_iff_forall_not_mem.2 fun b hb => ?_, hmade⟩
      cases hnone.symm.trans (h.kept _ _ hb)
  only l a ha := by
    rcases k.only l a ha with ha | ⟨b, hb, rfl⟩
    · rcases h.only l a ha with ha | ⟨b, hb, rfl⟩
      · exact .inl ha
      · exact .inr ⟨b, List.mem_append_left _ hb, rfl⟩
    · exact .inr ⟨b, List.mem_append_right _ hb, rfl⟩

/-- The order in which the objects were made is no matter. -/
theorem congr (h : Gains namespaceName as os os') (hmem : ∀ a, a ∈ bs ↔ a ∈ as) :
    Gains namespaceName bs os os' where
  kept := h.kept
  new a ha := h.new a ((hmem a).1 ha)
  only k a ha := (h.only k a ha).imp_right fun ⟨b, hb, hk⟩ => ⟨b, (hmem b).2 hb, hk⟩

theorem not_contains (h : Gains namespaceName as os os') {k : ObjectKey}
    (hk : (!os'.contains k) = true) : (!os.contains k) = true := by
  rw [Bool.not_eq_true', Dict.contains_eq_false] at hk ⊢
  refine Option.eq_none_iff_forall_not_mem.2 fun a ha => ?_
  cases hk.symm.trans (h.kept k a ha)

/-- A name that none of the objects has is taken if it was taken before. -/
theorem contains_eq (h : Gains namespaceName as os os') {k : ObjectKey}
    (hk : ∀ a ∈ as, keyIn namespaceName a ≠ k) : os'.contains k = os.contains k := by
  cases hos : os.get? k with
  | some a => rw [Dict.contains, Dict.contains, hos, h.kept k a hos]
  | none =>
      refine Eq.trans (Dict.contains_eq_false.2 ?_) (Dict.contains_eq_false.2 hos).symm
      refine Option.eq_none_iff_forall_not_mem.2 fun a ha => ?_
      rcases h.only k a ha with ha | ⟨b, hb, hbk⟩
      · cases hos.symm.trans ha
      · exact hk b hb hbk

end Objects.Gains

namespace Access

/-! ### What a stage grants -/

/-- One of the objects that give access. -/
inductive Grant where
  | role (r : Role)
  | binding (b : RoleBinding)

namespace Grant

def role? : Grant → Option Role
  | role r => some r
  | binding _ => none

def binding? : Grant → Option RoleBinding
  | role _ => none
  | binding b => some b

def ensure : Grant → Session Unit
  | role r => ensureRole r
  | binding b => ensureBinding b

def metadata : Grant → Metadata
  | role r => r.metadata
  | binding b => b.metadata

/-- What tells the objects of a namespace apart. -/
def label : Grant → Kind × String
  | role r => (Kind.role, r.metadata.nameOrEmpty)
  | binding b => (Kind.roleBinding, b.metadata.nameOrEmpty)

/-- Nothing is there under the name of the object. -/
def isMissing (namespaceName : String) (c : Cluster) : Grant → Bool
  | role r => !c.roles.contains (keyIn namespaceName r)
  | binding b => !c.roleBindings.contains (keyIn namespaceName b)

theorem isMissing_role {namespaceName : String} {r : Role} :
    (role r).isMissing namespaceName c = false ↔
      c.roles.contains (keyIn namespaceName r) = true := by
  simp [isMissing]

theorem isMissing_binding {namespaceName : String} {b : RoleBinding} :
    (binding b).isMissing namespaceName c = false ↔
      c.roleBindings.contains (keyIn namespaceName b) = true := by
  simp [isMissing]

end Grant

/-- All that a stage grants, in the order of creation. -/
def grants (config : Config) (s : Stage) : List Grant :=
  .role (deploymentsRole s.targetNamespace) ::
    (bindings s.namespaceName s.targetNamespace config).map .binding

/-- What a stage grants and is not there. -/
def missing (config : Config) (s : Stage) (c : Cluster) : List Grant :=
  (grants config s).filter (·.isMissing s.targetNamespace c)

theorem configure_eq (config : Config) (s : Stage) :
    configure config s = each (grants config s) Grant.ensure := by
  rw [grants, each_cons, each_map]
  rfl

theorem nodup_grants (config : Config) (s : Stage) : ((grants config s).map Grant.label).Nodup := by
  have hbindings := (nodup_bindings s.namespaceName s.targetNamespace config).map
    (f := (Kind.roleBinding, ·)) fun _ _ h => congrArg Prod.snd h
  rw [grants, List.map_cons, List.map_map]
  rw [List.map_map] at hbindings
  refine List.nodup_cons.2 ⟨fun hmem => ?_, hbindings⟩
  obtain ⟨b, -, hlabel⟩ := List.mem_map.1 hmem
  exact absurd (congrArg Prod.fst hlabel) (show Kind.roleBinding ≠ Kind.role by decide)

theorem metadata_of_mem_grants {g : Grant} (hg : g ∈ grants config s) :
    ∃ name, g.metadata = metadata name s.targetNamespace := by
  rcases List.mem_cons.1 hg with rfl | hg
  · exact ⟨viewDeploymentsRole, rfl⟩
  · obtain ⟨b, hb, rfl⟩ := List.mem_map.1 hg
    exact metadata_of_mem_bindings hb

/-- The objects have been made in a namespace, and nothing else has happened. -/
structure Granted (namespaceName : String) (made : List Grant) (c c' : Cluster) : Prop where
  roles : Objects.Gains namespaceName (made.filterMap Grant.role?) c.roles c'.roles
  bindings :
    Objects.Gains namespaceName (made.filterMap Grant.binding?) c.roleBindings c'.roleBindings
  rest : { c' with
    roles := c.roles
    roleBindings := c.roleBindings
    revision := c.revision } = c

namespace Granted

variable {namespaceName : String} {made later : List Grant}

theorem refl (namespaceName : String) (c : Cluster) : Granted namespaceName [] c c :=
  ⟨.refl _ _, .refl _ _, rfl⟩

theorem append (h : Granted namespaceName made c c') (k : Granted namespaceName later c' c'') :
    Granted namespaceName (made ++ later) c c'' where
  roles := by
    rw [List.filterMap_append]
    exact h.roles.append k.roles
  bindings := by
    rw [List.filterMap_append]
    exact h.bindings.append k.bindings
  rest := by
    have hh := h.rest
    rw [← k.rest] at hh
    exact hh

theorem congr (h : Granted namespaceName made c c') (hmem : ∀ g, g ∈ later ↔ g ∈ made) :
    Granted namespaceName later c c' where
  roles := h.roles.congr fun a => by simp only [List.mem_filterMap, hmem]
  bindings := h.bindings.congr fun a => by simp only [List.mem_filterMap, hmem]
  rest := h.rest

/-- Whether an object is missing is not up to others. -/
theorem isMissing_eq (h : Granted namespaceName made c c') {g : Grant}
    (hg : ∀ a ∈ made, a.label ≠ g.label) :
    g.isMissing namespaceName c' = g.isMissing namespaceName c := by
  cases g with
  | role r =>
      refine congrArg (!·) (h.roles.contains_eq fun a ha hkey => ?_)
      obtain ⟨g, hmem, hrole⟩ := List.mem_filterMap.1 ha
      cases g with
      | role r' =>
          cases hrole
          exact hg _ hmem (congrArg (Kind.role, ·) (congrArg ObjectKey.name hkey))
      | binding b => cases hrole
  | binding b =>
      refine congrArg (!·) (h.bindings.contains_eq fun a ha hkey => ?_)
      obtain ⟨g, hmem, hbinding⟩ := List.mem_filterMap.1 ha
      cases g with
      | role r => cases hbinding
      | binding b' =>
          cases hbinding
          exact hg _ hmem (congrArg (Kind.roleBinding, ·) (congrArg ObjectKey.name hkey))

/-- What was made was missing before and is not missing after. -/
theorem isMissing_of_mem (h : Granted namespaceName made c c') {g : Grant} (hg : g ∈ made) :
    g.isMissing namespaceName c = true ∧ g.isMissing namespaceName c' = false := by
  cases g with
  | role r =>
      obtain ⟨hnone, version, hthere⟩ := h.roles.new r (List.mem_filterMap.2 ⟨_, hg, rfl⟩)
      simp [Grant.isMissing, Dict.contains, hnone, hthere]
  | binding b =>
      obtain ⟨hnone, version, hthere⟩ := h.bindings.new b (List.mem_filterMap.2 ⟨_, hg, rfl⟩)
      simp [Grant.isMissing, Dict.contains, hnone, hthere]

/-- What is missing after was missing before. -/
theorem isMissing_of_isMissing (h : Granted namespaceName made c c') {g : Grant}
    (hg : g.isMissing namespaceName c' = true) : g.isMissing namespaceName c = true := by
  cases g with
  | role r => exact h.roles.not_contains hg
  | binding b => exact h.bindings.not_contains hg

end Granted

/-! ### One grant -/

/-- What an object that is to be there makes of its table. -/
theorem Supplying.gains {α : Type} [Resource α] {shelf : Cluster.Shelf α} {desired : α}
    {name target : String} {r : Except Error Unit}
    (hdesired : Resource.metadata desired = metadata name target)
    (h : Supplying shelf F (keyIn target desired) desired c r c') :
    (∃ e f, r = .error e ∧ F f ∧ c' = c) ∨ r = .ok () ∧
      ((!(shelf.get c).contains (keyIn target desired)) = false ∧ c' = c ∨
        (!(shelf.get c).contains (keyIn target desired)) = true ∧
          ∃ os, Objects.Gains target [desired] (shelf.get c) os ∧ c' = shelf.set c.counted os) := by
  cases h with
  | unknown he => exact .inl ⟨_, _, rfl, he, rfl⟩
  | unmade _ he => exact .inl ⟨_, _, rfl, he, rfl⟩
  | there ha => exact .inr ⟨rfl, .inl ⟨by rw [Dict.contains, ha]; rfl, rfl⟩⟩
  | made hnone =>
      -- The desired object bears its namespace already.
      have hstored : Resource.stored desired target c.nextVersion =
          Resource.versioned desired (some c.nextVersion) := by
        simp only [Resource.stored, Resource.versioned, hdesired, metadata]
      refine .inr ⟨rfl, .inr ⟨?_, _, .insert hnone c.nextVersion, ?_⟩⟩
      · rw [Dict.contains, hnone]
        rfl
      · rw [← hstored]
        rfl

theorem Grant.ensures_ensure {g : Grant} (hg : g ∈ grants config s) :
    g.ensure.Ensures F c fun r c' =>
      (∃ e f, r = .error e ∧ F f ∧ c' = c) ∨ r = .ok () ∧
        (g.isMissing s.targetNamespace c = false ∧ c' = c ∨
          g.isMissing s.targetNamespace c = true ∧ Granted s.targetNamespace [g] c c') := by
  obtain ⟨name, hmetadata⟩ := metadata_of_mem_grants hg
  cases g with
  | role r =>
      have hmetadata : r.metadata = Access.metadata name s.targetNamespace := hmetadata
      refine (ensures_ensureRole_supplying hmetadata).mono fun result c' h => ?_
      refine (h.gains hmetadata).imp_right (.imp_right (.imp_right (.imp_right ?_)))
      rintro ⟨os, hgains, rfl⟩
      exact ⟨hgains, .refl _ _, rfl⟩
  | binding b =>
      have hmetadata : b.metadata = Access.metadata name s.targetNamespace := hmetadata
      refine (ensures_ensureBinding_supplying hmetadata).mono fun result c' h => ?_
      refine (h.gains hmetadata).imp_right (.imp_right (.imp_right (.imp_right ?_)))
      rintro ⟨os, hgains, rfl⟩
      exact ⟨.refl _ _, hgains, rfl⟩

/-! ### All of them -/

/-- **Access is granted in order.** However far it gets, the first of the objects that were missing
are made, and all of them unless something fails. -/
theorem ensures_configure_granted (config : Config) (s : Stage) (c : Cluster) :
    (configure config s).Ensures F c fun r c' =>
      ∃ made, made <+: missing config s c ∧ Granted s.targetNamespace made c c' ∧
        (r = .ok () ∧ made = missing config s c ∨ ∃ e f, r = .error e ∧ F f) := by
  let miss (g : Grant) : Bool := g.isMissing s.targetNamespace c
  rw [configure_eq]
  -- What is done is all that was missing of it; the labels tell it from what comes next.
  refine ensures_each (I := fun rest c' => ∃ done, grants config s = done ++ rest ∧
    Granted s.targetNamespace (done.filter miss) c c') ?_ ?_ ⟨[], rfl, .refl _ c⟩
  · rintro g rest c' ⟨done, hgrants, hdone⟩
    have hg : g ∈ grants config s := by simp [hgrants]
    have hothers (a : Grant) (ha : a ∈ done) : a.label ≠ g.label := by
      have hnodup := nodup_grants config s
      rw [hgrants, List.map_append, List.map_cons] at hnodup
      exact (List.nodup_append.1 hnodup).2.2 _ (List.mem_map_of_mem ha) _ List.mem_cons_self
    have hsame := hdone.isMissing_eq fun a ha => hothers a (List.mem_filter.1 ha).1
    refine (g.ensures_ensure hg).mono ?_
    rintro r c'' (⟨e, f, rfl, hf, rfl⟩ | ⟨rfl, ⟨hthere, rfl⟩ | ⟨hmissing, hgranted⟩⟩)
    · refine ⟨_, ?_, hdone, .inr ⟨e, f, rfl, hf⟩⟩
      rw [missing, hgrants, List.filter_append]
      exact List.prefix_append _ _
    · refine ⟨done ++ [g], by simp [hgrants], ?_⟩
      have hmiss : miss g = false := hsame.symm.trans hthere
      simpa [List.filter_append, hmiss] using hdone
    · refine ⟨done ++ [g], by simp [hgrants], ?_⟩
      have hmiss : miss g = true := hsame.symm.trans hmissing
      simpa [List.filter_append, hmiss] using hdone.append hgranted
  · rintro c' ⟨done, hgrants, hdone⟩
    rw [List.append_nil] at hgrants
    rw [← hgrants] at hdone
    exact ⟨_, List.prefix_refl _, hdone, .inl ⟨rfl, rfl⟩⟩

/-- What was missing is made now or missing still. -/
theorem mem_missing_iff {made : List Grant} (hmade : made <+: missing config s c)
    (h : Granted s.targetNamespace made c c') (g : Grant) :
    g ∈ missing config s c ↔ g ∈ made ++ missing config s c' := by
  rw [List.mem_append]
  constructor
  · intro hg
    by_cases hmem : g ∈ made
    · exact .inl hmem
    · obtain ⟨hgrants, hmissing⟩ := List.mem_filter.1 hg
      refine .inr (List.mem_filter.2 ⟨hgrants, ?_⟩)
      rw [h.isMissing_eq fun a ha hlabel => ?_]
      · exact hmissing
      · have hsame := List.inj_on_of_nodup_map (nodup_grants config s)
          (List.mem_filter.1 (hmade.subset ha)).1 hgrants hlabel
        exact hmem (hsame ▸ ha)
  · rintro (hg | hg)
    · exact hmade.subset hg
    · obtain ⟨hgrants, hmissing⟩ := List.mem_filter.1 hg
      exact List.mem_filter.2 ⟨hgrants, h.isMissing_of_isMissing hmissing⟩

/-- Where nothing is missing, nothing is made. -/
theorem takes_configure_of_missing (hc : c.failures = []) (h : missing config s c = []) :
    (configure config s).Takes c [] (.ok ()) c := by
  have hthere (g : Grant) (hg : g ∈ grants config s) :
      g.isMissing s.targetNamespace c = false :=
    Bool.eq_false_iff.2 (List.filter_eq_nil_iff.1 h g hg)
  refine takes_configure hc (Grant.isMissing_role.1 (hthere _ List.mem_cons_self)) fun b hb => ?_
  have hmem := List.mem_map_of_mem (f := Grant.binding) hb
  exact Grant.isMissing_binding.1 (hthere _ (List.mem_cons_of_mem _ hmem))

/-- The role comes first, so that nothing is ever bound to it before it is there. -/
theorem contains_role {made : List Grant} (hmade : made <+: missing config s c)
    (h : Granted s.targetNamespace made c c') (hsome : made ≠ []) :
    c'.roles.contains ⟨s.targetNamespace, viewDeploymentsRole⟩ = true := by
  let role := Grant.role (deploymentsRole s.targetNamespace)
  refine (Grant.isMissing_role (r := deploymentsRole s.targetNamespace)).1
    (Bool.eq_false_iff.2 fun hmissing => ?_)
  have hbefore : role.isMissing s.targetNamespace c = true := h.isMissing_of_isMissing hmissing
  have hfirst : missing config s c = role ::
      ((bindings s.namespaceName s.targetNamespace config).map Grant.binding).filter
        (·.isMissing s.targetNamespace c) := List.filter_cons_of_pos hbefore
  rw [hfirst] at hmade
  cases made with
  | nil => exact hsome rfl
  | cons g made =>
      obtain rfl : g = role := (List.cons_prefix_cons.1 hmade).1
      exact Bool.eq_false_iff.1 (h.isMissing_of_mem List.mem_cons_self).2 hmissing

/-- **Access is only ever completed.** The role and the bindings that were there stay as they are.
Of those that a stage grants and that are not there, an attempt makes the first, in the order of
creation, and all of them when it succeeds, which nothing but a pending failure keeps it from. No
binding is made where the role is not there. Another attempt without failures makes the rest, and
after success it writes nothing. -/
theorem configure_completes (config : Config) (s : Stage) (o : ObservedCluster) :
    let c := o.cluster.calm
    let run := (configure config s).run ObservedCluster.client o
    let c' := run.2.cluster.calm
    ∃ made, made <+: missing config s c ∧ Granted s.targetNamespace made c c' ∧
      (run.1 = .ok () ∧ made = missing config s c ∨ ∃ e f, run.1 = .error e ∧ o.Pending f) ∧
      (∀ b, Grant.binding b ∈ made →
        c'.roles.contains ⟨s.targetNamespace, viewDeploymentsRole⟩ = true) ∧
      (∃ c'', (configure config s).run Cluster.client c' = (.ok (), c'') ∧
        Granted s.targetNamespace (missing config s c) c c'') ∧
      (run.1 = .ok () → (configure config s).Takes c' [] (.ok ()) c') := by
  intro c run c'
  obtain ⟨made, hprefix, hgranted, hend⟩ := ObservedCluster.run_of_ensures o.failsWith_pending
    (ensures_configure_granted config s c)
  have hmem := mem_missing_iff hprefix hgranted
  refine ⟨made, hprefix, hgranted, hend, fun b hb => ?_, ?_, fun hok => ?_⟩
  · exact contains_role hprefix hgranted (List.ne_nil_of_mem hb)
  · obtain ⟨⟨rest, -, hrest, hagain⟩, -⟩ := Cluster.run_of_ensures (c := c') rfl
      (ensures_configure_granted config s c')
    obtain ⟨hok, rfl⟩ := hagain.resolve_right fun ⟨_, _, _, hno⟩ => hno
    exact ⟨_, Prod.ext hok rfl, (hgranted.append hrest).congr hmem⟩
  · have hall : made = missing config s c := by
      rcases hend with ⟨-, hall⟩ | ⟨e, f, he, -⟩
      · exact hall
      · exact absurd (he.symm.trans hok) error_ne_ok
    refine takes_configure_of_missing rfl (List.eq_nil_iff_forall_not_mem.2 fun g hg => ?_)
    have hmade : g ∈ made := hall ▸ (hmem g).2 (List.mem_append_right _ hg)
    exact Bool.eq_false_iff.1 (hgranted.isMissing_of_mem hmade).2 (List.mem_filter.1 hg).2

end Access

end Conveyor
