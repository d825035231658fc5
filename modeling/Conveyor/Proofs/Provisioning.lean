import Conveyor.Proofs.Course

/-!
What the parts of a reconcile make of a cluster. Each part is described by its `Effect`: it stays on
the way that the whole reconcile is on, it succeeds where it finds what it needs and fails where it
does not, and after success the contents have changed by the alteration that the part is for.
Requests may fail for no fault of their own at any point; then only the first of the three is
claimed.
-/

namespace Conveyor

open Session Cluster
open Promotion (Consumed)

variable {config : Config} {s : Stage} {F : Error → Prop} {c c' : Cluster} {S : Prop}
  {α π ρ : Type} {A : π → Prop} {f : π → Contents → Contents}

/-- How a part of the reconcile of `s` leaves the cluster `c'` when it starts from `c`. The part
needs to find some `x` with `A x`, and then it alters the contents by `f x`. That it stays on the
way may depend on `S`. -/
structure Effect (F : Error → Prop) (config : Config) (s : Stage) (S : Prop) (A : π → Prop)
    (f : π → Contents → Contents) (c : Cluster) (r : Except Error α) (c' : Cluster) : Prop where
  kept : Kept config s c c'
  underWay : S → UnderWay config s c c'
  success : ∀ a, r = .ok a → (∃ e, F e) ∨ ∃ x, A x ∧ c'.contents = f x c.contents
  failure : ∀ e, r = .error e → (∃ e, F e) ∨ ∀ x, ¬ A x

namespace Effect

theorem reached {a : α} (hkept : Kept config s c c') (hway : S → UnderWay config s c c') {x : π}
    (hx : A x) (h : c'.contents = f x c.contents) : Effect F config s S A f c (.ok a) c' where
  kept := hkept
  underWay := hway
  success _ _ := .inr ⟨x, hx, h⟩
  failure _ he := absurd he.symm error_ne_ok

theorem done {a : α} (hway : UnderWay config s c c') {x : π} (hx : A x)
    (h : c'.contents = f x c.contents) : Effect F config s S A f c (.ok a) c' :=
  reached hway.toKept (fun _ => hway) hx h

theorem stopped {e : Error} (hway : UnderWay config s c c') (h : (∃ e, F e) ∨ ∀ x, ¬ A x) :
    Effect F config s S A f c (.error e : Except Error α) c' where
  kept := hway.toKept
  underWay _ := hway
  success _ ha := absurd ha error_ne_ok
  failure _ _ := h

/-- A request has failed for no fault of its own, and the part has ended in whatever way. -/
theorem fault {e : Error} (he : F e) (hway : UnderWay config s c c') (r : Except Error α) :
    Effect F config s S A f c r c' where
  kept := hway.toKept
  underWay _ := hway
  success _ _ := .inl ⟨e, he⟩
  failure _ _ := .inl ⟨e, he⟩

/-- What a part needs and does may be told in other words. -/
theorem reindex {B : ρ → Prop} {g : ρ → Contents → Contents} {r : Except Error α}
    (h : Effect F config s S A f c r c')
    (there : ∀ x, A x → ∃ y, B y ∧ f x c.contents = g y c.contents) (back : ∀ y, B y → ∃ x, A x) :
    Effect F config s S B g c r c' where
  kept := h.kept
  underWay := h.underWay
  success a ha := (h.success a ha).imp_right fun ⟨x, hx, hcontents⟩ => by
    obtain ⟨y, hy, hxy⟩ := there x hx
    exact ⟨y, hy, hcontents.trans hxy⟩
  failure e he := (h.failure e he).imp_right fun hno y hy => by
    obtain ⟨x, hx⟩ := back y hy
    exact hno x hx

end Effect

/-- One part after another. What the second one needs is not up to the first. -/
theorem ensures_bind_effect {p : Session α} {q : Session Unit}
    {B : Cluster → ρ → Prop} {g : ρ → Contents → Contents} (hc : c.Coherent)
    (hp : p.Ensures F c (Effect F config s True A f c))
    (hq : ∀ c', c'.Coherent → UnderWay config s c c' →
      q.Ensures F c' (Effect F config s S (B c') g c'))
    (hB : ∀ c', UnderWay config s c c' → ∀ y, B c' y ↔ B c y) :
    (p >>= fun _ => q).Ensures F c
      (Effect F config s S (fun x : π × ρ => A x.1 ∧ B c x.2) (fun x d => g x.2 (f x.1 d)) c) := by
  refine (hp.and (hc.ensures p)).bind ?_ ?_
  -- The second part speaks of the cluster it starts from, and `hB` brings that back to `c`.
  · rintro a c' ⟨hpart, hc'⟩
    have hway := hpart.underWay trivial
    refine (hq c' hc' hway).mono fun r c'' hrest => ?_
    refine ⟨hway.toKept.trans hrest.kept, fun hS => hway.trans (hrest.underWay hS), ?_, ?_⟩
    · intro b hb
      rcases hpart.success a rfl with hfault | ⟨x, hx, hcontents⟩
      · exact .inl hfault
      rcases hrest.success b hb with hfault | ⟨y, hy, hcontents'⟩
      · exact .inl hfault
      exact .inr ⟨(x, y), ⟨hx, (hB c' hway y).1 hy⟩, by rw [hcontents', hcontents]⟩
    · intro e he
      exact (hrest.failure e he).imp_right fun hno x hx => hno x.2 ((hB c' hway x.2).2 hx.2)
  · rintro e c' ⟨hpart, -⟩
    refine .stopped (hpart.underWay trivial) ?_
    exact (hpart.failure e rfl).imp_right fun hno x hx => hno x.1 hx.1

/-- The same work for one item after the other. -/
theorem ensures_each_effect {ι : Type} {p : ι → Session Unit} {g : ι → Contents → Contents}
    {is : List ι} (hc : c.Coherent)
    (h : ∀ i ∈ is, ∀ c', c'.Coherent → Kept config s c c' → (S → UnderWay config s c c') →
      (p i).Ensures F c' (Effect F config s S (fun _ : Unit => True) (fun _ => g i) c')) :
    (each is p).Ensures F c (Effect F config s S (fun _ : Unit => True)
      (fun _ d => is.foldl (fun d i => g i d) d) c) := by
  -- What the rest would make of the contents now is what all would have made of them at the start.
  let total (js : List ι) (d : Contents) : Contents := js.foldl (fun d i => g i d) d
  refine ensures_each
    (I := fun js c' => (∀ i ∈ js, i ∈ is) ∧ c'.Coherent ∧ Kept config s c c' ∧
      (S → UnderWay config s c c') ∧
      ((∃ e, F e) ∨ total js c'.contents = total is c.contents))
    ?_ ?_ ⟨fun _ hi => hi, hc, .refl config s c, fun _ => .refl config s c, .inr rfl⟩
  · rintro i js c' ⟨hjs, hc', hkept, hway, hcontents⟩
    obtain ⟨hi, hjs⟩ := List.forall_mem_cons.1 hjs
    refine ((h i hi c' hc' hkept hway).and (hc'.ensures _)).mono ?_
    rintro r c'' ⟨hpart, hc''⟩
    have hkept' := hkept.trans hpart.kept
    have hway' (hS : S) := (hway hS).trans (hpart.underWay hS)
    cases r with
    | ok a =>
        refine ⟨hjs, hc'', hkept', hway', ?_⟩
        rcases hpart.success a rfl with hfault | ⟨-, -, hstep⟩
        · exact .inl hfault
        · exact hcontents.imp_right fun htotal => by
            rw [← htotal, hstep]
            rfl
    | error e =>
        refine ⟨hkept', hway', fun a ha => absurd ha error_ne_ok, fun _ _ => ?_⟩
        exact hpart.failure e rfl
  · rintro c' ⟨-, -, hkept, hway, hcontents⟩
    refine ⟨hkept, hway, fun _ _ => ?_, fun e he => absurd he.symm error_ne_ok⟩
    exact hcontents.imp_right fun htotal => ⟨(), trivial, htotal⟩

/-- A write that the cluster accepts. -/
theorem ensures_write_effect {action kind name : String} {r : Request} {a : r.Response} {x : π}
    (hserve : c.serve r = (.ok a, c')) (hkept : Kept config s c c')
    (hway : S → UnderWay config s c c') (hx : A x) (h : c'.contents = f x c.contents) :
    (requestFor action kind name r).Ensures F c (Effect F config s S A f c) :=
  (ensures_requestFor_of_served hserve).2
    ⟨fun _ he => .fault he (.refl config s c) _, .reached hkept hway hx h⟩

/-- The cluster after the write of an object. -/
def Cluster.wrote {ω : Type} (shelf : Shelf ω) (key : ObjectKey) (a : ω) (c : Cluster) : Cluster :=
  shelf.set c.counted ((shelf.get c).insert key a)

/-! ### Access -/

namespace Access

/-- All ways in which the making of an object ends that stays as it is where it is there already.
Failures may be any of `F`. -/
inductive Supplying {ω : Type} [Resource ω] (shelf : Cluster.Shelf ω) (F : Error → Prop)
    (key : ObjectKey) (desired : ω) (c : Cluster) : Except Error Unit → Cluster → Prop
  | unknown {e : Error} (he : F e) : Supplying shelf F key desired c (.error e) c
  | there {a : ω} (ha : (shelf.get c).get? key = some a) :
      Supplying shelf F key desired c (.ok ()) c
  | unmade {e : Error} (hnone : (shelf.get c).get? key = none) (he : F e) :
      Supplying shelf F key desired c
        (.error (.downstream "create" (Resource.kind ω).name key.name e)) c
  | made (hnone : (shelf.get c).get? key = none) :
      Supplying shelf F key desired c (.ok ())
        (c.wrote shelf key (Resource.stored desired key.namespaceName c.nextVersion))

theorem ensures_ensureRole_supplying {role : Role} {name target : String}
    (hrole : role.metadata = metadata name target) :
    (ensureRole role).Ensures F c (Supplying roleShelf F (keyIn target role) role c) := by
  have hkey : keyIn target role = ⟨target, name⟩ := by
    simp only [keyIn, Resource.metadata, hrole]
    rfl
  unfold ensureRole
  rw [hrole, hkey]
  refine ensures_request_bind.2 ⟨fun e he => .unknown he,
    ensures_ite (fun hsome => ?_) fun hnone => ?_⟩
  · obtain ⟨r, hr⟩ := Option.isSome_iff_exists.1 hsome
    exact .there hr
  · have h : c.roles.get? ⟨target, name⟩ = none := Option.not_isSome_iff_eq_none.1 hnone
    have hserve : c.serve (.createRole target role) =
        (.ok (), c.wrote roleShelf ⟨target, name⟩ (Resource.stored role target c.nextVersion)) := by
      rw [← hkey] at h ⊢
      exact create_of_absent h
    exact (ensures_requestFor_of_served hserve).2 ⟨fun e he => .unmade h he, .made h⟩

theorem ensures_ensureBinding_supplying {b : RoleBinding} {name target : String}
    (hb : b.metadata = metadata name target) :
    (ensureBinding b).Ensures F c (Supplying roleBindingShelf F (keyIn target b) b c) := by
  have hkey : keyIn target b = ⟨target, name⟩ := by
    simp only [keyIn, Resource.metadata, hb]
    rfl
  unfold ensureBinding
  rw [hb, hkey]
  refine ensures_request_bind.2 ⟨fun e he => .unknown he,
    ensures_ite (fun hsome => ?_) fun hnone => ?_⟩
  · obtain ⟨r, hr⟩ := Option.isSome_iff_exists.1 hsome
    exact .there hr
  · have h : c.roleBindings.get? ⟨target, name⟩ = none := Option.not_isSome_iff_eq_none.1 hnone
    have hserve : c.serve (.createRoleBinding target b) =
        (.ok (),
          c.wrote roleBindingShelf ⟨target, name⟩ (Resource.stored b target c.nextVersion)) := by
      rw [← hkey] at h ⊢
      exact create_of_absent h
    exact (ensures_requestFor_of_served hserve).2 ⟨fun e he => .unmade h he, .made h⟩

theorem ensures_ensureRole :
    (ensureRole (deploymentsRole s.targetNamespace)).Ensures F c
      (Effect F config s S (fun _ : Unit => True) (fun _ d => d.withRole s) c) := by
  have hway := UnderWay.refl config s c
  refine (ensures_ensureRole_supplying rfl).mono fun r c' h => ?_
  cases h with
  | unknown he => exact .fault he hway _
  | unmade _ he => exact .fault he hway _
  | there h =>
      exact .done hway (x := ()) trivial
        (congrArg (fun t => { c.contents with roles := t }) (Objects.seen_kept h rfl).symm)
  | made h =>
      let stored := Resource.stored (deploymentsRole s.targetNamespace) s.targetNamespace
        c.nextVersion
      let key : ObjectKey := ⟨s.targetNamespace, viewDeploymentsRole⟩
      have hcontents : (c.wrote roleShelf key stored).contents = c.contents.withRole s :=
        congrArg (fun t => { c.contents with roles := t }) (Objects.seen_created h rfl _)
      refine .reached (.of_stages rfl rfl rfl fun _ => rfl) (fun _ => ?_) (x := ())
        trivial hcontents
      refine .of_stages rfl rfl rfl rfl (fun _ => rfl) fun p _ => ?_
      exact (congrArg (Contents.aim config s p) hcontents).trans Contents.aim_withRole

theorem metadata_of_mem_bindings {source target : String} {b : RoleBinding}
    (hb : b ∈ bindings source target config) : ∃ name, b.metadata = metadata name target := by
  unfold bindings at hb
  cases hk : config.isKubernetes <;>
    simp only [hk, if_true, Bool.false_eq_true, if_false, List.cons_append, List.nil_append,
      List.mem_cons, List.not_mem_nil, or_false] at hb
  all_goals rcases hb with rfl | rfl | rfl <;> exact ⟨_, rfl⟩

theorem ensures_ensureBinding {b : RoleBinding}
    (hb : b ∈ bindings s.namespaceName s.targetNamespace config) :
    (ensureBinding b).Ensures F c
      (Effect F config s S (fun _ : Unit => True) (fun _ d => d.withBinding s b) c) := by
  obtain ⟨name, hmetadata⟩ := metadata_of_mem_bindings hb
  have hway := UnderWay.refl config s c
  refine (ensures_ensureBinding_supplying hmetadata).mono fun r c' h => ?_
  cases h with
  | unknown he => exact .fault he hway _
  | unmade _ he => exact .fault he hway _
  | there h =>
      exact .done hway (x := ()) trivial
        (congrArg (fun t => { c.contents with roleBindings := t }) (Objects.seen_kept h rfl).symm)
  | made h =>
      let stored := Resource.stored b s.targetNamespace c.nextVersion
      have hcontents :
          (c.wrote roleBindingShelf (bindingKey s.targetNamespace b) stored).contents =
            c.contents.withBinding s b :=
        congrArg (fun t => { c.contents with roleBindings := t }) (Objects.seen_created h rfl _)
      refine .reached (.of_stages rfl rfl rfl fun _ => rfl) (fun _ => ?_) (x := ())
        trivial hcontents
      refine .of_stages rfl rfl rfl rfl (fun _ => rfl) fun p _ => ?_
      exact (congrArg (Contents.aim config s p) hcontents).trans (Contents.aim_withBinding hb)

theorem ensures_configure (hc : c.Coherent) :
    (configure config s).Ensures F c
      (Effect F config s S (fun _ : Unit => True) (fun _ d => d.withAccess config s) c) := by
  refine (ensures_bind_effect (S := S) hc ensures_ensureRole
    (fun c' hc' _ => ensures_each_effect hc' fun b hb c'' _ _ _ => ensures_ensureBinding hb)
    fun _ _ _ => Iff.rfl).mono fun r c' h => ?_
  refine h.reindex (fun x _ => ⟨(), trivial, ?_⟩) fun _ _ => ⟨((), ()), trivial, trivial⟩
  exact Contents.foldl_withBinding ..

end Access

/-! ### The target namespace -/

namespace Target

/-- The making of the target that suits the platform, or the check that it is there. -/
def placing (config : Config) (s : Stage) : Session Unit :=
  if !config.managesNamespaces then require s
  else if config.isKubernetes && config.usesSpaces then putSpace s
  else if config.isKubernetes then putNamespace s
  else putProject s

theorem provision_eq (config : Config) (s : Stage) :
    provision config s = placing config s >>= fun _ => Access.configure config s >>= fun _ =>
      Promotion.promote s >>= fun _ => ReleaseJob.put s := by
  -- The chain is a closed list once the configuration is known.
  obtain ⟨platform, manages, spaces⟩ := config
  cases platform <;> cases manages <;> cases spaces <;>
    simp [provision, ProvisionStep.chain, ProvisionStep.all, chainFrom, ProvisionStep.next,
      Config.isKubernetes, each_nil, each_cons, ProvisionStep.session, placing]

/-- Making a target that is there already is as good as making it. -/
theorem ensures_create {kind name : String} {p : Session Unit}
    (h : p.Ensures F c fun r c' => (∃ e, F e ∧ c' = c) ∨
      ((∀ e, r = .error e → e.isAlreadyExists = true) ∧
        c'.contents = c.contents.withTarget config s ∧ UnderWay config s c c')) :
    (create kind name p).Ensures F c
      (Effect F config s S (fun _ : Unit => True) (fun _ d => d.withTarget config s) c) := by
  refine ensures_tolerate (h.mono fun r c' hr => ?_)
  rcases hr with ⟨e, he, rfl⟩ | ⟨hthere, hcontents, hway⟩
  · cases r <;> exact .fault he (.refl config s _) _
  · cases r with
    | ok a => exact .done hway (x := ()) trivial hcontents
    | error e =>
        simp only [hthere e rfl, if_true]
        exact .done hway (x := ()) trivial hcontents

/-- Namespaces are no matter of plans where they are managed here. -/
theorem underWay_of_places {namespaces projects : NameSet} {spaces : Dict String String}
    (hm : config.managesNamespaces = true)
    (h : c.places.supply config s = ⟨namespaces, spaces, projects⟩) :
    Cluster.contents { c with namespaces, spaces, projects } = c.contents.withTarget config s ∧
      UnderWay config s c { c with namespaces, spaces, projects } := by
  have hcontents : Cluster.contents { c with namespaces, spaces, projects } =
      c.contents.withTarget config s :=
    congrArg (fun x => { c.contents with places := x }) h.symm
  refine ⟨hcontents, .of_stages rfl rfl rfl rfl (fun hno => ?_) fun p _ => ?_⟩
  · rw [hm] at hno
    cases hno
  · rw [hcontents, Contents.aim_withTarget]

theorem ensures_require (hm : config.managesNamespaces = false) :
    (require s).Ensures F c
      (Effect F config s S
        (fun _ : Unit =>
          config.managesNamespaces = true ∨ c.namespaces.contains s.targetNamespace = true)
        (fun _ d => d.withTarget config s) c) := by
  have hway := UnderWay.refl config s c
  have htarget : c.contents.withTarget config s = c.contents := by
    simp only [Contents.withTarget, Places.supply, hm, Bool.not_false, if_true]
  refine ensures_request_bind.2 ⟨fun e he => .fault he hway _,
    ensures_ite (fun hthere => ?_) fun hmissing => ?_⟩
  · exact .done hway (x := ()) (.inr hthere) htarget.symm
  · refine .stopped hway (.inr ?_)
    rintro - (hmanaged | hthere)
    · rw [hm] at hmanaged
      cases hmanaged
    · exact hmissing hthere

theorem ensures_placing :
    (placing config s).Ensures F c
      (Effect F config s S
        (fun _ : Unit =>
          config.managesNamespaces = true ∨ c.namespaces.contains s.targetNamespace = true)
        (fun _ d => d.withTarget config s) c) := by
  refine ensures_ite (fun hno => ensures_require (by simpa using hno)) fun hm => ?_
  have hm : config.managesNamespaces = true := by simpa using hm
  suffices h : (if config.isKubernetes && config.usesSpaces then putSpace s
      else if config.isKubernetes then putNamespace s else putProject s).Ensures F c
        (Effect F config s S (fun _ : Unit => True) (fun _ d => d.withTarget config s) c) from
    h.mono fun r c' h => h.reindex (fun x _ => ⟨x, .inl hm, rfl⟩) fun x _ => ⟨x, trivial⟩
  refine ensures_ite (fun hspaces => ?_) fun hspaces => ensures_ite (fun hk => ?_) fun hk => ?_
  · refine ensures_create (ensures_request.2 ⟨fun e he => .inl ⟨e, he, rfl⟩, .inr ?_⟩)
    cases hthere : c.spaces.contains s.targetNamespace with
    | true =>
        simp only [serve, createSpace, hthere, if_true]
        refine ⟨fun e he => by cases he; rfl, underWay_of_places hm ?_⟩
        rw [Places.supply_spaces hm hspaces]
        exact if_pos hthere
    | false =>
        simp only [serve, createSpace, hthere, Bool.false_eq_true, if_false]
        refine ⟨fun e he => absurd he.symm error_ne_ok, underWay_of_places hm ?_⟩
        rw [Places.supply_spaces hm hspaces]
        exact if_neg (ne_true_of_eq_false hthere)
  · refine ensures_create (ensures_request.2 ⟨fun e he => .inl ⟨e, he, rfl⟩, .inr ?_⟩)
    cases hthere : c.namespaces.contains s.targetNamespace with
    | true =>
        simp only [serve, createNamespace, hthere, if_true]
        refine ⟨fun e he => by cases he; rfl, underWay_of_places hm ?_⟩
        rw [Places.supply_namespaces hm hspaces hk]
        exact if_pos hthere
    | false =>
        simp only [serve, createNamespace, hthere, Bool.false_eq_true, if_false]
        refine ⟨fun e he => absurd he.symm error_ne_ok, underWay_of_places hm ?_⟩
        rw [Places.supply_namespaces hm hspaces hk]
        exact if_neg (ne_true_of_eq_false hthere)
  · refine ensures_create (ensures_request.2 ⟨fun e he => .inl ⟨e, he, rfl⟩, .inr ?_⟩)
    cases hthere : c.projects.contains s.targetNamespace with
    | true =>
        simp only [serve, createProject, hthere, if_true]
        refine ⟨fun e he => by cases he; rfl, underWay_of_places hm ?_⟩
        rw [Places.supply_projects hm hspaces hk]
        exact if_pos hthere
    | false =>
        simp only [serve, createProject, hthere, Bool.false_eq_true, if_false]
        refine ⟨fun e he => absurd he.symm error_ne_ok, underWay_of_places hm ?_⟩
        rw [Places.supply_projects hm hspaces hk]
        exact if_neg (ne_true_of_eq_false hthere)

end Target

end Conveyor
