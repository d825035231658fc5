import Conveyor.Proofs.Patches

/-!
Documents and their written form. A value may be read from documents of many forms: with members of
other names, with members left out or null, in any order, or as an array. It is written in one form
only, and that form is stable: it is read again, and what is read from it is written the same.

Specifications and statuses are read again as they were. Metadata are written in whole seconds, so
that their times are read again as the beginnings of their seconds (`Metadata.inWholeSeconds`).

To be read again a value has to be in the range of its type, which need not be so of every value
that can be written. It is so of what was read: `Record.Yields` follows the fields of a record, in
both of its forms, and says of each field where its value can be from.
-/

namespace Conveyor

open Record

/-! ### What is read -/

/-- The values that a field can have in what a record is read from. -/
inductive Field.Gives {β : Type} (f : Field β) : β → Prop
  | decoded {j : Json} {b : β} (h : f.decode j = .ok b) : f.Gives b
  | absent {b : β} (h : f.absent = some b) : f.Gives b
  | beyond {b : β} (h : f.beyond = some b) : f.Gives b

theorem Decoder.of_nullable {α : Type} {f : Decoder α} {j : Json} {a : α}
    (h : nullable f j = .ok (some a)) : j.isNull = false ∧ f j = .ok a := by
  have hsome {x : Except DecodeError α} (hx : x.map some = .ok (some a)) : x = .ok a := by
    cases x <;> cases hx
    rfl
  cases j with
  | null => cases h
  | _ => exact ⟨rfl, hsome h⟩

namespace Field.Gives

variable {α : Type} {name : String} {f : Decoder α} {a b : α}

theorem required (h : (Field.required name f).Gives a) : ∃ j, f j = .ok a := by
  cases h with
  | decoded h => exact ⟨_, h⟩
  | absent h => cases h
  | beyond h => cases h

theorem withDefault (h : (Field.withDefault name a f).Gives b) : b = a ∨ ∃ j, f j = .ok b := by
  cases h with
  | decoded h => exact .inr ⟨_, h⟩
  | absent h => exact .inl (Option.some.inj h).symm
  | beyond h => exact .inl (Option.some.inj h).symm

theorem optional {o : Option α} (h : (Field.optional name f).Gives o) (ha : a ∈ o) :
    ∃ j, j.isNull = false ∧ f j = .ok a := by
  cases ha
  cases h with
  | decoded h => exact ⟨_, Decoder.of_nullable h⟩
  | absent h => cases h
  | beyond h => cases h

end Field.Gives

/-- Whatever the record is read from, in either form, its value has the property. -/
structure Record.Yields {α : Type} (r : Record α) (P : α → Prop) : Prop where
  ofMembers : ∀ {ms : List (String × Json)} {a : α}, r.ofMembers ms = .ok a → P a
  ofElements : ∀ {type : String} {size : Nat} {es : List Json} {a : α} {rest : List Json},
    r.ofElements type size es = .ok (a, rest) → P a

namespace Record

variable {α β : Type} {P : α → Prop} {type : String} {j : Json} {a : α}

theorem yields_make (h : P a) : (make a).Yields P where
  ofMembers ha := by
    cases ha
    exact h
  ofElements ha := by
    cases ha
    exact h

/-- The value of a field is read from its member or its element, or it is one for want of these. -/
theorem Yields.field {r : Record (β → α)} {f : Field β}
    (h : r.Yields fun g => ∀ b, f.Gives b → P (g b)) : (r.field f).Yields P where
  ofMembers {ms a} ha := by
    obtain ⟨g, hg, ha⟩ := bind_eq_ok.1 ha
    split at ha
    · obtain ⟨b, hb, ha⟩ := bind_eq_ok.1 ha
      cases ha
      exact h.ofMembers hg b (.decoded hb)
    · split at ha
      · next b hb =>
        cases ha
        exact h.ofMembers hg b (.absent hb)
      · cases ha
  ofElements {type size es a rest} ha := by
    obtain ⟨⟨g, es'⟩, hg, ha⟩ := bind_eq_ok.1 ha
    dsimp only at ha
    split at ha
    · obtain ⟨b, hb, ha⟩ := bind_eq_ok.1 ha
      cases ha
      exact h.ofElements hg b (.decoded hb)
    · split at ha
      · next b hb =>
        cases ha
        exact h.ofElements hg b (.beyond hb)
      · cases ha

variable {r : Record α}

theorem Yields.of_decodeObject (h : r.Yields P) (ha : r.decodeObject type j = .ok a) : P a := by
  cases j with
  | object ms => exact h.ofMembers (ofMembers_of_decodeObject ha)
  | _ => cases ha

theorem Yields.of_decode (h : r.Yields P) (ha : r.decode type j = .ok a) : P a := by
  cases j with
  | object ms =>
      simp only [decode, decodeDistinct] at ha
      split at ha
      · cases ha
      · have hobject : r.decodeObject type (.object ms) = .ok a := ha
        exact h.of_decodeObject hobject
  | array es =>
      obtain ⟨⟨b, rest⟩, hb, ha⟩ := bind_eq_ok.1 ha
      dsimp only at ha
      split at ha
      · cases ha
        exact h.ofElements hb
      · cases ha
  | _ => cases ha

end Record

/-! ### What is written -/

/-- What the decoder reads as a value is written so that it is read again, as `n` of the value, and
is then written in the same way. -/
def Decoder.Settles {α : Type} (f : Decoder α) (w : α → Json) (n : α → α) : Prop :=
  ∀ j a, f j = .ok a → f (w a) = .ok (n a) ∧ w (n a) = w a

namespace Decoder

variable {α : Type} {f : Decoder α} {w : α → Json} {n : α → α} {as : List α}

theorem settles_of_reads (h : ∀ a, f (w a) = .ok a) : f.Settles w id := fun _ a _ => ⟨h a, rfl⟩

theorem exists_of_mem_list {j : Json} (h : list f j = .ok as) {a : α} (ha : a ∈ as) :
    ∃ i, f i = .ok a := by
  cases j with
  | array xs =>
      rw [list] at h
      induction xs generalizing as with
      | nil =>
          cases h
          cases ha
      | cons x xs ih =>
          rw [List.mapM_cons] at h
          obtain ⟨b, hb, h⟩ := bind_eq_ok.1 h
          obtain ⟨bs, hbs, h⟩ := bind_eq_ok.1 h
          cases h
          rcases List.mem_cons.1 ha with rfl | ha
          · exact ⟨x, hb⟩
          · exact ih ha hbs
  | _ => cases h

/-- A list settles as its elements do. -/
theorem Settles.list (h : f.Settles w n) :
    (list f).Settles (fun as => .array (as.map w)) (List.map n) := by
  intro j as has
  have heach (a : α) (ha : a ∈ as) : f (w a) = .ok (n a) ∧ w (n a) = w a := by
    obtain ⟨i, hi⟩ := exists_of_mem_list has ha
    exact h i a hi
  refine ⟨list_map_eq fun a ha => (heach a ha).1, congrArg Json.array ?_⟩
  rw [List.map_map]
  exact List.map_congr_left fun a ha => (heach a ha).2

section

variable {least greatest : Int} {expected : Expected}

theorem integer_range {j : Json} {n : Int} (h : integer least greatest expected j = .ok n) :
    least ≤ n ∧ n ≤ greatest := by
  cases j with
  | number k =>
      cases k with
      | int k =>
          rw [integer] at h
          split at h
          · next hrange =>
            cases h
            exact hrange
          · cases h
      | real x => cases h
  | _ => cases h

theorem settles_integer : (integer least greatest expected).Settles .int id :=
  fun _ _ h => ⟨if_pos (integer_range h), rfl⟩

end

theorem settles_instant : instant.Settles ManagedFields.instantJson Timestamp.wholeSeconds := by
  intro j t _
  refine ⟨?_, congrArg Json.string t.toTextWholeSeconds_wholeSeconds⟩
  simp only [ManagedFields.instantJson, instant, Timestamp.ofText_toTextWholeSeconds]

end Decoder

/-- An optional field settles as its values do. -/
theorem Field.Gives.settles {α : Type} {name : String} {f : Decoder α} {w : α → Json} {n : α → α}
    {o : Option α} (h : (Field.optional name f).Gives o) (hf : f.Settles w n)
    (hw : ∀ j a, j.isNull = false → f j = .ok a → (w a).isNull = false) :
    (Field.optional name f).read (o.map w) = .ok (o.map n) ∧ (o.map n).map w = o.map w := by
  have heach (a : α) (ha : a ∈ o) : f (w a) = .ok (n a) ∧ w (n a) = w a ∧ (w a).isNull = false := by
    obtain ⟨j, hj, hja⟩ := h.optional ha
    obtain ⟨hread, hwritten⟩ := hf j a hja
    exact ⟨hread, hwritten, hw j a hj hja⟩
  refine ⟨Field.read_optional_map name fun a ha => ⟨(heach a ha).1, (heach a ha).2.2⟩, ?_⟩
  rw [Option.map_map]
  exact Option.map_congr fun a ha => (heach a ha).2.1

theorem Field.Gives.reads {α : Type} {name : String} {f : Decoder α} {w : α → Json} {o : Option α}
    (h : (Field.optional name f).Gives o) (hf : f.Settles w id)
    (hw : ∀ j a, j.isNull = false → f j = .ok a → (w a).isNull = false) :
    (Field.optional name f).read (o.map w) = .ok o := by
  obtain ⟨hread, -⟩ := h.settles hf hw
  rwa [Option.map_id, id] at hread

/-! ### Any value -/

namespace Json

theorem settled?_number (n : Number) :
    settled? (number n) = if number n = unreadable then none else some (number n) := by
  rw [settled?] <;> nofun

theorem settledMembers?_eq {ms : List (String × Json)} (h : ∀ m ∈ ms, settled? m.2 = some m.2) :
    settledMembers? ms = some ms := by
  induction ms with
  | nil => rfl
  | cons m ms ih =>
      obtain ⟨k, v⟩ := m
      obtain ⟨hv, hms⟩ := List.forall_mem_cons.1 h
      rw [settledMembers?, hv, ih hms]
      rfl

mutual

/-- What is left of a value after its members have been put in order has them in order. -/
theorem settled?_settled : ∀ {j v : Json}, settled? j = some v → settled? v = some v
  | .array xs, v, h => by
      rw [settled?] at h
      obtain ⟨ys, hys, rfl⟩ := Option.map_eq_some_iff.1 h
      rw [settled?, settledElements?_settled hys]
      rfl
  | .object ms, v, h => by
      rw [settled?] at h
      obtain ⟨ns, hns, rfl⟩ := Option.map_eq_some_iff.1 h
      have hsettled := settledMembers?_eq fun m hm =>
        settled?_of_mem_settledMembers hns m (Entries.mem_of_mem_ofList hm)
      rw [ofMembers, settled?, hsettled, Option.map_some, ofMembers,
        Entries.ofList_of_ascending (Entries.ascending_ofList ns)]
  | .null, v, h | .bool b, v, h | .string s, v, h => by
      cases h
      rfl
  | .number n, v, h => by
      rw [settled?_number] at h
      split at h
      · cases h
      · next hreadable =>
        cases h
        rw [settled?_number, if_neg hreadable]

theorem settledElements?_settled :
    ∀ {xs ys : List Json}, settledElements? xs = some ys → settledElements? ys = some ys
  | [], ys, h => by
      cases h
      rfl
  | x :: xs, ys, h => by
      simp only [settledElements?, Option.bind_eq_bind, Option.bind_eq_some_iff] at h
      obtain ⟨y, hy, zs, hzs, h⟩ := h
      cases h
      rw [settledElements?, settled?_settled hy, settledElements?_settled hzs]
      rfl

theorem settled?_of_mem_settledMembers : ∀ {ms ns : List (String × Json)},
    settledMembers? ms = some ns → ∀ n ∈ ns, settled? n.2 = some n.2
  | [], ns, h => by
      cases h
      exact fun n hn => absurd hn List.not_mem_nil
  | (k, v) :: ms, ns, h => by
      simp only [settledMembers?, Option.bind_eq_bind, Option.bind_eq_some_iff] at h
      obtain ⟨w, hw, ws, hws, h⟩ := h
      cases h
      exact List.forall_mem_cons.2 ⟨settled?_settled hw, settled?_of_mem_settledMembers hws⟩

end

/-- Only null is left of null. -/
theorem isNull_settled {j v : Json} (h : settled? j = some v) (hj : j.isNull = false) :
    v.isNull = false := by
  cases j with
  | null => cases hj
  | array xs =>
      rw [settled?] at h
      obtain ⟨ys, -, rfl⟩ := Option.map_eq_some_iff.1 h
      rfl
  | object ms =>
      rw [settled?] at h
      obtain ⟨ns, -, rfl⟩ := Option.map_eq_some_iff.1 h
      rfl
  | number n =>
      rw [settled?_number] at h
      split at h <;> cases h
      rfl
  | _ =>
      cases h
      rfl

end Json

theorem Decoder.anything_eq_ok {j v : Json} : anything j = .ok v ↔ j.settled? = some v := by
  rw [anything]
  cases j.settled? <;> simp

theorem Decoder.settles_anything : anything.Settles id id := fun _ _ h =>
  ⟨anything_eq_ok.2 (Json.settled?_settled (anything_eq_ok.1 h)), rfl⟩

/-! ### Metadata -/

/-- The entry with its time as it is written. -/
def ManagedFields.inWholeSeconds (m : ManagedFields) : ManagedFields :=
  { m with time := m.time.map Timestamp.wholeSeconds }

theorem ManagedFields.settles : decode.Settles toJson inWholeSeconds := by
  intro j m h
  have hyields : record.Yields fun m => (Field.optional "fieldsV1" .anything).Gives m.fields ∧
      (Field.optional "time" .instant).Gives m.time := by
    refine .field (.field (.field (.field (.field (.field (.field (yields_make ?_)))))))
    intro _ _ _ _ _ hfields _ _ _ _ _ _ _ htime
    exact ⟨hfields, htime⟩
  obtain ⟨hfields, htime⟩ := hyields.of_decodeObject h
  obtain ⟨apiVersion, fieldsType, fields, manager, operation, subresource, time⟩ := m
  have hfields := hfields.reads Decoder.settles_anything fun _ _ hj hread =>
    Json.isNull_settled (Decoder.anything_eq_ok.1 hread) hj
  rw [Option.map_id, id] at hfields
  obtain ⟨htime, hwritten⟩ := htime.settles Decoder.settles_instant fun _ _ _ _ => rfl
  have hnames : ["apiVersion", "fieldsType", "fieldsV1", "manager", "operation", "subresource",
      "time"].Nodup := by decide
  refine ⟨?_, ?_⟩
  · refine Reads.decodeObject_ofPresent ?_ "ManagedFieldsEntry"
    refine .present ?_ hnames htime
    refine .present ?_ hnames (Field.read_optional _ fun _ _ => ⟨rfl, rfl⟩)
    refine .present ?_ hnames (Field.read_optional _ fun _ _ => ⟨rfl, rfl⟩)
    refine .present ?_ hnames (Field.read_optional _ fun _ _ => ⟨rfl, rfl⟩)
    refine .present ?_ hnames hfields
    refine .present ?_ hnames (Field.read_optional _ fun _ _ => ⟨rfl, rfl⟩)
    exact .present (reads_make _) hnames (Field.read_optional _ fun _ _ => ⟨rfl, rfl⟩)
  · simp only [toJson, inWholeSeconds, hwritten]

namespace Metadata

/-- The metadata with their times as they are written. -/
def inWholeSeconds (m : Metadata) : Metadata :=
  { m with
    creationTimestamp := m.creationTimestamp.map Timestamp.wholeSeconds
    deletionTimestamp := m.deletionTimestamp.map Timestamp.wholeSeconds
    managedFields := m.managedFields.map (·.map ManagedFields.inWholeSeconds) }

/-- The fields of metadata that not every value of their type can be read for. -/
structure Given (m : Metadata) : Prop where
  creationTimestamp : (Field.optional "creationTimestamp" .instant).Gives m.creationTimestamp
  deletionGracePeriodSeconds :
    (Field.optional "deletionGracePeriodSeconds" .int64).Gives m.deletionGracePeriodSeconds
  deletionTimestamp : (Field.optional "deletionTimestamp" .instant).Gives m.deletionTimestamp
  generation : (Field.optional "generation" .int64).Gives m.generation
  managedFields :
    (Field.optional "managedFields" (.list ManagedFields.decode)).Gives m.managedFields

theorem yields_given : record.Yields Given := by
  refine .field (.field (.field (.field (.field (.field (.field (.field (.field (.field (.field
    (.field (.field (.field (.field (yields_make ?_)))))))))))))))
  -- For each field its value and where that is from, in the order of the fields.
  intro _ _ _ hcreation _ hgrace _ hdeletion _ _ _ _ _ hgeneration _ _ _ hmanaged _ _ _ _ _ _ _ _
    _ _ _ _
  exact ⟨hcreation, hgrace, hdeletion, hgeneration, hmanaged⟩

theorem settles : decode.Settles toJson inWholeSeconds := by
  intro j m h
  have hgiven := yields_given.of_decodeObject h
  obtain ⟨annotations, creationTimestamp, deletionGracePeriodSeconds, deletionTimestamp, finalizers,
    generateName, generation, labels, managedFields, name, namespaceName, ownerReferences,
    resourceVersion, selfLink, uid⟩ := m
  obtain ⟨hcreation, hcreated⟩ :=
    hgiven.creationTimestamp.settles Decoder.settles_instant fun _ _ _ _ => rfl
  obtain ⟨hdeletion, hdeleted⟩ :=
    hgiven.deletionTimestamp.settles Decoder.settles_instant fun _ _ _ _ => rfl
  obtain ⟨hmanaged, hkept⟩ :=
    hgiven.managedFields.settles ManagedFields.settles.list fun _ _ _ _ => rfl
  have hgrace := hgiven.deletionGracePeriodSeconds.reads Decoder.settles_integer
    fun _ _ _ _ => rfl
  have hgeneration := hgiven.generation.reads Decoder.settles_integer fun _ _ _ _ => rfl
  refine ⟨?_, ?_⟩
  · refine Reads.decodeObject_ofPresent ?_ "ObjectMeta"
    refine .present ?_ nodup_names (Field.read_optional _ fun _ _ => ⟨rfl, rfl⟩)
    refine .present ?_ nodup_names (Field.read_optional _ fun _ _ => ⟨rfl, rfl⟩)
    refine .present ?_ nodup_names (Field.read_optional _ fun _ _ => ⟨rfl, rfl⟩)
    refine .present ?_ nodup_names (Field.read_optional _ fun os _ =>
      ⟨Decoder.list_map fun o _ => o.decode_toJson, rfl⟩)
    refine .present ?_ nodup_names (Field.read_optional _ fun _ _ => ⟨rfl, rfl⟩)
    refine .present ?_ nodup_names (Field.read_optional _ fun _ _ => ⟨rfl, rfl⟩)
    refine .present ?_ nodup_names hmanaged
    refine .present ?_ nodup_names (Field.read_optional _ fun d _ => ⟨Decoder.dict_ofDict d, rfl⟩)
    refine .present ?_ nodup_names hgeneration
    refine .present ?_ nodup_names (Field.read_optional _ fun _ _ => ⟨rfl, rfl⟩)
    refine .present ?_ nodup_names (Field.read_optional _ fun ss _ =>
      ⟨Decoder.list_strings ss, rfl⟩)
    refine .present ?_ nodup_names hdeletion
    refine .present ?_ nodup_names hgrace
    refine .present ?_ nodup_names hcreation
    exact .present (reads_make _) nodup_names (Field.read_optional _ fun d _ =>
      ⟨Decoder.dict_ofDict d, rfl⟩)
  · simp only [toJson, inWholeSeconds, hcreated, hdeleted, hkept]

end Metadata

/-! ### Specifications and kinds -/

/-- The order of a stage that was read is one of 32 bits. -/
theorem StageSpec.settles : decode.Settles toJson id := by
  intro j s h
  have hyields : record.Yields fun s => (Field.withDefault "order" 0 .int32).Gives s.order := by
    refine .field (.field (.field (.field (.field (.field (.field (.field (yields_make ?_))))))))
    intro _ _ _ _ _ _ _ _ _ horder _ _ _ _ _ _
    exact horder
  have horder : -0x80000000 ≤ s.order ∧ s.order ≤ 0x7FFFFFFF := by
    rcases (hyields.of_decode h).withDefault with hzero | ⟨i, hi⟩
    · rw [hzero]
      decide
    · exact Decoder.integer_range hi
  exact ⟨s.decode_toJson horder, rfl⟩

/-- The object with its times as they are written. -/
def Resource.inWholeSeconds {ρ : Type} [Resource ρ] (a : ρ) : ρ :=
  withMetadata a (metadata a).inWholeSeconds

/-- A kind of metadata and a specification settles as its specification does. -/
theorem Resource.settles {σ ρ : Type} [Resource ρ] {make : Metadata → σ → ρ} {f : Decoder σ}
    {w : σ → Json} {write : ρ → Json} (type : String) (kind : Kind) (hspec : f.Settles w id)
    (hwritten : ∀ m s, write (make m s) = .ofPresent (kind.members ++
      [("metadata", some m.toJson), ("spec", some (w s))]))
    (hwhole : ∀ m s, inWholeSeconds (make m s) = make m.inWholeSeconds s) :
    Decoder.Settles (Record.decode type (((Record.make make).field
      (.required "metadata" Metadata.decode)).field (.required "spec" f))) write
      inWholeSeconds := by
  intro j a h
  have hyields : (((Record.make make).field (.required "metadata" Metadata.decode)).field
      (.required "spec" f)).Yields fun a => ∃ m s, a = make m s ∧
        (Field.required "metadata" Metadata.decode).Gives m ∧ (Field.required "spec" f).Gives s :=
    .field (.field (yields_make fun m hm s hs => ⟨m, s, rfl, hm, hs⟩))
  obtain ⟨m, s, rfl, hm, hs⟩ := hyields.of_decode h
  obtain ⟨i, hi⟩ := hm.required
  obtain ⟨k, hk⟩ := hs.required
  obtain ⟨hmetadata, hsame⟩ := Metadata.settles i m hi
  obtain ⟨hread, -⟩ := hspec k s hk
  have hnames : ["apiVersion", "kind", "metadata", "spec"].Nodup := by decide
  rw [hwhole, hwritten, hwritten, hsame]
  refine ⟨?_, rfl⟩
  refine Reads.decode_ofPresent ?_ type
  refine .present ?_ hnames hread
  exact .present (reads_make _) hnames hmetadata

theorem Pipeline.settles : decode.Settles toJson Resource.inWholeSeconds :=
  Resource.settles "CDPipeline" .pipeline
    (Decoder.settles_of_reads PipelineSpec.decode_toJson) (fun _ _ => rfl) fun _ _ => rfl

theorem ImageStream.settles : decode.Settles toJson Resource.inWholeSeconds :=
  Resource.settles "CodebaseImageStream" .imageStream
    (Decoder.settles_of_reads ImageStreamSpec.decode_toJson) (fun _ _ => rfl) fun _ _ => rfl

theorem Component.settles : decode.Settles toJson Resource.inWholeSeconds :=
  Resource.settles "EDPComponent" .component
    (Decoder.settles_of_reads ComponentSpec.decode_toJson) (fun _ _ => rfl) fun _ _ => rfl

theorem ReleaseJob.settles : decode.Settles toJson Resource.inWholeSeconds :=
  Resource.settles "JenkinsJob" .releaseJob
    (Decoder.settles_of_reads ReleaseJobSpec.decode_toJson) (fun _ _ => rfl) fun _ _ => rfl

/-- A stage has a status besides, which is read as it was written. -/
theorem Stage.settles : decode.Settles toJson Resource.inWholeSeconds := by
  intro j s h
  have hyields : record.Yields fun s =>
      (Field.required "metadata" Metadata.decode).Gives s.metadata ∧
        (Field.required "spec" StageSpec.decode).Gives s.spec :=
    .field (.field (.field (yields_make fun m hm spec hspec _ _ => ⟨hm, hspec⟩)))
  obtain ⟨hm, hspec⟩ := hyields.of_decode h
  obtain ⟨i, hi⟩ := hm.required
  obtain ⟨k, hk⟩ := hspec.required
  obtain ⟨hmetadata, hsame⟩ := Metadata.settles i s.metadata hi
  obtain ⟨hread, -⟩ := StageSpec.settles k s.spec hk
  obtain ⟨m, spec, status⟩ := s
  refine ⟨?_, ?_⟩
  · refine Reads.decode_ofPresent ?_ "Stage"
    refine .present ?_ nodup_names (Field.read_optional "status" fun t _ => ⟨t.decode_toJson, rfl⟩)
    refine .present ?_ nodup_names hread
    exact .present (reads_make _) nodup_names hmetadata
  · have hwhole : Resource.inWholeSeconds (⟨m, spec, status⟩ : Stage) =
        ⟨m.inWholeSeconds, spec, status⟩ := rfl
    rw [hwhole, toJson, toJson, hsame]

/-- **Documents survive being read and written.** Every value of a specification, of its parts and
of the status is read from what it is written as, where the order of a stage is one of 32 bits.
Every document of these and of the kinds that is read, in whatever form it is, is written so that it
is read again and written in the same way; what is read again is the value itself, but for the times
of its metadata, which are then in whole seconds. -/
theorem documents_round_trip :
    ((∀ g : QualityGate, QualityGate.decode g.toJson = .ok g) ∧
      (∀ l : Library, Library.decode l.toJson = .ok l) ∧
      (∀ s : Source, Source.decode s.toJson = .ok s) ∧
      (∀ s : StageSpec, -0x80000000 ≤ s.order ∧ s.order ≤ 0x7FFFFFFF →
        StageSpec.decode s.toJson = .ok s) ∧
      (∀ s : StageStatus, StageStatus.decode s.toJson = .ok s) ∧
      (∀ s : PipelineSpec, PipelineSpec.decode s.toJson = .ok s) ∧
      (∀ t : Tag, Tag.decode t.toJson = .ok t) ∧
      (∀ s : ImageStreamSpec, ImageStreamSpec.decode s.toJson = .ok s) ∧
      (∀ s : ComponentSpec, ComponentSpec.decode s.toJson = .ok s) ∧
      (∀ c : ProvisionerCall, ProvisionerCall.decode c.toJson = .ok c) ∧
      (∀ s : ReleaseJobSpec, ReleaseJobSpec.decode s.toJson = .ok s)) ∧
    (QualityGate.decode.Settles QualityGate.toJson id ∧
      Library.decode.Settles Library.toJson id ∧
      Source.decode.Settles Source.toJson id ∧
      StageSpec.decode.Settles StageSpec.toJson id ∧
      StageStatus.decode.Settles StageStatus.toJson id ∧
      PipelineSpec.decode.Settles PipelineSpec.toJson id ∧
      Tag.decode.Settles Tag.toJson id ∧
      ImageStreamSpec.decode.Settles ImageStreamSpec.toJson id ∧
      ComponentSpec.decode.Settles ComponentSpec.toJson id ∧
      ProvisionerCall.decode.Settles ProvisionerCall.toJson id ∧
      ReleaseJobSpec.decode.Settles ReleaseJobSpec.toJson id) ∧
    (Stage.decode.Settles Stage.toJson Resource.inWholeSeconds ∧
      Pipeline.decode.Settles Pipeline.toJson Resource.inWholeSeconds ∧
      ImageStream.decode.Settles ImageStream.toJson Resource.inWholeSeconds ∧
      Component.decode.Settles Component.toJson Resource.inWholeSeconds ∧
      ReleaseJob.decode.Settles ReleaseJob.toJson Resource.inWholeSeconds) := by
  refine ⟨⟨QualityGate.decode_toJson, Library.decode_toJson, Source.decode_toJson,
    StageSpec.decode_toJson, StageStatus.decode_toJson, PipelineSpec.decode_toJson,
    Tag.decode_toJson, ImageStreamSpec.decode_toJson, ComponentSpec.decode_toJson,
    ProvisionerCall.decode_toJson, ReleaseJobSpec.decode_toJson⟩, ?_,
    Stage.settles, Pipeline.settles, ImageStream.settles, Component.settles, ReleaseJob.settles⟩
  exact ⟨Decoder.settles_of_reads QualityGate.decode_toJson,
    Decoder.settles_of_reads Library.decode_toJson, Decoder.settles_of_reads Source.decode_toJson,
    StageSpec.settles, Decoder.settles_of_reads StageStatus.decode_toJson,
    Decoder.settles_of_reads PipelineSpec.decode_toJson, Decoder.settles_of_reads Tag.decode_toJson,
    Decoder.settles_of_reads ImageStreamSpec.decode_toJson,
    Decoder.settles_of_reads ComponentSpec.decode_toJson,
    Decoder.settles_of_reads ProvisionerCall.decode_toJson,
    Decoder.settles_of_reads ReleaseJobSpec.decode_toJson⟩

/-- A stage with its specification as an array that ends early, a leap second that is told by clocks
ahead of Universal Time, members that are null and members of other names. -/
def Stage.oddDocument : Json :=
  .object [("metadata", .object [("creationTimestamp", .string "2017-01-01 01:29:60.987+01:30"),
      ("labels", .null), ("generation", .nat 7), ("colour", .string "green"), ("managedFields",
        .array [.object [("fieldsV1", .object [("b", .null), ("a", .array [])])]])]),
    ("status", .null), ("apiVersion", .bool true),
    ("spec", .array [.string "dev", .string "shop", .string ""])]

/-- The stage is read, and read again from its written form with another time of creation, which has
lost its fraction. -/
theorem documents_round_trip_odd :
    (∃ s, Stage.decode Stage.oddDocument = .ok s ∧
      Stage.decode s.toJson = .ok (Resource.inWholeSeconds s) ∧
      (Resource.inWholeSeconds s).toJson = s.toJson ∧ Resource.inWholeSeconds s ≠ s ∧
      s.metadata.creationTimestamp.map Timestamp.toTextWholeSeconds =
        some "2016-12-31T23:59:60Z") ∧
    StageSpec.decode
        (StageSpec.toJson { name := "dev", pipeline := "shop", order := -0x80000000 }) =
      .ok { name := "dev", pipeline := "shop", order := -0x80000000 } := by
  have hread : (Stage.decode Stage.oddDocument).toOption.any (fun s =>
      decide (Resource.inWholeSeconds s ≠ s ∧
        s.metadata.creationTimestamp.map Timestamp.toTextWholeSeconds =
          some "2016-12-31T23:59:60Z")) = true := by decide +kernel
  refine ⟨?_, documents_round_trip.1.2.2.2.1 _ (by decide)⟩
  cases hs : Stage.decode Stage.oddDocument with
  | error e =>
      rw [hs] at hread
      cases hread
  | ok s =>
      rw [hs] at hread
      obtain ⟨hne, htime⟩ := of_decide_eq_true hread
      obtain ⟨hagain, hsame⟩ := documents_round_trip.2.2.1 _ s hs
      exact ⟨s, rfl, hagain, hsame, hne, htime⟩

end Conveyor
