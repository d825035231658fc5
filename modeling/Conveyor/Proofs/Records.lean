import Conveyor.Json.Decode
import Conveyor.Json.Patch
import Mathlib.Data.List.Induction

/-!
Records and objects of JSON. The members of an object ascend, so that a look-up finds the one member
of a name, and a merge patch can be followed name by name (`merged?`). A record is then read field
by field: `Record.Reads` has a rule for each field, by what the object has under its name, and so
neither the order of the members nor those of other names come up again.
-/

namespace Conveyor

namespace Entries

variable {κ α : Type} [KeyOrder κ] {es : List (κ × α)}

theorem get?_cons_of_ne {e : κ × α} (h : Ascending (e :: es)) {k : κ} (hk : e.1 ≠ k) :
    get? k (e :: es) = get? k es := by
  by_cases hlt : e.1 < k
  · simp [get?, hlt]
  · have hgt : k < e.1 := by
      by_contra hgt
      exact hk (KeyOrder.trichotomous hlt hgt)
    rw [get?_eq_none_of_lt fun f hf => KeyOrder.trans hgt ((ascending_cons.1 h).1 f hf)]
    simp [get?, hlt, hgt]

theorem ofList_concat (es : List (κ × α)) (e : κ × α) :
    ofList (es ++ [e]) = insert e.1 e.2 (ofList es) := by
  rw [ofList, List.foldl_append]
  rfl

theorem mem_of_mem_ofList {e : κ × α} (h : e ∈ ofList es) : e ∈ es := by
  induction es using List.reverseRecOn with
  | nil => exact h
  | append_singleton es f ih =>
      rw [ofList_concat] at h
      refine List.mem_append.2 ?_
      rcases mem_insert h with rfl | h
      · exact .inr (List.mem_singleton.2 rfl)
      · exact .inl (ih h)

variable [DecidableEq κ]

/-- Of several values for a key the last one stays. -/
theorem get?_ofList (es : List (κ × α)) (k : κ) :
    get? k (ofList es) = (es.filter (·.1 = k)).getLast?.map (·.2) := by
  induction es using List.reverseRecOn with
  | nil => rfl
  | append_singleton es e ih =>
      rw [ofList_concat, get?_insert (ascending_ofList es), ih, List.filter_append,
        List.getLast?_append]
      by_cases he : e.1 = k <;> simp [he]

/-- In an ascending list no key has several values. -/
theorem filter_key (h : Ascending es) (k : κ) :
    es.filter (·.1 = k) = ((get? k es).map fun a => (k, a)).toList := by
  induction es with
  | nil => rfl
  | cons e es ih =>
      obtain ⟨he, hes⟩ := ascending_cons.1 h
      rw [List.filter_cons, ih hes]
      by_cases hk : e.1 = k
      · subst hk
        simp [get?, KeyOrder.irrefl, get?_eq_none_of_lt he]
      · simp [hk, get?_cons_of_ne h hk]

theorem ofList_of_ascending (h : Ascending es) : ofList es = es := by
  refine eq_of_get? (ascending_ofList es) h fun k => ?_
  rw [get?_ofList, filter_key h]
  cases get? k es <;> rfl

end Entries

theorem lastMember?_of_ascending {ms : List (String × Json)} (h : Entries.Ascending ms)
    (name : String) : lastMember? name ms = Entries.get? name ms := by
  rw [lastMember?, Entries.filter_key h]
  cases Entries.get? name ms <;> rfl

namespace Json

theorem lookup_eq_none {ms : List (String × Option Json)} {k : String}
    (hk : k ∉ ms.map (·.1)) : ms.lookup k = none := by
  refine List.lookup_eq_none_iff.2 fun m hm => bne_iff_ne.2 fun hkey => hk ?_
  exact List.mem_map.2 ⟨m, hm, hkey.symm⟩

/-- Of members with distinct names, at most one has a given name. -/
theorem filter_present {ms : List (String × Option Json)} (hnames : (ms.map (·.1)).Nodup)
    (name : String) : (ms.filterMap fun m => m.2.map (m.1, ·)).filter (·.1 = name) =
      ((ms.lookup name).join.map (name, ·)).toList := by
  induction ms with
  | nil => rfl
  | cons m ms ih =>
      obtain ⟨k, given⟩ := m
      obtain ⟨hk, hms⟩ := List.nodup_cons.1 hnames
      by_cases hname : k = name
      · subst hname
        have habsent : ms.lookup k = none := lookup_eq_none hk
        have hrest := ih hms
        rw [habsent] at hrest
        cases given with
        | none =>
            rw [List.filterMap_cons, List.lookup_cons_self]
            exact hrest
        | some j =>
            simp only [List.filterMap_cons, Option.map_some, List.filter_cons, decide_true,
              ↓reduceIte, hrest, List.lookup_cons_self]
            rfl
      · have hbeq : (name == k) = false := beq_eq_false_iff_ne.2 (Ne.symm hname)
        rw [List.lookup_cons, hbeq, ← ih hms]
        cases given <;> simp [hname]

/-- The members of an object that is written from distinct names. -/
theorem get?_members {j : Json} {ms : List (String × Option Json)} (hj : j = ofPresent ms)
    (hnames : (ms.map (·.1)).Nodup) (name : String) :
    Entries.get? name j.members = (ms.lookup name).join := by
  have hmembers : j.members = Entries.ofList (ms.filterMap fun m => m.2.map (m.1, ·)) := hj ▸ rfl
  rw [hmembers, Entries.get?_ofList, filter_present hnames]
  cases (ms.lookup name).join <;> rfl

/-- What a patch leaves of a member, by what it has for it. -/
def merged? (current : Option Json) : Option Json → Option Json
  | none => current
  | some v => if v.isNull then none else some (mergePatch (current.getD null) v)

theorem ascending_mergeMembers {current : List (String × Json)} (patch : List (String × Json))
    (h : Entries.Ascending current) : Entries.Ascending (mergeMembers current patch) := by
  induction patch generalizing current with
  | nil => exact h
  | cons e patch ih =>
      rw [mergeMembers]
      split
      · exact ih (Entries.ascending_erase h)
      · exact ih (Entries.ascending_insert h)

/-- A patch changes the members that it names, and no others. -/
theorem get?_mergeMembers {current patch : List (String × Json)} (h : Entries.Ascending current)
    (hpatch : Entries.Ascending patch) (k : String) :
    Entries.get? k (mergeMembers current patch) =
      merged? (Entries.get? k current) (Entries.get? k patch) := by
  induction patch generalizing current with
  | nil => rfl
  | cons e patch ih =>
      obtain ⟨l, v⟩ := e
      obtain ⟨hl, hrest⟩ := Entries.ascending_cons.1 hpatch
      rw [mergeMembers]
      by_cases hkl : l = k
      · subst hkl
        have hpast : Entries.get? l patch = none := Entries.get?_eq_none_of_lt hl
        have hhere : Entries.get? l ((l, v) :: patch) = some v :=
          Entries.get?_of_mem hpatch List.mem_cons_self
        rw [hhere, merged?]
        split
        · rw [ih (Entries.ascending_erase h) hrest, hpast, merged?, Entries.get?_erase h,
            if_pos rfl]
        · rw [ih (Entries.ascending_insert h) hrest, hpast, merged?, Entries.get?_insert h,
            if_pos rfl]
      · rw [Entries.get?_cons_of_ne hpatch hkl]
        split
        · rw [ih (Entries.ascending_erase h) hrest, Entries.get?_erase h, if_neg hkl]
        · rw [ih (Entries.ascending_insert h) hrest, Entries.get?_insert h, if_neg hkl]

/-! Patches that are written from distinct names. -/

section

variable (j : Json) (ps : List (String × Option Json))

theorem mergePatch_ofPresent : mergePatch j (.ofPresent ps) =
    .object (mergeMembers j.members (ofPresent ps).members) := by
  rw [ofPresent, ofMembers, mergePatch, members]

variable {j}

theorem get?_patched (hj : Entries.Ascending j.members) (hnames : (ps.map (·.1)).Nodup)
    (k : String) : Entries.get? k (mergeMembers j.members (ofPresent ps).members) =
      merged? (Entries.get? k j.members) (ps.lookup k).join := by
  have hps : Entries.Ascending (ofPresent ps).members := Entries.ascending_ofList _
  rw [get?_mergeMembers hj hps, get?_members rfl hnames]

theorem get?_patched_of_not_mem {k : String} (hj : Entries.Ascending j.members)
    (hnames : (ps.map (·.1)).Nodup) (hk : k ∉ ps.map (·.1)) :
    Entries.get? k (mergeMembers j.members (ofPresent ps).members) = Entries.get? k j.members := by
  rw [get?_patched ps hj hnames, lookup_eq_none hk]
  rfl

end

end Json

/-! ### Dictionaries -/

theorem Entries.insert_map {κ α β : Type} [KeyOrder κ] (f : α → β) (k : κ) (a : α)
    (es : List (κ × α)) :
    insert k (f a) (es.map fun e => (e.1, f e.2)) =
      (insert k a es).map fun e => (e.1, f e.2) := by
  induction es with
  | nil => rfl
  | cons e es ih =>
      simp only [List.map_cons, insert]
      split
      · rw [List.map_cons, ih]
      · split <;> rfl

/-- A dictionary that is merged into another one is put over it. -/
theorem Json.mergePatch_ofDict (d e : Dict String String) :
    mergePatch (.ofDict d) (.ofDict e) = .ofDict (d.extend e) := by
  have hmembers (es : List (String × String)) :
      mergeMembers (d.toList.map fun e => (e.1, string e.2)) (es.map fun e => (e.1, string e.2)) =
        (es.foldl (fun m f => m.insert f.1 f.2) d).toList.map fun e => (e.1, string e.2) := by
    induction es generalizing d with
    | nil => rfl
    | cons f es ih =>
        rw [List.foldl_cons, ← ih, List.map_cons, mergeMembers]
        simp only [isNull, Bool.false_eq_true, ↓reduceIte, mergePatch, Entries.insert_map]
        rfl
  rw [ofDict, ofDict, mergePatch, members, hmembers]
  rfl

/-! ### Fields -/

/-- A step after a step succeeds only when both do. -/
theorem bind_eq_ok {ε α β : Type} {x : Except ε α} {f : α → Except ε β} {b : β} :
    (x >>= f) = .ok b ↔ ∃ a, x = .ok a ∧ f a = .ok b := by
  cases x with
  | error e =>
      constructor
      · intro h
        cases h
      · rintro ⟨a, h, -⟩
        cases h
  | ok a =>
      constructor
      · exact fun h => ⟨a, rfl, h⟩
      · rintro ⟨a', h, h'⟩
        cases h
        exact h'

namespace Field

variable {α : Type}

/-- The value of a field in an object that has this member under its name, or none. -/
def read (f : Field α) : Option Json → Except DecodeError α
  | some j => f.decode j
  | none =>
    match f.absent with
    | some a => .ok a
    | none => .error (.missingMember f.name)

end Field

namespace Record

variable {α β : Type} {r : Record (β → α)} {f : Field β} {ms : List (String × Json)} {g : β → α}
  {a : α} {b : β}

theorem ofMembers_field (hms : Entries.Ascending ms) :
    (r.field f).ofMembers ms =
      r.ofMembers ms >>= fun g => f.read (Entries.get? f.name ms) >>= fun b => .ok (g b) := by
  simp only [field, lastMember?_of_ascending hms]
  refine congrArg _ (funext fun g => ?_)
  cases Entries.get? f.name ms with
  | some j => rfl
  | none =>
      simp only [Field.read]
      cases f.absent <;> rfl

/-- A record that is read has all its fields read. -/
theorem exists_of_ofMembers_field (hms : Entries.Ascending ms)
    (h : (r.field f).ofMembers ms = .ok a) :
    ∃ g b, r.ofMembers ms = .ok g ∧ f.read (Entries.get? f.name ms) = .ok b ∧ a = g b := by
  rw [ofMembers_field hms] at h
  obtain ⟨g, hg, h⟩ := bind_eq_ok.1 h
  obtain ⟨b, hb, h⟩ := bind_eq_ok.1 h
  cases h
  exact ⟨g, b, hg, hb, rfl⟩

/-- The record has a value in the object, and each of its members is right by itself. -/
structure Reads (r : Record α) (ms : List (String × Json)) (a : α) : Prop where
  value : r.ofMembers ms = .ok a
  members : ∀ m ∈ ms, r.check m.1 m.2 = .ok ()

theorem reads_make (a : α) : (make a).Reads ms a := ⟨rfl, fun _ _ => rfl⟩

theorem Reads.field (h : r.Reads ms g) (hms : Entries.Ascending ms)
    (hb : f.read (Entries.get? f.name ms) = .ok b) : (r.field f).Reads ms (g b) where
  value := by
    rw [ofMembers_field hms, h.value, hb]
    rfl
  members m hm := by
    simp only [Record.field]
    split
    · next hname =>
      rw [← hname, Entries.get?_of_mem hms hm] at hb
      rw [show f.decode m.2 = .ok b from hb]
      rfl
    · exact h.members m hm

variable {r : Record α}

theorem Reads.decodeMembers (h : r.Reads ms a) : r.decodeMembers ms = .ok a := by
  have hchecks : ms.forM (fun m => r.check m.1 m.2) = .ok () := by
    have hmembers := h.members
    clear h
    induction ms with
    | nil => rfl
    | cons m ms ih =>
        obtain ⟨hm, hms⟩ := List.forall_mem_cons.1 hmembers
        rw [List.forM, hm]
        exact ih hms
  rw [Record.decodeMembers, hchecks]
  exact h.value

theorem Reads.decode (h : r.Reads ms a) (hms : Entries.Ascending ms) (type : String) :
    r.decode type (.object ms) = .ok a := by
  have hdistinct : r.repeated? ms = none := by
    refine List.find?_eq_none.2 fun name _ => ?_
    rw [Entries.filter_key hms]
    cases Entries.get? name ms <;> simp
  rw [Record.decode, decodeDistinct, hdistinct]
  exact h.decodeMembers

theorem Reads.decodeObject (h : r.Reads ms a) (type : String) :
    r.decodeObject type (.object ms) = .ok a := h.decodeMembers

/-- An object that is read has a value in each field. -/
theorem ofMembers_of_decodeObject {type : String}
    (h : r.decodeObject type (.object ms) = .ok a) : r.ofMembers ms = .ok a := by
  obtain ⟨-, -, hvalue⟩ := bind_eq_ok.1 h
  exact hvalue

/-! Records that are read from what was written with distinct names. -/

section

variable {r : Record (β → α)} {ps : List (String × Option Json)}

theorem Reads.present (h : r.Reads (Json.ofPresent ps).members g)
    (hnames : (ps.map (·.1)).Nodup) (hb : f.read (ps.lookup f.name).join = .ok b) :
    (r.field f).Reads (Json.ofPresent ps).members (g b) :=
  h.field (Entries.ascending_ofList _) (by rwa [Json.get?_members rfl hnames])

variable {r : Record α}

theorem Reads.decode_ofPresent (h : r.Reads (Json.ofPresent ps).members a) (type : String) :
    r.decode type (.ofPresent ps) = .ok a := h.decode (Entries.ascending_ofList _) type

theorem Reads.decodeObject_ofPresent (h : r.Reads (Json.ofPresent ps).members a) (type : String) :
    r.decodeObject type (.ofPresent ps) = .ok a := h.decodeObject type

end

end Record

/-! ### Values that are read as they were written -/

namespace Decoder

variable {α : Type} {f : Decoder α} {w : α → Json}

theorem list_map_eq {β : Type} {w : β → Json} {g : β → α} {bs : List β}
    (h : ∀ b ∈ bs, f (w b) = .ok (g b)) : list f (.array (bs.map w)) = .ok (bs.map g) := by
  rw [list]
  induction bs with
  | nil => rfl
  | cons b bs ih =>
      obtain ⟨hb, hbs⟩ := List.forall_mem_cons.1 h
      rw [List.map_cons, List.mapM_cons, hb, ih hbs]
      rfl

theorem list_map {as : List α} (h : ∀ a ∈ as, f (w a) = .ok a) :
    list f (.array (as.map w)) = .ok as :=
  (list_map_eq (g := id) h).trans (by rw [List.map_id])

theorem list_strings (ss : List String) : list text (.strings ss) = .ok ss :=
  list_map fun _ _ => rfl

theorem dict_ofDict (d : Dict String String) : dict text (.ofDict d) = .ok d := by
  have hentries : (d.toList.map fun e => (e.1, Json.string e.2)).mapM
      (fun m => text m.2 >>= fun s => .ok (m.1, s)) = (.ok d.toList : Except DecodeError _) := by
    induction d.toList with
    | nil => rfl
    | cons e es ih =>
        rw [List.map_cons, List.mapM_cons, ih]
        rfl
  have hd : Dict.ofList d.toList = d := by
    have hlist := Entries.ofList_of_ascending d.ascending
    obtain ⟨es, hes⟩ := d
    simp only [Dict.ofList, hlist]
  rw [Json.ofDict, dict, hentries]
  exact congrArg Except.ok hd

end Decoder

theorem Field.read_optional_map {α β : Type} {f : Decoder α} {w : β → Json} {g : β → α}
    {o : Option β} (name : String) (h : ∀ b ∈ o, f (w b) = .ok (g b) ∧ (w b).isNull = false) :
    (Field.optional name f).read (o.map w) = .ok (o.map g) := by
  cases o with
  | none => rfl
  | some b =>
      obtain ⟨hb, hnull⟩ := h b rfl
      have hsome (j : Json) (hj : j.isNull = false) : Decoder.nullable f j = (f j).map some := by
        cases j <;> first | rfl | cases hj
      exact (hsome _ hnull).trans (by rw [hb]; rfl)

theorem Field.read_optional {α : Type} {f : Decoder α} {w : α → Json} {o : Option α} (name : String)
    (h : ∀ a ∈ o, f (w a) = .ok a ∧ (w a).isNull = false) :
    (Field.optional name f).read (o.map w) = .ok o :=
  (read_optional_map (g := id) name h).trans (by rw [Option.map_id, id])

end Conveyor
