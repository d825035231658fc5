import Conveyor.Json.Printer
import Conveyor.Json.Reader
import Conveyor.Proofs.Records

/-!
Values are read back from their text, in either manner. What is known of a part is always that it is
read from the front of a longer text and that the rest is left as it is, so parts can be put
together as they are written. A value needs no more reading steps than twice the length of its text,
which is what the reader starts out with.

This is shown of values without numbers (`Json.Plain`), strings being the only ones of which the
text is not copied: they are escaped character by character.
-/

namespace Conveyor.Json

/-! ### Strings -/

theorem hex4?_hexDigit :
    ∀ n < 0x20, hex4? '0' '0' (hexDigit (n / 16)) (hexDigit (n % 16)) = some n := by decide

theorem readString_hex {a b : Char} {n : Nat} (h : hex4? '0' '0' a b = some n) (hn : n < 0x20)
    (cs : List Char) :
    readString ('\\' :: 'u' :: '0' :: '0' :: a :: b :: cs) =
      consChar (Char.ofNat n) (readString cs) := by
  rw [readString]
  simp only [h]
  rw [if_neg (by omega), if_neg (by omega)]

/-- A character is read from what it is written as. -/
theorem readString_escapeChar (c : Char) (cs : List Char) :
    readString (escapeChar c ++ cs) = consChar c (readString cs) := by
  unfold escapeChar
  split
  · next hc => rw [hc]; rfl
  split
  · next hc => rw [hc]; rfl
  split
  · next hc => rw [hc]; rfl
  split
  · next hc => rw [hc]; rfl
  split
  · next hc => rw [hc]; rfl
  split
  · next hc => rw [hc]; rfl
  split
  · next hc => rw [hc]; rfl
  split
  · next hcontrol =>
    have h := readString_hex (hex4?_hexDigit c.toNat hcontrol) hcontrol cs
    rwa [Char.ofNat_toNat] at h
  · next hquote hslash _ _ _ _ _ hcontrol =>
    rw [List.cons_append, List.nil_append, readString]
    · exact if_neg hcontrol
    · exact hquote
    · exact hslash

/-- **A string is read up to its closing quote.** -/
theorem readString_escape (s cs : List Char) :
    readString (escape s ++ '"' :: cs) = .ok (s, cs) := by
  induction s with
  | nil => rfl
  | cons c s ih =>
      rw [escape, List.flatMap_cons, List.append_assoc, readString_escapeChar, ← escape, ih]
      rfl

theorem readText_escape (m : Manner) (s : String) (cs : List Char) :
    readText m (escape s.toList ++ '"' :: cs) = .ok (some s, cs) := by
  simp only [readText, readString_escape, String.ofList_toList]

/-! ### Values -/

mutual

/-- No numbers occur, the keys of every object ascend, and arrays and objects are nested less than
`depth` deep. -/
def Plain (depth : Nat) : Json → Prop
  | number _ => False
  | array xs => 1 < depth ∧ PlainElements (depth - 1) xs
  | object ms => 1 < depth ∧ Entries.Ascending ms ∧ PlainMembers (depth - 1) ms
  | _ => True

def PlainElements (depth : Nat) : List Json → Prop
  | [] => True
  | x :: xs => Plain depth x ∧ PlainElements depth xs

def PlainMembers (depth : Nat) : List (String × Json) → Prop
  | [] => True
  | (_, v) :: ms => Plain depth v ∧ PlainMembers depth ms

end

theorem plainElements_iff {depth : Nat} {xs : List Json} :
    PlainElements depth xs ↔ ∀ x ∈ xs, x.Plain depth := by
  induction xs with
  | nil => simp [PlainElements]
  | cons x xs ih => rw [PlainElements, ih, List.forall_mem_cons]

theorem plainMembers_iff {depth : Nat} {ms : List (String × Json)} :
    PlainMembers depth ms ↔ ∀ e ∈ ms, e.2.Plain depth := by
  induction ms with
  | nil => simp [PlainMembers]
  | cons e ms ih => rw [PlainMembers, ih, List.forall_mem_cons]

/-- The text of the elements after the first one. -/
def writeMoreElements : List Json → List Char
  | [] => []
  | x :: xs => ',' :: writeElements (x :: xs)

/-- The text of the members after the first one. -/
def writeMoreMembers : List (String × Json) → List Char
  | [] => []
  | e :: ms => ',' :: writeMembers (e :: ms)

theorem writeElements_cons (x : Json) (xs : List Json) :
    writeElements (x :: xs) = x.write ++ writeMoreElements xs := by
  cases xs with
  | nil => simp only [writeElements, writeMoreElements, List.append_nil]
  | cons y ys => simp only [writeElements, writeMoreElements]

theorem writeMembers_cons (k : String) (v : Json) (ms : List (String × Json)) :
    writeMembers ((k, v) :: ms) =
      '"' :: (escape k.toList ++ '"' :: ':' :: (v.write ++ writeMoreMembers ms)) := by
  cases ms with
  | nil =>
      simp only [writeMembers, writeString, writeMoreMembers, List.cons_append, List.append_assoc,
        List.nil_append, List.append_nil]
  | cons n ns =>
      simp only [writeMembers, writeString, writeMoreMembers, List.cons_append, List.append_assoc,
        List.nil_append]

/-- No value begins with a blank or like the end of an array. -/
theorem exists_write_eq_cons {depth : Nat} {j : Json} (h : j.Plain depth) :
    ∃ c cs, j.write = c :: cs ∧ isSpace c = false ∧ c ≠ ']' := by
  cases j with
  | null => exact ⟨'n', _, by rw [write]; rfl, by decide, by decide⟩
  | bool b =>
      cases b with
      | true => exact ⟨'t', _, by rw [write]; rfl, by decide, by decide⟩
      | false => exact ⟨'f', _, by rw [write]; rfl, by decide, by decide⟩
  | number n => exact h.elim
  | string s => exact ⟨'"', _, by rw [write]; rfl, by decide, by decide⟩
  | array xs => exact ⟨'[', _, by rw [write]; rfl, by decide, by decide⟩
  | object ms => exact ⟨'\x7b', _, by rw [write]; rfl, by decide, by decide⟩

theorem exists_writeElements_eq_cons {depth : Nat} {x : Json} (h : x.Plain depth)
    (xs : List Json) :
    ∃ c cs, writeElements (x :: xs) = c :: cs ∧ isSpace c = false ∧ c ≠ ']' := by
  obtain ⟨c, cs, hcs, hspace, hend⟩ := exists_write_eq_cons h
  exact ⟨c, cs ++ writeMoreElements xs, by rw [writeElements_cons, hcs]; rfl, hspace, hend⟩

theorem skipSpace_cons {c : Char} {cs : List Char} (h : isSpace c = false) :
    skipSpace (c :: cs) = c :: cs := by
  simp [skipSpace, h]

/-! ### Reading from the front

Each judgment says of a part that it is read from the front of any text, when there are enough steps
left. -/

variable {m : Manner} {fuel depth : Nat}

/-- The value is read from the front of a text. -/
def Recovers (m : Manner) (depth : Nat) (j : Json) : Prop :=
  ∀ fuel cs, 2 * j.write.length ≤ fuel → readValue m fuel depth (j.write ++ cs) = .ok (j, cs)

/-- The elements are read from behind another one. -/
def RecoversElements (m : Manner) (depth : Nat) (xs : List Json) : Prop :=
  ∀ fuel cs, 2 * (writeMoreElements xs).length < fuel →
    readElements m fuel depth false (writeMoreElements xs ++ ']' :: cs) = .ok (xs, cs)

/-- The members are read from behind another one. -/
def RecoversMembers (m : Manner) (depth : Nat) (ms : List (String × Json)) : Prop :=
  ∀ fuel cs, 2 * (writeMoreMembers ms).length < fuel →
    readMembers m fuel depth false (writeMoreMembers ms ++ '\x7d' :: cs) =
      .ok (ms.map fun e => (some e.1, e.2), cs)

theorem readElement_write {x : Json} {xs : List Json} (hx : Recovers m depth x)
    (hplain : x.Plain depth) (hxs : RecoversElements m depth xs)
    (hfuel : 2 * (writeElements (x :: xs)).length < fuel) (cs : List Char) :
    readElement m fuel depth (writeElements (x :: xs) ++ ']' :: cs) = .ok (x :: xs, cs) := by
  obtain ⟨c, text, htext, -⟩ := exists_write_eq_cons hplain
  have hpos : 0 < x.write.length := by rw [htext]; exact Nat.succ_pos _
  rw [writeElements_cons, List.length_append] at hfuel
  cases fuel with
  | zero => omega
  | succ fuel =>
      have hmore := hxs fuel cs (by omega)
      rw [writeElements_cons, List.append_assoc, readElement, hx fuel _ (by omega)]
      simp only [hmore]

theorem recoversElements_cons {x : Json} {xs : List Json} (hx : Recovers m depth x)
    (hplain : x.Plain depth) (hxs : RecoversElements m depth xs) :
    RecoversElements m depth (x :: xs) := by
  intro fuel cs hfuel
  rw [writeMoreElements, List.length_cons] at hfuel
  cases fuel with
  | zero => omega
  | succ fuel =>
      have hrest : 2 * (writeElements (x :: xs)).length < fuel := by omega
      have hread := readElement_write hx hplain hxs hrest cs
      obtain ⟨c, text, htext, hspace, hend⟩ := exists_writeElements_eq_cons hplain xs
      rw [htext, List.cons_append] at hread
      rw [writeMoreElements, htext, List.cons_append, List.cons_append, readElements,
        skipSpace_cons (by decide)]
      simp [skipSpace_cons hspace, hend, hread]

theorem recovers_array {xs : List Json} (hdepth : 1 < depth)
    (hplain : PlainElements (depth - 1) xs)
    (hxs : ∀ x ys, xs = x :: ys → Recovers m (depth - 1) x ∧ RecoversElements m (depth - 1) ys) :
    Recovers m depth (array xs) := by
  intro fuel cs hfuel
  rw [write, List.length_append, List.length_cons, List.length_singleton] at hfuel
  cases fuel with
  | zero => omega
  | succ fuel =>
  cases fuel with
  | zero => omega
  | succ fuel =>
      have helements : readElements m (fuel + 1) (depth - 1) true (writeElements xs ++ ']' :: cs) =
          .ok (xs, cs) := by
        rw [readElements]
        cases xs with
        | nil => rfl
        | cons x ys =>
            obtain ⟨hx, hys⟩ := hxs x ys rfl
            have hrest : 2 * (writeElements (x :: ys)).length < fuel := by omega
            have hread := readElement_write hx hplain.1 hys hrest cs
            obtain ⟨c, text, htext, hspace, hend⟩ := exists_writeElements_eq_cons hplain.1 ys
            rw [htext, List.cons_append] at hread ⊢
            rw [skipSpace_cons hspace]
            simp [hread]
      rw [write, List.append_assoc, List.cons_append, List.singleton_append, readValue,
        skipSpace_cons (by decide)]
      simp only [helements]
      rw [if_neg (by omega), if_neg (by omega)]

theorem readMember_write {k : String} {v : Json} {ms : List (String × Json)}
    (hv : Recovers m depth v) (hms : RecoversMembers m depth ms)
    (hfuel : 2 * (writeMembers ((k, v) :: ms)).length < fuel) (cs : List Char) :
    ∃ text, writeMembers ((k, v) :: ms) = '"' :: text ∧
      readMember m fuel depth (text ++ '\x7d' :: cs) =
        .ok ((some k, v) :: ms.map fun e => (some e.1, e.2), cs) := by
  refine ⟨_, writeMembers_cons k v ms, ?_⟩
  rw [writeMembers_cons] at hfuel
  simp only [List.length_cons, List.length_append] at hfuel
  cases fuel with
  | zero => omega
  | succ fuel =>
      have hvalue := hv fuel (writeMoreMembers ms ++ '\x7d' :: cs) (by omega)
      have hmore := hms fuel cs (by omega)
      simp only [List.append_assoc, List.cons_append]
      rw [readMember, readText_escape]
      simp only [skipSpace_cons (show isSpace ':' = false by decide), hvalue, hmore]

theorem recoversMembers_cons {k : String} {v : Json} {ms : List (String × Json)}
    (hv : Recovers m depth v) (hms : RecoversMembers m depth ms) :
    RecoversMembers m depth ((k, v) :: ms) := by
  intro fuel cs hfuel
  rw [writeMoreMembers, List.length_cons] at hfuel
  cases fuel with
  | zero => omega
  | succ fuel =>
      have hrest : 2 * (writeMembers ((k, v) :: ms)).length < fuel := by omega
      obtain ⟨text, htext, hread⟩ := readMember_write hv hms hrest cs
      rw [writeMoreMembers, htext, List.cons_append, List.cons_append, readMembers,
        skipSpace_cons (by decide)]
      simp [skipSpace_cons (show isSpace '"' = false by decide), hread]

theorem mapM_keys (ms : List (String × Json)) :
    (ms.map fun e => (some e.1, e.2)).mapM (fun (k, v) => k.map (·, v)) = some ms := by
  induction ms with
  | nil => rfl
  | cons e ms ih =>
      rw [List.map_cons, List.mapM_cons, ih]
      rfl

theorem objectOf_of_ascending (m : Manner) {ms : List (String × Json)}
    (h : Entries.Ascending ms) :
    objectOf m (ms.map fun e => (some e.1, e.2)) = object ms := by
  unfold objectOf
  rw [mapM_keys]
  cases m with
  | strict => exact congrArg object (Entries.ofList_of_ascending h)
  | loose => rfl

theorem recovers_object {ms : List (String × Json)} (hdepth : 1 < depth)
    (hascending : Entries.Ascending ms)
    (hms : ∀ k v ns, ms = (k, v) :: ns →
      Recovers m (depth - 1) v ∧ RecoversMembers m (depth - 1) ns) :
    Recovers m depth (object ms) := by
  intro fuel cs hfuel
  rw [write, List.length_append, List.length_cons, List.length_singleton] at hfuel
  cases fuel with
  | zero => omega
  | succ fuel =>
  cases fuel with
  | zero => omega
  | succ fuel =>
      have hmembers : readMembers m (fuel + 1) (depth - 1) true (writeMembers ms ++ '\x7d' :: cs) =
          .ok (ms.map fun e => (some e.1, e.2), cs) := by
        rw [readMembers]
        cases ms with
        | nil => rfl
        | cons e ns =>
            obtain ⟨k, v⟩ := e
            obtain ⟨hv, hns⟩ := hms k v ns rfl
            have hrest : 2 * (writeMembers ((k, v) :: ns)).length < fuel := by omega
            obtain ⟨text, htext, hread⟩ := readMember_write hv hns hrest cs
            rw [htext, List.cons_append, skipSpace_cons (by decide)]
            simp [hread]
      rw [write, List.append_assoc, List.cons_append, List.singleton_append, readValue,
        skipSpace_cons (by decide)]
      simp only [hmembers]
      rw [if_neg (by omega), if_neg (by omega), objectOf_of_ascending m hascending]

mutual

/-- **A plain value is read from the front of any text that begins with its own.** -/
theorem Plain.recovers : ∀ {j : Json} {depth : Nat}, j.Plain depth → Recovers m depth j
  | null, _, _ => by
    intro fuel cs hfuel
    cases fuel with
    | zero => simp [write] at hfuel
    | succ fuel => rw [write, readValue]; rfl
  | bool true, _, _ => by
    intro fuel cs hfuel
    cases fuel with
    | zero => simp [write] at hfuel
    | succ fuel => rw [write, readValue]; rfl
  | bool false, _, _ => by
    intro fuel cs hfuel
    cases fuel with
    | zero => simp [write] at hfuel
    | succ fuel => rw [write, readValue]; rfl
  | string s, _, _ => by
    intro fuel cs hfuel
    cases fuel with
    | zero => simp [write, writeString] at hfuel
    | succ fuel =>
        rw [write, writeString, List.append_assoc, List.cons_append, List.singleton_append,
          readValue, skipSpace_cons (by decide)]
        simp only [readText_escape]
        rfl
  | array [], _, h => recovers_array h.1 trivial nofun
  | array (_ :: _), _, h => recovers_array h.1 h.2 fun _ _ heq => by
      cases heq
      exact ⟨Plain.recovers h.2.1, PlainElements.recovers h.2.2⟩
  | object [], _, h => recovers_object h.1 h.2.1 nofun
  | object ((_, _) :: _), _, h => recovers_object h.1 h.2.1 fun _ _ _ heq => by
      cases heq
      exact ⟨Plain.recovers h.2.2.1, PlainMembers.recovers h.2.2.2⟩

theorem PlainElements.recovers : ∀ {xs : List Json} {depth : Nat}, PlainElements depth xs →
    RecoversElements m depth xs
  | [], _, _ => by
    intro fuel cs hfuel
    cases fuel with
    | zero => omega
    | succ fuel => rw [writeMoreElements, readElements]; rfl
  | _ :: _, _, h => recoversElements_cons (Plain.recovers h.1) h.1 (PlainElements.recovers h.2)

theorem PlainMembers.recovers : ∀ {ms : List (String × Json)} {depth : Nat},
    PlainMembers depth ms → RecoversMembers m depth ms
  | [], _, _ => by
    intro fuel cs hfuel
    cases fuel with
    | zero => omega
    | succ fuel => rw [writeMoreMembers, readMembers]; rfl
  | (_, _) :: _, _, h => recoversMembers_cons (Plain.recovers h.1) (PlainMembers.recovers h.2)

end

/-! ### Whole texts -/

variable {j k : Json}

theorem readAll_write (m : Manner) (h : j.Plain 128) : readAll m j.write = .ok j := by
  have hread := h.recovers (m := m) (2 * j.write.length + 2) [] (by omega)
  rw [List.append_nil] at hread
  simp only [readAll, hread]
  rfl

/-- **What is rendered is read again.** -/
theorem read_render (h : j.Plain 128) : read j.render = .ok j := by
  simp only [read, render, String.toList_ofList, readAll_write _ h]

theorem readLoosely?_render (h : j.Plain 128) : readLoosely? j.render = some j := by
  simp only [readLoosely?, render, String.toList_ofList, readAll_write _ h]
  rfl

/-- The text tells plain values apart. -/
theorem render_injective (hj : j.Plain 128) (hk : k.Plain 128) (h : j.render = k.render) :
    j = k := by
  have hread := read_render hj
  rw [h, read_render hk] at hread
  exact (Except.ok.inj hread).symm

end Conveyor.Json
