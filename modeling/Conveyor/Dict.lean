/-!
Finite maps with one written form. A `Dict` holds its entries in strictly ascending key order, so
two dictionaries with the same look-ups are equal (`Dict.ext`), and iteration order is the order of
keys. The list operations are stated for bare entry lists first, since JSON objects keep bare lists.
-/

namespace Conveyor

/-- A type whose `<` is a decidable strict total order, as the keys of a dictionary need. -/
class KeyOrder (κ : Type) extends LT κ where
  decidableLt : DecidableRel (α := κ) (· < ·)
  irrefl : ∀ a : κ, ¬ a < a
  trans : ∀ {a b c : κ}, a < b → b < c → a < c
  trichotomous : ∀ {a b : κ}, ¬ a < b → ¬ b < a → a = b

instance instDecidableRelLt {κ : Type} [KeyOrder κ] : DecidableRel (α := κ) (· < ·) :=
  KeyOrder.decidableLt

instance : KeyOrder String where
  decidableLt := inferInstance
  irrefl := String.lt_irrefl
  trans := String.lt_trans
  trichotomous h k := String.le_antisymm (String.not_lt.1 k) (String.not_lt.1 h)

namespace Entries

variable {κ α : Type} [KeyOrder κ]

/-- Keys strictly ascend from entry to entry. -/
def Ascending (es : List (κ × α)) : Prop := es.Pairwise fun a b => a.1 < b.1

/-- The value at a key of an ascending list. -/
def get? (k : κ) : List (κ × α) → Option α
  | [] => none
  | (l, a) :: es => if l < k then get? k es else if k < l then none else some a

/-- Puts a value at a key, over an earlier one. -/
def insert (k : κ) (a : α) : List (κ × α) → List (κ × α)
  | [] => [(k, a)]
  | (l, b) :: es =>
    if l < k then (l, b) :: insert k a es
    else if k < l then (k, a) :: (l, b) :: es
    else (k, a) :: es

/-- Takes a key out. -/
def erase (k : κ) : List (κ × α) → List (κ × α)
  | [] => []
  | (l, b) :: es =>
    if l < k then (l, b) :: erase k es else if k < l then (l, b) :: es else es

/-- Inserts from left to right, so that the last of several values for a key stays. -/
def ofList (es : List (κ × α)) : List (κ × α) := es.foldl (fun m e => insert e.1 e.2 m) []

theorem ascending_nil : Ascending ([] : List (κ × α)) := List.Pairwise.nil

theorem ascending_cons {e : κ × α} {es : List (κ × α)} :
    Ascending (e :: es) ↔ (∀ f ∈ es, e.1 < f.1) ∧ Ascending es := List.pairwise_cons

theorem mem_insert {k : κ} {a : α} {es : List (κ × α)} {e : κ × α} (h : e ∈ insert k a es) :
    e = (k, a) ∨ e ∈ es := by
  induction es with
  | nil => simpa [insert] using h
  | cons f es ih =>
    simp only [insert] at h
    split at h
    · rcases List.mem_cons.1 h with rfl | h
      · simp
      · rcases ih h with h | h <;> simp [h]
    · split at h
      · simpa using h
      · rcases List.mem_cons.1 h with h | h <;> simp [h]

theorem mem_of_mem_erase {k : κ} {es : List (κ × α)} {e : κ × α} (h : e ∈ erase k es) : e ∈ es := by
  induction es with
  | nil => simp [erase] at h
  | cons f es ih =>
    simp only [erase] at h
    split at h
    · rcases List.mem_cons.1 h with rfl | h
      · simp
      · simp [ih h]
    · split at h
      · exact h
      · simp [h]

theorem ascending_insert {k : κ} {a : α} {es : List (κ × α)} (h : Ascending es) :
    Ascending (insert k a es) := by
  induction es with
  | nil => simp [insert, Ascending]
  | cons f es ih =>
    obtain ⟨hf, hes⟩ := ascending_cons.1 h
    simp only [insert]
    split
    · next hk =>
      refine ascending_cons.2 ⟨fun e he => ?_, ih hes⟩
      rcases mem_insert he with rfl | he
      · exact hk
      · exact hf e he
    · split
      · next hk =>
        refine ascending_cons.2 ⟨fun e he => ?_, h⟩
        rcases List.mem_cons.1 he with rfl | he
        · exact hk
        · exact KeyOrder.trans hk (hf e he)
      · next h₁ h₂ =>
        have hk : f.1 = k := KeyOrder.trichotomous h₁ h₂
        exact ascending_cons.2 ⟨fun e he => hk ▸ hf e he, hes⟩

theorem ascending_erase {k : κ} {es : List (κ × α)} (h : Ascending es) :
    Ascending (erase k es) := by
  induction es with
  | nil => simp [erase, Ascending]
  | cons f es ih =>
    obtain ⟨hf, hes⟩ := ascending_cons.1 h
    simp only [erase]
    split
    · exact ascending_cons.2 ⟨fun e he => hf e (mem_of_mem_erase he), ih hes⟩
    · split
      · exact h
      · exact hes

theorem ascending_ofList (es : List (κ × α)) : Ascending (ofList es) := by
  suffices h : ∀ (m : List (κ × α)), Ascending m →
      Ascending (es.foldl (fun m e => insert e.1 e.2 m) m) from h [] ascending_nil
  induction es with
  | nil => exact fun m hm => hm
  | cons e es ih => exact fun m hm => ih _ (ascending_insert hm)

theorem get?_eq_none_of_lt {k : κ} {es : List (κ × α)} (h : ∀ e ∈ es, k < e.1) :
    get? k es = none := by
  cases es with
  | nil => rfl
  | cons e es =>
    have hk := h e (by simp)
    have hn : ¬ e.1 < k := fun h' => KeyOrder.irrefl _ (KeyOrder.trans hk h')
    simp [get?, hk, hn]

theorem get?_insert [DecidableEq κ] {k l : κ} {a : α} {es : List (κ × α)} (h : Ascending es) :
    get? l (insert k a es) = if k = l then some a else get? l es := by
  induction es with
  | nil =>
    by_cases hkl : k = l
    · subst hkl; simp [insert, get?, KeyOrder.irrefl]
    · have : k < l ∨ l < k := by
        by_cases h₁ : k < l
        · exact .inl h₁
        · by_cases h₂ : l < k
          · exact .inr h₂
          · exact absurd (KeyOrder.trichotomous h₁ h₂) hkl
      rcases this with h₁ | h₁
      · simp [insert, get?, h₁, hkl]
      · have h₂ : ¬ k < l := fun h₂ => KeyOrder.irrefl _ (KeyOrder.trans h₁ h₂)
        simp [insert, get?, h₁, h₂, hkl]
  | cons f es ih =>
    obtain ⟨hf, hes⟩ := ascending_cons.1 h
    simp only [insert]
    split
    · next hfk =>
      by_cases hfl : f.1 < l
      · simp [get?, hfl, ih hes]
      · have hkl : k ≠ l := fun e => hfl (e ▸ hfk)
        simp [get?, hfl, hkl]
    · next h₁ =>
      split
      · next hkf =>
        by_cases hkl : k = l
        · subst hkl; simp [get?, KeyOrder.irrefl]
        · by_cases hk : k < l
          · simp [get?, hk, hkl]
          · have hl : l < k := by
              by_cases h₂ : l < k
              · exact h₂
              · exact absurd (KeyOrder.trichotomous hk h₂) hkl
            have hlf : l < f.1 := KeyOrder.trans hl hkf
            have hfl : ¬ f.1 < l := fun h₂ => KeyOrder.irrefl _ (KeyOrder.trans h₂ hlf)
            simp [get?, hk, hl, hkl, hlf, hfl]
      · next h₂ =>
        have hk : f.1 = k := KeyOrder.trichotomous h₁ h₂
        by_cases hkl : k = l
        · subst hkl; simp [get?, KeyOrder.irrefl]
        · simp only [get?, hkl, if_false, hk]
          split
          · rfl
          · split
            · rfl
            · next h₃ h₄ => exact absurd (KeyOrder.trichotomous h₃ h₄) hkl

theorem get?_erase [DecidableEq κ] {k l : κ} {es : List (κ × α)} (h : Ascending es) :
    get? l (erase k es) = if k = l then none else get? l es := by
  induction es with
  | nil => simp [erase, get?]
  | cons f es ih =>
    obtain ⟨hf, hes⟩ := ascending_cons.1 h
    simp only [erase]
    split
    · next hfk =>
      by_cases hfl : f.1 < l
      · simp [get?, hfl, ih hes]
      · have hkl : k ≠ l := fun e => hfl (e ▸ hfk)
        simp [get?, hfl, hkl]
    · next h₁ =>
      split
      · next hkf =>
        by_cases hkl : k = l
        · subst hkl; simp [get?, hkf, h₁]
        · simp [hkl]
      · next h₂ =>
        have hk : f.1 = k := KeyOrder.trichotomous h₁ h₂
        by_cases hkl : k = l
        · subst hkl
          simp only [if_true]
          exact get?_eq_none_of_lt fun e he => hk ▸ hf e he
        · simp only [get?, hkl, if_false, hk]
          by_cases hk' : k < l
          · simp [hk']
          · have hl : l < k := by
              by_cases h₃ : l < k
              · exact h₃
              · exact absurd (KeyOrder.trichotomous hk' h₃) hkl
            simp only [hk', if_false, hl, if_true]
            exact get?_eq_none_of_lt fun e he => KeyOrder.trans hl (hk ▸ hf e he)

theorem get?_of_mem {e : κ × α} {es : List (κ × α)} (h : Ascending es) (he : e ∈ es) :
    get? e.1 es = some e.2 := by
  induction es with
  | nil => simp at he
  | cons f es ih =>
    obtain ⟨hf, hes⟩ := ascending_cons.1 h
    rcases List.mem_cons.1 he with rfl | he
    · simp [get?, KeyOrder.irrefl]
    · simp [get?, hf e he, ih hes he]

theorem mem_of_get? {k : κ} {a : α} {es : List (κ × α)} (h : get? k es = some a) : (k, a) ∈ es := by
  induction es with
  | nil => simp [get?] at h
  | cons f es ih =>
    simp only [get?] at h
    split at h
    · simp [ih h]
    · next h₁ =>
      split at h
      · simp at h
      · next h₂ =>
        have hk : f.1 = k := KeyOrder.trichotomous h₁ h₂
        have ha : f.2 = a := by simpa using h
        simp [← hk, ← ha]

/-- Ascending lists with the same look-ups are the same list. -/
theorem eq_of_get? {es fs : List (κ × α)} (he : Ascending es) (hf : Ascending fs)
    (h : ∀ k, get? k es = get? k fs) : es = fs := by
  induction es generalizing fs with
  | nil =>
    cases fs with
    | nil => rfl
    | cons f fs =>
      have := h f.1
      rw [get?_of_mem hf (by simp : f ∈ f :: fs)] at this
      simp [get?] at this
  | cons e es ih =>
    cases fs with
    | nil =>
      have := h e.1
      rw [get?_of_mem he (by simp : e ∈ e :: es)] at this
      simp [get?] at this
    | cons f fs =>
      obtain ⟨he', hes⟩ := ascending_cons.1 he
      obtain ⟨hf', hfs⟩ := ascending_cons.1 hf
      have h₁ : get? e.1 (f :: fs) = some e.2 := by
        rw [← h, get?_of_mem he (by simp : e ∈ e :: es)]
      have h₂ : get? f.1 (e :: es) = some f.2 := by
        rw [h, get?_of_mem hf (by simp : f ∈ f :: fs)]
      have hlt₁ : ¬ e.1 < f.1 := fun hlt => by
        have hn : ¬ f.1 < e.1 := fun h' => KeyOrder.irrefl _ (KeyOrder.trans hlt h')
        simp [get?, hlt, hn] at h₁
      have hlt₂ : ¬ f.1 < e.1 := fun hlt => by
        have hn : ¬ e.1 < f.1 := fun h' => KeyOrder.irrefl _ (KeyOrder.trans hlt h')
        simp [get?, hlt, hn] at h₂
      have hk : e.1 = f.1 := KeyOrder.trichotomous hlt₁ hlt₂
      have hv : f.2 = e.2 := by simpa [get?, hk, KeyOrder.irrefl] using h₁
      have hef : e = f := Prod.ext hk hv.symm
      subst hef
      refine congrArg _ (ih hes hfs fun k => ?_)
      by_cases hlt : e.1 < k
      · simpa [get?, hlt] using h k
      · have aux : ∀ gs : List (κ × α), (∀ g ∈ gs, e.1 < g.1) → get? k gs = none := fun gs hgs => by
          cases hg : get? k gs with
          | none => rfl
          | some b => exact absurd (hgs _ (mem_of_get? hg)) hlt
        rw [aux es he', aux fs hf']

end Entries

/-- A finite map from keys to values. -/
structure Dict (κ α : Type) [KeyOrder κ] where
  toList : List (κ × α)
  ascending : Entries.Ascending toList

namespace Dict

variable {κ α : Type} [KeyOrder κ]

instance [DecidableEq κ] [DecidableEq α] : DecidableEq (Dict κ α) := fun d e =>
  if h : d.toList = e.toList then
    isTrue (by cases d; cases e; cases h; rfl)
  else isFalse fun hde => h (hde ▸ rfl)

def empty : Dict κ α := ⟨[], Entries.ascending_nil⟩

instance : EmptyCollection (Dict κ α) := ⟨empty⟩

instance : Inhabited (Dict κ α) := ⟨empty⟩

def get? (d : Dict κ α) (k : κ) : Option α := Entries.get? k d.toList

def contains (d : Dict κ α) (k : κ) : Bool := (d.get? k).isSome

def insert (d : Dict κ α) (k : κ) (a : α) : Dict κ α :=
  ⟨Entries.insert k a d.toList, Entries.ascending_insert d.ascending⟩

def erase (d : Dict κ α) (k : κ) : Dict κ α :=
  ⟨Entries.erase k d.toList, Entries.ascending_erase d.ascending⟩

def ofList (es : List (κ × α)) : Dict κ α := ⟨Entries.ofList es, Entries.ascending_ofList es⟩

def singleton (k : κ) (a : α) : Dict κ α := (∅ : Dict κ α).insert k a

/-- All entries of both; where both have a key, the value of the second. -/
def extend (d e : Dict κ α) : Dict κ α := e.toList.foldl (fun m f => m.insert f.1 f.2) d

def keys (d : Dict κ α) : List κ := d.toList.map (·.1)

def values (d : Dict κ α) : List α := d.toList.map (·.2)

@[simp] theorem get?_empty (k : κ) : (∅ : Dict κ α).get? k = none := rfl

theorem get?_insert [DecidableEq κ] (d : Dict κ α) (k l : κ) (a : α) :
    (d.insert k a).get? l = if k = l then some a else d.get? l :=
  Entries.get?_insert d.ascending

theorem get?_erase [DecidableEq κ] (d : Dict κ α) (k l : κ) :
    (d.erase k).get? l = if k = l then none else d.get? l :=
  Entries.get?_erase d.ascending

theorem ext {d e : Dict κ α} (h : ∀ k, d.get? k = e.get? k) : d = e := by
  have := Entries.eq_of_get? d.ascending e.ascending h
  cases d; cases e; cases this; rfl

theorem mem_toList {d : Dict κ α} {k : κ} {a : α} : (k, a) ∈ d.toList ↔ d.get? k = some a :=
  ⟨Entries.get?_of_mem d.ascending, Entries.mem_of_get?⟩

end Dict

/-- A finite set of names. -/
abbrev NameSet := Dict String Unit

end Conveyor
