import Conveyor.Time.Text
import Mathlib.Algebra.Group.Nat.Defs
import Mathlib.Data.List.TakeWhile

/-!
Instants survive the way through their text. The reader is more lenient than the writer, so one fact
carries most of the proof: a reading step that is given digits and then something else takes exactly
the digits.
-/

namespace Conveyor

/-- Text that begins with no blank has none to drop. -/
theorem Text.dropBlank_cons {c : Char} {cs : List Char} (h : isBlank c = false) :
    dropBlank (c :: cs) = c :: cs := by
  simp [dropBlank, h]

namespace Timestamp

open Text (dropBlank isBlank)

/-! ### Digits -/

theorem isDigit_eq (c : Char) : isDigit c = c.isDigit := by
  simp only [isDigit, Char.isDigit, Char.le_def]

theorem isBlank_of_isDigit {c : Char} (h : isDigit c = true) : isBlank c = false := by
  simp only [isDigit, Bool.and_eq_true, decide_eq_true_eq, Char.le_def] at h
  have hlow : 48 ≤ c.toNat := h.1
  have hhigh : c.toNat ≤ 57 := h.2
  simp only [isBlank, Bool.or_eq_false_iff, Bool.and_eq_false_iff, decide_eq_false_iff_not,
    beq_eq_false_iff_ne]
  omega

theorem digitsValue_eq (ds : List Char) : digitsValue ds = Nat.ofDigitChars 10 ds 0 := rfl

theorem isDigit_of_mem_padded {width n : Nat} {c : Char} (h : c ∈ padded width n) :
    isDigit c = true := by
  rcases List.mem_append.1 h with h | h
  · rw [List.eq_of_mem_replicate h]
    decide
  · rw [isDigit_eq]
    exact Nat.isDigit_of_mem_toDigits (by decide) (by decide) h

@[simp] theorem digitsValue_padded (width n : Nat) : digitsValue (padded width n) = n := by
  rw [digitsValue_eq, padded, Nat.ofDigitChars_append, Nat.ofDigitChars_replicate_zero,
    Nat.mul_zero, Nat.ofDigitChars_ten_toDigits]

theorem padded_ne_nil (width n : Nat) : padded width n ≠ [] :=
  List.append_ne_nil_of_right_ne_nil _ Nat.toDigits_ne_nil

theorem length_padded {width n : Nat} (hwidth : 0 < width) (h : n < 10 ^ width) :
    (padded width n).length = width := by
  have hle := (Nat.length_toDigits_le_iff (b := 10) (by decide) hwidth).2 h
  rw [padded, List.length_append, List.length_replicate]
  omega

/-! ### Reading steps -/

/-- What follows is no digit, or nothing follows. -/
def EndsDigits (cs : List Char) : Prop := ∀ c ∈ cs.head?, isDigit c = false

theorem takeWhile_isDigit {ds cs : List Char} (hds : ∀ c ∈ ds, isDigit c = true)
    (hcs : EndsDigits cs) : (ds ++ cs).takeWhile isDigit = ds := by
  rw [List.takeWhile_append_of_pos hds]
  cases cs with
  | nil => rw [List.takeWhile_nil, List.append_nil]
  | cons c cs => rw [List.takeWhile_cons_of_neg (by simp [hcs c rfl]), List.append_nil]

theorem dropWhile_isDigit {cs : List Char} (hcs : EndsDigits cs) : cs.dropWhile isDigit = cs := by
  cases cs with
  | nil => rfl
  | cons c cs => rw [List.dropWhile_cons_of_neg (by simp [hcs c rfl])]

/-- **A number takes its digits and no more.** Either they fill the width, or no digit comes after.
-/
theorem number_append {width : Nat} {ds cs : List Char} (hne : ds ≠ [])
    (hds : ∀ c ∈ ds, isDigit c = true) (hwidth : ds.length ≤ width)
    (hend : ds.length = width ∨ EndsDigits cs) (hsmall : digitsValue ds < 0x8000000000000000) :
    number width (ds ++ cs) = .ok (digitsValue ds, cs) := by
  have htake : ((ds ++ cs).take width).takeWhile isDigit = ds := by
    rcases hend with hfull | hend
    · rw [← hfull, List.take_left]
      exact List.takeWhile_eq_self_iff.2 hds
    · rw [List.take_append, List.take_of_length_le hwidth]
      refine takeWhile_isDigit hds fun c hc => hend c ?_
      cases cs with
      | nil => simp at hc
      | cons d cs =>
          cases hw : width - ds.length with
          | zero => simp [hw] at hc
          | succ k => simpa [hw] using hc
  have hcs : (ds ++ cs).isEmpty = false := by simp [hne]
  have hds' : ds.isEmpty = false := by simp [hne]
  simp only [number, htake, hcs, hds', hsmall, Bool.false_eq_true, if_false, if_true,
    List.drop_left]

theorem dropBlank_padded (width n : Nat) (cs : List Char) :
    dropBlank (padded width n ++ cs) = padded width n ++ cs := by
  cases hds : padded width n with
  | nil => exact absurd hds (padded_ne_nil width n)
  | cons d ds =>
      have hd : isDigit d = true := isDigit_of_mem_padded (hds ▸ List.mem_cons_self)
      exact Text.dropBlank_cons (isBlank_of_isDigit hd)

theorem boundedNumber_padded {least greatest n : Nat} (hleast : least ≤ n)
    (hgreatest : n ≤ greatest) (hn : n < 100) (cs : List Char) :
    boundedNumber least greatest (padded 2 n ++ cs) = .ok (n, cs) := by
  have hlength : (padded 2 n).length = 2 := length_padded (by decide) hn
  rw [boundedNumber, dropBlank_padded, number_append (padded_ne_nil 2 n)
    (fun _ => isDigit_of_mem_padded) (Nat.le_of_eq hlength) (.inl hlength)
    (by rw [digitsValue_padded]; omega), digitsValue_padded]
  exact if_pos ⟨hleast, hgreatest⟩

theorem separator_cons {c : Char} (h : isBlank c = false) (cs : List Char) :
    separator c (c :: cs) = .ok cs := by
  rw [separator, Text.dropBlank_cons h]
  exact if_pos rfl

theorem endsDigits_cons {c : Char} (h : isDigit c = false) (cs : List Char) :
    EndsDigits (c :: cs) := by
  rintro d ⟨⟩
  exact h

/-! ### The parts of the text -/

/-- Without a sign a year is a number of four digits. -/
theorem year_of_isDigit {d : Char} {ds : List Char} (h : isDigit d = true) {n : Nat}
    {rest : List Char} (hnumber : number 4 (d :: ds) = .ok (n, rest)) (hn : n < 0x80000000) :
    year (d :: ds) = .ok ((n : Int), rest) := by
  unfold year
  rw [Text.dropBlank_cons (isBlank_of_isDigit h)]
  split
  · next heq =>
    cases heq
    exact absurd h (by decide)
  · next heq =>
    cases heq
    exact absurd h (by decide)
  · have hrange : -0x80000000 ≤ (n : Int) ∧ (n : Int) < 0x80000000 := by omega
    simp only [hnumber, Except.map, bind, Except.bind, hrange, and_self, if_true]

theorem year_of_sign {ds rest : List Char} {n : Nat} (hnumber : number ds.length ds = .ok (n, rest))
    (hn : n < 0x80000000) :
    year ('-' :: ds) = .ok (-(n : Int), rest) ∧ year ('+' :: ds) = .ok ((n : Int), rest) := by
  unfold year
  rw [Text.dropBlank_cons (by decide), Text.dropBlank_cons (by decide)]
  constructor
  · have hrange : -0x80000000 ≤ -(n : Int) ∧ -(n : Int) < 0x80000000 := by omega
    simp only [hnumber, Except.map, bind, Except.bind, hrange, and_self, if_true]
  · have hrange : -0x80000000 ≤ (n : Int) ∧ (n : Int) < 0x80000000 := by omega
    simp only [hnumber, Except.map, bind, Except.bind, hrange, and_self, if_true]

theorem year_yearText {y : Int} (h : firstYear ≤ y ∧ y ≤ lastYear) {c : Char}
    (hc : isDigit c = false) (cs : List Char) :
    year (yearText y ++ c :: cs) = .ok (y, c :: cs) := by
  obtain ⟨hfirst, hlast⟩ := h
  unfold firstYear at hfirst
  unfold lastYear at hlast
  have hend := endsDigits_cons hc cs
  have hnumber (width n : Nat) (hn : n < 0x80000000) (hwidth : (padded 4 n).length ≤ width) :
      number width (padded 4 n ++ c :: cs) = .ok (n, c :: cs) := by
    rw [number_append (padded_ne_nil 4 n) (fun _ => isDigit_of_mem_padded) hwidth (.inr hend)
      (by rw [digitsValue_padded]; omega), digitsValue_padded]
  unfold yearText
  split
  · next hfour =>
    have hlength : (padded 4 y.toNat).length = 4 := length_padded (by decide) (by omega)
    have hread := hnumber 4 y.toNat (by omega) (Nat.le_of_eq hlength)
    obtain ⟨d, ds, hds⟩ := List.exists_cons_of_ne_nil (padded_ne_nil 4 y.toNat)
    have hd : isDigit d = true := isDigit_of_mem_padded (hds ▸ List.mem_cons_self)
    rw [hds, List.cons_append] at hread
    rw [hds, List.cons_append, year_of_isDigit hd hread (by omega), Int.toNat_of_nonneg hfour.1]
  · next hsigned =>
    have hread := hnumber (padded 4 y.natAbs ++ c :: cs).length y.natAbs (by omega)
      (by rw [List.length_append]; omega)
    obtain ⟨hminus, hplus⟩ := year_of_sign hread (by omega)
    split
    · next hnegative =>
      rw [List.cons_append, hminus, show -(y.natAbs : Int) = y by omega]
    · next hpositive =>
      rw [List.cons_append, hplus, show (y.natAbs : Int) = y by omega]

/-- The fraction of a second, up to the end of the number. -/
theorem fraction_point {width n : Nat} (hwidth : 0 < width) (hwidth' : width ≤ 9)
    (hn : n < 10 ^ width) {c : Char} (hc : isDigit c = false) (cs : List Char) :
    fraction ('.' :: (padded width n ++ c :: cs)) = .ok (n * 10 ^ (9 - width), c :: cs) := by
  have hlength : (padded width n).length = width := length_padded hwidth hn
  have hsmall : n < 0x8000000000000000 := by
    have hpow : 10 ^ width ≤ 10 ^ 9 := Nat.pow_le_pow_right (by decide) hwidth'
    omega
  have hread : number 9 (padded width n ++ c :: cs) = .ok (n, c :: cs) := by
    rw [number_append (padded_ne_nil width n) (fun _ => isDigit_of_mem_padded)
      (by rw [hlength]; exact hwidth') (.inr (endsDigits_cons hc cs))
      (by rw [digitsValue_padded]; exact hsmall), digitsValue_padded]
  have hdropped : (c :: cs).dropWhile isDigit = c :: cs := dropWhile_isDigit (endsDigits_cons hc cs)
  have hdigits : (padded width n ++ c :: cs).length - (c :: cs).length = width := by
    rw [List.length_append, hlength, Nat.add_sub_cancel]
  rw [fraction]
  simp only [hread, bind, Except.bind, hdropped, hdigits]
  rfl

/-- An instant needs a fraction only when it is within a second. -/
theorem fraction_fractionText {n : Nat} (hn : n < nanosecondsPerSecond) :
    fraction (fractionText n ++ ['Z']) = .ok (n, ['Z']) := by
  unfold nanosecondsPerSecond at hn
  unfold fractionText
  split
  · next hzero =>
    rw [hzero]
    rfl
  split
  · next hmilli =>
    rw [List.cons_append, fraction_point (by decide) (by decide) (by omega) (by decide)]
    rw [show n / 1000000 * 10 ^ (9 - 3) = n by omega]
  split
  · next hmicro =>
    rw [List.cons_append, fraction_point (by decide) (by decide) (by omega) (by decide)]
    rw [show n / 1000 * 10 ^ (9 - 6) = n by omega]
  · rw [List.cons_append, fraction_point (by decide) (by decide) (by omega) (by decide)]
    rw [show n * 10 ^ (9 - 9) = n by omega]

theorem ofYMD?_eq (d : Date) : Date.ofYMD? d.year d.month d.day = some d :=
  dif_pos d.isDay

theorem assemble_parts (t : Timestamp) :
    assemble t.date.year t.date.month t.date.day t.hour t.minute t.second t.nanosecond 0 =
      .ok t := by
  have hminutes : 60 * t.hour + t.minute = t.minuteOfDay := Nat.div_add_mod _ _
  have hlt := t.minuteOfDay_lt
  have hparts : ofParts? t.date t.minuteOfDay t.second t.nanosecond = some t :=
    dif_pos ⟨t.minuteOfDay_lt, t.second_le, t.nanosecond_lt⟩
  have hlocal : ofLocal? t.date t.minuteOfDay t.second t.nanosecond 0 = some t := by
    unfold ofLocal?
    simp only [Int.sub_zero, Int.toNat_natCast]
    rw [if_neg (by omega), if_pos (by omega), hparts]
  simp only [assemble, ofYMD?_eq, hminutes, hlocal]
  rfl

/-- The text of an instant is read up to the fraction of its second, which may be any. -/
theorem ofChars_secondsText (t : Timestamp) {n : Nat} {cs : List Char}
    (hfraction : fraction cs = .ok (n, ['Z'])) :
    ofChars (t.secondsText ++ cs) =
      assemble t.date.year t.date.month t.date.day t.hour t.minute t.second n 0 := by
  obtain ⟨hyear, hmonth, hday⟩ := t.date.isDay
  have hdays : daysInMonth t.date.year t.date.month ≤ 31 := by
    unfold daysInMonth
    repeat' split
    all_goals omega
  have hhour : t.hour ≤ 23 := by
    have hlt := t.minuteOfDay_lt
    unfold minutesPerDay at hlt
    unfold hour
    omega
  have hminute : t.minute ≤ 59 := by
    unfold minute
    omega
  have hsecond := t.second_le
  have hyear' := fun cs => year_yearText hyear (by decide : isDigit '-' = false) cs
  have hmonth' := boundedNumber_padded hmonth.1 hmonth.2 (by omega)
  have hday' := boundedNumber_padded hday.1 (hday.2.trans hdays) (by omega)
  have hhour' := boundedNumber_padded (Nat.zero_le _) hhour (by omega)
  have hminute' := boundedNumber_padded (Nat.zero_le _) hminute (by omega)
  have hsecond' := boundedNumber_padded (Nat.zero_le _) hsecond (by omega)
  have hdash := separator_cons (by decide : Text.isBlank '-' = false)
  have hcolon := separator_cons (by decide : Text.isBlank ':' = false)
  have hdate (cs : List Char) : dateEnd ('T' :: cs) = .ok cs := rfl
  have hoffset : offset ['Z'] = .ok (0, []) := rfl
  simp only [ofChars, secondsText, List.append_assoc, List.cons_append, bind, Except.bind, hyear',
    hdash, hmonth', hday', hdate, hhour', hcolon, hminute', hsecond', hfraction, hoffset]
  rfl

/-- **Reading takes back what writing gave.** -/
theorem ofText_toText (t : Timestamp) : ofText t.toText = .ok t := by
  rw [ofText, toText, String.toList_ofList, List.append_assoc,
    ofChars_secondsText t (fraction_fractionText t.nanosecond_lt)]
  exact assemble_parts t

/-- The instant at the beginning of the second. -/
def wholeSeconds (t : Timestamp) : Timestamp :=
  { t with nanosecond := 0, nanosecond_lt := Nat.zero_lt_of_lt t.nanosecond_lt }

theorem toTextWholeSeconds_wholeSeconds (t : Timestamp) :
    t.wholeSeconds.toTextWholeSeconds = t.toTextWholeSeconds := rfl

/-- A text without a fraction is read as the beginning of the second. -/
theorem ofText_toTextWholeSeconds (t : Timestamp) :
    ofText t.toTextWholeSeconds = .ok t.wholeSeconds := by
  have hfraction : fraction ['Z'] = .ok (0, ['Z']) := rfl
  rw [ofText, toTextWholeSeconds, String.toList_ofList, ofChars_secondsText t hfraction]
  exact assemble_parts t.wholeSeconds

end Timestamp

end Conveyor
