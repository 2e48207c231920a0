import Mathlib.Algebra.BigOperators.Intervals
import Mathlib.Algebra.Order.BigOperators.Group.Finset
import Mathlib.Data.Nat.Count
import Mathlib.Tactic.IntervalCases

/-!
# ISO 8601 timestamps

The proleptic Gregorian calendarand the text of an instant in UTC.
-/

namespace Iso8601

open List

/-! ## The calendar -/

def IsLeap (y : ℕ) : Prop := y % 4 = 0 ∧ (y % 100 = 0 → y % 400 = 0)

instance : DecidablePred IsLeap := fun _ => inferInstanceAs (Decidable (_ ∧ _))

def monthLength (y m : ℕ) : ℕ :=
  if m = 2 then if IsLeap y then 29 else 28
  else if m = 4 ∨ m = 6 ∨ m = 9 ∨ m = 11 then 30 else 31

lemma monthLength_pos (y m : ℕ) : 1 ≤ monthLength y m := by
  unfold monthLength
  split_ifs <;> omega

structure Date where
  year : ℕ
  month : ℕ
  day : ℕ
  month_range : 1 ≤ month ∧ month ≤ 12
  day_range : 1 ≤ day ∧ day ≤ monthLength year month

namespace Date

/-- The calendar goes on from one day to the next. -/
def tomorrow (d : Date) : Date :=
  if h : d.day < monthLength d.year d.month then
    ⟨d.year, d.month, d.day + 1, d.month_range, Nat.le_add_left 1 _, h⟩
  else if h : d.month < 12 then
    ⟨d.year, d.month + 1, 1, ⟨Nat.le_add_left 1 _, h⟩, le_rfl, monthLength_pos _ _⟩
  else ⟨d.year + 1, 1, 1, ⟨le_rfl, Nat.le_add_left 1 11⟩, le_rfl, monthLength_pos _ _⟩

/-- The number of a day; 1 January of the year 0 has the number 1. -/
def ordinal (d : Date) : ℕ :=
  365 * d.year + Nat.count IsLeap d.year + ∑ m ∈ Finset.Ico 1 d.month, monthLength d.year m + d.day

end Date

lemma sum_monthLength (y : ℕ) :
    ∑ m ∈ Finset.Ico 1 13, monthLength y m = 365 + if IsLeap y then 1 else 0 := by
  by_cases h : IsLeap y <;> simp [Finset.sum_Ico_succ_top, monthLength, h]

/-- The number of a day, in closed form. -/
lemma Date.ordinal_tomorrow (d : Date) : d.tomorrow.ordinal = d.ordinal + 1 := by
  have hmonth := d.month_range
  have hday := d.day_range
  unfold tomorrow
  split_ifs with hlt hmonth'
  · simp only [ordinal]
    omega
  · -- the first of the next month
    simp only [ordinal, Finset.sum_Ico_succ_top hmonth.1]
    omega
  · -- the first of the next year
    have h12 : d.month = 12 := by omega
    have hyear := sum_monthLength d.year
    rw [Finset.sum_Ico_succ_top (by omega)] at hyear
    simp only [ordinal, Nat.count_succ, Finset.Ico_self, Finset.sum_empty, h12] at hlt hday ⊢
    omega

/-- A day is not behind the end of its year. -/
lemma Date.ordinal_le (d : Date) :
    d.ordinal ≤ 365 * (d.year + 1) + Nat.count IsLeap (d.year + 1) := by
  have hmonths : ∑ m ∈ Finset.Ico 1 (d.month + 1), monthLength d.year m ≤
      ∑ m ∈ Finset.Ico 1 13, monthLength d.year m :=
    Finset.sum_le_sum_of_subset (Finset.Ico_subset_Ico_right (Nat.succ_le_succ d.month_range.2))
  rw [Finset.sum_Ico_succ_top d.month_range.1, sum_monthLength] at hmonths
  have hday := d.day_range.2
  rw [ordinal, Nat.count_succ]
  omega

/-- The leap years before a year, from the rule. -/
lemma count_isLeap (y : ℕ) :
    Nat.count IsLeap y + (y + 99) / 100 = (y + 3) / 4 + (y + 399) / 400 := by
  induction y with
  | zero => simp
  | succ y ih =>
    rw [Nat.count_succ]
    split_ifs with h <;> unfold IsLeap at h <;> omega

variable {y w m n t y' m' d d' : ℕ}

lemma count_isLeap_eq {c : ℕ} (h : c + (y + 99) / 100 = (y + 3) / 4 + (y + 399) / 400) :
    Nat.count IsLeap y = c := by
  have hcount := count_isLeap y
  omega

lemma lt_count_isLeap_iff {c : ℕ} (hy : IsLeap y)
    (h : c + (y + 99) / 100 = (y + 3) / 4 + (y + 399) / 400) (z : ℕ) :
    c < Nat.count IsLeap z ↔ y < z := by
  rw [← count_isLeap_eq h]
  exact ⟨Nat.lt_of_count_lt_count, Nat.count_strict_mono hy⟩

/-! ## Fields of fixed width -/

/-- A number with zeros in front, up to a width. -/
def padded (w n : ℕ) : List Char := leftpad w '0' (Nat.toDigits 10 n)

lemma padded_inj : padded w m = padded w n ↔ m = n := by
  refine ⟨fun h => ?_, fun h => h ▸ rfl⟩
  have hvalue (k : ℕ) : Nat.ofDigitChars 10 (padded w k) 0 = k := by
    rw [padded, leftpad, Nat.ofDigitChars_append, Nat.ofDigitChars_replicate_zero, mul_zero,
      Nat.ofDigitChars_ten_toDigits]
  rw [← hvalue m, h, hvalue n]

lemma isDigit_of_mem_padded {c : Char} (h : c ∈ padded w n) : c.isDigit := by
  rw [padded, leftpad, mem_append] at h
  rcases h with h | h
  · rw [eq_of_mem_replicate h]
    rfl
  · exact Nat.isDigit_of_mem_toDigits (by decide) (by decide) h

lemma padded_succ (hw : 0 < w) (n : ℕ) :
    padded (w + 1) n = padded w (n / 10) ++ [Nat.digitChar (n % 10)] := by
  by_cases hn : n < 10
  · obtain ⟨w, rfl⟩ := Nat.exists_eq_succ_of_ne_zero hw.ne'
    simp [padded, leftpad, Nat.toDigits_of_lt_base hn, Nat.div_eq_of_lt hn, Nat.mod_eq_of_lt hn,
      replicate_succ']
  · simp [padded, leftpad, Nat.toDigits_of_base_le (by decide : 1 < 10) (not_lt.mp hn)]

lemma digitChar_lt_iff : ∀ m < 10, ∀ n < 10, (Nat.digitChar m < Nat.digitChar n ↔ m < n) ∧
    (Nat.digitChar m = Nat.digitChar n ↔ m = n) := by
  decide

/-- Fields of one width are in the order of their numbers. -/
lemma padded_append_lt_iff (hw : 0 < w) (hm : m < 10 ^ w) (hn : n < 10 ^ w) (s t : List Char) :
    padded w m ++ s < padded w n ++ t ↔ m < n ∨ m = n ∧ s < t := by
  induction w, hw using Nat.le_induction generalizing m n s t with
  | base =>
    rw [pow_one] at hm hn
    obtain ⟨hlt, heq⟩ := digitChar_lt_iff m hm n hn
    simp [padded, leftpad, Nat.toDigits_of_lt_base hm, Nat.toDigits_of_lt_base hn,
      cons_lt_cons_iff, hlt, heq]
  | succ w hw ih =>
    -- the last digits decide where the others are equal
    obtain ⟨hlt, heq⟩ := digitChar_lt_iff (m % 10) (by omega) (n % 10) (by omega)
    rw [pow_succ] at hm hn
    rw [padded_succ hw, padded_succ hw, append_assoc, append_assoc, ih (by omega) (by omega),
      singleton_append, singleton_append, cons_lt_cons_iff, hlt, heq]
    by_cases h : m % 10 = n % 10 <;> by_cases hst : s < t <;> simp [h, hst] <;> omega

/-- A field ends with the first character that is no digit. -/
lemma padded_append_inj {c : Char} (hc : ¬c.isDigit) {s t : List Char} :
    padded w m ++ c :: s = padded w n ++ c :: t ↔ m = n ∧ s = t := by
  have hfield (k : ℕ) (u : List Char) :
      (padded w k ++ c :: u).takeWhile Char.isDigit = padded w k := by
    rw [takeWhile_append_of_pos fun _ => isDigit_of_mem_padded, takeWhile_cons_of_neg hc,
      append_nil]
  refine ⟨fun h => ?_, fun ⟨hm, hs⟩ => hm ▸ hs ▸ rfl⟩
  have hm : m = n := padded_inj.mp (by rw [← hfield m s, h, hfield])
  subst hm
  exact ⟨rfl, (cons.inj (append_cancel_left h)).2⟩

/-- A number of more digits than the width has no zeros in front. -/
lemma padded_eq_padded_succ (h : 10 ^ w ≤ n) : padded w n = padded (w + 1) n := by
  have hlength : ¬(Nat.toDigits 10 n).length ≤ w := by
    rcases Nat.eq_zero_or_pos w with rfl | hw
    · exact Nat.not_le.mpr Nat.length_toDigits_pos
    · rw [Nat.length_toDigits_le_iff (by decide) hw]
      omega
  unfold padded leftpad
  rw [Nat.sub_eq_zero_of_le (by omega), Nat.sub_eq_zero_of_le (by omega)]

/-! ## Texts -/

def timeOfDay (millis : ℕ) : List Char :=
  padded 2 (millis / 3600000) ++ ':' :: (padded 2 (millis / 60000 % 60) ++ ':' ::
    (padded 2 (millis / 1000 % 60) ++ '.' :: (padded 3 (millis % 1000) ++ ['Z'])))

def stamp (year month day millis : ℕ) : List Char :=
  padded 4 year ++ '-' :: (padded 2 month ++ '-' :: (padded 2 day ++ 'T' :: timeOfDay millis))

def unixEpoch : Date := ⟨1970, 1, 1, ⟨le_rfl, Nat.le_add_left 1 11⟩, le_rfl, monthLength_pos _ _⟩

def dateOf (nanos : ℕ) : Date := Date.tomorrow^[nanos / 86400000000000] unixEpoch

/-- To the millisecond; a year above 9999 has a sign. -/
def utc (nanos : ℕ) : List Char :=
  let date := dateOf nanos
  let text := stamp date.year date.month date.day (nanos / 1000000 % 86400000)
  if date.year < 10000 then text else '+' :: text

lemma ordinal_unixEpoch : unixEpoch.ordinal = 719529 := by
  simp only [Date.ordinal, unixEpoch, Finset.Ico_self, Finset.sum_empty,
    count_isLeap_eq (by norm_num : 478 + (1970 + 99) / 100 = _), Nat.reduceMul, Nat.reduceAdd]

lemma ordinal_dateOf (nanos : ℕ) :
    (dateOf nanos).ordinal = unixEpoch.ordinal + nanos / 86400000000000 := by
  unfold dateOf
  induction nanos / 86400000000000 with
  | zero => rw [Function.iterate_zero_apply, add_zero]
  | succ n ih => rw [Function.iterate_succ_apply', Date.ordinal_tomorrow, ih, add_assoc]

lemma timeOfDay_lt_iff {a b : ℕ} (ha : a < 86400000) (hb : b < 86400000) :
    timeOfDay a < timeOfDay b ↔ a < b := by
  unfold timeOfDay
  rw [padded_append_lt_iff (by omega) (by omega) (by omega), cons_lt_cons_self,
    padded_append_lt_iff (by omega) (by omega) (by omega), cons_lt_cons_self,
    padded_append_lt_iff (by omega) (by omega) (by omega), cons_lt_cons_self,
    padded_append_lt_iff (by omega) (by omega) (by omega)]
  simp only [List.lt_irrefl, and_false, or_false]
  omega

lemma stamp_inj : stamp y m d t = stamp y' m' d' t ↔ y = y' ∧ m = m' ∧ d = d' := by
  unfold stamp
  rw [padded_append_inj (by decide), padded_append_inj (by decide), padded_append_inj (by decide)]
  simp only [and_true]

lemma stamp_ne_signed {s : List Char} : stamp y m d t ≠ '+' :: s := by
  intro h
  have hhead : '+' ∈ padded 4 y := by
    rcases append_eq_cons_iff.mp h with ⟨hnil, -⟩ | ⟨rest, hcons, -⟩
    · simp [padded, leftpad, Nat.toDigits_ne_nil] at hnil
    · simp [hcons]
  exact absurd (isDigit_of_mem_padded hhead) (by decide)

lemma stamp_lt_iff {t' : ℕ} (w : ℕ) (hw : 0 < w) (hy : y < 10 ^ w) (hy' : y' < 10 ^ w)
    (hwidth : padded 4 y = padded w y) (hwidth' : padded 4 y' = padded w y') (hm : m < 100)
    (hm' : m' < 100) (hd : d < 100) (hd' : d' < 100) (ht : t < 86400000) (ht' : t' < 86400000) :
    stamp y m d t < stamp y' m' d' t' ↔
      y < y' ∨ y = y' ∧ (m < m' ∨ m = m' ∧ (d < d' ∨ d = d' ∧ t < t')) := by
  unfold stamp
  rw [hwidth, hwidth', padded_append_lt_iff hw hy hy', cons_lt_cons_self,
    padded_append_lt_iff (by omega) hm hm', cons_lt_cons_self,
    padded_append_lt_iff (by omega) hd hd', cons_lt_cons_self, timeOfDay_lt_iff ht ht']

/-- A year of five digits is compared by the first four. -/
lemma stamp_lt_of_div_lt {t' : ℕ} (hy : 10000 ≤ y) (hy' : y' < 10000) (h : y / 10 < y') :
    stamp y m d t < stamp y' m' d' t' := by
  unfold stamp
  rw [padded_eq_padded_succ (w := 4) hy, padded_succ (by decide), append_assoc,
    padded_append_lt_iff (by decide) (by omega) hy']
  exact .inl h

end Iso8601
