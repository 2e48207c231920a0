import TrafficCop.Lib.Iso8601
import TrafficCop.Rust.Text

/-!
# The timestamps of the access log

`chrono_lite_now` of `middleware/builtin/access_log.rs`. Few days have the text of ISO 8601, and the
last days of each year are out of order.
-/

namespace TrafficCop.AccessLog

open Rust Iso8601 List

/-- `SystemTime::duration_since(UNIX_EPOCH)`, on a clock in nanoseconds since the epoch. -/
def durationSinceEpoch (clock : ℤ) : Option ℕ := if 0 ≤ clock then some clock.toNat else none

/-- `chrono_lite_now`, with the time that `SystemTime::now` gives. -/
def chronoLiteNow (clock : ℤ) : Text :=
  let now := (durationSinceEpoch clock).getD 0
  let secs := now / 1000000000
  let millis := now % 1000000000 / 1000000
  let daysSinceEpoch := secs / 86400
  let secsToday := secs % 86400
  let hours := secsToday / 3600
  let mins := secsToday % 3600 / 60
  let secsRemaining := secsToday % 60
  let yearsApprox := daysSinceEpoch / 365
  let year := 1970 + yearsApprox
  let dayOfYear := daysSinceEpoch % 365
  let month := min (dayOfYear / 30) 11 + 1
  let day := dayOfYear % 30 + 1
  padded 4 year ++ '-' :: (padded 2 month ++ '-' :: (padded 2 day ++ 'T' ::
    (padded 2 hours ++ ':' :: (padded 2 mins ++ ':' :: (padded 2 secsRemaining ++ '.' ::
      (padded 3 millis ++ ['Z']))))))

def days (now : ℕ) : ℕ := now / 86400000000000

/-- Years have 365 days and months have 30, and what is behind the twelfth month is written as the
beginning of that month again. -/
lemma chronoLiteNow_eq (now : ℕ) : chronoLiteNow now = stamp (1970 + days now / 365)
    (min (days now % 365 / 30) 11 + 1) (days now % 365 % 30 + 1) (now / 1000000 % 86400000) := by
  have hnow : (durationSinceEpoch now).getD 0 = now := by simp [durationSinceEpoch]
  have hdays : now / 1000000000 / 86400 = days now := Nat.div_div_eq_div_mul ..
  have hhours : now / 1000000000 % 86400 / 3600 = now / 1000000 % 86400000 / 3600000 := by omega
  have hmins : now / 1000000000 % 86400 % 3600 / 60 = now / 1000000 % 86400000 / 60000 % 60 := by
    omega
  have hsecs : now / 1000000000 % 86400 % 60 = now / 1000000 % 86400000 / 1000 % 60 := by omega
  have hmillis : now % 1000000000 / 1000000 = now / 1000000 % 86400000 % 1000 := by omega
  simp only [chronoLiteNow, hnow, hdays, hhours, hmins, hsecs, hmillis, stamp, timeOfDay]

/-! ## Right days -/

/-- The days that are written as they are: the months before April and May make up for each other,
one leap day makes up for February, and behind 26 of them December begins where the code begins
it for the second time. -/
def IsRight (date : Date) : Prop :=
  date.month = 1 ∧ date.day ≤ 30 ∧ date.year ≤ 1972 ∨
  (date.month = 4 ∨ date.month = 5) ∧ date.day ≤ 30 ∧ date.year ≤ 1971 ∨
  date.month = 3 ∧ date.day ≤ 30 ∧ 1972 ≤ date.year ∧ date.year ≤ 1975 ∨
  date.month = 12 ∧ date.day ≤ 5 ∧ 2072 ≤ date.year ∧ date.year ≤ 2075

/-- When there have been 478 leap years, one more, two more, 26 and 27. -/
lemma leapYears (z : ℕ) : let k := Nat.count IsLeap z
    (477 < k ↔ 1968 < z) ∧ (478 < k ↔ 1972 < z) ∧ (479 < k ↔ 1976 < z) ∧ (503 < k ↔ 2072 < z) ∧
      (504 < k ↔ 2076 < z) :=
  ⟨lt_count_isLeap_iff (by decide) (by norm_num) z, lt_count_isLeap_iff (by decide) (by norm_num) z,
    lt_count_isLeap_iff (by decide) (by norm_num) z,
    lt_count_isLeap_iff (by decide) (by norm_num) z,
    lt_count_isLeap_iff (by decide) (by norm_num) z⟩

lemma fields_iff (date : Date) {n : ℕ} (h : date.ordinal = unixEpoch.ordinal + n) :
    (1970 + n / 365 = date.year ∧ min (n % 365 / 30) 11 + 1 = date.month ∧
      n % 365 % 30 + 1 = date.day) ↔ IsRight date := by
  obtain ⟨y, m, d, ⟨hm, hm'⟩, hd, hd'⟩ := date
  rw [ordinal_unixEpoch, Date.ordinal] at h
  unfold IsRight
  dsimp only at h hm hm' hd hd' ⊢
  -- from March on, the leap day of the year counts
  have hyear := leapYears y
  have hnext := leapYears (y + 1)
  rw [Nat.count_succ] at hnext
  generalize Nat.count IsLeap y = k at h hyear hnext
  by_cases hleap : IsLeap y <;> interval_cases m <;>
    simp [Finset.sum_Ico_succ_top, monthLength, hleap] at h hd' hnext ⊢ <;> omega

lemma chronoLiteNow_eq_utc_iff (now : ℕ) : chronoLiteNow now = utc now ↔ IsRight (dateOf now) := by
  rw [← fields_iff (dateOf now) (ordinal_dateOf now), chronoLiteNow_eq, utc]
  by_cases hyear : (dateOf now).year < 10000
  · rw [if_pos hyear]
    exact stamp_inj
  · rw [if_neg hyear, eq_false stamp_ne_signed, false_iff]
    intro h
    have hright := (fields_iff (dateOf now) (ordinal_dateOf now)).mp h
    unfold IsRight at hright
    omega

/-! ## The order of the texts -/

/-- What the order of two texts takes: different milliseconds, years of as many digits, and no
days of one year that are written like days before them. -/
def InOrder (now later : ℕ) : Prop :=
  now / 1000000 < later / 1000000 ∧
  (days now / 365 < 8030 → days later / 365 < 8030) ∧
  ¬(days now / 365 = days later / 365 ∧ 330 ≤ days now % 365 ∧ days now % 365 < 360 ∧
    360 ≤ days later % 365 ∧ later / 1000000 ≤ now / 1000000 + 30 * 86400000)

lemma days_lt {now : ℕ} (h : (dateOf now).year ≤ 9999) : days now / 365 < 8040 := by
  have hordinal := (dateOf now).ordinal_le
  rw [ordinal_dateOf, ordinal_unixEpoch] at hordinal
  have hleap := count_isLeap ((dateOf now).year + 1)
  unfold days
  omega

lemma lt_iff_inOrder {now later : ℕ} (h : now < later) (hyear : (dateOf later).year ≤ 9999) :
    chronoLiteNow now < chronoLiteNow later ↔ InOrder now later := by
  have hbound := days_lt hyear
  have hdays (n : ℕ) : days n = n / 1000000 / 86400000 := by
    unfold days
    omega
  have hle : now / 1000000 ≤ later / 1000000 := Nat.div_le_div_right h.le
  rw [chronoLiteNow_eq, chronoLiteNow_eq, InOrder]
  rw [hdays] at hbound
  rw [hdays now, hdays later]
  generalize now / 1000000 = a at *
  generalize later / 1000000 = b at *
  by_cases hnow : a / 86400000 / 365 < 8030
  · by_cases hlater : b / 86400000 / 365 < 8030
    · rw [stamp_lt_iff 4 (by omega) (by omega) (by omega) rfl rfl (by omega) (by omega) (by omega)
        (by omega) (by omega) (by omega)]
      omega
    · -- the later year has five digits, the first of which are 1000
      refine iff_of_false (List.lt_asymm (stamp_lt_of_div_lt ?_ ?_ ?_)) ?_ <;> omega
  · rw [stamp_lt_iff 5 (by omega) (by omega) (by omega) (padded_eq_padded_succ (by omega))
      (padded_eq_padded_succ (by omega)) (by omega) (by omega) (by omega) (by omega) (by omega)
      (by omega)]
    omega

/-- **When timestamps are dates.** The text of an instant since the epoch is that of ISO 8601 on
the right days alone, 330 of them up to 1975 and twenty in the seventies of the next century; and
of two instants before the year 10000 the later one has the greater text if they are in order. -/
theorem timestamp_iff (now later : ℕ) :
    (chronoLiteNow now = utc now ↔ IsRight (dateOf now)) ∧
      (now < later → (dateOf later).year ≤ 9999 →
        (chronoLiteNow now < chronoLiteNow later ↔ InOrder now later)) :=
  ⟨chronoLiteNow_eq_utc_iff now, lt_iff_inOrder⟩

/-- **The last of January 1970 is written as the first of February**, and 14 December 2023 as the
first of that month, the day after it was the 30th. -/
theorem timestamp_wrong :
    chronoLiteNow (30 * 86400000000000) = "1970-02-01T00:00:00.000Z" ∧
      utc (30 * 86400000000000) = "1970-01-31T00:00:00.000Z" ∧
      chronoLiteNow (19704 * 86400000000000) = "2023-12-30T00:00:00.000Z" ∧
      chronoLiteNow (19705 * 86400000000000) = "2023-12-01T00:00:00.000Z" ∧
      ¬chronoLiteNow (19704 * 86400000000000) < chronoLiteNow (19705 * 86400000000000) := by
  decide +kernel

end TrafficCop.AccessLog
