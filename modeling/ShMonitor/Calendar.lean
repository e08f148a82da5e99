import Mathlib.Data.Int.Notation
import Mathlib.Tactic.Common

/-! The Gregorian calendar, carried on in both directions: dates as days from 1 January 1970. A year
begins in March here, so that the leap day is its last one; 400 years are an era. -/

namespace ShMonitor.Calendar

structure Date where
  year : ℤ
  month : ℤ
  day : ℤ
  deriving DecidableEq

def monthStart (m : ℤ) : ℤ := (153 * m + 2) / 5

def yearStart (y : ℤ) : ℤ := 365 * y + y / 4 - y / 100

def marchStart (y : ℤ) : ℤ := 146097 * (y / 400) + yearStart (y % 400)

/-- The day number of a date; a day beyond its month's end counts on into the next month. -/
def dayNumber (date : Date) : ℤ :=
  let year := if date.month ≤ 2 then date.year - 1 else date.year
  let month := if date.month ≤ 2 then date.month + 9 else date.month - 3
  marchStart year + monthStart month + date.day - 719469

def yearOfEra (n : ℤ) : ℤ :=
  let century := min 3 (n / 36524)
  let n := n - 36524 * century
  100 * century + 4 * (n / 1461) + min 3 (n % 1461 / 365)

def date (n : ℤ) : Date :=
  let n := n + 719468
  let year := yearOfEra (n % 146097)
  let n' := n % 146097 - yearStart year
  let month := (5 * n' + 2) / 153
  { year := 400 * (n / 146097) + year + if month < 10 then 0 else 1
    month := if month < 10 then month + 3 else month - 9
    day := n' - monthStart month + 1 }

lemma yearStart_parts {c q a : ℤ} (hq : 0 ≤ q) (hq' : q < 25) (ha : 0 ≤ a) (ha' : a < 4) :
    yearStart (100 * c + 4 * q + a) = 36524 * c + 1461 * q + 365 * a := by
  have hfour : (100 * c + 4 * q + a) / 4 = 25 * c + q := by omega
  have hhundred : (100 * c + 4 * q + a) / 100 = c := by omega
  rw [yearStart, hfour, hhundred]
  omega

lemma yearOfEra_bounds {n : ℤ} (h : 0 ≤ n) (h' : n < 146097) :
    0 ≤ yearOfEra n ∧ yearOfEra n < 400 ∧ yearStart (yearOfEra n) ≤ n ∧ n ≤ yearStart (yearOfEra n) + 365 := by
  rw [yearOfEra]
  obtain ⟨c, hc⟩ : ∃ c, c = min 3 (n / 36524) := ⟨_, rfl⟩
  obtain ⟨r, hr⟩ : ∃ r, r = n - 36524 * c := ⟨_, rfl⟩
  have hcentury : 0 ≤ c ∧ c ≤ 3 ∧ 0 ≤ r ∧ r < 36525 := by omega
  obtain ⟨q, hq⟩ : ∃ q, q = r / 1461 := ⟨_, rfl⟩
  obtain ⟨a, ha⟩ : ∃ a, a = min 3 (r % 1461 / 365) := ⟨_, rfl⟩
  have hquad : 0 ≤ q ∧ q < 25 := by omega
  have hyear : 0 ≤ a ∧ a < 4 := by omega
  rw [← hc, ← hr, ← hq, ← ha, yearStart_parts hquad.1 hquad.2 hyear.1 hyear.2]
  omega

lemma monthStart_bounds {n : ℤ} (h : 0 ≤ n) (h' : n ≤ 365) :
    0 ≤ (5 * n + 2) / 153 ∧ (5 * n + 2) / 153 < 12 ∧
      monthStart ((5 * n + 2) / 153) ≤ n ∧ n ≤ monthStart ((5 * n + 2) / 153) + 30 := by
  rw [monthStart]
  omega

lemma marchStart_era {e y : ℤ} (hy : 0 ≤ y) (hy' : y < 400) :
    marchStart (400 * e + y) = 146097 * e + yearStart y := by
  have hera : (400 * e + y) / 400 = e := by omega
  have hyear : (400 * e + y) % 400 = y := by omega
  rw [marchStart, hera, hyear]

lemma marchStart_step {y z : ℤ} (h : y < z) : marchStart y + 365 ≤ marchStart z := by
  have hy : marchStart y = 365 * y + y / 4 - y / 100 + y / 400 := by
    rw [marchStart, yearStart]
    omega
  have hz : marchStart z = 365 * z + z / 4 - z / 100 + z / 400 := by
    rw [marchStart, yearStart]
    omega
  rw [hy, hz]
  omega

lemma date_parts (n : ℤ) : ∃ y m d, (0 ≤ m ∧ m < 12) ∧ (0 ≤ d ∧ d ≤ 30) ∧
    marchStart y + monthStart m + d = n + 719468 ∧ monthStart m + d ≤ 365 ∧
    date n = ⟨y + if m < 10 then 0 else 1, if m < 10 then m + 3 else m - 9, d + 1⟩ := by
  have hera : 0 ≤ (n + 719468) % 146097 ∧ (n + 719468) % 146097 < 146097 := by omega
  obtain ⟨hy, hy', hstart, hend⟩ := yearOfEra_bounds hera.1 hera.2
  obtain ⟨hm, hm', hfirst, hlast⟩ :=
    monthStart_bounds (n := (n + 719468) % 146097 - yearStart (yearOfEra ((n + 719468) % 146097)))
      (by omega) (by omega)
  refine ⟨400 * ((n + 719468) / 146097) + yearOfEra ((n + 719468) % 146097), _, _, ⟨hm, hm'⟩,
    ⟨Int.sub_nonneg_of_le hfirst, by omega⟩, ?_, by omega, rfl⟩
  rw [marchStart_era hy hy']
  omega

lemma dayNumber_date (n : ℤ) : dayNumber (date n) = n := by
  obtain ⟨y, m, d, hm, -, hday, -, hdate⟩ := date_parts n
  rw [hdate, dayNumber]
  by_cases h : m < 10
  · simp only [if_pos h, if_neg (show ¬ m + 3 ≤ 2 by omega), Int.add_zero, Int.add_sub_cancel]
    omega
  · simp only [if_neg h, if_pos (show m - 9 ≤ 2 by omega), Int.add_sub_cancel, Int.sub_add_cancel]
    omega

lemma date_bounds (n : ℤ) :
    1 ≤ (date n).month ∧ (date n).month ≤ 12 ∧ 1 ≤ (date n).day ∧ (date n).day ≤ 31 := by
  obtain ⟨y, m, d, hm, hd, -, -, hdate⟩ := date_parts n
  rw [hdate]
  dsimp only
  refine ⟨?_, ?_, by omega, by omega⟩
  · split <;> omega
  · split <;> omega

lemma le_year_iff (y n : ℤ) : y ≤ (date n).year ↔ dayNumber ⟨y, 1, 1⟩ ≤ n := by
  obtain ⟨y', m, d, hm, hd, hday, hlast, hdate⟩ := date_parts n
  have hnumber : dayNumber ⟨y, 1, 1⟩ = marchStart (y - 1) + 306 - 719468 := by
    simp only [dayNumber, if_pos (show (1 : ℤ) ≤ 2 by decide), monthStart]
    omega
  rw [hdate, hnumber]
  dsimp only
  rw [monthStart] at hday hlast
  constructor
  · intro h
    rcases Int.lt_or_eq_of_le (show y - 1 ≤ y' by split at h <;> omega) with hlt | heq
    · have := marchStart_step hlt
      omega
    · rw [heq]
      split at h <;> omega
  · intro h
    by_contra hlt
    rcases Int.lt_or_eq_of_le (show y' ≤ y - 1 by split at hlt <;> omega) with hlt' | heq
    · have := marchStart_step hlt'
      omega
    · rw [← heq] at h
      split at hlt <;> omega

example : date 0 = ⟨1970, 1, 1⟩ := by decide

example : date 19782 = ⟨2024, 2, 29⟩ := by decide

end ShMonitor.Calendar
