import Mathlib.Algebra.Order.Ring.Int
import Mathlib.Data.Int.ConditionallyCompleteOrder
import Mathlib.Order.ConditionallyCompleteLattice.Basic
import ShMonitor.Dashboard.Trend

/-! The local days that a range of the trend page selects. A time zone gives the time of each day's local
midnight; on the days on which the clock changes the next one is an hour nearer or farther. -/

namespace ShMonitor.Dashboard.Days

open Trend

def hour : ℤ := 3600000

structure Zone where
  dayStart : ℤ → ℤ
  increasing : StrictMono dayStart
  at_least : ∀ d, dayStart d + 23 * hour ≤ dayStart (d + 1)
  at_most : ∀ d, dayStart (d + 1) ≤ dayStart d + 25 * hour

def Zone.On (z : Zone) (t d : ℤ) : Prop := z.dayStart d ≤ t ∧ t < z.dayStart (d + 1)

def Zone.kept (z : Zone) (first last t : ℤ) : Bool := inRange z.dayStart (.days first last) t

def WholeDays (z : Zone) (first last t : ℤ) : Prop :=
  ∀ d, z.On t d → (z.kept first last t = true ↔ first ≤ d ∧ d ≤ last)

def ShownOnce (z : Zone) (first mid last t : ℤ) : Prop :=
  (z.kept first last t = (z.kept first mid t || z.kept (mid + 1) last t)) ∧
    ¬ (z.kept first mid t = true ∧ z.kept (mid + 1) last t = true)

def Zone.Seam (z : Zone) (d t : ℤ) : Prop :=
  z.dayStart d + day ≤ t ∧ t < z.dayStart (d + 1) ∨ z.dayStart (d + 1) ≤ t ∧ t < z.dayStart d + day

variable {z : Zone} {first mid last t d : ℤ}

lemma kept_iff : z.kept first last t = true ↔ z.dayStart first ≤ t ∧ t < z.dayStart last + day := by
  rw [Zone.kept, inRange, Bool.and_eq_true, decide_eq_true_iff, decide_eq_true_iff, Int.le_sub_one_iff]

lemma seam_iff : z.Seam d t ↔ ¬ (t < z.dayStart d + day ↔ t < z.dayStart (d + 1)) := by
  rw [Zone.Seam]
  omega

lemma dayStart_add (z : Zone) (d : ℤ) (n : ℕ) : z.dayStart d + n ≤ z.dayStart (d + n) := by
  induction n with
  | zero => simp
  | succ n ih =>
    have hnext := z.increasing (lt_add_one (d + n))
    rw [Nat.cast_succ, ← add_assoc d]
    omega

lemma exists_on (z : Zone) (t : ℤ) : ∃ d, z.On t d := by
  have hbounded : ∃ b, ∀ d, z.dayStart d ≤ t → d ≤ b := by
    refine ⟨(t - z.dayStart 0).toNat, fun d hd => ?_⟩
    have hgrow := dayStart_add z 0 d.toNat
    by_contra hlt
    rw [zero_add, Int.toNat_of_nonneg (by omega)] at hgrow
    omega
  have hstarted : ∃ d, z.dayStart d ≤ t := by
    have hgrow := dayStart_add z (-((z.dayStart 0 - t).toNat : ℤ)) (z.dayStart 0 - t).toNat
    rw [neg_add_cancel] at hgrow
    exact ⟨-((z.dayStart 0 - t).toNat : ℤ), by omega⟩
  obtain ⟨d, hd, hgreatest⟩ := Int.exists_greatest_of_bdd hbounded hstarted
  refine ⟨d, hd, not_le.mp fun h => ?_⟩
  have := hgreatest (d + 1) h
  omega

lemma first_le_iff (h : z.On t d) : first ≤ d ↔ z.dayStart first ≤ t := by
  constructor
  · intro hle
    exact (z.increasing.monotone hle).trans h.1
  · intro ht
    exact Int.lt_add_one_iff.mp (z.increasing.lt_iff_lt.mp (ht.trans_lt h.2))

lemma le_last_iff (h : z.On t d) : d ≤ last ↔ t < z.dayStart (last + 1) := by
  rw [← not_le, ← first_le_iff h, not_le, Int.lt_add_one_iff]

lemma wholeDays_iff_not_seam (hrange : first ≤ last) : WholeDays z first last t ↔ ¬ z.Seam last t := by
  have hbelow : z.dayStart first ≤ z.dayStart last := z.increasing.monotone hrange
  have hnext := z.increasing (lt_add_one last)
  have hday : 0 < day := by decide
  rw [seam_iff, not_not]
  constructor
  · intro h
    obtain ⟨d, hd⟩ := exists_on z t
    have hiff := h d hd
    rw [kept_iff, first_le_iff hd, le_last_iff hd] at hiff
    omega
  · intro h d hd
    rw [kept_iff, first_le_iff hd, le_last_iff hd, h]

lemma shownOnce_iff_not_seam (hfirst : first ≤ mid) (hlast : mid < last) :
    ShownOnce z first mid last t ↔ ¬ z.Seam mid t := by
  have hbelow : z.dayStart first ≤ z.dayStart mid := z.increasing.monotone hfirst
  have hnext := z.increasing (lt_add_one mid)
  have habove : z.dayStart (mid + 1) ≤ z.dayStart last := z.increasing.monotone hlast
  have hday : 0 < day := by decide
  rw [ShownOnce, Bool.eq_iff_iff, Bool.or_eq_true, kept_iff, kept_iff, kept_iff, seam_iff, not_not]
  omega

theorem wholeDays_iff (z : Zone) (first last t : ℤ) (hrange : first ≤ last) :
    (WholeDays z first last t ↔ ¬ z.Seam last t) ∧
      ∀ mid, first ≤ mid → mid < last → (ShownOnce z first mid last t ↔ ¬ z.Seam mid t) :=
  ⟨wholeDays_iff_not_seam hrange, fun _ => shownOnce_iff_not_seam⟩

def autumn : Zone where
  dayStart d := if d ≤ 0 then d * day else d * day + hour
  increasing := by
    intro a b hab
    have hstep : a * day < b * day := mul_lt_mul_of_pos_right hab (by decide)
    simp only [hour]
    split <;> split <;> omega
  at_least d := by
    simp only [day, hour]
    split <;> split <;> omega
  at_most d := by
    simp only [day, hour]
    split <;> split <;> omega

theorem wholeDays_iff_autumn : (WholeDays autumn 0 1 day ↔ ¬ autumn.Seam 1 day) ∧
    ∀ mid, 0 ≤ mid → mid < 1 → (ShownOnce autumn 0 mid 1 day ↔ ¬ autumn.Seam mid day) :=
  wholeDays_iff autumn 0 1 day zero_le_one

theorem wholeDays_counterexample :
    autumn.On day 0 ∧ ¬ WholeDays autumn 0 0 day ∧ ¬ ShownOnce autumn 0 0 1 day := by
  have hon : autumn.On day 0 := ⟨by decide, by decide⟩
  refine ⟨hon, ?_, ?_⟩
  · intro h
    exact absurd ((h 0 hon).mpr ⟨le_rfl, le_rfl⟩) (by decide)
  · intro h
    exact absurd h.1 (by decide)

end ShMonitor.Dashboard.Days
