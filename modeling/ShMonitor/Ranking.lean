import Mathlib.Data.List.Nodup
import Mathlib.Data.List.Sort

/-! Lists sorted by a key. Where the members have distinct keys the result depends on the members
alone and is strictly ordered. -/

namespace ShMonitor.Ranking

variable {α κ : Type*} [LinearOrder κ] (key : α → κ)

def rank (l : List α) : List α := l.mergeSort (fun a b => decide (key a ≤ key b))

lemma rank_perm (l : List α) : (rank key l).Perm l := List.mergeSort_perm l _

lemma rank_pairwise (l : List α) : (rank key l).Pairwise (fun a b => key a ≤ key b) := by
  have hsorted : (rank key l).Pairwise (fun a b => decide (key a ≤ key b) = true) :=
    List.pairwise_mergeSort
      (fun a b c hab hbc => by simpa using (of_decide_eq_true hab).trans (of_decide_eq_true hbc))
      (fun a b => by simpa using le_total (key a) (key b)) l
  exact hsorted.imp of_decide_eq_true

variable {key} {l l' : List α}

lemma rank_strict (h : (l.map key).Nodup) : (rank key l).Pairwise (fun a b => key a < key b) := by
  have hkeys : ((rank key l).map key).Nodup := ((rank_perm key l).map key).nodup_iff.mpr h
  have hne : (rank key l).Pairwise (fun a b => key a ≠ key b) := List.pairwise_map.mp hkeys
  exact ((rank_pairwise key l).and hne).imp (fun h => lt_of_le_of_ne h.1 h.2)

lemma rank_eq_of_perm (h : (l.map key).Nodup) (hperm : l.Perm l') : rank key l = rank key l' := by
  have h' : (l'.map key).Nodup := (hperm.map key).nodup_iff.mp h
  apply List.Perm.eq_of_pairwise (fun a b _ _ hab hba => absurd hab hba.asymm) (rank_strict h) (rank_strict h')
  exact (rank_perm key l).trans (hperm.trans (rank_perm key l').symm)

end ShMonitor.Ranking
