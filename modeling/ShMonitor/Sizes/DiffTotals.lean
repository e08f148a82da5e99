import Mathlib.Algebra.BigOperators.Group.List.Lemmas
import Mathlib.Algebra.Order.Ring.Int
import Mathlib.Data.Char
import Mathlib.Data.List.Lex
import Mathlib.Data.Prod.Lex
import ShMonitor.Ranking
import ShMonitor.Texts.Table

/-! The ranked difference of two size tables, and the table of summary.md that is printed from it. -/

namespace ShMonitor.Sizes.DiffTotals

open Texts Ranking

/-- An order in which the union of the two key sets may be listed. -/
structure Keys (trunk lra : Table ℤ) where
  order : List Text
  distinct : order.Nodup
  mem_order : ∀ k, k ∈ order ↔ k ∈ trunk.rows.map Prod.fst ∨ k ∈ lra.rows.map Prod.fst

structure Row where
  key : Text
  delta : ℤ
  trunk : ℤ
  lra : ℤ
  deriving DecidableEq

def value (sizes : Table ℤ) (k : Text) : ℤ := (sizes.get k).getD 0

def row (trunk lra : Table ℤ) (k : Text) : Row := ⟨k, value lra k - value trunk k, value trunk k, value lra k⟩

def Row.rankKey (r : Row) : ℤ ×ₗ Text := toLex (-r.delta, r.key)

def diffTotals (trunk lra : Table ℤ) (keys : Keys trunk lra) : List Row :=
  rank Row.rankKey (keys.order.map (row trunk lra))

def sumValues (sizes : Table ℤ) : ℤ := (sizes.rows.map Prod.snd).sum

def headline (trunk lra : Table ℤ) : ℤ := sumValues lra - sumValues trunk

def summaryRows (rows : List Row) : List Row := rows.filter (fun r => decide (r.delta ≠ 0))

def Row.swap (r : Row) : Row := ⟨r.key, -r.delta, r.lra, r.trunk⟩

structure Faithful (trunk lra : Table ℤ) (rows : List Row) : Prop where
  once : (rows.map Row.key).Nodup
  keys : ∀ k, k ∈ rows.map Row.key ↔ k ∈ trunk.rows.map Prod.fst ∨ k ∈ lra.rows.map Prod.fst
  values : ∀ r ∈ rows, r = row trunk lra r.key
  order : rows.Pairwise (fun r s => s.delta < r.delta ∨ r.delta = s.delta ∧ r.key < s.key)
  balance : ((summaryRows rows).map Row.delta).sum = headline trunk lra

variable {trunk lra : Table ℤ}

lemma map_key_row (ks : List Text) : (ks.map (row trunk lra)).map Row.key = ks := by
  rw [List.map_map]
  exact List.map_id ks

lemma rankKey_nodup (keys : Keys trunk lra) : ((keys.order.map (row trunk lra)).map Row.rankKey).Nodup := by
  apply List.Nodup.of_map (fun p => (ofLex p).2)
  rw [List.map_map]
  exact (map_key_row keys.order).symm ▸ keys.distinct

lemma rankKey_lt {r s : Row} :
    r.rankKey < s.rankKey ↔ s.delta < r.delta ∨ r.delta = s.delta ∧ r.key < s.key := by
  rw [Row.rankKey, Row.rankKey, Prod.Lex.toLex_lt_toLex]
  simp only [neg_lt_neg_iff, neg_inj]

lemma keys_perm (keys : Keys trunk lra) : ((diffTotals trunk lra keys).map Row.key).Perm keys.order := by
  have h := (rank_perm Row.rankKey (keys.order.map (row trunk lra))).map Row.key
  rwa [map_key_row] at h

lemma mem_diffTotals {keys : Keys trunk lra} {r : Row} :
    r ∈ diffTotals trunk lra keys ↔ r.key ∈ keys.order ∧ r = row trunk lra r.key := by
  rw [diffTotals, (rank_perm _ _).mem_iff, List.mem_map]
  constructor
  · rintro ⟨k, hk, rfl⟩
    exact ⟨hk, rfl⟩
  · rintro ⟨hk, hr⟩
    exact ⟨r.key, hk, hr.symm⟩

lemma value_of_not_mem {sizes : Table ℤ} {k : Text} (h : k ∉ sizes.rows.map Prod.fst) : value sizes k = 0 := by
  rw [value]
  cases hk : sizes.get k with
  | none => rfl
  | some v => exact absurd (List.mem_map.mpr ⟨_, Table.get_eq_some.mp hk, rfl⟩) h

lemma sum_own_keys (sizes : Table ℤ) : ((sizes.rows.map Prod.fst).map (value sizes)).sum = sumValues sizes := by
  rw [sumValues, List.map_map]
  congr 1
  apply List.map_congr_left
  intro p hp
  rw [Function.comp_apply, value, Table.get_eq_some.mpr hp, Option.getD_some]

lemma sum_values {sizes : Table ℤ} {ks : List Text} (hks : ks.Nodup)
    (hsub : ∀ k ∈ sizes.rows.map Prod.fst, k ∈ ks) :
    (ks.map (value sizes)).sum = sumValues sizes := by
  have hown : (ks.filter (fun k => decide (k ∈ sizes.rows.map Prod.fst))).Perm (sizes.rows.map Prod.fst) := by
    apply (List.perm_ext_iff_of_nodup (hks.filter _) sizes.distinct).mpr
    intro k
    rw [List.mem_filter, decide_eq_true_iff]
    exact ⟨fun h => h.2, fun h => ⟨hsub k h, h⟩⟩
  have hothers : ((ks.filter (fun k => !decide (k ∈ sizes.rows.map Prod.fst))).map (value sizes)).sum = 0 := by
    apply List.sum_eq_zero
    intro v hv
    obtain ⟨k, hk, rfl⟩ := List.mem_map.mp hv
    exact value_of_not_mem (by simpa using (List.mem_filter.mp hk).2)
  have hsplit := (List.filter_append_perm (fun k => decide (k ∈ sizes.rows.map Prod.fst)) ks).map (value sizes)
  rw [← hsplit.sum_eq, List.map_append, List.sum_append, hothers, add_zero, (hown.map _).sum_eq, sum_own_keys]

lemma sum_summaryRows (rows : List Row) :
    ((summaryRows rows).map Row.delta).sum = (rows.map Row.delta).sum := by
  induction rows with
  | nil => rfl
  | cons r rows ih =>
    rw [summaryRows, List.filter_cons]
    split
    · rw [List.map_cons, List.map_cons, List.sum_cons, List.sum_cons, ← ih, summaryRows]
    · rename_i hzero
      have hdelta : r.delta = 0 := by simpa using hzero
      rw [List.map_cons, List.sum_cons, hdelta, zero_add, ← ih, summaryRows]

lemma sum_deltas (ks : List Text) :
    ((ks.map (row trunk lra)).map Row.delta).sum = (ks.map (value lra)).sum - (ks.map (value trunk)).sum := by
  induction ks with
  | nil => rfl
  | cons k ks ih =>
    simp only [List.map_cons, List.sum_cons, ih, row]
    omega

lemma sum_diffTotals (keys : Keys trunk lra) :
    ((diffTotals trunk lra keys).map Row.delta).sum = headline trunk lra := by
  rw [diffTotals, ((rank_perm _ _).map Row.delta).sum_eq, sum_deltas, headline,
    sum_values keys.distinct (fun k hk => (keys.mem_order k).mpr (Or.inr hk)),
    sum_values keys.distinct (fun k hk => (keys.mem_order k).mpr (Or.inl hk))]

lemma diffTotals_faithful (keys : Keys trunk lra) : Faithful trunk lra (diffTotals trunk lra keys) where
  once := (keys_perm keys).nodup_iff.mpr keys.distinct
  keys k := ((keys_perm keys).mem_iff).trans (keys.mem_order k)
  values _ hr := (mem_diffTotals.mp hr).2
  order := (rank_strict (rankKey_nodup keys)).imp rankKey_lt.mp
  balance := (sum_summaryRows _).trans (sum_diffTotals keys)

lemma diffTotals_order (keys keys' : Keys trunk lra) :
    diffTotals trunk lra keys = diffTotals trunk lra keys' := by
  apply rank_eq_of_perm (rankKey_nodup keys)
  apply List.Perm.map
  apply (List.perm_ext_iff_of_nodup keys.distinct keys'.distinct).mpr
  intro k
  rw [keys.mem_order, keys'.mem_order]

lemma swap_row (k : Text) : (row trunk lra k).swap = row lra trunk k := by
  rw [Row.swap, row, row, neg_sub]

lemma mem_swapped {keys : Keys trunk lra} (keys' : Keys lra trunk) {r : Row}
    (hr : r ∈ diffTotals trunk lra keys) : r.swap ∈ diffTotals lra trunk keys' := by
  obtain ⟨hk, hr⟩ := mem_diffTotals.mp hr
  refine mem_diffTotals.mpr ⟨?_, ?_⟩
  · exact (keys'.mem_order r.key).mpr ((keys.mem_order r.key).mp hk).symm
  · rw [hr, swap_row]
    rfl

end ShMonitor.Sizes.DiffTotals
