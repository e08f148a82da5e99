import Mathlib.Data.List.Nodup
import Mathlib.Data.List.Sort
import ShMonitor.Texts.Json

/-! Objects that a program fills by key, as lists of pairs without a repeated key. `put` keeps the
place of a key that is there and appends one that is not; `inOrder` is the order in which a script
language lists the own properties of an object: first the keys that are array indices, by number,
then the others as they were put. -/

namespace ShMonitor.Texts

variable {β : Type*}

structure Table (β : Type*) where
  rows : List (Text × β)
  distinct : (rows.map Prod.fst).Nodup

namespace Table

def putRow (k : Text) (v : β) : List (Text × β) → List (Text × β)
  | [] => [(k, v)]
  | row :: rows => if row.1 = k then (k, v) :: rows else row :: putRow k v rows

lemma keys_putRow (k : Text) (v : β) (rows : List (Text × β)) :
    (putRow k v rows).map Prod.fst =
      if k ∈ rows.map Prod.fst then rows.map Prod.fst else rows.map Prod.fst ++ [k] := by
  induction rows with
  | nil => rfl
  | cons row rows ih =>
    rw [putRow, List.map_cons]
    by_cases hk : row.1 = k
    · simp [hk]
    · rw [if_neg hk, List.map_cons, ih]
      by_cases hm : k ∈ rows.map Prod.fst
      · rw [if_pos hm, if_pos (List.mem_cons_of_mem _ hm)]
      · rw [if_neg hm, if_neg (by simpa [Ne.symm hk] using hm), List.cons_append]

lemma putRow_of_not_mem {k : Text} {rows : List (Text × β)} (h : k ∉ rows.map Prod.fst) (v : β) :
    putRow k v rows = rows ++ [(k, v)] := by
  induction rows with
  | nil => rfl
  | cons row rows ih =>
    rw [List.map_cons, List.mem_cons, not_or] at h
    rw [putRow, if_neg (Ne.symm h.1), ih h.2, List.cons_append]

def empty : Table β := ⟨[], List.nodup_nil⟩

def get (o : Table β) (k : Text) : Option β := (o.rows.find? (fun row => row.1 == k)).map Prod.snd

def put (o : Table β) (k : Text) (v : β) : Table β where
  rows := putRow k v o.rows
  distinct := by
    rw [keys_putRow]
    split
    · exact o.distinct
    · rw [← List.concat_eq_append]
      exact List.Nodup.concat ‹_› o.distinct

def map {γ : Type*} (f : β → γ) (o : Table β) : Table γ where
  rows := o.rows.map (fun row => (row.1, f row.2))
  distinct := by
    rw [List.map_map]
    exact o.distinct

def index (k : Text) : Option ℕ :=
  (decimal k).filter (fun n => decide (n < 4294967295 ∧ Nat.toDigits 10 n = k))

def inOrder (o : Table β) : List (Text × β) :=
  (o.rows.filter (fun row => (index row.1).isSome)).mergeSort
    (fun a b => decide ((index a.1).getD 0 ≤ (index b.1).getD 0)) ++
    o.rows.filter (fun row => !(index row.1).isSome)

lemma inOrder_perm (o : Table β) : o.inOrder.Perm o.rows :=
  ((List.mergeSort_perm _ _).append_right _).trans (List.filter_append_perm _ _)

lemma inOrder_of_plain {o : Table β} (h : ∀ row ∈ o.rows, index row.1 = none) : o.inOrder = o.rows := by
  have hindices : o.rows.filter (fun row => (index row.1).isSome) = [] :=
    List.filter_eq_nil_iff.mpr (fun row hrow => by simp [h row hrow])
  have hothers : o.rows.filter (fun row => !(index row.1).isSome) = o.rows :=
    List.filter_eq_self.mpr (fun row hrow => by simp [h row hrow])
  rw [inOrder, hindices, hothers, List.mergeSort_nil, List.nil_append]

@[simp] lemma get_empty (k : Text) : (empty : Table β).get k = none := rfl

lemma get_put (o : Table β) (k k' : Text) (v : β) :
    (o.put k v).get k' = if k' = k then some v else o.get k' := by
  have hrows : ∀ rows : List (Text × β), ((putRow k v rows).find? (fun row => row.1 == k')).map Prod.snd =
      if k' = k then some v else (rows.find? (fun row => row.1 == k')).map Prod.snd := by
    intro rows
    induction rows with
    | nil =>
      by_cases h : k = k'
      · simp [putRow, h]
      · simp [putRow, h, Ne.symm (Ne.intro h)]
    | cons row rows ih =>
      rw [putRow]
      by_cases hrow : row.1 = k
      · by_cases h : k = k'
        · simp [hrow, h]
        · simp [hrow, h, Ne.symm h]
      · rw [if_neg hrow, List.find?_cons, List.find?_cons]
        by_cases h : row.1 = k'
        · have hne : k' ≠ k := by
            rintro rfl
            exact hrow h
          simp [h, hne]
        · rw [beq_false_of_ne h]
          exact ih
  exact hrows o.rows

lemma get_eq_none {o : Table β} {k : Text} : o.get k = none ↔ k ∉ o.rows.map Prod.fst := by
  rw [get, Option.map_eq_none_iff, List.find?_eq_none, List.mem_map, not_exists]
  apply forall_congr'
  intro row
  rw [beq_iff_eq, not_and]

lemma get_map {γ : Type*} (f : β → γ) (o : Table β) (k : Text) : (o.map f).get k = (o.get k).map f := by
  rw [get, get, map, List.find?_map, Option.map_map, Option.map_map]
  rfl

lemma get_eq_some {o : Table β} {k : Text} {v : β} : o.get k = some v ↔ (k, v) ∈ o.rows := by
  obtain ⟨rows, distinct⟩ := o
  induction rows with
  | nil => simp [get]
  | cons row rows ih =>
    rw [List.map_cons, List.nodup_cons] at distinct
    obtain ⟨hrow, distinct⟩ := distinct
    have hrest : (rows.find? (fun row => row.1 == k)).map Prod.snd = some v ↔ (k, v) ∈ rows := ih distinct
    show ((row :: rows).find? (fun row => row.1 == k)).map Prod.snd = some v ↔ (k, v) ∈ row :: rows
    rw [List.find?_cons, List.mem_cons]
    by_cases h : row.1 = k
    · subst h
      have habsent : (row.1, v) ∉ rows := fun hm => hrow (List.mem_map.mpr ⟨_, hm, rfl⟩)
      simp [habsent, Prod.ext_iff, eq_comm]
    · rw [beq_false_of_ne h]
      have hne : (k, v) ≠ row := by
        rintro rfl
        exact h rfl
      simpa [hne] using hrest

lemma mem_inOrder {o : Table β} {k : Text} {v : β} : (k, v) ∈ o.inOrder ↔ o.get k = some v := by
  rw [get_eq_some]
  exact o.inOrder_perm.mem_iff

lemma inOrder_nodup (o : Table β) : (o.inOrder.map Prod.fst).Nodup :=
  (o.inOrder_perm.map Prod.fst).nodup_iff.mpr o.distinct

lemma inOrder_of_one {o : Table β} {k : Text} (h : ∀ k', k' ≠ k → o.get k' = none) :
    o.inOrder = (o.get k).toList.map (fun v => (k, v)) := by
  have hkey : ∀ row ∈ o.inOrder, row.1 = k := by
    intro row hrow
    by_contra hne
    have hsome := mem_inOrder.mp hrow
    rw [h row.1 hne] at hsome
    cases hsome
  cases hget : o.get k with
  | none =>
    apply List.eq_nil_iff_forall_not_mem.mpr
    intro row hrow
    have hsome := mem_inOrder.mp hrow
    rw [hkey row hrow, hget] at hsome
    cases hsome
  | some v =>
    apply List.perm_singleton.mp
    refine (List.perm_ext_iff_of_nodup o.inOrder_nodup.of_map (List.nodup_singleton (k, v))).mpr (fun row => ?_)
    rw [List.mem_singleton]
    constructor
    · intro hrow
      have hsome := mem_inOrder.mp hrow
      rw [hkey row hrow, hget] at hsome
      exact Prod.ext (hkey row hrow) (Option.some.inj hsome).symm
    · rintro rfl
      exact mem_inOrder.mpr hget

end Table

end ShMonitor.Texts
