import Mathlib.Data.List.Nodup
import Mathlib.Order.Lattice

/-! What two sorted lists have in common, found in one pass over both. -/

namespace ShMonitor.Merging

variable {α : Type*} [LinearOrder α]

def shared : List α → List α → List α
  | a :: l, b :: m =>
    if a = b then a :: shared l m
    else if a < b then shared l (b :: m)
    else shared (a :: l) m
  | [], _ => []
  | _, [] => []
termination_by l m => l.length + m.length

@[simp] lemma shared_nil_left (m : List α) : shared [] m = [] := by
  cases m <;> simp [shared]

@[simp] lemma shared_nil_right (l : List α) : shared l [] = [] := by
  cases l <;> simp [shared]

lemma shared_sublist (l m : List α) : (shared l m).Sublist l := by
  induction l, m using shared.induct with
  | case1 l a m ih =>
    rw [shared, if_pos rfl]
    exact ih.cons_cons a
  | case2 a l b m hab hlt ih =>
    rw [shared, if_neg hab, if_pos hlt]
    exact ih.cons a
  | case3 a l b m hab hlt ih =>
    rw [shared, if_neg hab, if_neg hlt]
    exact ih
  | case4 m => simp
  | case5 l hl => simp

lemma shared_sorted {l : List α} (hl : l.Pairwise (· < ·)) (m : List α) : (shared l m).Pairwise (· < ·) :=
  hl.sublist (shared_sublist l m)

lemma not_mem_of_lt {a b : α} {m : List α} (hm : (b :: m).Pairwise (· < ·)) (h : a < b) : a ∉ b :: m := by
  intro hmem
  rcases List.mem_cons.mp hmem with rfl | hmem
  · exact lt_irrefl a h
  · exact lt_asymm h (List.rel_of_pairwise_cons hm hmem)

lemma mem_shared {l m : List α} (hl : l.Pairwise (· < ·)) (hm : m.Pairwise (· < ·)) {x : α} :
    x ∈ shared l m ↔ x ∈ l ∧ x ∈ m := by
  induction l, m using shared.induct with
  | case1 l a m ih =>
    have hhead : x ∈ l ∧ x = a → False := fun h => lt_irrefl a (h.2 ▸ List.rel_of_pairwise_cons hl h.1)
    rw [shared, if_pos rfl, List.mem_cons, ih hl.of_cons hm.of_cons, List.mem_cons, List.mem_cons]
    tauto
  | case2 a l b m hab hlt ih =>
    have hnot := not_mem_of_lt hm hlt
    rw [shared, if_neg hab, if_pos hlt, ih hl.of_cons hm, List.mem_cons (a := x) (b := a)]
    constructor
    · exact fun h => ⟨Or.inr h.1, h.2⟩
    · rintro ⟨rfl | h, hx⟩
      · exact absurd hx hnot
      · exact ⟨h, hx⟩
  | case3 a l b m hab hlt ih =>
    have hnot := not_mem_of_lt hl (lt_of_le_of_ne (not_lt.mp hlt) (Ne.symm hab))
    rw [shared, if_neg hab, if_neg hlt, ih hl hm.of_cons, List.mem_cons (a := x) (b := b)]
    constructor
    · exact fun h => ⟨h.1, Or.inr h.2⟩
    · rintro ⟨hx, rfl | h⟩
      · exact absurd hx hnot
      · exact ⟨hx, h⟩
  | case4 m => simp
  | case5 l hl' => simp

end ShMonitor.Merging
