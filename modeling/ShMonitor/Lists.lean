import Mathlib.Data.List.Perm.Basic
import Mathlib.Data.List.Nodup

/-! Lists: a partial function over all members, and counting in a list that covers another one. -/

namespace ShMonitor.Lists

variable {α β : Type*} {f : α → Option β}

lemma mapM_cons_eq_some {a : α} {as : List α} {bs : List β} :
    (a :: as).mapM f = some bs ↔ ∃ b, f a = some b ∧ ∃ bs', as.mapM f = some bs' ∧ b :: bs' = bs := by
  simp only [List.mapM_cons, Option.bind_eq_bind, Option.bind_eq_some_iff, Option.pure_def, Option.some.injEq]

lemma mapM_eq_none {a : α} {as : List α} (ha : a ∈ as) (h : f a = none) : as.mapM f = none := by
  induction as with
  | nil => cases ha
  | cons a' as ih =>
    obtain rfl | ha := List.mem_cons.mp ha
    · simp [List.mapM_cons, h]
    · simp [List.mapM_cons, ih ha]

lemma mapM_eq_map {g : α → β} {l : List α} (h : ∀ a ∈ l, f a = some (g a)) : l.mapM f = some (l.map g) := by
  induction l with
  | nil => rfl
  | cons a l ih =>
    rw [List.mapM_cons, h a List.mem_cons_self, ih (fun b hb => h b (List.mem_cons_of_mem a hb))]
    rfl

lemma countP_cover [DecidableEq α] {l m : List α} (hl : l.Nodup) (hm : m.Nodup) (hsub : m ⊆ l) (p : α → Bool) :
    l.countP (fun a => decide (a ∈ m) && p a) = m.countP p := by
  have hperm : (l.filter (fun a => decide (a ∈ m))).Perm m := by
    refine (List.perm_ext_iff_of_nodup (hl.filter _) hm).mpr (fun a => ?_)
    rw [List.mem_filter, decide_eq_true_eq]
    exact ⟨And.right, fun ha => ⟨hsub ha, ha⟩⟩
  rw [← hperm.countP_eq, List.countP_filter]
  exact List.countP_congr (fun a _ => by rw [Bool.and_comm])

end ShMonitor.Lists
