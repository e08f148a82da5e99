import Mathlib.Data.List.Infix
import ShMonitor.Texts.Words

/-! Where a word stands in a text: how often it occurs, the first occurrence replaced by another word, and
an alternation of words that must end the text. -/

namespace ShMonitor.Texts

def occurrences (w t : Text) : ℕ := t.tails.countP (fun tail => decide (w <+: tail))

def replaceFirst (w r : Text) : Text → Text
  | [] => if w <+: [] then r else []
  | c :: t => if w <+: c :: t then r ++ (c :: t).drop w.length else c :: replaceFirst w r t

def ending (alternatives : List Text) (t : Text) : Option (Text × Text) :=
  (alternatives.find? (fun a => decide ('_' :: a <:+ t))).map (fun a => (t.rdrop (a.length + 1), a))

lemma replaceFirst_of_infix {w t : Text} (r : Text) (h : w <:+: t) :
    ∃ u v, t = u ++ w ++ v ∧ replaceFirst w r t = u ++ r ++ v := by
  induction t with
  | nil =>
    obtain rfl := List.infix_nil.mp h
    exact ⟨[], [], rfl, by simp [replaceFirst]⟩
  | cons c t ih =>
    rw [replaceFirst]
    split
    · obtain ⟨v, hv⟩ := ‹w <+: c :: t›
      refine ⟨[], v, hv.symm, ?_⟩
      rw [← hv, List.drop_left]
      rfl
    · obtain ⟨u, v, ht, hr⟩ := ih ((List.infix_cons_iff.mp h).resolve_left ‹_›)
      exact ⟨c :: u, v, by rw [ht]; rfl, by rw [hr]; rfl⟩

lemma same_place {w t u v u' v' : Text} (hone : occurrences w t = 1) (h : t = u ++ w ++ v)
    (h' : t = u' ++ w ++ v') :
    u = u' := by
  rw [occurrences, List.countP_eq_length_filter] at hone
  obtain ⟨place, hplace⟩ := List.length_eq_one_iff.mp hone
  have hsame : ∀ u v, t = u ++ w ++ v → w ++ v = place := by
    intro u v h
    have hm : w ++ v ∈ t.tails.filter (fun tail => decide (w <+: tail)) :=
      List.mem_filter.mpr ⟨(List.mem_tails _ _).mpr ⟨u, by rw [h, List.append_assoc]⟩, by simp⟩
    rw [hplace] at hm
    exact List.mem_singleton.mp hm
  have hrest : w ++ v = w ++ v' := (hsame u v h).trans (hsame u' v' h').symm
  rw [h, List.append_assoc, List.append_assoc, hrest] at h'
  exact List.append_cancel_right h'

lemma apart_of_head {c : Char} {w : Text} (hc : c ∉ w) {u v u' v' : Text}
    (h : u ++ c :: w ++ v = u' ++ c :: w ++ v') : u = u' ∨ c :: w <:+: u ∨ c :: w <:+: u' := by
  have hstart : ∀ {v u' v' : Text} {d : Char}, c :: w ++ v = d :: u' ++ c :: w ++ v' → c :: w <:+: d :: u' := by
    intro v u' v' d h
    rw [List.append_assoc] at h
    obtain ⟨r, hu, -⟩ | ⟨r, hw, hr⟩ := List.append_eq_append_iff.mp h
    · exact ⟨[], r, hu.symm⟩
    · cases r with
      | nil => exact ⟨[], [], by simpa using hw⟩
      | cons e r =>
        obtain rfl : c = e := (List.cons.inj hr).1
        rw [List.cons_append, List.cons.injEq] at hw
        exact (hc (hw.2 ▸ by simp)).elim
  induction u generalizing u' with
  | nil =>
    cases u' with
    | nil => exact Or.inl rfl
    | cons d u' => exact Or.inr (Or.inr (hstart h))
  | cons d u ih =>
    cases u' with
    | nil => exact Or.inr (Or.inl (hstart h.symm))
    | cons d' u' =>
      rw [List.cons_append, List.cons_append, List.cons_append, List.cons_append, List.cons.injEq] at h
      obtain ⟨rfl, h⟩ := h
      obtain rfl | hu | hu := ih h
      · exact Or.inl rfl
      · exact Or.inr (Or.inl (List.infix_cons hu))
      · exact Or.inr (Or.inr (List.infix_cons hu))

lemma ending_unique {a b t : Text} (ha : '_' ∉ a) (hb : '_' ∉ b) (h : '_' :: a <:+ t)
    (h' : '_' :: b <:+ t) : a = b := by
  have hshort : ∀ {a b : Text}, '_' ∉ b → '_' :: a <:+ '_' :: b → a = b := by
    intro a b hb h
    obtain h | h := List.suffix_cons_iff.mp h
    · exact (List.cons.inj h).2
    · exact (hb (h.subset List.mem_cons_self)).elim
  obtain h | h := List.suffix_or_suffix_of_suffix h h'
  · exact hshort hb h
  · exact (hshort ha h).symm

lemma ending_eq_some {alternatives : List Text} (hplain : ∀ a ∈ alternatives, '_' ∉ a) {t base a : Text} :
    ending alternatives t = some (base, a) ↔ a ∈ alternatives ∧ t = base ++ '_' :: a := by
  constructor
  · intro h
    obtain ⟨a', ha, hpair⟩ := Option.map_eq_some_iff.mp h
    obtain ⟨rfl, rfl⟩ := Prod.mk.inj hpair
    have hends : '_' :: a' <:+ t := by simpa using List.find?_some ha
    obtain ⟨base, hbase⟩ := hends
    refine ⟨List.mem_of_find?_eq_some ha, ?_⟩
    rw [← hbase, ← List.length_cons (a := '_'), List.rdrop_append_length]
  · rintro ⟨ha, rfl⟩
    have hfind : (alternatives.find? (fun b => decide ('_' :: b <:+ base ++ '_' :: a))) = some a := by
      cases hf : alternatives.find? (fun b => decide ('_' :: b <:+ base ++ '_' :: a)) with
      | none => exact (by simpa using List.find?_eq_none.mp hf a ha : False).elim
      | some b =>
        have hends : '_' :: b <:+ base ++ '_' :: a := by simpa using List.find?_some hf
        rw [ending_unique (hplain b (List.mem_of_find?_eq_some hf)) (hplain a ha) hends
          (List.suffix_append _ _)]
    rw [ending, hfind, Option.map_some, ← List.length_cons (a := '_'), List.rdrop_append_length]

end ShMonitor.Texts
