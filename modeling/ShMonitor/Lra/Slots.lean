import Mathlib.Algebra.BigOperators.Group.List.Basic
import Mathlib.Algebra.Order.Ring.Nat
import ShMonitor.Lra.DgOptions

/-! The text of an option list, its words, and what they count for. -/

namespace ShMonitor.Lra.DgOptions

open Texts Texts.Regex
open Bisect.ShSim (isIfs)

def render (ss : List Slot) : Text := ss.flatMap Slot.text

lemma render_cons (s : Slot) (ss : List Slot) : render (s :: ss) = s.gap.char :: (s.option ++ render ss) := rfl

lemma exists_gap {c : Char} (h : isIfs c = true) : ∃ g : Gap, g.char = c := by
  simp only [isIfs, Bool.or_eq_true, beq_iff_eq] at h
  obtain (rfl | rfl) | rfl := h
  · exact ⟨.blank, rfl⟩
  · exact ⟨.tab, rfl⟩
  · exact ⟨.newline, rfl⟩

lemma isIfs_gap (g : Gap) : isIfs g.char = true := by cases g <;> rfl

lemma render_stop (ss : List Slot) : ∀ c ∈ (render ss).head?, isIfs c = true := by
  cases ss with
  | nil => exact fun c hc => nomatch hc
  | cons s ss =>
    intro c hc
    obtain rfl := Option.some.inj hc
    exact isIfs_gap s.gap

lemma Slot.word (s : Slot) : ∀ c ∈ s.option, isIfs c = false := fun c hc => (s.free c hc).1

lemma words_render (ss : List Slot) : words isIfs (render ss) = (ss.map Slot.option).filter (· ≠ []) := by
  induction ss with
  | nil => rfl
  | cons s ss ih =>
    rw [render_cons, words_sep (isIfs_gap s.gap), words_append_stop (render_stop ss), ih, List.map_cons]
    by_cases hs : s.option = []
    · rw [hs, List.filter_cons_of_neg (by simp)]
      rfl
    · rw [words_word hs s.word, List.filter_cons_of_pos (by simpa using hs)]
      rfl

def Slot.edit (f : Text → Text) (hf : ∀ w, f w ⊆ w) (s : Slot) : Slot :=
  ⟨s.gap, f s.option, fun c hc => s.free c (hf s.option hc)⟩

def Slot.flat (s : Slot) : Slot := ⟨if s.gap = .newline then .blank else s.gap, s.option, s.free⟩

lemma flattened_word {w : Text} (hw : ∀ c ∈ w, isIfs c = false) : flattened w = w := by
  have hsame : ∀ c ∈ w, (if c = '\n' then ' ' else c) = c := by
    intro c hc
    apply if_neg
    rintro rfl
    cases hw _ hc
  exact (List.map_congr_left hsame).trans (List.map_id' w)

lemma flattened_render (ss : List Slot) : flattened (render ss) = render (ss.map Slot.flat) := by
  induction ss with
  | nil => rfl
  | cons s ss ih =>
    have hgap : (if s.gap.char = '\n' then ' ' else s.gap.char) = s.flat.gap.char := by
      rw [Slot.flat]
      cases s.gap <;> rfl
    rw [List.map_cons, render_cons, render_cons, ← hgap, ← ih]
    exact congrArg (_ :: ·) ((flattened_append _ _).trans (congrArg (· ++ _) (flattened_word s.word)))

def Options.flat (o : Options) : List Slot := o.slots.map Slot.flat

lemma exists_options (t : Text) (h : '"' ∉ t) : ∃ o : Options, o.text = t := by
  induction t using word_induction isIfs with
  | last w hw => exact ⟨⟨w, fun c hc => ⟨hw c hc, fun hq => h (hq ▸ hc)⟩, []⟩, List.append_nil w⟩
  | word w s t hw hs ih =>
    obtain ⟨o, rfl⟩ := ih (fun hm => h (List.mem_append_right w (List.mem_cons_of_mem s hm)))
    obtain ⟨g, rfl⟩ := exists_gap hs
    have hfree : ∀ c ∈ w, isIfs c = false ∧ c ≠ '"' := fun c hc =>
      ⟨hw c hc, fun hq => h (List.mem_append_left _ (hq ▸ hc))⟩
    exact ⟨⟨w, hfree, ⟨g, o.first, o.first_free⟩ :: o.rest⟩, rfl⟩

lemma Options.render_slots (o : Options) : render o.slots = ' ' :: o.text := rfl

lemma gap_ne_newline {ss : List Slot} (h : '\n' ∉ render ss) : ∀ s ∈ ss, s.gap ≠ .newline := by
  intro s hs hgap
  apply h
  exact List.mem_flatMap.mpr ⟨s, hs, by rw [Slot.text, hgap]; exact List.mem_cons_self⟩

lemma flat_gap (o : Options) : ∀ s ∈ o.flat, s.gap ≠ .newline := by
  intro s hs
  obtain ⟨t, -, rfl⟩ := List.mem_map.mp hs
  rw [Slot.flat]
  split
  · exact fun h => nomatch h
  · assumption

lemma render_flat (o : Options) : render o.flat = ' ' :: flattened o.text := by
  rw [Options.flat, ← flattened_render, o.render_slots]
  rfl

lemma map_option_flat (o : Options) : o.flat.map Slot.option = o.slots.map Slot.option := by
  rw [Options.flat, List.map_map]
  rfl

lemma words_blank (t : Text) : words isIfs (' ' :: t) = words isIfs t := words_sep rfl t

lemma tokens_eq (o : Options) : o.tokens = (o.flat.map Slot.option).filter (· ≠ []) := by
  rw [map_option_flat, ← words_render, o.render_slots, words_blank]
  rfl

lemma exists_slot {o : Options} {w : Text} (hw : w ∈ o.tokens) : ∃ s ∈ o.flat, s.option = w := by
  rw [tokens_eq] at hw
  obtain ⟨s, hs, rfl⟩ := List.mem_map.mp (List.mem_filter.mp hw).1
  exact ⟨s, hs, rfl⟩

def weight (w : Text) : ℕ := if isOther w = true then w.length else 0

def totalWeight (t : Text) : ℕ := ((words isIfs t).map weight).sum

lemma weight_le (w : Text) : weight w ≤ w.length := by
  rw [weight]
  split
  · exact le_rfl
  · exact Nat.zero_le _

lemma totalWeight_append {t : Text} (ht : ∀ c ∈ t.head?, isIfs c = true) (w : Text) :
    totalWeight (w ++ t) = totalWeight w + totalWeight t := by
  rw [totalWeight, words_append_stop ht, List.map_append, List.sum_append]
  rfl

lemma totalWeight_word {w : Text} (hw : ∀ c ∈ w, isIfs c = false) : totalWeight w = weight w := by
  by_cases hne : w = []
  · subst hne
    rfl
  · rw [totalWeight, words_word hne hw, List.map_singleton, List.sum_singleton]

lemma totalWeight_gaps {b : Text} (hb : ∀ c ∈ b, isIfs c = true) (t : Text) :
    totalWeight (b ++ t) = totalWeight t := by
  rw [totalWeight, words_seps hb]
  rfl

lemma totalWeight_render (ss : List Slot) :
    totalWeight (render ss) = (ss.map (fun s => weight s.option)).sum := by
  induction ss with
  | nil => rfl
  | cons s ss ih =>
    have hgap := totalWeight_gaps (b := [s.gap.char]) (by simp [isIfs_gap]) (s.option ++ render ss)
    rw [render_cons, ← List.singleton_append, hgap, totalWeight_append (render_stop ss),
      totalWeight_word s.word, ih]
    rfl

lemma totalWeight_blank (t : Text) : totalWeight (' ' :: t) = totalWeight t := by
  rw [totalWeight, words_blank]
  rfl

lemma totalWeight_flat (o : Options) : totalWeight (flattened o.text) = (o.tokens.map weight).sum := by
  rw [← totalWeight_blank, ← render_flat, totalWeight, words_render, tokens_eq]

lemma sum_weight_filter (ws : List Text) : ((ws.filter isOther).map weight).sum = (ws.map weight).sum := by
  induction ws with
  | nil => rfl
  | cons w ws ih =>
    by_cases hw : isOther w = true
    · rw [List.filter_cons_of_pos hw, List.map_cons, List.map_cons, List.sum_cons, List.sum_cons, ih]
    · have hweight : weight w = 0 := if_neg hw
      rw [List.filter_cons_of_neg hw, List.map_cons, List.sum_cons, hweight, Nat.zero_add, ih]

end ShMonitor.Lra.DgOptions
