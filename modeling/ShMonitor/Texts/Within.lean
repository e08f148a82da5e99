import ShMonitor.Texts.Regex

/-! Patterns that read no line end. What such a pattern finds on a line is what it finds on the line
alone. -/

namespace ShMonitor.Texts.Regex

open ShMonitor.Texts

def Re.Within : Re → Prop
  | .eps | .bol | .eol => True
  | .chr p | .star p | .lazyStar p => p '\n' = false
  | .seq r s | .alt r s => r.Within ∧ s.Within
  | .group r => r.Within
  | .wordBoundary isWord => isWord '\n' = false

/-- The character before a cursor; the start of a text counts as a line start. -/
def lastOf (b : Text) : Char := b.head?.getD '\n'

def extend (tail : Text) (f : Found) : Found := (f.1, f.2 ++ tail)

def SameLine (tail : Text) (k k' : Cont) : Prop :=
  ∀ gs b b' a, lastOf b = lastOf b' → '\n' ∉ a → k gs ⟨b, a ++ tail⟩ = (k' gs ⟨b', a⟩).map (extend tail)

lemma atLineStart_eq (b a : Text) : Cursor.atLineStart ⟨b, a⟩ = (lastOf b == '\n') := by
  cases b <;> rfl

lemma atBoundary_eq {isWord : Char → Bool} (h : isWord '\n' = false) (b a : Text) :
    Cursor.atBoundary isWord ⟨b, a⟩ = (isWord (lastOf b) != (a.head?.map isWord).getD false) := by
  cases b with
  | nil => simp [Cursor.atBoundary, lastOf, h]
  | cons c b => rfl

lemma within_lit {t : Text} (h : '\n' ∉ t) : (Re.lit t).Within := by
  induction t with
  | nil => trivial
  | cons c t ih =>
    simp only [List.mem_cons, not_or] at h
    exact ⟨beq_false_of_ne h.1, ih h.2⟩

section

variable {tail : Text} (ht : Ends tail)

include ht

lemma SameLine.greedy {k k' : Cursor → Option Found} {p : Char → Bool} (hp : p '\n' = false)
    (h : ∀ b b' a, lastOf b = lastOf b' → '\n' ∉ a → k ⟨b, a ++ tail⟩ = (k' ⟨b', a⟩).map (extend tail))
    {b b' a : Text} (hb : lastOf b = lastOf b') (ha : '\n' ∉ a) :
    greedy p k b (a ++ tail) = (greedy p k' b' a).map (extend tail) := by
  induction a generalizing b b' with
  | nil =>
    have hk := h b b' [] hb ha
    rw [List.nil_append] at hk ⊢
    obtain rfl | ⟨t, rfl⟩ := ht
    · exact hk
    · simp [Regex.greedy, hp, hk]
  | cons c a ih =>
    have hk := h b b' (c :: a) hb ha
    simp only [List.mem_cons, not_or] at ha
    have hlast : lastOf (c :: b) = lastOf (c :: b') := rfl
    rw [List.cons_append] at hk ⊢
    rw [Regex.greedy, Regex.greedy, ih hlast ha.2, hk]
    cases p c with
    | false => rfl
    | true => simp [Option.map_or]

lemma SameLine.reluctant {k k' : Cursor → Option Found} {p : Char → Bool} (hp : p '\n' = false)
    (h : ∀ b b' a, lastOf b = lastOf b' → '\n' ∉ a → k ⟨b, a ++ tail⟩ = (k' ⟨b', a⟩).map (extend tail))
    {b b' a : Text} (hb : lastOf b = lastOf b') (ha : '\n' ∉ a) :
    reluctant p k b (a ++ tail) = (reluctant p k' b' a).map (extend tail) := by
  induction a generalizing b b' with
  | nil =>
    have hk := h b b' [] hb ha
    rw [List.nil_append] at hk ⊢
    obtain rfl | ⟨t, rfl⟩ := ht
    · exact hk
    · simp [Regex.reluctant, hp, hk]
  | cons c a ih =>
    have hk := h b b' (c :: a) hb ha
    simp only [List.mem_cons, not_or] at ha
    have hlast : lastOf (c :: b) = lastOf (c :: b') := rfl
    rw [List.cons_append] at hk ⊢
    rw [Regex.reluctant, Regex.reluctant, ih hlast ha.2, hk]
    cases p c <;> simp [Option.map_or]

lemma SameLine.run {r : Re} (hr : r.Within) {k k' : Cont} (h : SameLine tail k k') :
    SameLine tail (r.run k) (r.run k') := by
  induction r generalizing k k' with
  | eps => exact h
  | chr p =>
    intro gs b b' a hb ha
    cases a with
    | nil =>
      obtain rfl | ⟨t, rfl⟩ := ht
      · rfl
      · simp [Re.run, show p '\n' = false from hr]
    | cons c a =>
      simp only [List.mem_cons, not_or] at ha
      simp only [Re.run, List.cons_append]
      cases p c with
      | false => rfl
      | true => exact h gs (c :: b) (c :: b') a rfl ha.2
  | seq r s ihr ihs => exact ihr hr.1 (ihs hr.2 h)
  | alt r s ihr ihs =>
    intro gs b b' a hb ha
    simp only [Re.run, ihr hr.1 h gs b b' a hb ha, ihs hr.2 h gs b b' a hb ha, Option.map_or]
  | star p => exact fun gs b b' a hb ha => SameLine.greedy ht hr (h gs) hb ha
  | lazyStar p => exact fun gs b b' a hb ha => SameLine.reluctant ht hr (h gs) hb ha
  | group r ih =>
    intro gs b b' a hb ha
    refine ih hr ?_ gs b b' a hb ha
    intro gs' c c' u hc hu
    have htake : (a ++ tail).take ((a ++ tail).length - (u ++ tail).length) = a.take (a.length - u.length) := by
      rw [List.length_append, List.length_append, Nat.add_sub_add_right]
      exact List.take_append_of_le_length (Nat.sub_le _ _)
    simp only [htake]
    exact h _ c c' u hc hu
  | bol =>
    intro gs b b' a hb ha
    simp only [Re.run, atLineStart_eq, hb]
    split
    · exact h gs b b' a hb ha
    · rfl
  | eol =>
    intro gs b b' a hb ha
    have hend : Cursor.atLineEnd ⟨b, a ++ tail⟩ = Cursor.atLineEnd ⟨b', a⟩ := by
      cases a with
      | nil => obtain rfl | ⟨t, rfl⟩ := ht <;> rfl
      | cons c a => rfl
    simp only [Re.run, hend]
    split
    · exact h gs b b' a hb ha
    · rfl
  | wordBoundary isWord =>
    intro gs b b' a hb ha
    have hhead : ((a ++ tail).head?.map isWord).getD false = (a.head?.map isWord).getD false := by
      cases a with
      | nil =>
        obtain rfl | ⟨t, rfl⟩ := ht
        · rfl
        · exact hr
      | cons c a => rfl
    simp only [Re.run, atBoundary_eq hr, hb, hhead]
    split
    · exact h gs b b' a hb ha
    · rfl

lemma matchAt_within {r : Re} (hr : r.Within) {b b' l : Text} (hb : lastOf b = lastOf b') (hl : '\n' ∉ l) :
    r.matchAt b (l ++ tail) = (r.matchAt b' l).map (extend tail) :=
  SameLine.run ht hr (fun _ _ _ _ _ _ => rfl) [] b b' l hb hl

end

lemma scan_rest {r : Re} (hr : Anchored r) {b u : Text} (tail : Text) (hu : '\n' ∉ u)
    (hb : Cursor.atLineStart ⟨b, []⟩ = false) {n : ℕ} (hn : n ≤ u.length) :
    r.scan n b (u ++ tail) = r.scan 0 (u.reverse ++ b) tail := by
  have hskip := scan_skip r (u.take n) b (u.drop n ++ tail)
  rw [List.length_take_of_le hn, ← List.append_assoc, List.take_append_drop] at hskip
  have hrev : u.reverse = (u.drop n).reverse ++ (u.take n).reverse := by
    rw [← List.reverse_append, List.take_append_drop]
  rw [hskip, hrev, List.append_assoc]
  apply scan_none
  intro x y hx _
  have hxu : '\n' ∉ u.take n ++ x := by
    intro hm
    rw [← List.take_append_drop n u, hx, ← List.append_assoc] at hu
    exact hu (List.mem_append_left y hm)
  apply hr.start
  rw [← List.append_assoc, ← List.reverse_append]
  by_cases hnil : u.take n ++ x = []
  · rw [hnil]
    exact hb
  · exact atLineStart_append hxu hnil

lemma findall_within {r : Re} (hr : Anchored r) (hw : r.Within) (t : Text) :
    r.findall t = (lines t).filterMap (fun l => (r.matchAt [] l).map Prod.fst) := by
  apply findall_steps hr
  intro l hmem b tail hb ht
  have hl := newline_not_mem hmem
  rw [atLineStart_eq, beq_iff_eq] at hb
  have hstart : lastOf b = lastOf [] := hb
  have hm := matchAt_within ht hw hstart hl
  cases l with
  | nil => simp [hr.stop]
  | cons c x =>
    have hrest (n : ℕ) (hn : n ≤ x.length) :
        r.scan n (c :: b) (x ++ tail) = r.scan 0 ((c :: x).reverse ++ b) tail := by
      simp only [List.mem_cons, not_or] at hl
      rw [scan_rest hr tail hl.2 (by simpa [Cursor.atLineStart] using Ne.symm hl.1) hn]
      simp
    rw [List.cons_append] at hm ⊢
    cases hf : r.matchAt [] (c :: x) with
    | none =>
      rw [hf] at hm
      simp [Re.scan, hm, hrest 0 (Nat.zero_le _)]
    | some f =>
      rw [hf] at hm
      simp [Re.scan, hm, extend, hrest (x.length + tail.length - (f.2.length + tail.length)) (by omega)]

lemma search_iff {r : Re} {t : Text} :
    r.search t = true ↔ ∃ u v, t = u ++ v ∧ (r.matchAt u.reverse v).isSome = true := by
  have key (b : Text) : r.scan 0 b t ≠ [] ↔ ∃ u v, t = u ++ v ∧
    (r.matchAt (u.reverse ++ b) v).isSome = true := by
    induction t generalizing b with
    | nil => cases hm : r.matchAt b [] <;> simp [Re.scan, hm]
    | cons c t ih =>
      have hsplit : (∃ u v, c :: t = u ++ v ∧ (r.matchAt (u.reverse ++ b) v).isSome = true) ↔
          (r.matchAt b (c :: t)).isSome = true ∨
            ∃ u v, t = u ++ v ∧ (r.matchAt (u.reverse ++ c :: b) v).isSome = true := by
        constructor
        · rintro ⟨_ | ⟨d, u⟩, v, h, hm⟩
          · left
            rwa [h]
          · obtain ⟨rfl, rfl⟩ := List.cons.inj h
            exact .inr ⟨u, v, rfl, by simpa using hm⟩
        · rintro (hm | ⟨u, v, rfl, hm⟩)
          · exact ⟨[], c :: t, rfl, hm⟩
          · exact ⟨c :: u, v, rfl, by simpa using hm⟩
      rw [hsplit, Re.scan]
      cases hm : r.matchAt b (c :: t) with
      | none => simpa using ih (c :: b)
      | some f => simp
  simpa [Re.search, Re.findall] using key []

end ShMonitor.Texts.Regex
