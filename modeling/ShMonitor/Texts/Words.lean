import ShMonitor.Texts.Lines

/-! Where words begin in a text, and what a pattern can match that begins and ends with a word. -/

namespace ShMonitor.Texts

def wordStarts : Text → ℕ
  | a :: b :: t => (if isSpace a = true ∧ isSpace b = false then 1 else 0) + wordStarts (b :: t)
  | _ => 0

lemma wordStarts_cons (a : Char) (t : Text) : wordStarts t ≤ wordStarts (a :: t) := by
  cases t with
  | nil => exact le_rfl
  | cons b t => simp [wordStarts]

lemma wordStarts_append_left (x t : Text) : wordStarts t ≤ wordStarts (x ++ t) := by
  induction x with
  | nil => exact le_rfl
  | cons a x ih => exact ih.trans (wordStarts_cons a (x ++ t))

lemma wordStarts_append_right (t y : Text) : wordStarts t ≤ wordStarts (t ++ y) := by
  induction t with
  | nil => exact Nat.zero_le _
  | cons a t ih =>
    cases t with
    | nil => exact Nat.zero_le _
    | cons b t =>
      simp only [List.cons_append, wordStarts] at ih ⊢
      omega

lemma wordStarts_le {p t : Text} (h : p <:+: t) : wordStarts p ≤ wordStarts t := by
  obtain ⟨x, y, rfl⟩ := h
  exact (wordStarts_append_left x p).trans (wordStarts_append_right (x ++ p) y)

lemma wordStarts_word {w : Text} (hw : ∀ c ∈ w, isSpace c = false) (t : Text) :
    wordStarts (w ++ t) = wordStarts t := by
  induction w with
  | nil => rfl
  | cons a w ih =>
    have hrest := ih (fun c hc => hw c (List.mem_cons_of_mem _ hc))
    cases hx : w ++ t with
    | nil =>
      rw [List.append_eq_nil_iff] at hx
      simp [hx, wordStarts]
    | cons b s =>
      rw [List.cons_append, hx, wordStarts, if_neg, ← hx, hrest, Nat.zero_add]
      simp [hw a (by simp)]

lemma wordStarts_blanks {b t : Text} (hb : ∀ c ∈ b, isSpace c = true) (hne : b ≠ []) (hn : t ≠ [])
    (ht : ∀ c u, t = c :: u → isSpace c = false) : wordStarts (b ++ t) = 1 + wordStarts t := by
  induction b with
  | nil => exact absurd rfl hne
  | cons a b ih =>
    cases b with
    | nil =>
      cases t with
      | nil => exact absurd rfl hn
      | cons c u => simp [wordStarts, hb a (by simp), ht c u rfl]
    | cons d b =>
      have hrest := ih (fun c hc => hb c (List.mem_cons_of_mem _ hc)) (List.cons_ne_nil _ _)
      simp only [List.cons_append] at hrest ⊢
      simp [wordStarts, hb d (by simp), hrest]

lemma wordStarts_append_blanks (t : Text) {b : Text} (hb : ∀ c ∈ b, isSpace c = true) :
    wordStarts (t ++ b) = wordStarts t := by
  induction t with
  | nil =>
    induction b with
    | nil => rfl
    | cons a b ih =>
      cases b with
      | nil => rfl
      | cons c b => simpa [wordStarts, hb c (by simp)] using ih (fun d hd => hb d (List.mem_cons_of_mem _ hd))
  | cons a t ih =>
    cases t with
    | nil =>
      cases b with
      | nil => rfl
      | cons c b => simpa [wordStarts, hb c (by simp)] using ih
    | cons c t => simpa [wordStarts] using ih

lemma infix_append_of_head {f : Char} {p x t : Text} (hx : ∀ c ∈ x, c ≠ f) (h : f :: p <:+: x ++ t) :
    f :: p <:+: t := by
  induction x with
  | nil => exact h
  | cons c x ih =>
    obtain hp | ht := List.infix_cons_iff.mp h
    · obtain ⟨rfl, -⟩ := List.cons_prefix_cons.mp hp
      exact absurd rfl (hx f (by simp))
    · exact ih (fun d hd => hx d (List.mem_cons_of_mem _ hd)) ht

lemma getLast?_rstrip (t : Text) : ∀ c ∈ (rstrip t).getLast?, isSpace c = false := by
  intro c hc
  obtain ⟨hne, rfl⟩ := List.mem_getLast?_eq_getLast hc
  exact eq_false_of_ne_true (List.rdropWhile_last_not isSpace t hne)

lemma rstrip_eq_nil {t : Text} (h : ∀ c u, t = c :: u → isSpace c = false) : rstrip t = [] ↔ t = [] := by
  refine ⟨?_, fun ht => by simp [ht, rstrip]⟩
  intro hr
  cases t with
  | nil => rfl
  | cons c u =>
    have hall := List.rdropWhile_eq_nil_iff.mp hr c (by simp)
    simp [h c u rfl] at hall

end ShMonitor.Texts
