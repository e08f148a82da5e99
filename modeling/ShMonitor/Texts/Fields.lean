import ShMonitor.Texts.Lines

/-! The words of a text between separators, as `str.split` and the shell take a line apart, and the lines
of `str.splitlines`. -/

namespace ShMonitor.Texts

def words (sep : Char → Bool) (t : Text) : List Text := (t.splitOnP sep).filter (fun w => decide (w ≠ []))

def isLineBreak (c : Char) : Bool :=
  let n := c.toNat
  (10 ≤ n && n ≤ 13) || (28 ≤ n && n ≤ 30) || n == 0x85 || n == 0x2028 || n == 0x2029

def splitLines : Text → List Text
  | [] => []
  | '\r' :: '\n' :: t => [] :: splitLines t
  | c :: t =>
    if isLineBreak c then [] :: splitLines t
    else match splitLines t with
      | [] => [[c]]
      | l :: ls => (c :: l) :: ls

variable {sep : Char → Bool}

lemma none_of_any {t : Text} (h : t.any sep = false) : ∀ c ∈ t, sep c = false := by
  intro c hc
  simpa using List.any_eq_false.mp h c hc

@[simp] lemma words_nil : words sep [] = [] := rfl

lemma words_sep {s : Char} (hs : sep s = true) (t : Text) : words sep (s :: t) = words sep t := by
  have h := List.splitOnP_append_cons [] t hs
  rw [List.nil_append, List.splitOnP_nil] at h
  rw [words, h]
  rfl

lemma words_seps {b : Text} (hb : ∀ c ∈ b, sep c = true) (t : Text) : words sep (b ++ t) = words sep t := by
  induction b with
  | nil => rfl
  | cons c b ih =>
    rw [List.cons_append, words_sep (hb c List.mem_cons_self),
      ih (fun d hd => hb d (List.mem_cons_of_mem c hd))]

lemma free_of_imp {p : Char → Bool} (h : ∀ c, sep c = true → p c = true) {w : Text}
    (hw : ∀ c ∈ w, p c = false) :
    ∀ c ∈ w, sep c = false := by
  intro c hc
  by_contra hsep
  rw [Bool.not_eq_false] at hsep
  exact absurd (h c hsep) (by simp [hw c hc])

lemma words_word {w : Text} (hne : w ≠ []) (hw : ∀ c ∈ w, sep c = false) : words sep w = [w] := by
  rw [words, List.splitOnP_eq_singleton hw]
  simp [hne]

lemma words_append {s : Char} (hs : sep s = true) (t u : Text) :
    words sep (t ++ s :: u) = words sep t ++ words sep u := by
  rw [words, List.splitOnP_append_cons t u hs, List.filter_append]
  rfl

lemma words_cons {w : Text} (hne : w ≠ []) (hw : ∀ c ∈ w, sep c = false) {s : Char} (hs : sep s = true)
    (t : Text) :
    words sep (w ++ s :: t) = w :: words sep t := by
  rw [words_append hs, words_word hne hw]
  rfl

lemma words_append_stop {t : Text} (ht : ∀ c ∈ t.head?, sep c = true) (w : Text) :
    words sep (w ++ t) = words sep w ++ words sep t := by
  cases t with
  | nil => rw [List.append_nil, words_nil, List.append_nil]
  | cons c t =>
    have hc : sep c = true := ht c rfl
    rw [words_append hc, words_sep hc]

lemma takeWhile_append_stop {p : Char → Bool} {t : Text} (ht : ∀ c ∈ t.head?, p c = false) (a : Text) :
    (a ++ t).takeWhile p = a.takeWhile p ∧ (a ++ t).dropWhile p = a.dropWhile p ++ t := by
  induction a with
  | nil =>
    cases t with
    | nil => exact ⟨rfl, rfl⟩
    | cons c t => simp [ht c rfl]
  | cons c a ih =>
    cases hc : p c with
    | false => simp [hc]
    | true => simpa [hc] using ih

lemma prefix_of_stop {p w t : Text} (hp : ∀ c ∈ p, sep c = false) (ht : ∀ c ∈ t.head?, sep c = true)
    (h : p <+: w ++ t) : p <+: w := by
  induction w generalizing p with
  | nil =>
    cases p with
    | nil => exact List.nil_prefix
    | cons c p =>
      obtain ⟨u, rfl⟩ : ∃ u, t = c :: u := ⟨p ++ h.choose, h.choose_spec.symm⟩
      exact absurd (ht c rfl) (by simp [hp c List.mem_cons_self])
  | cons d w ih =>
    cases p with
    | nil => exact List.nil_prefix
    | cons c p =>
      obtain ⟨rfl, hrest⟩ := List.cons_prefix_cons.mp h
      exact List.cons_prefix_cons.mpr ⟨rfl, ih (fun e he => hp e (List.mem_cons_of_mem c he)) hrest⟩

lemma exists_word (sep : Char → Bool) (t : Text) :
    ∃ w u, t = w ++ u ∧ (∀ c ∈ w, sep c = false) ∧ ∀ c ∈ u.head?, sep c = true := by
  refine ⟨t.takeWhile (fun c => !sep c), t.dropWhile (fun c => !sep c),
    List.takeWhile_append_dropWhile.symm, ?_, ?_⟩
  · intro c hc
    simpa using List.mem_takeWhile_imp hc
  · intro c hc
    obtain ⟨u, hu⟩ := List.head?_eq_some_iff.mp hc
    simpa using dropWhile_head t hu

@[elab_as_elim]
lemma word_induction (sep : Char → Bool) {P : Text → Prop} (last : ∀ w, (∀ c ∈ w, sep c = false) → P w)
    (word : ∀ w s t, (∀ c ∈ w, sep c = false) → sep s = true → P t → P (w ++ s :: t)) (t : Text) : P t := by
  induction t using (measure List.length).wf.induction with
  | h t ih =>
    obtain ⟨w, u, rfl, hw, hu⟩ := exists_word sep t
    cases u with
    | nil =>
      rw [List.append_nil]
      exact last w hw
    | cons s u =>
      apply word w s u hw (hu s rfl) (ih u _)
      show u.length < (w ++ s :: u).length
      rw [List.length_append, List.length_cons]
      omega

lemma splitLines_break {c : Char} (hc : isLineBreak c = true) (hr : c ≠ '\r') (t : Text) :
    splitLines (c :: t) = [] :: splitLines t := by
  rw [splitLines.eq_3 _ _ (fun _ h => absurd h hr), if_pos hc]

lemma splitLines_char {c : Char} (hc : isLineBreak c = false) (t : Text) :
    splitLines (c :: t) = match splitLines t with
      | [] => [[c]]
      | l :: ls => (c :: l) :: ls := by
  have hr : c ≠ '\r' := by
    rintro rfl
    cases hc
  rw [splitLines.eq_3 _ _ (fun _ h => absurd h hr), hc]
  rfl

lemma splitLines_cons {l : Text} (hl : ∀ c ∈ l, isLineBreak c = false) (t : Text) :
    splitLines (l ++ '\n' :: t) = l :: splitLines t := by
  induction l with
  | nil => exact splitLines_break rfl (by decide) t
  | cons c l ih =>
    rw [List.cons_append, splitLines_char (hl c List.mem_cons_self),
      ih (fun d hd => hl d (List.mem_cons_of_mem c hd))]

lemma splitLines_unlines {ls : List Text} (h : ∀ l ∈ ls, ∀ c ∈ l, isLineBreak c = false) :
    splitLines (unlines ls) = ls := by
  induction ls with
  | nil => rfl
  | cons l ls ih =>
    have hl : unlines (l :: ls) = l ++ '\n' :: unlines ls := by simp [unlines]
    rw [hl, splitLines_cons (h l List.mem_cons_self), ih (fun m hm => h m (List.mem_cons_of_mem l hm))]

lemma isSpace_of_isLineBreak {c : Char} (h : isLineBreak c = true) : isSpace c = true := by
  simp only [isLineBreak, isSpace, Bool.or_eq_true, Bool.and_eq_true, decide_eq_true_eq, beq_iff_eq] at h ⊢
  omega

lemma isLineBreak_of_word {w : Text} (hw : ∀ c ∈ w, isSpace c = false) : ∀ c ∈ w, isLineBreak c = false :=
  free_of_imp (fun _ => isSpace_of_isLineBreak) hw

def blanks (n : ℕ) : Text := ' ' :: List.replicate n ' '

lemma blanks_forall {p : Char → Prop} (h : p ' ') (n : ℕ) : ∀ c ∈ blanks n, p c := by
  intro c hc
  obtain rfl | hc := List.mem_cons.mp hc
  · exact h
  · rw [List.eq_of_mem_replicate hc]
    exact h

lemma sep_blanks (hs : sep ' ' = true) (n : ℕ) : ∀ c ∈ blanks n, sep c = true :=
  blanks_forall (p := fun c => sep c = true) hs n

lemma isLineBreak_blanks (n : ℕ) : ∀ c ∈ blanks n, isLineBreak c = false :=
  blanks_forall (p := fun c => isLineBreak c = false) rfl n

lemma words_blanks (hs : sep ' ' = true) (n : ℕ) (t : Text) : words sep (blanks n ++ t) = words sep t :=
  words_seps (sep_blanks hs n) t

lemma words_field (hs : sep ' ' = true) {w : Text} (hne : w ≠ []) (hw : ∀ c ∈ w, sep c = false) (n : ℕ)
    (t : Text) :
    words sep (w ++ (blanks n ++ t)) = w :: words sep t := by
  have h := words_cons hne hw hs (List.replicate n ' ' ++ t)
  rw [words_seps (fun c hc => sep_blanks hs n c (List.mem_cons_of_mem ' ' hc))] at h
  exact h

end ShMonitor.Texts
