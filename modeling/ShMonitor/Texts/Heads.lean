import ShMonitor.Texts.Regex

/-! Where the matches of a pattern begin. A pattern that begins at a line start is tried at the heads of a
text, the suffixes that begin a line, and skips the heads that its last match has consumed. -/

namespace ShMonitor.Texts.Regex

open ShMonitor.Texts

def Re.iter (r : Re) : ℕ → Text → Text → List (Text × Found)
  | _, b, [] =>
    match r.matchAt b [] with
    | none => []
    | some f => [([], f)]
  | n + 1, b, c :: a => r.iter n (c :: b) a
  | 0, b, c :: a =>
    match r.matchAt b (c :: a) with
    | none => r.iter 0 (c :: b) a
    | some f => (c :: a, f) :: r.iter (a.length - f.2.length) (c :: b) a

def Re.finditer (r : Re) (t : Text) : List (Text × Found) := r.iter 0 [] t

def laterHeads : Text → List Text
  | [] => []
  | c :: t => if c == '\n' then t :: laterHeads t else laterHeads t

def heads (t : Text) : List Text := t :: laterHeads t

def walk (m : Text → Option Found) : ℕ → List Text → List (Text × Found)
  | _, [] => []
  | limit, v :: vs =>
    if v.length ≤ limit then
      match m v with
      | none => walk m limit vs
      | some f => (v, f) :: walk m f.2.length vs
    else walk m limit vs

lemma scan_eq_iter (r : Re) (n : ℕ) (b a : Text) : r.scan n b a = (r.iter n b a).map (fun hit => hit.2.1) := by
  induction a generalizing n b with
  | nil =>
    rw [Re.scan, Re.iter]
    cases r.matchAt b [] <;> rfl
  | cons c a ih =>
    cases n with
    | succ n => exact ih n (c :: b)
    | zero =>
      rw [Re.scan, Re.iter]
      cases r.matchAt b (c :: a) with
      | none => exact ih 0 (c :: b)
      | some f => simp [ih]

lemma findall_eq_finditer (r : Re) (t : Text) : r.findall t = (r.finditer t).map (fun hit => hit.2.1) :=
  scan_eq_iter r 0 [] t

lemma laterHeads_append {l : Text} (hl : '\n' ∉ l) (t : Text) : laterHeads (l ++ t) = laterHeads t := by
  induction l with
  | nil => rfl
  | cons c l ih =>
    simp only [List.mem_cons, not_or] at hl
    simp [laterHeads, Ne.symm hl.1, ih hl.2]

lemma heads_single {l : Text} (hl : '\n' ∉ l) : heads l = [l] := by
  have h := laterHeads_append hl []
  rw [List.append_nil] at h
  rw [heads, h]
  rfl

lemma heads_cons {l : Text} (hl : '\n' ∉ l) (t : Text) :
    heads (l ++ '\n' :: t) = (l ++ '\n' :: t) :: heads t := by
  rw [heads, laterHeads_append hl]
  rfl

lemma mem_laterHeads {w t : Text} : w ∈ laterHeads t ↔ ∃ x, t = x ++ '\n' :: w := by
  induction t with
  | nil => simp [laterHeads]
  | cons c t ih =>
    have hlater : (∃ x, c :: t = x ++ '\n' :: w) ↔ c = '\n' ∧ t = w ∨ ∃ x, t = x ++ '\n' :: w := by
      constructor
      · rintro ⟨_ | ⟨d, x⟩, h⟩
        · exact .inl (List.cons.inj h)
        · exact .inr ⟨x, (List.cons.inj h).2⟩
      · rintro (⟨rfl, rfl⟩ | ⟨x, rfl⟩)
        · exact ⟨[], rfl⟩
        · exact ⟨c :: x, rfl⟩
    rw [hlater, ← ih, laterHeads]
    by_cases hc : c = '\n'
    · rw [if_pos (beq_iff_eq.mpr hc), List.mem_cons, eq_comm (a := w)]
      simp [hc]
    · rw [if_neg (by simpa using hc)]
      simp [hc]

lemma heads_pairwise (t : Text) : (heads t).Pairwise (fun v w => ∃ x, v = x ++ '\n' :: w) := by
  have key : (laterHeads t).Pairwise (fun v w => ∃ x, v = x ++ '\n' :: w) := by
    induction t with
    | nil => exact .nil
    | cons c t ih =>
      rw [laterHeads]
      split
      · exact List.Pairwise.cons (fun w hw => mem_laterHeads.mp hw) ih
      · exact ih
  exact List.Pairwise.cons (fun w hw => mem_laterHeads.mp hw) key

lemma heads_lengths (t : Text) : (heads t).Pairwise (fun v w => w.length < v.length) := by
  apply (heads_pairwise t).imp
  rintro v w ⟨x, rfl⟩
  simp only [List.length_append, List.length_cons]
  omega

lemma mem_heads_rest {t x w : Text} (h : x ++ '\n' :: w ∈ heads t) : w ∈ heads t := by
  obtain h | h := List.mem_cons.mp h
  · exact List.mem_cons_of_mem _ (mem_laterHeads.mpr ⟨x, h.symm⟩)
  · obtain ⟨y, hy⟩ := mem_laterHeads.mp h
    refine List.mem_cons_of_mem _ (mem_laterHeads.mpr ⟨y ++ '\n' :: x, ?_⟩)
    rw [hy]
    simp

section

variable {r : Re} {m : Text → Option Found}
  (hm : ∀ b a, r.matchAt b a = if Cursor.atLineStart ⟨b, a⟩ then m a else none) (hstop : m [] = none)

include hm

lemma iter_within {b x : Text} (t : Text) (n : ℕ) (hb : Cursor.atLineStart ⟨b, []⟩ = false) (hx : '\n' ∉ x) :
    r.iter n b (x ++ '\n' :: t) = r.iter (n - (x.length + 1)) ('\n' :: (x.reverse ++ b)) t := by
  have hnone (a : Text) : r.matchAt b a = none := by
    have hb' : Cursor.atLineStart ⟨b, a⟩ = false := hb
    rw [hm, hb']
    rfl
  induction x generalizing n b with
  | nil => cases n <;> simp [Re.iter, hnone]
  | cons c x ih =>
    simp only [List.mem_cons, not_or] at hx
    have hc : Cursor.atLineStart ⟨c :: b, []⟩ = false := by simpa [Cursor.atLineStart] using Ne.symm hx.1
    have hnone' (a : Text) : r.matchAt (c :: b) a = none := by
      have hc' : Cursor.atLineStart ⟨c :: b, a⟩ = false := hc
      rw [hm, hc']
      rfl
    cases n with
    | zero => simpa [Re.iter, hnone] using ih 0 hc hx.2 hnone'
    | succ n => simpa [Re.iter] using ih n hc hx.2 hnone'

include hstop

lemma iter_last {b x : Text} (n : ℕ) (hb : Cursor.atLineStart ⟨b, []⟩ = false) (hx : '\n' ∉ x) :
    r.iter n b x = [] := by
  induction x generalizing n b with
  | nil => simp [Re.iter, hm, hstop]
  | cons c x ih =>
    simp only [List.mem_cons, not_or] at hx
    have hc : Cursor.atLineStart ⟨c :: b, []⟩ = false := by simpa [Cursor.atLineStart] using Ne.symm hx.1
    have hb' : Cursor.atLineStart ⟨b, c :: x⟩ = false := hb
    cases n with
    | zero => simpa [Re.iter, hm, hb'] using ih 0 hc hx.2
    | succ n => exact ih n hc hx.2

lemma iter_walk (t : Text) (limit : ℕ) (b : Text) (hb : Cursor.atLineStart ⟨b, []⟩ = true) :
    r.iter (t.length - limit) b t = walk m limit (heads t) := by
  induction t using line_induction generalizing limit b with
  | last l hl =>
    have hstart (a : Text) : r.matchAt b a = m a := (hm b a).trans (if_pos hb)
    have hrest (c : Char) (x : Text) (n : ℕ) (h : l = c :: x) : r.iter n (c :: b) x = [] := by
      simp only [h, List.mem_cons, not_or] at hl
      apply iter_last hm hstop n _ hl.2
      simpa [Cursor.atLineStart] using Ne.symm hl.1
    rw [heads_single hl]
    cases l with
    | nil => simp [Re.iter, hstart, hstop, walk]
    | cons c x =>
      by_cases hv : (c :: x).length ≤ limit
      · rw [Nat.sub_eq_zero_of_le hv, Re.iter, hstart]
        simp only [walk, if_pos hv]
        cases m (c :: x) with
        | none => exact hrest c x 0 rfl
        | some f => simp [hrest c x _ rfl]
      · obtain ⟨n, hn⟩ := Nat.exists_eq_succ_of_ne_zero (Nat.sub_ne_zero_of_lt (not_le.mp hv))
        simp only [hn, walk, if_neg hv]
        exact hrest c x n rfl
  | line l t hl ih =>
    have hstart (a : Text) : r.matchAt b a = m a := (hm b a).trans (if_pos hb)
    have hnext (c : Char) (a : Text) (n : ℕ) (h : l ++ '\n' :: t = c :: a) :
        r.iter n (c :: b) a = r.iter (n - l.length) ('\n' :: (l.reverse ++ b)) t := by
      cases l with
      | nil =>
        obtain ⟨rfl, rfl⟩ := List.cons.inj h
        rfl
      | cons d x =>
        obtain ⟨rfl, rfl⟩ := List.cons.inj h
        simp only [List.mem_cons, not_or] at hl
        have hc : Cursor.atLineStart ⟨d :: b, []⟩ = false := by simpa [Cursor.atLineStart] using Ne.symm hl.1
        simpa using iter_within hm t n hc hl.2
    have hlater (n : ℕ) := ih n ('\n' :: (l.reverse ++ b)) rfl
    rw [heads_cons hl]
    obtain ⟨c, a, hv⟩ : ∃ c a, l ++ '\n' :: t = c :: a := List.exists_cons_of_ne_nil (by simp)
    have hlen : (c :: a).length = l.length + (t.length + 1) := by rw [← hv]; simp
    rw [List.length_cons] at hlen
    rw [hv]
    by_cases hle : (c :: a).length ≤ limit
    · rw [Nat.sub_eq_zero_of_le hle, Re.iter, hstart]
      simp only [walk, if_pos hle]
      cases m (c :: a) with
      | none =>
        simp only
        rw [hnext c a 0 hv, ← hlater limit]
        congr 1
        simp only [List.length_cons] at hle
        omega
      | some f =>
        simp only
        rw [hnext c a _ hv, ← hlater f.2.length]
        congr 2
        omega
    · obtain ⟨n, hn⟩ := Nat.exists_eq_succ_of_ne_zero (Nat.sub_ne_zero_of_lt (not_le.mp hle))
      simp only [hn, walk, if_neg hle, Re.iter]
      rw [hnext c a n hv, ← hlater limit]
      congr 1
      simp only [List.length_cons] at hn
      omega

lemma finditer_walk (t : Text) : r.finditer t = walk m t.length (heads t) := by
  have h := iter_walk hm hstop t t.length [] rfl
  rwa [Nat.sub_self] at h

end

variable {m : Text → Option Found} {limit : ℕ} {u : Text} {vs : List Text}

lemma walk_cons (m : Text → Option Found) (limit : ℕ) (u : Text) (vs : List Text) :
    ((m u).isSome → limit < u.length) ∧ walk m limit (u :: vs) = walk m limit vs ∨
      ∃ f, m u = some f ∧ u.length ≤ limit ∧ walk m limit (u :: vs) = (u, f) :: walk m f.2.length vs := by
  rw [walk]
  by_cases hle : u.length ≤ limit
  · cases hu : m u with
    | none => exact .inl ⟨by simp, by rw [ite_self]⟩
    | some f => exact .inr ⟨f, rfl, hle, if_pos hle⟩
  · exact .inl ⟨fun _ => not_le.mp hle, if_neg hle⟩

lemma mem_walk {v : Text} {f : Found} (h : (v, f) ∈ walk m limit vs) : v ∈ vs ∧ m v = some f := by
  induction vs generalizing limit with
  | nil => cases h
  | cons u vs ih =>
    obtain ⟨-, hw⟩ | ⟨g, hu, -, hw⟩ := walk_cons m limit u vs
    · rw [hw] at h
      exact ⟨List.mem_cons_of_mem u (ih h).1, (ih h).2⟩
    · rw [hw] at h
      obtain h | h := List.mem_cons.mp h
      · obtain ⟨rfl, rfl⟩ := Prod.mk.inj h
        exact ⟨List.mem_cons_self, hu⟩
      · exact ⟨List.mem_cons_of_mem u (ih h).1, (ih h).2⟩

lemma walk_sublist (m : Text → Option Found) (limit : ℕ) (vs : List Text) :
    ((walk m limit vs).map Prod.fst).Sublist (vs.filter (fun v => (m v).isSome)) := by
  induction vs generalizing limit with
  | nil => exact .slnil
  | cons u vs ih =>
    obtain ⟨-, hw⟩ | ⟨f, hu, -, hw⟩ := walk_cons m limit u vs
    · rw [hw, List.filter_cons]
      split
      · exact (ih limit).cons u
      · exact ih limit
    · rw [hw, List.filter_cons_of_pos (by simp [hu])]
      exact (ih f.2.length).cons_cons u

lemma exists_mem_walk {p : Text → Bool} (hp : ∀ v, (m v).isSome → p v = true)
    (hcount : (walk m limit vs).length = vs.countP p) {w : Text} (hw : w ∈ vs) (hpw : p w = true) :
    ∃ f, (w, f) ∈ walk m limit vs := by
  have hsub := (walk_sublist m limit vs).trans (List.monotone_filter_right vs hp)
  have hvisits := hsub.eq_of_length (by rw [List.length_map, hcount, List.countP_eq_length_filter])
  have hmem : w ∈ vs.filter p := List.mem_filter.mpr ⟨hw, hpw⟩
  rw [← hvisits] at hmem
  obtain ⟨⟨_, f⟩, hf, rfl⟩ := List.mem_map.mp hmem
  exact ⟨f, hf⟩

section

variable (hm : ∀ u f, m u = some f → f.2.length ≤ u.length)

include hm

lemma length_le_of_mem_walk {v : Text} {f : Found} (h : (v, f) ∈ walk m limit vs) : v.length ≤ limit := by
  induction vs generalizing limit with
  | nil => cases h
  | cons u vs ih =>
    obtain ⟨-, hw⟩ | ⟨g, hu, hle, hw⟩ := walk_cons m limit u vs
    · rw [hw] at h
      exact ih h
    · rw [hw] at h
      obtain h | h := List.mem_cons.mp h
      · obtain ⟨rfl, rfl⟩ := Prod.mk.inj h
        exact hle
      · exact ((ih h).trans (hm u g hu)).trans hle

lemma walk_apart (hvs : vs.Pairwise (fun v w => w.length < v.length)) {v w : Text} {f g : Found}
    (hv : (v, f) ∈ walk m limit vs) (hw : (w, g) ∈ walk m limit vs) (hlt : w.length < v.length) :
    w.length ≤ f.2.length := by
  induction vs generalizing limit with
  | nil => cases hv
  | cons u vs ih =>
    obtain ⟨hu, hvs⟩ := List.pairwise_cons.mp hvs
    obtain ⟨-, hwalk⟩ | ⟨k, -, -, hwalk⟩ := walk_cons m limit u vs
    · rw [hwalk] at hv hw
      exact ih hvs hv hw
    · rw [hwalk, List.mem_cons] at hv hw
      obtain hv | hv := hv
      · obtain ⟨rfl, rfl⟩ := Prod.mk.inj hv
        obtain hw | hw := hw
        · obtain ⟨rfl, rfl⟩ := Prod.mk.inj hw
          exact absurd hlt (lt_irrefl _)
        · exact length_le_of_mem_walk hm hw
      · obtain hw | hw := hw
        · obtain ⟨rfl, rfl⟩ := Prod.mk.inj hw
          exact absurd (hu _ (mem_walk hv).1) (not_lt.mpr hlt.le)
        · exact ih hvs hv hw

end

lemma walk_eq (hlimit : ∀ v ∈ vs, (m v).isSome → v.length ≤ limit)
    (hvs : vs.Pairwise (fun v w => (m w).isSome → ∀ f ∈ m v, w.length ≤ f.2.length)) :
    walk m limit vs = vs.filterMap (fun v => (m v).map (v, ·)) := by
  induction vs generalizing limit with
  | nil => rfl
  | cons u vs ih =>
    obtain ⟨hu, hvs⟩ := List.pairwise_cons.mp hvs
    obtain ⟨hnone, hw⟩ | ⟨f, hf, -, hw⟩ := walk_cons m limit u vs
    · have hmu : m u = none := by
        by_contra hne
        have hs : (m u).isSome := Option.isSome_iff_ne_none.mpr hne
        exact absurd (hlimit u List.mem_cons_self hs) (not_le.mpr (hnone hs))
      rw [hw, ih (fun v hv => hlimit v (List.mem_cons_of_mem u hv)) hvs,
        List.filterMap_cons_none (by simp [hmu])]
    · rw [hw, ih (fun v hv hs => hu v hv hs f hf) hvs,
        List.filterMap_cons_some (f := fun v => (m v).map (v, ·)) (b := (u, f)) (by simp [hf])]

end ShMonitor.Texts.Regex
