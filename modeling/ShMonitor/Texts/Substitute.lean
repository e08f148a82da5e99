import ShMonitor.Texts.Regex

/-! Substitution of every match of a pattern, as `sed` makes it with `s/../../g`, and the deletion
of matches that do not depend on the text before them. -/

namespace ShMonitor.Texts.Regex

open ShMonitor.Texts

/-- The first argument counts the characters that still belong to the previous match. -/
def Re.substitute (r : Re) (f : List Text → Text) : ℕ → Text → Text → Text
  | _, b, [] =>
    match r.matchAt b [] with
    | none => []
    | some m => f m.1
  | n + 1, b, c :: a => r.substitute f n (c :: b) a
  | 0, b, c :: a =>
    match r.matchAt b (c :: a) with
    | none => c :: r.substitute f 0 (c :: b) a
    | some m => f m.1 ++ r.substitute f (a.length - m.2.length) (c :: b) a

def Re.sub (r : Re) (f : List Text → Text) (t : Text) : Text := r.substitute f 0 [] t

def Re.delete (r : Re) (t : Text) : Text := r.sub (fun _ => []) t

variable {r : Re} {f : List Text → Text}

lemma substitute_skip (u b a : Text) :
    r.substitute f u.length b (u ++ a) = r.substitute f 0 (u.reverse ++ b) a := by
  induction u generalizing b with
  | nil => rfl
  | cons c u ih => simpa [Re.substitute] using ih (c :: b)

lemma substitute_nil {b : Text} (h : r.matchAt b [] = none) (n : ℕ) : r.substitute f n b [] = [] := by
  rw [Re.substitute, h]

lemma substitute_none {b : Text} {c : Char} {a : Text} (h : r.matchAt b (c :: a) = none) :
    r.substitute f 0 b (c :: a) = c :: r.substitute f 0 (c :: b) a := by
  rw [Re.substitute, h]

lemma substitute_some {b u a : Text} {gs : List Text} (hu : u ≠ []) (h : r.matchAt b (u ++ a) = some (gs, a)) :
    r.substitute f 0 b (u ++ a) = f gs ++ r.substitute f 0 (u.reverse ++ b) a := by
  cases u with
  | nil => exact absurd rfl hu
  | cons c u =>
    have hs : r.substitute f u.length (c :: b) (u ++ a) = _ := substitute_skip u (c :: b) a
    simp only [List.cons_append] at h ⊢
    simp [Re.substitute, h, hs]

lemma substitute_passes {b : Text} (u a : Text)
    (h : ∀ x y, u = x ++ y → y ≠ [] → r.matchAt (x.reverse ++ b) (y ++ a) = none) :
    r.substitute f 0 b (u ++ a) = u ++ r.substitute f 0 (u.reverse ++ b) a := by
  induction u generalizing b with
  | nil => rfl
  | cons c u ih =>
    have h0 : r.matchAt b (c :: (u ++ a)) = none := by simpa using h [] (c :: u) rfl (List.cons_ne_nil c u)
    have hrest := ih (b := c :: b) (fun x y hu hy => by simpa using h (c :: x) y (by simp [hu]) hy)
    rw [List.cons_append, substitute_none h0, hrest, List.reverse_cons, List.append_assoc]
    rfl

/-- A pattern without groups whose match is never empty and does not depend on the text before it. -/
structure Local (r : Re) (m : Text → Option Text) : Prop where
  matchAt : ∀ b a, r.matchAt b a = (m a).map (fun rest => ([], rest))
  short : ∀ a rest, m a = some rest → ∃ u, u ≠ [] ∧ a = u ++ rest

namespace Local

variable {m : Text → Option Text}

lemma stop (hr : Local r m) : m [] = none := by
  by_contra h
  obtain ⟨rest, hrest⟩ := Option.ne_none_iff_exists'.mp h
  obtain ⟨u, hu, hnil⟩ := hr.short _ _ hrest
  exact hu (List.append_eq_nil_iff.mp hnil.symm).1

lemma matchAt_none (hr : Local r m) {a : Text} (h : m a = none) (b : Text) : r.matchAt b a = none := by
  rw [hr.matchAt, h]
  rfl

lemma matchAt_some (hr : Local r m) {a rest : Text} (h : m a = some rest) (b : Text) :
    r.matchAt b a = some ([], rest) := by
  rw [hr.matchAt, h]
  rfl

lemma delete_induction (hr : Local r m) {P : Text → Prop} (nil : P [])
    (keep : ∀ c a, m (c :: a) = none → P a → P (c :: a))
    (cut : ∀ u a, u ≠ [] → m (u ++ a) = some a → P a → P (u ++ a)) (t : Text) : P t := by
  induction t using (measure List.length).wf.induction with
  | h t ih =>
    cases t with
    | nil => exact nil
    | cons c a =>
      cases hmatch : m (c :: a) with
      | none => exact keep c a hmatch (ih a (Nat.lt_succ_self a.length))
      | some rest =>
        obtain ⟨u, hu, ht⟩ := hr.short _ _ hmatch
        rw [ht] at hmatch ih ⊢
        have hlt : rest.length < (u ++ rest).length := by
          have := List.length_pos_of_ne_nil hu
          rw [List.length_append]
          omega
        exact cut u rest hu hmatch (ih rest hlt)

lemma delete_nil (hr : Local r m) : r.delete [] = [] := by
  rw [Re.delete, Re.sub, substitute_nil (hr.matchAt_none hr.stop [])]

lemma delete_before (hr : Local r m) (b t : Text) : r.substitute (fun _ => []) 0 b t = r.delete t := by
  have key : ∀ b, r.substitute (fun _ => []) 0 b t = r.substitute (fun _ => []) 0 [] t := by
    induction t using hr.delete_induction with
    | nil =>
      intro b
      rw [substitute_nil (hr.matchAt_none hr.stop b), substitute_nil (hr.matchAt_none hr.stop [])]
    | keep c a h ih =>
      intro b
      rw [substitute_none (hr.matchAt_none h b), substitute_none (hr.matchAt_none h []), ih (c :: b), ih [c]]
    | cut u a hu h ih =>
      intro b
      rw [substitute_some hu (hr.matchAt_some h b), substitute_some hu (hr.matchAt_some h []),
        ih (u.reverse ++ b), ih (u.reverse ++ [])]
  exact key b

lemma delete_keep (hr : Local r m) {c : Char} {a : Text} (h : m (c :: a) = none) :
    r.delete (c :: a) = c :: r.delete a := by
  rw [Re.delete, Re.sub, substitute_none (hr.matchAt_none h []), hr.delete_before]

lemma delete_cut (hr : Local r m) {u a : Text} (hu : u ≠ []) (h : m (u ++ a) = some a) :
    r.delete (u ++ a) = r.delete a := by
  rw [Re.delete, Re.sub, substitute_some hu (hr.matchAt_some h []), hr.delete_before]
  rfl

lemma delete_subset (hr : Local r m) (t : Text) : r.delete t ⊆ t := by
  induction t using hr.delete_induction with
  | nil =>
    rw [hr.delete_nil]
    exact List.Subset.refl []
  | keep c a h ih =>
    rw [hr.delete_keep h]
    exact List.cons_subset_cons c ih
  | cut u a hu h ih =>
    rw [hr.delete_cut hu h]
    exact List.Subset.trans ih (List.subset_append_right u a)

lemma delete_descent (hr : Local r m) (φ : Text → ℕ)
    (hφ : ∀ x u a, u ≠ [] → m (u ++ a) = some a → φ (x ++ a) < φ (x ++ (u ++ a))) (t x : Text) :
    φ (x ++ r.delete t) ≤ φ (x ++ t) ∧ ((∃ a, a <:+ t ∧ (m a).isSome) → φ (x ++ r.delete t) < φ (x ++ t)) := by
  induction t using hr.delete_induction generalizing x with
  | nil =>
    rw [hr.delete_nil]
    refine ⟨le_rfl, ?_⟩
    rintro ⟨a, ha, hsome⟩
    rw [List.suffix_nil.mp ha, hr.stop] at hsome
    cases hsome
  | keep c a h ih =>
    obtain ⟨hle, hlt⟩ := ih (x ++ [c])
    rw [List.append_assoc, List.append_assoc] at hle hlt
    rw [hr.delete_keep h]
    refine ⟨hle, ?_⟩
    rintro ⟨v, hv, hsome⟩
    obtain rfl | hv := List.suffix_cons_iff.mp hv
    · rw [h] at hsome
      cases hsome
    · exact hlt ⟨v, hv, hsome⟩
  | cut u a hu h ih =>
    rw [hr.delete_cut hu h]
    have hless := (ih x).1.trans_lt (hφ x u a hu h)
    exact ⟨hless.le, fun _ => hless⟩

lemma delete_length (hr : Local r m) (t : Text) :
    (r.delete t).length ≤ t.length ∧ ((∃ a, a <:+ t ∧ (m a).isSome) → (r.delete t).length < t.length) := by
  apply hr.delete_descent List.length _ t []
  intro x u a hu _
  have := List.length_pos_of_ne_nil hu
  simp only [List.length_append]
  omega

lemma delete_of_none (hr : Local r m) (t : Text) (h : ∀ a, a <:+ t → m a = none) : r.delete t = t := by
  induction t with
  | nil => exact hr.delete_nil
  | cons c a ih =>
    rw [hr.delete_keep (h _ List.suffix_rfl), ih (fun v hv => h v (hv.trans (List.suffix_cons c a)))]

lemma delete_append (hr : Local r m) (w t : Text)
    (h : ∀ v, v <:+ w → v ≠ [] → m (v ++ t) = (m v).map (· ++ t)) :
    r.delete (w ++ t) = r.delete w ++ r.delete t := by
  induction w using hr.delete_induction with
  | nil => rw [hr.delete_nil, List.nil_append, List.nil_append]
  | keep c a hnone ih =>
    have hstart : m (c :: (a ++ t)) = none := by
      rw [← List.cons_append, h _ List.suffix_rfl (List.cons_ne_nil c a), hnone]
      rfl
    rw [List.cons_append, hr.delete_keep hstart, hr.delete_keep hnone,
      ih (fun v hv => h v (hv.trans (List.suffix_cons c a))), List.cons_append]
  | cut u a hu hsome ih =>
    have hstart := h _ List.suffix_rfl (List.append_ne_nil_of_left_ne_nil hu a)
    rw [hsome, Option.map_some, List.append_assoc] at hstart
    rw [List.append_assoc, hr.delete_cut hu hstart, hr.delete_cut hu hsome,
      ih (fun v hv => h v (hv.trans (List.suffix_append u a)))]

end Local

end ShMonitor.Texts.Regex
