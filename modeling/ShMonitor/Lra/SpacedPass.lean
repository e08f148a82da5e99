import ShMonitor.Lra.LevelPass

/-! The pass that takes out a level after blanks, over what the first pass leaves. -/

namespace ShMonitor.Lra.DgOptions

open Texts Texts.Regex
open Bisect.ShSim (isIfs)

variable {loc : Locale}

def spacedRest (loc : Locale) : Text → Option Text
  | '-' :: 'O' :: ' ' :: a => runRest loc (a.dropWhile (· == ' '))
  | _ => none

lemma spacedRest_eq_none {a : Text} (h : ¬ "-O ".toList <+: a) : spacedRest loc a = none := by
  unfold spacedRest
  split
  · exact absurd ⟨_, rfl⟩ h
  · rfl

lemma startsRun_blank {c : Char} (hc : isLevelChar c = false) (t : Text) : startsRun loc (c :: t) = false := by
  simp [startsRun, hc]

lemma spacedRe_local : Local (spacedLevelRe loc) (spacedRest loc) where
  matchAt b a := by
    rw [Re.matchAt, spacedLevelRe, run_cat_cons]
    by_cases ha : "-O".toList <+: a
    · obtain ⟨a, rfl⟩ := ha
      rw [run_lit, run_cat_cons]
      cases a with
      | nil => rfl
      | cons c a =>
        by_cases hc : c = ' '
        · subst hc
          have hblank : ∀ gs b c a, (c == ' ') = true →
              (Re.cat [.plus isLevelChar, .wordBoundary loc.isWord]).run (fun gs cur => some (gs, cur.after)) gs
                ⟨b, c :: a⟩ = none := by
            intro gs b c a hc
            rw [beq_iff_eq.mp hc]
            rfl
          rw [run_plus_possessive (hblank []) (by simp), run_level]
          rfl
        · rw [run_plus_none (by simp [hc]), spacedRest_eq_none]
          · rfl
          · simpa [List.cons_prefix_cons] using Ne.symm hc
    · have hlonger : ¬ "-O ".toList <+: a := fun h => ha ((List.prefix_append "-O".toList [' ']).trans h)
      rw [run_lit_none ha, spacedRest_eq_none hlonger]
      rfl
  short a rest h := by
    by_cases ha : "-O ".toList <+: a
    · obtain ⟨a, rfl⟩ := ha
      obtain ⟨run, -, -, hrun, -⟩ := runRest_short h
      have hafter : a.dropWhile (· == ' ') = run ++ rest := hrun
      refine ⟨"-O ".toList ++ (a.takeWhile (· == ' ') ++ run), List.cons_ne_nil _ _, ?_⟩
      rw [List.append_assoc, List.append_assoc, ← hafter, List.takeWhile_append_dropWhile]
    · rw [spacedRest_eq_none ha] at h
      cases h

lemma isOther_iff {w : Text} : isOther w = true ↔ isLevel w = false ∧ w ≠ m4 := by
  simp [isOther]

lemma isOther_dash {x : Text} (hx : x ≠ []) : isOther (x ++ "-O".toList) = true := by
  apply isOther_iff.mpr
  constructor
  · rw [← Bool.not_eq_true]
    intro h
    obtain ⟨level, heq, halnum⟩ := exists_of_isLevel h
    match x, hx with
    | [c], _ => cases heq
    | c :: d :: y, _ =>
      obtain rfl : y ++ "-O".toList = level := (List.cons.inj (List.cons.inj heq).2).2
      cases halnum '-' (by simp)
  · intro h
    have hlast := congrArg List.getLast? h
    simp [m4] at hlast

lemma isOther_run {c : Char} (hc : isLevelChar c = true) (w : Text) : isOther (c :: w) = true := by
  have hdash : c ≠ '-' := by
    rintro rfl
    cases hc
  apply isOther_iff.mpr
  constructor
  · rw [← Bool.not_eq_true]
    intro h
    obtain ⟨level, heq, -⟩ := exists_of_isLevel h
    exact hdash (List.cons.inj heq).1
  · intro h
    exact hdash (List.cons.inj h).1

lemma isIfs_of_isLevelChar {c : Char} (hc : isLevelChar c = true) : isIfs c = false := by
  by_contra h
  rw [Bool.not_eq_false] at h
  exact absurd hc (by simp [isLevelChar_gap h])

lemma spacedRest_short {a rest : Text} (h : spacedRest loc a = some rest) :
    ∃ blanks run, a = "-O".toList ++ ' ' :: (blanks ++ (run ++ rest)) ∧ (∀ c ∈ blanks, isIfs c = true) ∧
      run ≠ [] ∧
      ∀ c ∈ run, isLevelChar c = true := by
  by_cases ha : "-O ".toList <+: a
  · obtain ⟨a, rfl⟩ := ha
    have hafter : runRest loc (a.dropWhile (· == ' ')) = some rest := h
    obtain ⟨run, hne, hrun, hafter, -⟩ := runRest_short hafter
    refine ⟨a.takeWhile (· == ' '), run, ?_, ?_, hne, hrun⟩
    · rw [← hafter, List.takeWhile_append_dropWhile]
      rfl
    · intro c hc
      have hblank : (c == ' ') = true := List.mem_takeWhile_imp (p := (· == ' ')) hc
      rw [beq_iff_eq.mp hblank]
      rfl
  · rw [spacedRest_eq_none ha] at h
    cases h

lemma totalWeight_spaced (x u a : Text) (h : spacedRest loc (u ++ a) = some a) :
    totalWeight (x ++ a) < totalWeight (x ++ (u ++ a)) := by
  obtain ⟨blanks, run, heq, hblanks, hne, hrun⟩ := spacedRest_short h
  rw [heq]
  induction x using word_induction isIfs with
  | word w g t hw hg ih =>
    have hstop : ∀ v, ∀ c ∈ (g :: v).head?, isIfs c = true := by
      intro v c hc
      obtain rfl := Option.some.inj hc
      exact hg
    have hgap : ∀ v, totalWeight (g :: v) = totalWeight v :=
      fun v => totalWeight_gaps (b := [g]) (by simp [hg]) v
    rw [List.append_assoc, List.append_assoc, List.cons_append, List.cons_append, totalWeight_append (hstop _),
      totalWeight_append (hstop _), hgap, hgap]
    exact Nat.add_lt_add_left ih _
  | last w hw =>
    clear h heq
    obtain ⟨s, t, rfl, hs, ht⟩ := exists_word isIfs a
    have hstop : ∀ c ∈ (' ' :: (blanks ++ (run ++ (s ++ t)))).head?, isIfs c = true := by
      intro c hc
      obtain rfl := Option.some.inj hc
      rfl
    have hdashed : ∀ c ∈ "-O".toList, isIfs c = false := none_of_any rfl
    have hfirst : ∀ c ∈ w ++ "-O".toList, isIfs c = false := by
      intro c hc
      exact (List.mem_append.mp hc).elim (hw c) (hdashed c)
    have hsecond : ∀ c ∈ run ++ s, isIfs c = false := by
      intro c hc
      exact (List.mem_append.mp hc).elim (fun hc => isIfs_of_isLevelChar (hrun c hc)) (hs c)
    have hjoined : ∀ c ∈ w ++ s, isIfs c = false := by
      intro c hc
      exact (List.mem_append.mp hc).elim (hw c) (hs c)
    have hblank : totalWeight (' ' :: (blanks ++ (run ++ (s ++ t)))) = weight (run ++ s) + totalWeight t := by
      have hgaps := totalWeight_gaps (b := ' ' :: blanks) (by simpa using ⟨rfl, hblanks⟩) (run ++ (s ++ t))
      rw [List.cons_append] at hgaps
      rw [hgaps, ← List.append_assoc, totalWeight_append ht, totalWeight_word hsecond]
    rw [← List.append_assoc, totalWeight_append ht, totalWeight_word hjoined, ← List.append_assoc,
      totalWeight_append hstop, totalWeight_word hfirst, hblank, ← Nat.add_assoc]
    apply Nat.add_lt_add_right
    have hrunWeight : weight (run ++ s) = run.length + s.length := by
      obtain ⟨c, run, rfl⟩ := List.exists_cons_of_ne_nil hne
      rw [List.cons_append, weight, if_pos (isOther_run (hrun c List.mem_cons_self) _), ← List.cons_append,
        List.length_append]
    have hpos := List.length_pos_of_ne_nil hne
    by_cases hw' : w = []
    · subst hw'
      have := weight_le ([] ++ s)
      rw [List.length_append, List.length_nil] at this
      omega
    · have := weight_le (w ++ s)
      rw [List.length_append] at this
      have hdash : weight (w ++ "-O".toList) = w.length + 2 := by
        rw [weight, if_pos (isOther_dash hw'), List.length_append]
        rfl
      omega

lemma totalWeight_spacedLevel (loc : Locale) (t : Text) :
    totalWeight ((spacedLevelRe loc).delete t) ≤ totalWeight t ∧
    ((∃ a, a <:+ t ∧ (spacedRest loc a).isSome) → totalWeight ((spacedLevelRe loc).delete t) < totalWeight t) :=
  spacedRe_local.delete_descent totalWeight (fun x u a _ h => totalWeight_spaced x u a h) t []

def runAfterGap (loc : Locale) : Text → Bool
  | ' ' :: t => startsRun loc (t.dropWhile (· == ' '))
  | _ => false

lemma isSome_spacedRest {a : Text} :
    (spacedRest loc a).isSome ↔ ∃ t, a = '-' :: 'O' :: t ∧ runAfterGap loc t = true := by
  constructor
  · intro h
    unfold spacedRest at h
    split at h
    · rename_i a
      refine ⟨' ' :: a, rfl, ?_⟩
      by_contra hrun
      have hnot : ¬ startsRun loc (a.dropWhile (· == ' ')) = true := hrun
      rw [runRest, if_neg hnot] at h
      cases h
    · cases h
  · rintro ⟨t, rfl, hrun⟩
    unfold runAfterGap at hrun
    split at hrun
    · rw [spacedRest, runRest, if_pos hrun]
      rfl
    · cases hrun

lemma startsRun_dropWhile {t : Text} (ht : ∀ c ∈ t.head?, isIfs c = true) :
    startsRun loc (t.dropWhile (· == ' ')) = runAfterGap loc t := by
  cases t with
  | nil => rfl
  | cons c t =>
    by_cases hc : c = ' '
    · subst hc
      rfl
    · have hafter : runAfterGap loc (c :: t) = false := by
        unfold runAfterGap
        split
        · rename_i heq
          exact absurd (List.cons.inj heq).1 hc
        · rfl
      rw [List.dropWhile_cons_of_neg (by simpa using hc), startsRun_blank (isLevelChar_gap (ht c rfl)), hafter]

lemma runAfterGap_render {ss : List Slot} (hflat : ∀ s ∈ ss, s.gap ≠ .newline) :
    runAfterGap loc (render (ss.map Slot.unstrip)) = true ↔ RunFollows loc ss := by
  induction ss with
  | nil => exact iff_of_false Bool.false_ne_true id
  | cons s ss ih =>
    have hrest := ih (fun t ht => hflat t (List.mem_cons_of_mem s ht))
    rw [List.map_cons, render_cons, RunFollows]
    cases hgap : s.gap with
    | newline => exact absurd hgap (hflat s List.mem_cons_self)
    | tab =>
      have hchar : s.unstrip.gap.char = '\t' := congrArg Gap.char hgap
      rw [hchar]
      exact iff_of_false Bool.false_ne_true (fun h => h.1 rfl)
    | blank =>
      have hchar : s.unstrip.gap.char = ' ' := congrArg Gap.char hgap
      rw [hchar, and_iff_right (by decide), runAfterGap]
      by_cases hempty : s.option = [] ∨ isStripped s.option = true
      · have hoption : s.unstrip.option = [] := by
          show unstripped s.option = []
          rw [unstripped]
          split
          · rfl
          · exact hempty.resolve_right ‹_›
        rw [hoption, List.nil_append, startsRun_dropWhile (render_stop _), hrest, if_pos hempty]
      · obtain ⟨hne, hstripped⟩ := not_or.mp hempty
        have hoption : s.unstrip.option = s.option := if_neg hstripped
        have hhead : (s.option ++ render (ss.map Slot.unstrip)).dropWhile (· == ' ') =
            s.option ++ render (ss.map Slot.unstrip) := by
          obtain ⟨c, w, hcons⟩ := List.exists_cons_of_ne_nil hne
          have hc : isIfs c = false := s.word c (hcons ▸ List.mem_cons_self)
          rw [hcons, List.cons_append, List.dropWhile_cons_of_neg]
          intro hblank
          rw [beq_iff_eq.mp hblank] at hc
          cases hc
        rw [hoption, hhead, startsRun_append (render_stop _), if_neg hempty]

lemma suffix_append {a u v : Text} (h : a <:+ u ++ v) : a <:+ v ∨ ∃ y, y ≠ [] ∧ y <:+ u ∧ a = y ++ v := by
  obtain ⟨x, hx⟩ := h
  obtain ⟨y, rfl, rfl⟩ | ⟨y, rfl, rfl⟩ := List.append_eq_append_iff.mp hx
  · by_cases hy : y = []
    · subst hy
      exact Or.inl List.suffix_rfl
    · exact Or.inr ⟨y, hy, List.suffix_append x y, rfl⟩
  · exact Or.inl (List.suffix_append y a)

lemma eq_dash_of_spaced {y t rest : Text} (hy : ∀ c ∈ y, isIfs c = false) (hne : y ≠ [])
    (ht : ∀ c ∈ t.head?, isIfs c = true) (h : y ++ t = '-' :: 'O' :: rest)
    (hrun : runAfterGap loc rest = true) :
    y = "-O".toList ∧ t = rest := by
  match y, hne with
  | [c], _ =>
    obtain ⟨rfl, rfl⟩ := List.cons.inj h
    cases ht 'O' rfl
  | [c, d], _ =>
    obtain ⟨rfl, hrest⟩ := List.cons.inj h
    obtain ⟨rfl, rfl⟩ := List.cons.inj hrest
    exact ⟨rfl, rfl⟩
  | c :: d :: e :: y, _ =>
    obtain rfl := (List.cons.inj (List.cons.inj h).2).2
    unfold runAfterGap at hrun
    split at hrun
    · rename_i heq
      have he := hy e (by simp)
      rw [(List.cons.inj heq).1] at he
      cases he
    · cases hrun

lemma not_dash_suffix_of_isStripped {w : Text} (h : isStripped w = true) : ¬ "-O".toList <:+ w := by
  obtain ⟨run, rfl, hne, hrun⟩ := exists_of_isStripped h
  intro hsuffix
  obtain heq | hsuffix := List.suffix_cons_iff.mp hsuffix
  · exact hne (List.cons.inj (List.cons.inj heq).2).2.symm
  obtain heq | hsuffix := List.suffix_cons_iff.mp hsuffix
  · cases (List.cons.inj heq).1
  · cases hrun '-' (hsuffix.subset List.mem_cons_self)

lemma exists_spaced {ss : List Slot} (hflat : ∀ s ∈ ss, s.gap ≠ .newline) :
    (∃ a, a <:+ render (ss.map Slot.unstrip) ∧ (spacedRest loc a).isSome) ↔ ¬ NoSplitLevel loc ss := by
  induction ss with
  | nil =>
    apply iff_of_false
    · rintro ⟨a, ha, hsome⟩
      rw [List.suffix_nil.mp ha] at hsome
      cases hsome
    · exact not_not_intro trivial
  | cons s ss ih =>
    have hflat' : ∀ t ∈ ss, t.gap ≠ .newline := fun t ht => hflat t (List.mem_cons_of_mem s ht)
    have hrest := ih hflat'
    have hstop := render_stop (ss.map Slot.unstrip)
    rw [NoSplitLevel, not_and_or, not_not, ← hrest, List.map_cons, render_cons, ← runAfterGap_render hflat']
    constructor
    · rintro ⟨a, ha, hsome⟩
      obtain rfl | ha := List.suffix_cons_iff.mp ha
      · have hnone : ∀ t, spacedRest loc (s.unstrip.gap.char :: t) = none :=
          fun t => by cases s.unstrip.gap <;> rfl
        rw [hnone] at hsome
        cases hsome
      · obtain ha | ⟨y, hy, hsuffix, rfl⟩ := suffix_append ha
        · exact Or.inr ⟨a, ha, hsome⟩
        · obtain ⟨t, heq, hrun⟩ := isSome_spacedRest.mp hsome
          obtain ⟨rfl, rfl⟩ := eq_dash_of_spaced (fun c hc => s.unstrip.word c (hsuffix.subset hc)) hy
            hstop heq hrun
          refine Or.inl ⟨?_, hrun⟩
          have hoption : s.unstrip.option = unstripped s.option := rfl
          rw [hoption, unstripped] at hsuffix
          split at hsuffix
          · cases List.suffix_nil.mp hsuffix
          · exact hsuffix
    · rintro (⟨hdash, hrun⟩ | ⟨a, ha, hsome⟩)
      · have hoption : s.unstrip.option = s.option := if_neg (fun h => not_dash_suffix_of_isStripped h hdash)
        obtain ⟨x, hx⟩ := hdash
        refine ⟨"-O".toList ++ render (ss.map Slot.unstrip), ?_, isSome_spacedRest.mpr ⟨_, rfl, hrun⟩⟩
        rw [hoption, ← hx, List.append_assoc]
        exact (List.suffix_append x _).trans (List.suffix_cons _ _)
      · exact ⟨a, (ha.trans (List.suffix_append _ _)).trans (List.suffix_cons _ _), hsome⟩

lemma spaced_render_unsplit {ss : List Slot} (hflat : ∀ s ∈ ss, s.gap ≠ .newline) (h : NoSplitLevel loc ss) :
    (spacedLevelRe loc).delete (render (ss.map Slot.unstrip)) = render (ss.map Slot.unstrip) := by
  apply spacedRe_local.delete_of_none
  intro a ha
  by_contra hsome
  exact (exists_spaced hflat).mp ⟨a, ha, Option.isSome_iff_ne_none.mpr hsome⟩ h

end ShMonitor.Lra.DgOptions
