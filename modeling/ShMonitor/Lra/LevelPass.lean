import Mathlib.Algebra.Order.BigOperators.Group.List
import ShMonitor.Lra.Slots

/-! The pass that takes out a level in one piece, over the slots of an option list. -/

namespace ShMonitor.Lra.DgOptions

open Texts Texts.Regex
open Bisect.ShSim (isIfs)

variable {loc : Locale}

def runRest (loc : Locale) (a : Text) : Option Text :=
  if startsRun loc a = true then some (a.dropWhile isLevelChar) else none

def levelRest (loc : Locale) : Text → Option Text
  | '-' :: 'O' :: a => runRest loc a
  | _ => none

lemma levelRest_eq_none {a : Text} (h : ¬ "-O".toList <+: a) : levelRest loc a = none := by
  unfold levelRest
  split
  · exact absurd ⟨_, rfl⟩ h
  · rfl

lemma startsRun_iff {a : Text} : startsRun loc a = true ↔
    a.takeWhile isLevelChar ≠ [] ∧ ((a.dropWhile isLevelChar).head?.map loc.isWord).getD false = false := by
  simp [startsRun]

lemma run_level (b a : Text) :
    (Re.cat [.plus isLevelChar, .wordBoundary loc.isWord]).run (fun gs cur => some (gs, cur.after)) [] ⟨b, a⟩ =
      (runRest loc a).map (fun rest => ([], rest)) := by
  rw [run_cat_cons, run_cat_cons, run_cat_nil, run_plus_boundary loc.level, runRest]
  by_cases hrun : startsRun loc a = true
  · obtain ⟨hne, hend⟩ := startsRun_iff.mp hrun
    rw [if_pos hrun, if_neg (not_or.mpr ⟨hne, Bool.eq_false_iff.mp hend⟩)]
    rfl
  · rw [startsRun_iff, not_and_or, not_not, Bool.not_eq_false] at hrun
    rw [if_pos hrun, if_neg]
    · rfl
    · rwa [startsRun_iff, not_and_or, not_not, Bool.not_eq_false]

lemma runRest_short {a rest : Text} (h : runRest loc a = some rest) :
    ∃ run, run ≠ [] ∧ (∀ c ∈ run, isLevelChar c = true) ∧ a = run ++ rest ∧
      (rest.head?.map loc.isWord).getD false = false := by
  rw [runRest] at h
  split at h
  case isTrue hrun =>
    obtain rfl := Option.some.inj h
    obtain ⟨hne, hend⟩ := startsRun_iff.mp hrun
    exact ⟨a.takeWhile isLevelChar, hne, fun c hc => List.mem_takeWhile_imp hc,
      List.takeWhile_append_dropWhile.symm, hend⟩
  case isFalse => cases h

lemma levelRe_local : Local (levelRe loc) (levelRest loc) where
  matchAt b a := by
    rw [Re.matchAt, levelRe, run_cat_cons]
    by_cases ha : "-O".toList <+: a
    · obtain ⟨a, rfl⟩ := ha
      rw [run_lit, run_level]
      rfl
    · rw [run_lit_none ha, levelRest_eq_none ha]
      rfl
  short a rest h := by
    by_cases ha : "-O".toList <+: a
    · obtain ⟨a, rfl⟩ := ha
      obtain ⟨run, -, -, rfl, -⟩ := runRest_short h
      exact ⟨"-O".toList ++ run, List.cons_ne_nil _ _, rfl⟩
    · rw [levelRest_eq_none ha] at h
      cases h

lemma isLevelChar_gap {c : Char} (hc : isIfs c = true) : isLevelChar c = false := by
  simp only [isIfs, Bool.or_eq_true, beq_iff_eq] at hc
  rcases hc with (rfl | rfl) | rfl <;> rfl

lemma startsRun_append {t : Text} (ht : ∀ c ∈ t.head?, isIfs c = true) (a : Text) :
    startsRun loc (a ++ t) = startsRun loc a := by
  obtain ⟨htake, hdrop⟩ := takeWhile_append_stop (p := isLevelChar) (fun c hc => isLevelChar_gap (ht c hc)) a
  have hend : (((a.dropWhile isLevelChar) ++ t).head?.map loc.isWord).getD false =
      ((a.dropWhile isLevelChar).head?.map loc.isWord).getD false := by
    cases a.dropWhile isLevelChar with
    | nil =>
      cases t with
      | nil => rfl
      | cons c t => exact loc.gap c (ht c rfl)
    | cons c a => rfl
  rw [startsRun, startsRun, htake, hdrop, hend]

lemma runRest_append {t : Text} (ht : ∀ c ∈ t.head?, isIfs c = true) (a : Text) :
    runRest loc (a ++ t) = (runRest loc a).map (· ++ t) := by
  have hdrop := (takeWhile_append_stop (p := isLevelChar) (fun c hc => isLevelChar_gap (ht c hc)) a).2
  rw [runRest, runRest, startsRun_append ht, hdrop]
  split <;> rfl

lemma levelRest_append {w t : Text} (hw : ∀ c ∈ w, isIfs c = false) (ht : ∀ c ∈ t.head?, isIfs c = true) :
    levelRest loc (w ++ t) = (levelRest loc w).map (· ++ t) := by
  by_cases hlit : "-O".toList <+: w
  · obtain ⟨a, rfl⟩ := hlit
    exact runRest_append ht a
  · have hlong : ¬ "-O".toList <+: w ++ t := fun h => hlit (prefix_of_stop (none_of_any rfl) ht h)
    rw [levelRest_eq_none hlit, levelRest_eq_none hlong]
    rfl

lemma level_render (ss : List Slot) : (levelRe loc).delete (render ss) =
    render (ss.map (Slot.edit (levelRe loc).delete levelRe_local.delete_subset)) := by
  induction ss with
  | nil => exact levelRe_local.delete_nil
  | cons s ss ih =>
    have hgap : levelRest loc (s.gap.char :: (s.option ++ render ss)) = none := by
      cases s.gap <;> rfl
    have hparts : (levelRe loc).delete (s.option ++ render ss) =
        (levelRe loc).delete s.option ++ (levelRe loc).delete (render ss) := by
      apply levelRe_local.delete_append
      intro v hv _
      exact levelRest_append (fun c hc => s.word c (hv.subset hc)) (render_stop ss)
    rw [render_cons, levelRe_local.delete_keep hgap, hparts, ih]
    rfl

lemma exists_of_isLevel {w : Text} (h : isLevel w = true) :
    ∃ level, w = '-' :: 'O' :: level ∧ (∀ c ∈ level, c.isAlphanum = true) := by
  unfold isLevel at h
  split at h
  · rename_i level
    refine ⟨level, rfl, ?_⟩
    simp only [Bool.or_eq_true, List.all_eq_true, beq_iff_eq] at h
    rcases h with (((h | rfl) | rfl) | rfl) | rfl
    · intro c hc
      simp [Char.isAlphanum, h c hc]
    all_goals exact List.all_eq_true.mp rfl
  · cases h

lemma holdsRun_iff {w : Text} : HoldsRun loc w ↔ ∃ a, a <:+ w ∧ (levelRest loc a).isSome := by
  constructor
  · rintro ⟨x, a, rfl, hrun⟩
    refine ⟨_, List.suffix_append x _, ?_⟩
    rw [levelRest, runRest, if_pos hrun]
    rfl
  · rintro ⟨a, ⟨x, rfl⟩, hsome⟩
    by_cases ha : "-O".toList <+: a
    · obtain ⟨a, rfl⟩ := ha
      refine ⟨x, a, rfl, ?_⟩
      by_contra hrun
      have hnone : levelRest loc ("-O".toList ++ a) = none := if_neg hrun
      rw [hnone] at hsome
      cases hsome
    · rw [levelRest_eq_none ha] at hsome
      cases hsome

def unstripped (w : Text) : Text := if isStripped w = true then [] else w

lemma unstripped_subset (w : Text) : unstripped w ⊆ w := by
  rw [unstripped]
  split
  · exact List.nil_subset w
  · exact List.Subset.refl w

def Slot.unstrip (s : Slot) : Slot := s.edit unstripped unstripped_subset

lemma exists_of_isStripped {w : Text} (h : isStripped w = true) :
    ∃ run, w = '-' :: 'O' :: run ∧ run ≠ [] ∧ ∀ c ∈ run, isLevelChar c = true := by
  unfold isStripped at h
  split at h
  · rename_i run
    refine ⟨run, rfl, ?_⟩
    simpa using h
  · cases h

lemma runRest_run {run : Text} (hne : run ≠ []) (h : ∀ c ∈ run, isLevelChar c = true) :
    runRest loc run = some [] := by
  have hdrop : run.dropWhile isLevelChar = [] := List.dropWhile_eq_nil_iff.mpr h
  have htake : run.takeWhile isLevelChar = run := List.takeWhile_eq_self_iff.mpr h
  rw [runRest, startsRun, htake, hdrop, if_pos]
  simpa using hne

lemma isStripped_holdsRun {w : Text} (h : isStripped w = true) : HoldsRun loc w := by
  obtain ⟨run, rfl, hne, hrun⟩ := exists_of_isStripped h
  apply holdsRun_iff.mpr
  exact ⟨_, List.suffix_rfl, by rw [levelRest, runRest_run hne hrun]; rfl⟩

lemma not_holdsRun_of_isLevel {w : Text} (hlevel : isLevel w = true) (h : isStripped w = false) :
    ¬ HoldsRun loc w := by
  obtain ⟨level, rfl, halnum⟩ := exists_of_isLevel hlevel
  rintro ⟨x, a, heq, hrun⟩
  obtain rfl : level = a := by
    match x with
    | [] => exact (List.cons.inj (List.cons.inj heq).2).2
    | [c] => cases (List.cons.inj heq).2
    | c :: d :: x =>
      obtain rfl := (List.cons.inj (List.cons.inj heq).2).2
      cases halnum '-' (by simp)
  simp only [isLevel, Bool.or_eq_true, List.all_eq_true, beq_iff_eq] at hlevel
  rcases hlevel with (((hdigits | rfl) | rfl) | rfl) | rfl
  · have hne : level ≠ [] := by
      rintro rfl
      cases hrun
    have hall : ∀ c ∈ level, isLevelChar c = true := fun c hc => by simp [isLevelChar, hdigits c hc]
    have : isStripped ('-' :: 'O' :: level) = true := by simpa [isStripped] using ⟨hne, hall⟩
    rw [this] at h
    cases h
  · cases h
  · cases h
  · cases hrun
  · cases hrun

lemma delete_word {w : Text} (h : isOther w = true → ¬ HoldsRun loc w) :
    (levelRe loc).delete w = unstripped w := by
  rw [unstripped]
  by_cases hstripped : isStripped w = true
  · obtain ⟨run, rfl, hne, hrun⟩ := exists_of_isStripped hstripped
    have hcut : levelRest loc (('-' :: 'O' :: run) ++ []) = some [] := by
      rw [List.append_nil]
      exact runRest_run hne hrun
    have hdelete := levelRe_local.delete_cut (List.cons_ne_nil _ _) hcut
    rw [List.append_nil] at hdelete
    rw [if_pos hstripped, hdelete, levelRe_local.delete_nil]
  · have hnone : ¬ HoldsRun loc w := by
      by_cases hother : isOther w = true
      · exact h hother
      · by_cases hlevel : isLevel w = true
        · exact not_holdsRun_of_isLevel hlevel (by simpa using hstripped)
        · have hm4 : w = m4 := by simpa [isOther, hlevel] using hother
          rintro ⟨x, a, heq, -⟩
          have hmem : 'O' ∈ m4 := by simp [← hm4, heq]
          exact absurd hmem (by decide)
    rw [if_neg hstripped]
    apply levelRe_local.delete_of_none
    intro a ha
    by_contra hsome
    exact hnone (holdsRun_iff.mpr ⟨a, ha, Option.isSome_iff_ne_none.mpr hsome⟩)

lemma level_render_whole {ss : List Slot} (h : ∀ s ∈ ss, isOther s.option = true → ¬ HoldsRun loc s.option) :
    (levelRe loc).delete (render ss) = render (ss.map Slot.unstrip) := by
  rw [level_render]
  apply congrArg render
  apply List.map_congr_left
  intro s hs
  simp only [Slot.unstrip, Slot.edit, delete_word (h s hs)]

lemma weight_delete (w : Text) : weight ((levelRe loc).delete w) ≤ weight w ∧
    (isOther w = true → HoldsRun loc w → weight ((levelRe loc).delete w) < weight w) := by
  by_cases hother : isOther w = true
  · have hweight : weight w = w.length := if_pos hother
    obtain ⟨hle, hlt⟩ := (levelRe_local : Local (levelRe loc) _).delete_length w
    rw [hweight]
    refine ⟨(weight_le _).trans hle, ?_⟩
    intro _ hrun
    exact (weight_le _).trans_lt (hlt (holdsRun_iff.mp hrun))
  · refine ⟨?_, fun h => absurd h hother⟩
    rw [delete_word (fun h => absurd h hother), unstripped]
    split
    · exact Nat.zero_le _
    · exact le_rfl

lemma totalWeight_level (loc : Locale) (ss : List Slot) :
    totalWeight ((levelRe loc).delete (render ss)) ≤ totalWeight (render ss) ∧
    ((∃ s ∈ ss, isOther s.option = true ∧ HoldsRun loc s.option) →
      totalWeight ((levelRe loc).delete (render ss)) < totalWeight (render ss)) := by
  rw [level_render, totalWeight_render, totalWeight_render, List.map_map]
  constructor
  · exact List.sum_le_sum (fun s _ => (weight_delete s.option).1)
  · rintro ⟨s, hs, hother, hrun⟩
    exact List.sum_lt_sum _ _ (fun s _ => (weight_delete s.option).1)
      ⟨s, hs, (weight_delete s.option).2 hother hrun⟩

end ShMonitor.Lra.DgOptions
