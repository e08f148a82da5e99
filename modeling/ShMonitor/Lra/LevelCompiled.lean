import ShMonitor.Lra.Directive
import ShMonitor.Lra.EffectiveLevel
import ShMonitor.Lra.M4Pass
import ShMonitor.Lra.SpacedPass

/-! When the level of the manifest is the one compiled, and of the other options none is lost. -/

namespace ShMonitor.Lra.DgOptions

open Texts Texts.Regex
open Bisect.ShSim (isIfs)

variable {loc : Locale}

lemma level_blank (t : Text) : (levelRe loc).delete (' ' :: t) = ' ' :: (levelRe loc).delete t :=
  levelRe_local.delete_keep rfl

lemma spaced_blank (t : Text) : (spacedLevelRe loc).delete (' ' :: t) = ' ' :: (spacedLevelRe loc).delete t :=
  spacedRe_local.delete_keep rfl

lemma intact_of_kept {o : Options}
    (h : (o.tokens.filter isOther).Sublist (words isIfs (strippedFlags loc (flattened o.text)))) :
    (∀ s ∈ o.flat, isOther s.option = true → ¬ HoldsRun loc s.option) ∧ NoSplitLevel loc o.flat := by
  have hle : totalWeight (flattened o.text) ≤ totalWeight (strippedFlags loc (flattened o.text)) := by
    rw [totalWeight_flat, ← sum_weight_filter]
    exact (h.map weight).sum_le_sum (fun _ _ => Nat.zero_le _)
  have hsubset : (spacedLevelRe loc).delete ((levelRe loc).delete (flattened o.text)) ⊆ flattened o.text :=
    List.Subset.trans (spacedRe_local.delete_subset _) (levelRe_local.delete_subset _)
  have hquote : '"' ∉ (spacedLevelRe loc).delete ((levelRe loc).delete (flattened o.text)) := fun hm =>
    quote_not_mem_text o (mem_flattened (by decide) (hsubset hm))
  have hnewline : '\n' ∉ (spacedLevelRe loc).delete ((levelRe loc).delete (flattened o.text)) := fun hm =>
    newline_not_mem_flattened o.text (hsubset hm)
  rw [strippedFlags, totalWeight_m4 hquote hnewline] at hle
  obtain ⟨hlevel, hlevelLt⟩ := totalWeight_level loc o.flat
  obtain ⟨hspaced, hspacedLt⟩ := totalWeight_spacedLevel loc (' ' :: (levelRe loc).delete (flattened o.text))
  rw [render_flat, level_blank, totalWeight_blank, totalWeight_blank] at hlevel hlevelLt
  rw [spaced_blank, totalWeight_blank, totalWeight_blank] at hspaced hspacedLt
  have hwhole : ∀ s ∈ o.flat, isOther s.option = true → ¬ HoldsRun loc s.option := by
    intro s hs hother hrun
    have := hlevelLt ⟨s, hs, hother, hrun⟩
    omega
  refine ⟨hwhole, ?_⟩
  by_contra hsplit
  have hmatch := (exists_spaced (flat_gap o)).mpr hsplit
  rw [← level_render_whole hwhole, render_flat, level_blank] at hmatch
  have := hspacedLt hmatch
  omega

lemma stripped_render {o : Options} (hwhole : ∀ s ∈ o.flat, isOther s.option = true → ¬ HoldsRun loc s.option)
    (hunsplit : NoSplitLevel loc o.flat) :
    ' ' :: strippedFlags loc (flattened o.text) = render (m4Left true (o.flat.map Slot.unstrip)) := by
  have hlevel : ' ' :: (levelRe loc).delete (flattened o.text) = render (o.flat.map Slot.unstrip) := by
    rw [← level_blank, ← render_flat, level_render_whole hwhole]
  have hspaced : ' ' :: (spacedLevelRe loc).delete ((levelRe loc).delete (flattened o.text)) =
      render (o.flat.map Slot.unstrip) := by
    rw [← spaced_blank, hlevel, spaced_render_unsplit (flat_gap o) hunsplit]
  have hrest : ∀ t ∈ (o.rest.map Slot.flat).map Slot.unstrip, t.gap ≠ .newline := by
    intro t ht
    obtain ⟨s, hs, rfl⟩ := List.mem_map.mp ht
    exact flat_gap o s (List.mem_cons_of_mem _ hs)
  rw [strippedFlags, (List.cons.inj hspaced).2]
  exact m4_sub (s := (Slot.flat ⟨.blank, o.first, o.first_free⟩).unstrip) rfl hrest

lemma m4Apart_map {f : Slot → Slot} (hgap : ∀ s, (f s).gap ≠ .tab ↔ s.gap ≠ .tab)
    (hoption : ∀ s, (f s).option = m4 ↔ s.option = m4) (ss : List Slot) : M4Apart (ss.map f) ↔ M4Apart ss := by
  induction ss with
  | nil => exact Iff.rfl
  | cons s ss ih =>
    rw [List.map_cons, M4Apart, M4Apart, ih, hgap, hoption]
    cases ss with
    | nil => rfl
    | cons t ss =>
        simp only [List.map_cons, List.head?_cons, Option.mem_some_iff, forall_eq', hgap, ne_eq, hoption]

lemma flat_gap_iff (s : Slot) : s.flat.gap ≠ .tab ↔ s.gap ≠ .tab := by
  have key : ∀ g : Gap, (if g = .newline then Gap.blank else g) ≠ .tab ↔ g ≠ .tab := by
    intro g
    cases g <;> decide
  exact key s.gap

lemma runFollows_flat (ss : List Slot) : RunFollows loc (ss.map Slot.flat) ↔ RunFollows loc ss := by
  induction ss with
  | nil => exact Iff.rfl
  | cons s ss ih =>
    have hoption : s.flat.option = s.option := rfl
    rw [List.map_cons, RunFollows, RunFollows, flat_gap_iff, hoption, ih]

lemma noSplitLevel_flat (ss : List Slot) : NoSplitLevel loc (ss.map Slot.flat) ↔ NoSplitLevel loc ss := by
  induction ss with
  | nil => exact Iff.rfl
  | cons s ss ih =>
    have hoption : s.flat.option = s.option := rfl
    rw [List.map_cons, NoSplitLevel, NoSplitLevel, runFollows_flat, hoption, ih]

lemma unstripped_eq_m4 (w : Text) : unstripped w = m4 ↔ w = m4 := by
  rw [unstripped]
  by_cases h : isStripped w = true
  · rw [if_pos h]
    apply iff_of_false (List.cons_ne_nil _ _).symm
    rintro rfl
    cases h
  · rw [if_neg h]

lemma m4Apart_unstrip (o : Options) : M4Apart (o.flat.map Slot.unstrip) ↔ M4Apart o.slots := by
  rw [m4Apart_map (f := Slot.unstrip) (fun s => Iff.rfl) (fun s => unstripped_eq_m4 s.option), Options.flat,
    m4Apart_map flat_gap_iff (fun s => Iff.rfl)]

lemma filter_unstripped {p : Text → Bool} (hnil : p [] = false) (ss : List Slot) :
    ((ss.map Slot.unstrip).map Slot.option).filter p =
      (ss.map Slot.option).filter (fun w => p w && !isStripped w) := by
  induction ss with
  | nil => rfl
  | cons s ss ih =>
    have hoption : s.unstrip.option = unstripped s.option := rfl
    rw [List.map_cons, List.map_cons, List.map_cons, hoption, List.filter_cons, List.filter_cons, ih,
      unstripped]
    by_cases h : isStripped s.option = true
    · simp [h, hnil]
    · simp [h]

lemma filter_nonempty {p : Text → Bool} (hnil : p [] = false) (ws : List Text) :
    (ws.filter (· ≠ [])).filter p = ws.filter p := by
  rw [List.filter_filter]
  apply List.filter_congr
  intro w _
  by_cases hw : w = []
  · simp [hw, hnil]
  · simp [hw]

section

variable {o : Options} (hwhole : ∀ s ∈ o.flat, isOther s.option = true → ¬ HoldsRun loc s.option)
  (hunsplit : NoSplitLevel loc o.flat)

include hwhole hunsplit

lemma words_stripped : words isIfs (strippedFlags loc (flattened o.text)) =
    ((m4Left true (o.flat.map Slot.unstrip)).map Slot.option).filter (· ≠ []) := by
  rw [← words_render, ← stripped_render hwhole hunsplit, words_blank]

lemma filter_stripped {p : Text → Bool} (hm4 : p m4 = false) (hnil : p [] = false) :
    (words isIfs (strippedFlags loc (flattened o.text))).filter p =
      o.tokens.filter (fun w => p w && !isStripped w) := by
  have hnil' : (fun w => p w && !isStripped w) [] = false := by simp [hnil]
  rw [words_stripped hwhole hunsplit, filter_nonempty hnil, filter_left hm4 hnil, filter_unstripped hnil,
    tokens_eq, filter_nonempty hnil']

lemma removed_iff : m4 ∉ words isIfs (strippedFlags loc (flattened o.text)) ↔ M4Apart o.slots := by
  have hflat : ∀ s ∈ o.flat.map Slot.unstrip, s.gap ≠ .newline := by
    intro s hs
    obtain ⟨t, ht, rfl⟩ := List.mem_map.mp hs
    exact flat_gap o t ht
  have hleft := m4_not_mem_left hflat true
  rw [and_iff_left (fun h => nomatch h), m4Apart_unstrip] at hleft
  rw [← hleft, words_stripped hwhole hunsplit]
  constructor
  · intro h s hs hoption
    apply h
    refine List.mem_filter.mpr ⟨List.mem_map.mpr ⟨s, hs, hoption⟩, ?_⟩
    exact decide_eq_true (List.cons_ne_nil _ _)
  · intro h hm
    obtain ⟨s, hs, hoption⟩ := List.mem_map.mp (List.mem_filter.mp hm).1
    exact h s hs hoption

lemma kept_of_intact : (o.tokens.filter isOther).Sublist
    (words isIfs (strippedFlags loc (flattened o.text))) := by
  have hfilter := filter_stripped hwhole hunsplit (p := fun w => isOther w && w != []) rfl rfl
  have hsame : o.tokens.filter (fun w => (isOther w && w != []) && !isStripped w) =
    o.tokens.filter isOther := by
    apply List.filter_congr
    intro w hw
    rw [tokens_eq] at hw
    obtain ⟨hmem, hne⟩ := List.mem_filter.mp hw
    obtain ⟨s, hs, rfl⟩ := List.mem_map.mp hmem
    by_cases hother : isOther s.option = true
    · have hstripped : isStripped s.option = false := by
        rw [← Bool.not_eq_true]
        exact fun h => hwhole s hs hother (isStripped_holdsRun h)
      simpa [hother, hstripped] using hne
    · simp [hother]
  rw [← hsame, ← hfilter]
  exact List.filter_sublist

end

lemma whole_iff (o : Options) : (∀ w ∈ o.tokens, isOther w = true → ¬ HoldsRun loc w) ↔
    ∀ s ∈ o.flat, isOther s.option = true → ¬ HoldsRun loc s.option := by
  constructor
  · intro h s hs hother hrun
    have hne : s.option ≠ [] := by
      intro hnil
      obtain ⟨x, a, heq, -⟩ := hrun
      rw [hnil] at heq
      cases x <;> cases heq
    refine h s.option ?_ hother hrun
    rw [tokens_eq]
    exact List.mem_filter.mpr ⟨List.mem_map.mpr ⟨s, hs, rfl⟩, decide_eq_true hne⟩
  · intro h w hw
    obtain ⟨s, hs, rfl⟩ := exists_slot hw
    exact h s hs

lemma levelCompiled_within {file : CaseFile} (h : file.opening.count '\n' < 50) (opt : Opt) :
    LevelCompiled loc file opt ↔ Separable loc file.options opt := by
  have hextract := extract_within file loc h
  constructor
  · rintro ⟨hlevel, hkept, hremoved⟩
    rw [hextract] at hkept hremoved
    obtain ⟨hwhole, hunsplit⟩ := intact_of_kept hkept
    refine ⟨(whole_iff file.options).mpr hwhole, (noSplitLevel_flat _).mp hunsplit,
      (removed_iff hwhole hunsplit).mp hremoved, ?_⟩
    rw [effectiveLevel_iff, hextract, filter_stripped hwhole hunsplit rfl rfl] at hlevel
    exact hlevel
  · rintro ⟨hwhole, hunsplit, hapart, hlevel⟩
    rw [whole_iff] at hwhole
    rw [← noSplitLevel_flat] at hunsplit
    constructor
    · rw [effectiveLevel_iff, hextract, filter_stripped hwhole hunsplit rfl rfl]
      exact hlevel
    · rw [hextract]
      exact kept_of_intact hwhole hunsplit
    · rw [hextract]
      exact (removed_iff hwhole hunsplit).mpr hapart

lemma levelCompiled_beyond {file : CaseFile} (h : 50 ≤ file.opening.count '\n') (opt : Opt) :
    LevelCompiled loc file opt ↔ ∀ w ∈ file.options.tokens, isOther w = false := by
  have hextract := extract_beyond file loc h
  constructor
  · rintro ⟨-, hkept, -⟩ w hw
    rw [hextract, words_nil, List.sublist_nil, List.filter_eq_nil_iff] at hkept
    simpa using hkept w hw
  · intro hnone
    constructor
    · rw [effectiveLevel_iff, hextract]
      exact fun w hw => nomatch hw
    · rw [hextract, words_nil, List.sublist_nil, List.filter_eq_nil_iff]
      intro w hw
      simp [hnone w hw]
    · rw [hextract]
      exact List.not_mem_nil

theorem levelCompiled_iff (loc : Locale) (file : CaseFile) (opt : Opt) : LevelCompiled loc file opt ↔
    (file.opening.count '\n' < 50 ∧ Separable loc file.options opt) ∨
      (50 ≤ file.opening.count '\n' ∧ ∀ w ∈ file.options.tokens, isOther w = false) := by
  by_cases h : file.opening.count '\n' < 50
  · rw [levelCompiled_within h, or_iff_left (fun hbeyond => absurd hbeyond.1 (not_le.mpr h)), and_iff_right h]
  · have hbeyond : 50 ≤ file.opening.count '\n' := not_lt.mp h
    rw [levelCompiled_beyond hbeyond, or_iff_right (fun hwithin => h hwithin.1), and_iff_right hbeyond]

def ascii : Locale where
  isWord c := c.isAlphanum || c == '_'
  level c hc := by
    simp only [isLevelChar, Bool.or_eq_true, beq_iff_eq] at hc
    obtain (hc | rfl) | rfl := hc
    · simp [Char.isAlphanum, hc]
    · rfl
    · rfl
  gap c hc := by
    obtain ⟨g, rfl⟩ := exists_gap hc
    cases g <;> rfl

lemma head_of_opens {c : Char} {t : Text} (h : Opens (flattened (c :: t))) : c = 'd' := by
  obtain ⟨gap, body, rest, heq, -, -⟩ := h
  have hhead : (if c = '\n' then ' ' else c) = 'd' := (List.cons.inj heq).1
  split at hhead
  · cases hhead
  · exact hhead

def fastCase : CaseFile where
  lead := "/* \x7b ".toList
  gap := [' ']
  options := ⟨"-Ofast".toList, fun c hc => ⟨none_of_any rfl c hc, ne_of_mem_of_not_mem hc (by decide)⟩, []⟩
  rest := " \x7d */\n".toList
  gap_space := List.all_eq_true.mp rfl
  first x y hlead hy := by
    intro h
    obtain ⟨c, y, rfl⟩ := List.exists_cons_of_ne_nil hy
    have hc : c ∈ "/* \x7b ".toList := hlead ▸ List.mem_append_right x List.mem_cons_self
    obtain rfl := head_of_opens h
    exact absurd hc (by decide)

theorem levelCompiled_counterexample : ¬ LevelCompiled ascii fastCase ⟨"O2".toList, rfl⟩ := by
  intro h
  have hlevel :=
    h.level unmatched "/lra-corpus/pr64366.c".toList "/tmp/cur".toList Corpus.compilesAndRuns (by decide)
      (by decide)
  have hfast : effectiveLevel (compileOne unmatched "/lra-corpus/pr64366.c".toList "O2".toList "/tmp/cur".toList
      Corpus.compilesAndRuns (extractDgOptions ascii fastCase.text)) = some "-Ofast".toList := by decide +kernel
  rw [hfast] at hlevel
  exact absurd hlevel (by decide)

end ShMonitor.Lra.DgOptions
