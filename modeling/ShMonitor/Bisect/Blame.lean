import ShMonitor.Texts.Words
import ShMonitor.Bisect.Dejagnu
import ShMonitor.Detection.RegressionDetect

/-! What the dejagnu mode's substring search finds, against the failures that detection reads. -/

namespace ShMonitor.Bisect.Blame

open ShMonitor.Texts ShMonitor.Shell ShMonitor.Detection Workflow.LastGreen Build Predicate Dejagnu
open ExtractFailures (Entry entries failRe failTag extract signature Reads mem_entries mem_entries_line)
open RegressionDetect (testName testName_append mem_extract_fail)

variable {Tree Archive : Type}

def Tests (w : World Tree Archive) (o : Outcomes Tree Archive) (cacheDir : Bool) (sha : Commit)
    (d : Disk Tree Archive) (S : Text) : Prop :=
  ∃ d₁ ok d₂, (build cacheDir sha).exec (host w o 0) none d = (some 0, d₁) ∧
    (runDejagnu w).exec (host w o 0) none d₁ = (some ok, d₂) ∧ d₂.gccSum.map SumFile.text = some S

def verdict (w : World Tree Archive) (o : Outcomes Tree Archive) (cacheDir : Bool) (sha : Commit)
    (d : Disk Tree Archive) (file : Text) : Option Verdict :=
  ((dejagnuMode w cacheDir sha (some file)).exec (host w o 0) none d).1

lemma mem_readLines {file t : Text} (h : t ∈ readLines file) : '\n' ∉ t :=
  newline_not_mem ((List.dropLast_sublist _).subset h)

lemma inspect_eq_bad {file : Text} {sum : SumFile} :
    inspect file (some sum) = .bad ↔ ∃ t ∈ readLines file, t ≠ [] ∧ failNeedle t <:+: sum.text := by
  have hany : (readLines file).any (fun t => decide (t ≠ []) && grepF (failNeedle t) sum.text) = true ↔
      ∃ t ∈ readLines file, t ≠ [] ∧ failNeedle t <:+: sum.text := by
    simp only [List.any_eq_true, Bool.and_eq_true, decide_eq_true_eq, grepF_iff]
    refine exists_congr (fun t => and_congr_right (fun ht => and_congr_right (fun _ => ?_)))
    exact (infix_iff_line (not_mem_failNeedle (by decide) (mem_readLines ht)) sum.text).symm
  rw [← hany, inspect]
  split <;> simp_all

lemma verdict_eq_bad {w : World Tree Archive} {o : Outcomes Tree Archive} {cacheDir : Bool} {sha : Commit}
    {d : Disk Tree Archive} {S : Text} (h : Tests w o cacheDir sha d S) {file : Text} :
    verdict w o cacheDir sha d file = some .bad ↔ ∃ t ∈ readLines file, t ≠ [] ∧ failNeedle t <:+: S := by
  obtain ⟨d₁, ok, d₂, hb, hr, hs⟩ := h
  obtain ⟨sum, hsum, rfl⟩ := Option.map_eq_some_iff.mp hs
  rw [verdict, dejagnuMode, Script.exec_bind (host w o 0) _ hb]
  simp only [ne_eq, not_true_eq_false, if_false]
  rw [Script.exec_bind (host w o 0) _ hr, Script.exec, Script.exec, hsum, Option.some.injEq, inspect_eq_bad]

structure IsRead (e : Entry) : Prop where
  path_ne : e.path ≠ []
  path_word : ∀ c ∈ e.path, isSpace c = false
  detail_head : ∀ c t, e.detail = c :: t → isSpace c = false
  newline : '\n' ∉ e.detail
  return_char : '\r' ∉ e.detail

lemma isRead_of_reads {a : Text} {e : Entry} {gap blanks rest : Text} (h : Reads failTag a e gap blanks rest)
    (hr : '\r' ∉ a) : IsRead e := by
  refine ⟨h.path_ne, fun c hc => nonSpace_iff.mp (h.path_word c hc), h.detail_head, h.detail_line, ?_⟩
  rw [h.text] at hr
  simp only [List.mem_append, not_or] at hr
  exact hr.2.2.2.2.1

lemma isRead_of_extract {sum : Text} {stale : List Text} {e : Entry} (h : e ∈ (extract sum stale).fail) :
    IsRead e := by
  obtain ⟨u, v, gap, blanks, rest, huv, -, hr⟩ := mem_entries (mem_extract_fail.mp h).1
  apply isRead_of_reads hr
  have hreturn := return_not_mem_readText sum
  rw [huv, List.mem_append, not_or] at hreturn
  exact hreturn.2

lemma stripped_ne_nil {e : Entry} (h : IsRead e) (hd : e.detail ≠ []) : rstrip e.detail ≠ [] :=
  fun hn => hd ((rstrip_eq_nil h.detail_head).mp hn)

lemma stripped_head {e : Entry} (h : IsRead e) {c : Char} {t : Text} (ht : rstrip e.detail = c :: t) :
    isSpace c = false := by
  obtain ⟨u, hu, -⟩ := exists_rstrip_append e.detail
  apply h.detail_head c (t ++ u)
  rw [hu, ht, List.cons_append]

lemma blanks_ne_nil {e : Entry} (h : IsRead e) {status l gap blanks rest : Text}
    (hr : Reads status l e gap blanks rest) (hd : e.detail ≠ []) : blanks ≠ [] := by
  rintro rfl
  obtain ⟨c, t, ht⟩ := List.exists_cons_of_ne_nil hd
  have hc := hr.path_ends c (t ++ rest) (by simp [ht])
  simp [h.detail_head c t ht] at hc

lemma testName_of_isRead {e : Entry} (h : IsRead e) :
    testName e = if e.detail = [] then e.path else e.path ++ ' ' :: rstrip e.detail := by
  rw [testName_append h.path_ne (fun c hc => nonSpace_iff.mpr (h.path_word c hc))]
  split
  · rename_i hd
    simp [hd, rstrip]
  · rename_i hd
    obtain ⟨u, hu, hsp⟩ := exists_rstrip_append e.detail
    have hne := stripped_ne_nil h hd
    have hlast : ∀ c ∈ (' ' :: rstrip e.detail).getLast?, isSpace c = false := by
      intro c hc
      rw [List.getLast?_cons, List.getLast?_eq_getLast_of_ne_nil hne, Option.getD_some] at hc
      exact getLast?_rstrip e.detail c (by rw [List.getLast?_eq_getLast_of_ne_nil hne]; exact hc)
    conv_lhs => rw [hu]
    rw [← List.cons_append, rstrip_append hsp, rstrip_of_last hlast]

lemma testName_ne_nil {e : Entry} (h : IsRead e) : testName e ≠ [] := by
  rw [testName_of_isRead h]
  split <;> simp [h.path_ne]

lemma mem_testName {e : Entry} {c : Char} (h : c ∈ testName e) : c ∈ signature e := by
  rw [testName, strip, rstrip] at h
  exact (List.dropWhile_suffix isSpace).subset ((List.rdropWhile_prefix isSpace _).subset h)

lemma lineEnd_not_mem {e : Entry} (h : IsRead e) : '\n' ∉ testName e ∧ '\r' ∉ testName e := by
  have hpath {c : Char} (hc : isSpace c = true) (hcd : c ∉ e.detail) (hb : c ≠ ' ') : c ∉ testName e := by
    intro hm
    obtain hp | hp := List.mem_append.mp (mem_testName hm)
    · simp [h.path_word c hp] at hc
    · obtain rfl | hd := List.mem_cons.mp hp
      · exact hb rfl
      · exact hcd hd
  exact ⟨hpath rfl h.newline (by decide), hpath rfl h.return_char (by decide)⟩

lemma needle_iff_line {e : Entry} (h : IsRead e) (S : Text) :
    failNeedle (testName e) <:+: S ↔ ∃ l ∈ lines (readText S), failNeedle (testName e) <:+: l := by
  obtain ⟨hn, hr⟩ := lineEnd_not_mem h
  have hn' : '\n' ∉ failNeedle (testName e) := not_mem_failNeedle (by decide) hn
  have hr' : '\r' ∉ failNeedle (testName e) := not_mem_failNeedle (by decide) hr
  rw [← infix_readText hn' hr', infix_iff_line hn']

lemma verdict_eq_bad_listed {w : World Tree Archive} {o : Outcomes Tree Archive} {cacheDir : Bool}
    {sha : Commit}
    {d : Disk Tree Archive} {S : Text} (ht : Tests w o cacheDir sha d S) {listed : List Entry} {file : Text}
    (hfile : readLines file = listed.map testName) (hlisted : ∀ e ∈ listed, IsRead e) :
    verdict w o cacheDir sha d file = some .bad ↔
      ∃ e ∈ listed, ∃ l ∈ lines (readText S), failNeedle (testName e) <:+: l := by
  rw [verdict_eq_bad ht, hfile]
  constructor
  · rintro ⟨t, hm, -, hi⟩
    obtain ⟨e, he, rfl⟩ := List.mem_map.mp hm
    exact ⟨e, he, (needle_iff_line (hlisted e he) S).mp hi⟩
  · rintro ⟨e, he, hl⟩
    exact ⟨testName e, List.mem_map_of_mem he, testName_ne_nil (hlisted e he),
      (needle_iff_line (hlisted e he) S).mpr hl⟩

theorem blames_guilty_iff (w : World Tree Archive) (o : Outcomes Tree Archive) (cacheDir : Bool) (sha : Commit)
    (d : Disk Tree Archive) (S : Text) (ht : Tests w o cacheDir sha d S) (listed : List Entry) (file : Text)
    (hfile : readLines file = listed.map testName)
    (hlisted : ∀ e ∈ listed, ∃ sum stale, e ∈ (extract sum stale).fail) :
    (verdict w o cacheDir sha d file = some .bad →
        ∃ e ∈ listed, ∃ l ∈ lines (readText S), e ∈ entries failRe l) ↔
      ((∃ e ∈ listed, ∃ l ∈ lines (readText S), failNeedle (testName e) <:+: l ∧ e ∉ entries failRe l) →
        ∃ e ∈ listed, ∃ l ∈ lines (readText S), e ∈ entries failRe l) := by
  have hread : ∀ e ∈ listed, IsRead e := by
    intro e he
    obtain ⟨sum, stale, hx⟩ := hlisted e he
    exact isRead_of_extract hx
  rw [verdict_eq_bad_listed ht hfile hread]
  constructor
  · rintro h ⟨e, he, l, hl, hi, -⟩
    exact h ⟨e, he, l, hl, hi⟩
  · rintro h ⟨e, he, l, hl, hi⟩
    by_cases hg : e ∈ entries failRe l
    · exact ⟨e, he, l, hl, hg⟩
    · exact h ⟨e, he, l, hl, hi, hg⟩

def checked (S : Text) : Outcomes Text Text := { plainOutcomes with check := some S }

lemma tests_checked (S : Text) : Tests plainWorld (checked S) false commitA cleanDisk S :=
  ⟨_, _, _, rfl, rfl, rfl⟩

def foo : Entry := ⟨"a.c".toList, "foo".toList⟩

def fooFile : Text := "a.c foo\n".toList

theorem blames_guilty_example :
    ∃ e ∈ [foo], ∃ l ∈ lines (readText "FAIL: a.c foo\n".toList), e ∈ entries failRe l :=
  (blames_guilty_iff plainWorld _ false commitA cleanDisk _ (tests_checked "FAIL: a.c foo\n".toList)
    [foo] fooFile (by decide +kernel)
    (List.forall_mem_singleton.mpr ⟨"FAIL: a.c foo\n".toList, [], by decide +kernel⟩)).mpr
    (fun h => absurd h (by decide +kernel)) (by decide +kernel)

theorem blames_guilty_counterexample :
    readLines fooFile = [foo].map testName ∧ foo ∈ (extract "FAIL: a.c foo\n".toList []).fail ∧
      Tests plainWorld (checked "XFAIL: a.c foo\n".toList) false commitA cleanDisk "XFAIL: a.c foo\n".toList ∧
      ¬ (verdict plainWorld (checked "XFAIL: a.c foo\n".toList) false commitA cleanDisk fooFile = some .bad →
        ∃ e ∈ [foo], ∃ l ∈ lines (readText "XFAIL: a.c foo\n".toList), e ∈ entries failRe l) := by
  refine ⟨by decide +kernel, by decide +kernel, tests_checked _, ?_⟩
  intro h
  exact absurd (h (by decide +kernel)) (by decide +kernel)

def SingleSpaced (l : Text) (e : Entry) : Prop :=
  failNeedle e.path <+: l ∧ (e.detail = [] ∨ l = failNeedle (signature e))

lemma failNeedle_eq (t : Text) : failNeedle t = failTag ++ ' ' :: t := rfl

lemma testName_head {e : Entry} (h : IsRead e) {a : Text} {c : Char} {t : Text}
    (ht : testName e ++ a = c :: t) :
    isSpace c = false := by
  cases hx : e.path with
  | nil => exact absurd hx h.path_ne
  | cons d u =>
    rw [testName_of_isRead h, hx] at ht
    obtain rfl : d = c := by
      split at ht <;> exact (List.cons.inj ht).1
    exact h.path_word d (by simp [hx])

lemma needle_not_inside {e : Entry} (h : IsRead e) {l gap blanks : Text}
    (hr : Reads failTag l e gap blanks []) :
    ¬ failNeedle (testName e) <:+: e.path ++ (blanks ++ e.detail) := by
  intro hi
  -- The needle has one word more than what follows the gap of the line.
  have hle := wordStarts_le hi
  have hpath (t : Text) : wordStarts (e.path ++ t) = wordStarts t := wordStarts_word h.path_word t
  have htag : ∀ c ∈ failTag, nonSpace c = true := List.all_eq_true.mp (by decide)
  have hneedle : wordStarts (failNeedle (testName e)) = 1 + wordStarts (testName e) := by
    rw [failNeedle_eq, wordStarts_word (fun c hc => nonSpace_iff.mp (htag c hc))]
    exact wordStarts_blanks (b := [' ']) (by simp) (by simp) (testName_ne_nil h)
      (fun c t ht => testName_head h ((List.append_nil _).trans ht))
  rw [hneedle, testName_of_isRead h, hpath] at hle
  by_cases hd : e.detail = []
  · rw [if_pos hd, hd, List.append_nil, ← List.nil_append blanks,
      wordStarts_append_blanks [] hr.blanks_space] at hle
    simp [wordStarts] at hle
  · obtain ⟨u, hu, hsp⟩ := exists_rstrip_append e.detail
    have hstrip : wordStarts e.detail = wordStarts (rstrip e.detail) := by
      conv_lhs => rw [hu]
      exact wordStarts_append_blanks _ hsp
    have hone := wordStarts_blanks (b := [' ']) (by simp) (by simp) (stripped_ne_nil h hd)
      (fun c t => stripped_head h)
    rw [if_neg hd, hpath, wordStarts_blanks hr.blanks_space (blanks_ne_nil h hr hd) hd h.detail_head,
      hstrip] at hle
    simp only [List.singleton_append] at hone
    omega

lemma gap_single {t gap a : Text} (hg : ∀ c ∈ gap, isSpace c = true) (hne : gap ≠ []) (ht : t ≠ [])
    (hhead : ∀ c u, t = c :: u → isSpace c = false) (h : ' ' :: t <+: gap ++ a) : gap = [' '] ∧ t <+: a := by
  cases gap with
  | nil => exact absurd rfl hne
  | cons c g =>
    obtain ⟨rfl, hp⟩ := List.cons_prefix_cons.mp h
    cases g with
    | nil => exact ⟨rfl, hp⟩
    | cons d g =>
      cases t with
      | nil => exact absurd rfl ht
      | cons f u =>
        obtain ⟨rfl, -⟩ := List.cons_prefix_cons.mp hp
        simp [hg f (by simp)] at hhead

lemma needle_at_start {e : Entry} (h : IsRead e) {l gap blanks : Text} (hr : Reads failTag l e gap blanks [])
    (hi : failNeedle (testName e) <:+: l) : failNeedle (testName e) <+: l := by
  have hl : l = failTag ++ (gap ++ (e.path ++ (blanks ++ e.detail))) := by simpa using hr.text
  have hrest : ∀ c ∈ ['A', 'I', 'L', ':'] ++ gap, c ≠ 'F' := by
    rintro c hc rfl
    obtain hc | hc := List.mem_append.mp hc
    · exact absurd hc (by decide)
    · exact absurd (hr.gap_space 'F' hc) (by decide)
  rw [hl] at hi ⊢
  obtain hp | ht := List.infix_cons_iff.mp hi
  · exact hp
  · have ht' : failNeedle (testName e) <:+: (['A', 'I', 'L', ':'] ++ gap) ++
      (e.path ++ (blanks ++ e.detail)) := by
      simpa using ht
    exact absurd (infix_append_of_head hrest ht') (needle_not_inside h hr)

lemma needle_infix_iff {e : Entry} (h : IsRead e) {l gap blanks : Text} (hr : Reads failTag l e gap blanks []) :
    failNeedle (testName e) <:+: l ↔ SingleSpaced l e := by
  have hl : l = failTag ++ (gap ++ (e.path ++ (blanks ++ e.detail))) := by simpa using hr.text
  constructor
  · intro hi
    have hp := needle_at_start h hr hi
    rw [hl, failNeedle_eq, List.prefix_append_right_inj] at hp
    obtain ⟨hgap, hname⟩ := gap_single hr.gap_space hr.gap_ne (testName_ne_nil h)
      (fun c t ht => testName_head h ((List.append_nil _).trans ht)) hp
    subst hgap
    refine ⟨by simp [hl, failNeedle_eq], ?_⟩
    by_cases hd : e.detail = []
    · exact Or.inl hd
    · right
      rw [testName_of_isRead h, if_neg hd, List.prefix_append_right_inj] at hname
      obtain ⟨rfl, -⟩ := gap_single hr.blanks_space (blanks_ne_nil h hr hd) (stripped_ne_nil h hd)
        (fun c t => stripped_head h) hname
      simp [hl, failNeedle_eq, signature]
  · rintro ⟨hpath, hd | hsig⟩
    · rw [testName_of_isRead h, if_pos hd]
      exact hpath.isInfix
    · rw [hsig, failNeedle_eq, failNeedle_eq]
      apply List.IsPrefix.isInfix
      rw [List.prefix_append_right_inj, List.cons_prefix_cons]
      refine ⟨rfl, ?_⟩
      rw [testName_of_isRead h]
      split
      · exact List.prefix_append _ _
      · rw [signature, List.prefix_append_right_inj, List.cons_prefix_cons]
        exact ⟨rfl, List.rdropWhile_prefix isSpace _⟩

lemma all_bad_iff {w : World Tree Archive} {o : Outcomes Tree Archive} {cacheDir : Bool} {sha : Commit}
    {d : Disk Tree Archive} {S : Text} (ht : Tests w o cacheDir sha d S) {e : Entry} (h : IsRead e) :
    (∀ file, testName e ∈ readLines file → verdict w o cacheDir sha d file = some .bad) ↔
      failNeedle (testName e) <:+: S := by
  constructor
  · intro hall
    have hread : readLines (unlines [testName e]) = [testName e] :=
      readLines_unlines (by simpa using (lineEnd_not_mem h).1)
    obtain ⟨t, hm, -, hi⟩ := (verdict_eq_bad ht).mp (hall (unlines [testName e]) (by simp [hread]))
    rw [hread, List.mem_singleton] at hm
    exact hm ▸ hi
  · intro hi file hm
    exact (verdict_eq_bad ht).mpr ⟨testName e, hm, testName_ne_nil h, hi⟩

theorem reproduces_iff (w : World Tree Archive) (o : Outcomes Tree Archive) (cacheDir : Bool) (sha : Commit)
    (d : Disk Tree Archive) (S : Text) (ht : Tests w o cacheDir sha d S) (l : Text)
    (hl : l ∈ lines (readText S)) (e : Entry) (he : e ∈ entries failRe l) :
    (∀ file, testName e ∈ readLines file → verdict w o cacheDir sha d file = some .bad) ↔
      SingleSpaced l e ∨ ∃ m ∈ lines (readText S), m ≠ l ∧ failNeedle (testName e) <:+: m := by
  obtain ⟨gap, blanks, hr⟩ := mem_entries_line (newline_not_mem hl) he
  have hread : IsRead e := by
    apply isRead_of_reads hr
    exact fun hm => return_not_mem_readText S ((infix_of_line hl).subset hm)
  rw [all_bad_iff ht hread, needle_iff_line hread]
  constructor
  · rintro ⟨m, hm, hi⟩
    by_cases hml : m = l
    · exact Or.inl ((needle_infix_iff hread hr).mp (hml ▸ hi))
    · exact Or.inr ⟨m, hm, hml, hi⟩
  · rintro (hs | ⟨m, hm, -, hi⟩)
    · exact ⟨l, hl, (needle_infix_iff hread hr).mpr hs⟩
    · exact ⟨m, hm, hi⟩

theorem reproduces_example :
    verdict plainWorld (checked "FAIL: a.c foo\n".toList) false commitA cleanDisk fooFile = some .bad :=
  (reproduces_iff plainWorld _ false commitA cleanDisk _ (tests_checked "FAIL: a.c foo\n".toList)
    "FAIL: a.c foo".toList (by decide +kernel) foo (by decide +kernel)).mpr
    (Or.inl ⟨by decide +kernel, Or.inr (by decide +kernel)⟩) fooFile (by decide +kernel)

theorem reproduces_counterexample :
    foo ∈ (extract "FAIL: a.c  foo\n".toList []).fail ∧ foo ∈ entries failRe "FAIL: a.c  foo".toList ∧
      Tests plainWorld (checked "FAIL: a.c  foo\n".toList) false commitA cleanDisk "FAIL: a.c  foo\n".toList ∧
      ¬ ∀ file, testName foo ∈ readLines file →
        verdict plainWorld (checked "FAIL: a.c  foo\n".toList) false commitA cleanDisk file = some .bad := by
  refine ⟨by decide +kernel, by decide +kernel, tests_checked _, ?_⟩
  intro h
  exact absurd (h fooFile (by decide +kernel)) (by decide +kernel)

end ShMonitor.Bisect.Blame
