import Mathlib.Data.Nat.Find
import ShMonitor.Bisect.ShSim
import ShMonitor.Detection.RegressionDetect

/-! The sh-sim verdict against the failures that detection reads, when every run writes its two sums. -/

namespace ShMonitor.Bisect.ShSimExact

open ShMonitor.Texts ShMonitor.Detection ShSim
open ExtractFailures (Entry failTag)
open ExtractShSimFailures (Suite suites isas isAsciiWord SumDir extract withIsa isas_colon withIsa_word
  mem_extract_fail mem_fileMatches)
open RegressionDetect (testName testName_append)
open Predicate (Verdict)
open Dejagnu (failNeedle not_mem_failNeedle)

def writing (texts : Suite → Text) : SimRun where
  ready := true
  make suite _ _ := some (texts suite)
  copy _ _ := true

def justWritten (isa : Text) (texts : Suite → Text) : SumDir :=
  fun suite word => if word = isa then some (texts suite) else none

lemma isaWords_eq (pathnames : Text → List Text) {isa : Text} (h : isa ∈ isas) :
    isaWords pathnames isa = [isa] := by
  simp only [isas, List.mem_cons, List.not_mem_nil, or_false] at h
  obtain rfl | rfl | rfl := h <;> rfl

section

variable {isa : Text} (hisa : isa ∈ isas) {f : Entry}
  (hw : ∀ c ∈ f.path, nonSpace c = true)

include hisa hw

lemma tagOf_testName : tagOf (testName (withIsa isa f)) = isa ++ ':' :: f.path := by
  have hpath := withIsa_word hisa hw
  have hp : rstrip (' ' :: (withIsa isa f).detail) <+: ' ' :: (withIsa isa f).detail :=
    List.rdropWhile_prefix isSpace _
  rw [testName_append (by simp [withIsa]) hpath, tagOf]
  refine (takeWhile_word ?_ ?_).1
  · intro c hc
    have hc' := hpath c hc
    simp only [decide_eq_true_eq]
    rintro rfl
    simp [nonSpace] at hc'
  · intro c t ht
    rw [ht] at hp
    obtain ⟨rfl, -⟩ := List.cons_prefix_cons.mp hp
    rfl

lemma isaOf_testName : isaOf (testName (withIsa isa f)) = isa := by
  rw [isaOf, tagOf_testName hisa hw]
  refine (takeWhile_word (isas_colon hisa) ?_).1
  intro c t ht
  obtain ⟨rfl, -⟩ := List.cons.inj ht
  rfl

lemma pathOf_testName : pathOf (testName (withIsa isa f)) = f.path := by
  rw [pathOf, tagOf_testName hisa hw, if_pos (by simp)]
  have hdrop := (takeWhile_word (a := ':' :: f.path) (isas_colon hisa) (by
    intro c t ht
    obtain ⟨rfl, -⟩ := List.cons.inj ht
    rfl)).2
  simp only [hdrop, List.tail_cons]

end

lemma hits_writing (pathnames : Text → List Text) (texts : Suite → Text) {line : Text}
    (hisa : isaOf line ∈ isas) (hn : '\n' ∉ pathOf line) (s : State) :
    hits (runShSim pathnames (writing texts) (isaOf line) (globOf line) s).2 line = true ↔
      ∃ suite, failNeedle (pathOf line) <:+: texts suite := by
  have hneedle : '\n' ∉ failNeedle (pathOf line) := not_mem_failNeedle (by decide) hn
  have hgrep (t : Text) : grepF (failNeedle (pathOf line)) t = true ↔ failNeedle (pathOf line) <:+: t := by
    rw [grepF_iff, infix_iff_line hneedle]
  have hsums (suite : Suite) :
      (runShSim pathnames (writing texts) (isaOf line) (globOf line) s).2.sums suite (isaOf line) =
        some (texts suite) := by
    rw [runShSim, isaWords_eq pathnames hisa]
    cases suite <;> simp [writing, runSuites, suites]
  simp only [hits, suites, List.any_cons, List.any_nil, hsums, Option.any_some, Bool.or_false,
    Bool.or_eq_true, hgrep]
  constructor
  · rintro (h | h)
    · exact ⟨.execute, h⟩
    · exact ⟨.ieee, h⟩
  · rintro ⟨suite, h⟩
    cases suite with
    | execute => exact Or.inl h
    | ieee => exact Or.inr h

lemma shSimLoop_bad_iff (pathnames : Text → List Text) (texts : ℕ → Suite → Text) (n : ℕ) {ls : List Text}
    (hls : ∀ line ∈ ls, line ≠ [] ∧ isaOf line ∈ isas ∧ '\n' ∉ pathOf line) (s : State) :
    (shSimLoop pathnames (fun i => writing (texts i)) n ls s).2 = .bad ↔
      ∃ i line, ls[i]? = some line ∧ ∃ suite, failNeedle (pathOf line) <:+: texts (n + i) suite := by
  induction ls generalizing n s with
  | nil => simp [shSimLoop]
  | cons line rest ih =>
    obtain ⟨hl, hisa, hn⟩ := hls line (by simp)
    have hhit := hits_writing pathnames (texts n) hisa hn s
    simp only [shSimLoop, hl, if_false]
    split
    · rename_i hh
      exact iff_of_true rfl ⟨0, line, rfl, hhit.mp hh⟩
    · rename_i hh
      rw [ih (n + 1) (fun m hm => hls m (List.mem_cons_of_mem _ hm))]
      constructor
      · rintro ⟨i, m, hm, hi⟩
        exact ⟨i + 1, m, hm, by rwa [Nat.add_comm i 1, ← Nat.add_assoc]⟩
      · rintro ⟨i, m, hm, hi⟩
        cases i with
        | zero =>
          obtain rfl := Option.some.inj hm
          exact absurd (hhit.mpr hi) hh
        | succ i => exact ⟨i, m, hm, by rwa [Nat.add_assoc, Nat.add_comm 1 i]⟩

lemma lt_length_made (pathnames : Text → List Text) (texts : ℕ → Suite → Text) (n : ℕ) {ls : List Text}
    (hls : ∀ line ∈ ls, line ≠ [] ∧ isaOf line ∈ isas ∧ '\n' ∉ pathOf line) (s : State) (i : ℕ) :
    i < (shSimLoop pathnames (fun i => writing (texts i)) n ls s).1.length ↔
      i < ls.length ∧ ∀ m < i, ∀ line ∈ ls[m]?, ∀ suite,
        ¬ failNeedle (pathOf line) <:+: texts (n + m) suite := by
  induction ls generalizing n s i with
  | nil => simp [shSimLoop]
  | cons line rest ih =>
    obtain ⟨hl, hisa, hn⟩ := hls line (by simp)
    have hhit := hits_writing pathnames (texts n) hisa hn s
    simp only [shSimLoop, hl, if_false]
    split
    · rename_i hh
      obtain ⟨suite, hi⟩ := hhit.mp hh
      constructor
      · intro h
        obtain rfl := Nat.lt_one_iff.mp h
        exact ⟨Nat.zero_lt_succ _, fun m hm => absurd hm (Nat.not_lt_zero m)⟩
      · rintro ⟨-, h⟩
        by_contra hpos
        exact h 0 (by simp only [List.length_cons, List.length_nil] at hpos; omega) line rfl suite hi
    · rename_i hh
      cases i with
      | zero => simp
      | succ i =>
        rw [List.length_cons, List.length_cons, Nat.succ_lt_succ_iff, Nat.succ_lt_succ_iff,
          ih (n + 1) (fun m hm => hls m (List.mem_cons_of_mem _ hm))]
        apply and_congr_right
        intro _
        constructor
        · intro h m hm line' hline suite hi
          cases m with
          | zero =>
            obtain rfl := Option.some.inj hline
            exact hh (hhit.mpr ⟨suite, hi⟩)
          | succ m =>
            refine h m (Nat.lt_of_succ_lt_succ hm) line' hline suite ?_
            rwa [Nat.add_assoc, Nat.add_comm 1 m]
        · intro h m hm line' hline suite hi
          refine h (m + 1) (Nat.succ_lt_succ hm) line' hline suite ?_
          rwa [Nat.add_comm m 1, ← Nat.add_assoc]

/-- An execution FAIL read from the sums just written is the listed one. -/
def Genuine (isWord : Char → Bool) (texts : ℕ → Suite → Text) (n : ℕ) (e : Entry) : Prop :=
  e ∈ (extract isWord (justWritten (isaOf (testName e)) (texts n))).fail

def Matches (texts : ℕ → Suite → Text) (n : ℕ) (e : Entry) : Prop :=
  ∃ suite, failNeedle (pathOf (testName e)) <:+: texts n suite

def Reached (texts : ℕ → Suite → Text) (listed : List Entry) (n : ℕ) : Prop :=
  ∀ m < n, ∀ e ∈ listed[m]?, ¬ Matches texts m e

lemma matches_of_genuine {isWord : Char → Bool} {texts : ℕ → Suite → Text} {n : ℕ} {e : Entry}
    (h : Genuine isWord texts n e) : Matches texts n e := by
  obtain ⟨isa, hisa, suite, -, sum, hsum, f, hf, -, -, rfl⟩ := mem_extract_fail.mp h
  obtain ⟨-, hw, hi⟩ := mem_fileMatches hf
  rw [Matches, pathOf_testName hisa hw]
  rw [isaOf_testName hisa hw, justWritten, if_pos rfl] at hsum
  obtain rfl := Option.some.inj hsum
  have hn : '\n' ∉ failNeedle f.path := not_mem_failNeedle (by decide) (newline_not_mem_of_nonSpace hw)
  have hr : '\r' ∉ failNeedle f.path := by
    apply not_mem_failNeedle (by decide)
    intro hm
    simpa [nonSpace, isSpace] using hw _ hm
  exact ⟨suite, (infix_readText hn hr _).mp hi⟩

lemma decodes_of_extract {isWord : Char → Bool} {sumsDir : SumDir} {e : Entry}
    (h : e ∈ (extract isWord sumsDir).fail) :
    testName e ≠ [] ∧ isaOf (testName e) ∈ isas ∧ '\n' ∉ pathOf (testName e) := by
  obtain ⟨isa, hisa, -, -, sum, -, f, hf, -, -, rfl⟩ := mem_extract_fail.mp h
  obtain ⟨-, hw, -⟩ := mem_fileMatches hf
  rw [isaOf_testName hisa hw, pathOf_testName hisa hw]
  refine ⟨?_, hisa, newline_not_mem_of_nonSpace hw⟩
  rw [testName_append (by simp [withIsa]) (withIsa_word hisa hw)]
  simp [withIsa]

section

variable {isWord : Char → Bool} (pathnames : Text → List Text) (texts : ℕ → Suite → Text) {listed : List Entry}
  {file : Text} (hfile : readLines file = listed.map testName)
  (hlisted : ∀ e ∈ listed, ∃ sumsDir, e ∈ (extract isWord sumsDir).fail)

include hlisted in
lemma decodes_listed : ∀ line ∈ listed.map testName, line ≠ [] ∧ isaOf line ∈ isas ∧ '\n' ∉ pathOf line := by
  intro line hline
  obtain ⟨e, he, rfl⟩ := List.mem_map.mp hline
  obtain ⟨sumsDir, hx⟩ := hlisted e he
  exact decodes_of_extract hx

include hfile hlisted

lemma shSimMode_bad_iff :
    (shSimMode pathnames (some file) true (fun i => writing (texts i))).2 = .bad ↔
      ∃ n e, listed[n]? = some e ∧ Matches texts n e := by
  rw [shSimMode, if_pos rfl, hfile, shSimLoop_bad_iff pathnames texts 0 (decodes_listed hlisted)]
  constructor
  · rintro ⟨n, line, hline, suite, hi⟩
    rw [List.getElem?_map] at hline
    obtain ⟨e, he, rfl⟩ := Option.map_eq_some_iff.mp hline
    exact ⟨n, e, he, suite, by simpa using hi⟩
  · rintro ⟨n, e, he, suite, hi⟩
    exact ⟨n, testName e, by simp [he], suite, by simpa using hi⟩

lemma reached_iff {n : ℕ} {e : Entry} (he : listed[n]? = some e) :
    n < (shSimMode pathnames (some file) true (fun i => writing (texts i))).1.length ↔
      Reached texts listed n := by
  have hlt : n < (listed.map testName).length := by
    rw [List.length_map]
    exact (List.getElem?_eq_some_iff.mp he).1
  rw [shSimMode, if_pos rfl, hfile, lt_length_made pathnames texts 0 (decodes_listed hlisted),
    and_iff_right hlt]
  constructor
  · rintro h m hm e' he' ⟨suite, hi⟩
    exact h m hm (testName e') (by simp [Option.mem_def.mp he']) suite (by simpa using hi)
  · intro h m hm line hline suite hi
    rw [List.getElem?_map] at hline
    obtain ⟨e', he', rfl⟩ := Option.map_eq_some_iff.mp hline
    exact h m hm e' he' ⟨suite, by simpa using hi⟩

end

lemma exists_first {texts : ℕ → Suite → Text} {listed : List Entry}
    (h : ∃ n e, listed[n]? = some e ∧ Matches texts n e) :
    ∃ n e, listed[n]? = some e ∧ Matches texts n e ∧ Reached texts listed n := by
  classical
  obtain ⟨e, he, hm⟩ := Nat.find_spec h
  refine ⟨Nat.find h, e, he, hm, ?_⟩
  intro m hlt e' he' hm'
  exact Nat.find_min h hlt ⟨e', he', hm'⟩

theorem shSim_exact_iff (isWord : Char → Bool) (pathnames : Text → List Text) (texts : ℕ → Suite → Text)
    (listed : List Entry) (file : Text) (hfile : readLines file = listed.map testName)
    (hlisted : ∀ e ∈ listed, ∃ sumsDir, e ∈ (extract isWord sumsDir).fail) :
    let result := shSimMode pathnames (some file) true (fun i => writing (texts i))
    (result.2 = .bad ↔ ∃ n e, n < result.1.length ∧ listed[n]? = some e ∧ Genuine isWord texts n e) ↔
      ∀ n e, listed[n]? = some e → Matches texts n e → Reached texts listed n → Genuine isWord texts n e := by
  dsimp only
  rw [shSimMode_bad_iff pathnames texts hfile hlisted]
  constructor
  · intro h n e he hm hreached
    obtain ⟨n', e', hmade, he', hg⟩ := h.mp ⟨n, e, he, hm⟩
    have hreached' := (reached_iff pathnames texts hfile hlisted he').mp hmade
    -- Both lines match and are reached, so neither comes before the other.
    obtain hlt | rfl | hlt := lt_trichotomy n n'
    · exact absurd hm (hreached' n hlt e he)
    · obtain rfl := Option.some.inj (he.symm.trans he')
      exact hg
    · exact absurd (matches_of_genuine hg) (hreached n' hlt e' he')
  · intro h
    constructor
    · intro hm
      obtain ⟨n, e, he, hm, hreached⟩ := exists_first hm
      exact ⟨n, e, (reached_iff pathnames texts hfile hlisted he).mpr hreached, he, h n e he hm hreached⟩
    · rintro ⟨n, e, -, he, hg⟩
      exact ⟨n, e, he, matches_of_genuine hg⟩

def optimized : Entry := ⟨"m4:a.c".toList, "execution,  -O2".toList⟩

def optimizedFile : Text := "m4:a.c execution,  -O2\n".toList

def onExecute (sum : Text) (_ : ℕ) : Suite → Text
  | .execute => sum
  | .ieee => []

def sumsAtO2 : ℕ → Suite → Text := onExecute "FAIL: a.c execution,  -O2\n".toList

def sumsAtO1 : ℕ → Suite → Text := onExecute "FAIL: a.c execution,  -O1\n".toList

def modeWith (texts : ℕ → Suite → Text) : List Made × Verdict :=
  shSimMode (fun _ => []) (some optimizedFile) true (fun i => writing (texts i))

theorem shSim_exact_example :
    (modeWith sumsAtO2).2 = .bad ↔ ∃ n e, n < (modeWith sumsAtO2).1.length ∧ [optimized][n]? = some e ∧
      Genuine isAsciiWord sumsAtO2 n e := by
  refine (shSim_exact_iff isAsciiWord (fun _ => []) sumsAtO2 [optimized] optimizedFile (by decide +kernel)
    (List.forall_mem_singleton.mpr ⟨justWritten "m4".toList (sumsAtO2 0), by decide +kernel⟩)).mpr ?_
  intro n e he _ _
  cases n with
  | zero =>
    obtain rfl := Option.some.inj he
    unfold Genuine
    decide +kernel
  | succ n => cases he

theorem shSim_exact_counterexample :
    readLines optimizedFile = [optimized].map testName ∧
      optimized ∈ (extract isAsciiWord (justWritten "m4".toList (sumsAtO2 0))).fail ∧
      ¬ ((modeWith sumsAtO1).2 = .bad ↔ ∃ n e, n < (modeWith sumsAtO1).1.length ∧ [optimized][n]? = some e ∧
        Genuine isAsciiWord sumsAtO1 n e) := by
  refine ⟨by decide +kernel, by decide +kernel, ?_⟩
  intro h
  obtain ⟨n, e, -, he, hg⟩ := h.mp (by decide +kernel)
  cases n with
  | zero =>
    obtain rfl := Option.some.inj he
    rw [Genuine] at hg
    exact absurd hg (by decide +kernel)
  | succ n => cases he

end ShMonitor.Bisect.ShSimExact
