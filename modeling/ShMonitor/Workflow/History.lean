import Mathlib.Data.List.Chain
import ShMonitor.Runs
import ShMonitor.Workflow.Regression

/-! Histories of ci-full runs, one at a time and with every artifact at hand: a run carries its own
non-stale FAILs and reportable simulator FAILs. -/

namespace ShMonitor.Workflow.History

open ShMonitor.Texts ShMonitor.Detection ExtractFailures RegressionDetect LastGreen Regression Runs

abbrev CiRun := Run (List Entry) (List Entry)

def fullLane : Lane (List Entry) where
  available _ := true
  fails es := es

def fullLanes : Lanes (List Entry) (List Entry) := ⟨fullLane, fullLane⟩

structure State where
  earlier : List (Record (List Entry) (List Entry))
  issues : List Issue

def start : State := ⟨[], []⟩

def record (runId : ℕ) (run : CiRun) : Record (List Entry) (List Entry) :=
  ⟨runId, run.buildResult = .success, some run.commit, run.dejagnu, run.shSim⟩

def action (s : State) (run : CiRun) : Action := act fullLanes always (fun _ => s.earlier) s.issues run

def next (s : State) (run : CiRun) : State :=
  ⟨record s.earlier.length run :: s.earlier, update s.issues (action s run)⟩

def baseline (s : State) : Option (Record (List Entry) (List Entry)) := main .dejagnu s.earlier

def listedTests (s : State) : List Text := s.issues.flatMap Issue.regressedTests

def failNames (dejagnu shSim : List Entry) : List Text := (dejagnu ++ shSim).map testName

lemma baseline_next (s : State) (run : CiRun) :
    baseline (next s run) =
      if run.buildResult = .success then some (record s.earlier.length run) else baseline s := by
  rw [baseline, next, main_cons]
  simp [record, baseline]

lemma newDejagnu_eq (s : State) (run : CiRun) :
    newDejagnu fullLanes always (fun _ => s.earlier) run = (baseline s).elim []
      (fun b => delta run.dejagnu b.dejagnu) := by
  rw [newDejagnu, baseline, always, Option.bind_some]
  cases main FailureType.dejagnu s.earlier <;> rfl

lemma newShSim_eq (s : State) (run : CiRun) :
    newShSim fullLanes always (fun _ => s.earlier) run = (baseline s).elim []
      (fun b => delta run.shSim b.shSim) := by
  rw [newShSim, baseline, always, Option.bind_some, main_failureType .shSim .dejagnu]
  cases main FailureType.dejagnu s.earlier <;> rfl

lemma closeFirst_of_none {issues : List Issue} (h : openIssue issues = none) : closeFirst issues = issues := by
  induction issues with
  | nil => rfl
  | cons issue issues ih =>
    rw [openIssue, List.find?_cons] at h
    split at h
    · cases h
    · rename_i ho
      simp [closeFirst, ho, ih h]

lemma flatMap_closeFirst (issues : List Issue) :
    (closeFirst issues).flatMap Issue.regressedTests = issues.flatMap Issue.regressedTests := by
  induction issues with
  | nil => rfl
  | cons issue issues ih =>
    rw [closeFirst]
    split
    · rfl
    · simp only [List.flatMap_cons, ih]

lemma listedTests_next (s : State) (run : CiRun) {t : Text} :
    t ∈ listedTests (next s run) ↔
      t ∈ listedTests s ∨ ∃ issue, action s run = .filed issue ∧ t ∈ issue.regressedTests := by
  simp only [listedTests, next]
  cases action s run with
  | closed issue => simp [update, flatMap_closeFirst]
  | filed issue => simp [update, or_comm]
  | quiet | skipped | aborted => simp [update]

def Single (s : State) : Prop := openIssue (closeFirst s.issues) = none

lemma single_next {s : State} (h : Single s) (run : CiRun) : Single (next s run) := by
  rw [Single, next]
  cases ha : action s run with
  | closed issue =>
    rw [update, closeFirst_of_none h]
    exact h
  | filed issue =>
    obtain ⟨hnone, hopen, -⟩ := act_filed ha
    rw [openIssue, List.find?_eq_none] at hnone ⊢
    simpa [update, closeFirst, hopen] using hnone
  | quiet | skipped | aborted => exact h

def ClosesSoundly (s : State) (run : CiRun) : Prop :=
  ∀ issue, action s run = .closed issue → ∀ t ∈ issue.regressedTests, t ∉ failNames run.dejagnu run.shSim

def AutoCloseSound (runs : List CiRun) : Prop := Along next ClosesSoundly start runs

/-- When a successful run without a new FAIL finds an issue open, no test of the issue fails both in the
run and in its baseline. -/
def NoneLingers (s : State) (run : CiRun) : Prop :=
  run.buildResult = .success → ∀ issue ∈ openIssue s.issues, ∀ b ∈ baseline s,
    delta run.dejagnu b.dejagnu = [] → delta run.shSim b.shSim = [] → ∀ t ∈ issue.regressedTests,
      ¬ (t ∈ failNames b.dejagnu b.shSim ∧ t ∈ failNames run.dejagnu run.shSim)

lemma action_closed {s : State} {run : CiRun} {issue : Issue} :
    action s run = .closed issue ↔ run.buildResult = .success ∧ openIssue s.issues = some issue ∧
      ∀ b ∈ baseline s, delta run.dejagnu b.dejagnu = [] ∧ delta run.shSim b.shSim = [] := by
  rw [action, act_closed, newDejagnu_eq, newShSim_eq]
  cases baseline s <;> simp

def ListedLate (s : State) : Prop := ∀ t ∈ listedTests s, baseline s ≠ none

lemma filed_success {s : State} {run : CiRun} {issue : Issue} (h : action s run = .filed issue) {t : Text}
    (ht : t ∈ issue.regressedTests) : run.buildResult = .success := by
  by_contra hs
  obtain ⟨-, -, -, htests, -⟩ := act_filed h
  rw [htests, (detect_not_success hs).1] at ht
  cases ht

lemma listedLate_next {s : State} (h : ListedLate s) (run : CiRun) : ListedLate (next s run) := by
  intro t ht
  rw [baseline_next]
  split
  · simp
  · rename_i hs
    obtain ht | ⟨issue, hf, hi⟩ := (listedTests_next s run).mp ht
    · exact h t ht
    · exact absurd (filed_success hf hi) hs

lemma mem_issues_of_open {issues : List Issue} {issue : Issue} (h : openIssue issues = some issue) :
    issue ∈ issues := List.mem_of_find?_eq_some h

lemma failNames_subset {dejagnu shSim dejagnu' shSim' : List Entry} (hd : delta dejagnu dejagnu' = [])
    (hs : delta shSim shSim' = []) : ∀ t ∈ failNames dejagnu shSim, t ∈ failNames dejagnu' shSim' := by
  rw [delta_eq_nil] at hd hs
  intro t ht
  obtain ⟨e, he, rfl⟩ := List.mem_map.mp ht
  apply List.mem_map_of_mem
  obtain he | he := List.mem_append.mp he
  · exact List.mem_append_left _ (hd e he)
  · exact List.mem_append_right _ (hs e he)

lemma closesSoundly_iff {s : State} (h : ListedLate s) (run : CiRun) :
    ClosesSoundly s run ↔ NoneLingers s run := by
  constructor
  · intro hc hrun issue hopen b hb hd hs t ht hboth
    refine hc issue (action_closed.mpr ⟨hrun, hopen, ?_⟩) t ht hboth.2
    intro b' hb'
    obtain rfl := Option.some.inj (hb.symm.trans hb')
    exact ⟨hd, hs⟩
  · intro hn issue hc t ht hfail
    obtain ⟨hrun, hopen, hnew⟩ := action_closed.mp hc
    have hlisted : t ∈ listedTests s := List.mem_flatMap.mpr ⟨issue, mem_issues_of_open hopen, ht⟩
    obtain ⟨b, hb⟩ := Option.ne_none_iff_exists'.mp (h t hlisted)
    obtain ⟨hd, hs⟩ := hnew b hb
    exact hn hrun issue hopen b hb hd hs t ht ⟨failNames_subset hd hs t hfail, hfail⟩

theorem autoCloseSound_iff (runs : List CiRun) : AutoCloseSound runs ↔ Along next NoneLingers start runs :=
  along_congr (fun _ run h => listedLate_next h run) (fun _ run h => closesSoundly_iff h run)
    (fun t ht => by simp [listedTests, start] at ht)

def runFails (run : CiRun) : List Text := failNames run.dejagnu run.shSim

def greenFails (runs : List CiRun) : List (List Text) :=
  (runs.filter (fun run => run.buildResult = .success)).map runFails

lemma greenFails_cons (run : CiRun) (runs : List CiRun) :
    greenFails (run :: runs) =
      if run.buildResult = .success then runFails run :: greenFails runs else greenFails runs := by
  by_cases hs : run.buildResult = .success <;> simp [greenFails, hs]

lemma noneLingers_of_chain {s : State} {runs : List CiRun}
    (h : (((baseline s).map (fun b => failNames b.dejagnu b.shSim)).toList ++ greenFails runs).IsChain
      List.Disjoint) :
    Along next NoneLingers s runs := by
  induction runs generalizing s with
  | nil => trivial
  | cons run runs ih =>
    rw [greenFails_cons] at h
    by_cases hs : run.buildResult = .success
    · rw [if_pos hs] at h
      refine ⟨?_, ih ?_⟩
      · intro _ issue _ b hb _ _ t _ hboth
        rw [Option.mem_def] at hb
        rw [hb, Option.map_some, Option.toList_some, List.singleton_append, List.isChain_cons_cons] at h
        exact h.1 hboth.1 hboth.2
      · rw [baseline_next, if_pos hs]
        exact h.right_of_append
    · rw [if_neg hs] at h
      refine ⟨fun hrun => absurd hrun hs, ih ?_⟩
      rw [baseline_next, if_neg hs]
      exact h

lemma noneLingers_of_disjoint {runs : List CiRun} (h : (greenFails runs).IsChain List.Disjoint) :
    Along next NoneLingers start runs := noneLingers_of_chain h

def letterCommit (c : Char) : Commit := ⟨[c], List.cons_ne_nil c []⟩

def dejagnuRun (c : Char) (fails : List Entry) : CiRun := ⟨.success, "", letterCommit c, fails, []⟩

def regression : Entry := ⟨['a'], ['x']⟩

theorem autoCloseSound_counterexample :
    ¬ AutoCloseSound [dejagnuRun '1' [], dejagnuRun '2' [regression], dejagnuRun '3' [regression]] := by
  rintro ⟨-, -, h, -⟩
  exact h ⟨.dejagnu, dejagnuStep, [testName regression], some (letterCommit '1'), letterCommit '2', true⟩
    (by decide +kernel) (testName regression) (by decide +kernel) (by decide +kernel)

def NothingLost (first : CiRun) (s : State) (run : CiRun) : Prop :=
  run.buildResult = .success → openIssue (next s run).issues = none →
    (∀ e ∈ run.dejagnu, e ∉ first.dejagnu → testName e ∈ listedTests (next s run)) ∧
    ∀ e ∈ run.shSim, e ∉ first.shSim → testName e ∈ listedTests (next s run)

def NoRegressionLost (first : CiRun) (runs : List CiRun) : Prop :=
  Along next (NothingLost first) start (first :: runs)

/-- Every FAIL that is new against the baseline, and is none of the first run's, is listed already
or meets no open issue; a simulator FAIL meets no dejagnu FAIL either, except for one of the same
name. -/
def Heard (first : CiRun) (s : State) (run : CiRun) : Prop :=
  run.buildResult = .success → ∀ b ∈ baseline s,
    (∀ e ∈ delta run.dejagnu b.dejagnu, e ∉ first.dejagnu →
      testName e ∈ listedTests s ∨ openIssue s.issues = none) ∧
    ∀ e ∈ delta run.shSim b.shSim, e ∉ first.shSim →
      testName e ∈ listedTests s ∨ openIssue s.issues = none ∧
        (delta run.dejagnu b.dejagnu = [] ∨ testName e ∈ (delta run.dejagnu b.dejagnu).map testName)

set_option synthInstance.maxSize 400 in
instance (first : CiRun) (s : State) (run : CiRun) : Decidable (Heard first s run) :=
  inferInstanceAs (Decidable (_ → ∀ b ∈ baseline s, _ ∧ _))

def reportedTests (b : Record (List Entry) (List Entry)) (run : CiRun) : List Text :=
  (if delta run.dejagnu b.dejagnu ≠ [] then delta run.dejagnu b.dejagnu
    else delta run.shSim b.shSim).map testName

lemma detect_regressedTests {s : State} {run : CiRun} (hs : run.buildResult = .success)
    {b : Record (List Entry) (List Entry)} (hb : baseline s = some b) :
    (detect fullLanes always (fun _ => s.earlier) run).regressedTests = reportedTests b run := by
  rw [detect_success hs, newDejagnu_eq, newShSim_eq, hb, reportedTests]
  simp only [Option.elim_some]
  by_cases hd : delta run.dejagnu b.dejagnu = []
  · by_cases hsim : delta run.shSim b.shSim = [] <;> simp [hd, hsim]
  · simp [hd]

lemma listed_of_filed {s : State} {run : CiRun} (hs : run.buildResult = .success)
    {b : Record (List Entry) (List Entry)} (hb : baseline s = some b) {t : Text} :
    t ∈ listedTests (next s run) ↔ t ∈ listedTests s ∨ openIssue s.issues = none ∧ t ∈ reportedTests b run := by
  rw [listedTests_next]
  apply or_congr_right
  constructor
  · rintro ⟨issue, hf, ht⟩
    obtain ⟨hnone, -, -, htests, -⟩ := act_filed hf
    rw [htests, detect_regressedTests hs hb] at ht
    exact ⟨hnone, ht⟩
  · rintro ⟨hnone, ht⟩
    have hfound : (detect fullLanes always (fun _ => s.earlier) run).failureType ≠ .none := by
      rw [Ne, detect_none hs, newDejagnu_eq, newShSim_eq, hb]
      rintro ⟨hd, hsim⟩
      simp only [Option.elim_some] at hd hsim
      simp [reportedTests, hd, hsim] at ht
    have hact := act_found s.issues hfound
    simp only [hnone, ne_eq, not_true_eq_false, if_false, always, Option.elim_some] at hact
    exact ⟨_, hact, (detect_regressedTests hs hb).symm ▸ ht⟩

def Accounted (first : CiRun) (s : State) : Prop :=
  ∃ b, baseline s = some b ∧ (∀ e ∈ b.dejagnu, e ∉ first.dejagnu → testName e ∈ listedTests s) ∧
    ∀ e ∈ b.shSim, e ∉ first.shSim → testName e ∈ listedTests s

lemma mem_reportedTests_dejagnu {b : Record (List Entry) (List Entry)} {run : CiRun} {e : Entry}
    (h : e ∈ delta run.dejagnu b.dejagnu) : testName e ∈ reportedTests b run := by
  rw [reportedTests, if_pos (List.ne_nil_of_mem h)]
  exact List.mem_map_of_mem h

lemma mem_reportedTests_shSim {b : Record (List Entry) (List Entry)} {run : CiRun} {e : Entry}
    (h : e ∈ delta run.shSim b.shSim) :
    testName e ∈ reportedTests b run ↔
      delta run.dejagnu b.dejagnu = [] ∨ testName e ∈ (delta run.dejagnu b.dejagnu).map testName := by
  rw [reportedTests]
  by_cases hd : delta run.dejagnu b.dejagnu = []
  · simpa [hd] using ⟨e, h, rfl⟩
  · simp [hd]

lemma accounted_next {first : CiRun} {s : State} (h : Accounted first s) {run : CiRun}
    (hh : Heard first s run) :
    Accounted first (next s run) := by
  obtain ⟨b, hb, hd, hsim⟩ := h
  by_cases hs : run.buildResult = .success
  · obtain ⟨hhd, hhs⟩ := hh hs b hb
    refine ⟨record s.earlier.length run, by rw [baseline_next, if_pos hs], ?_, ?_⟩
    · intro e he hfirst
      rw [listed_of_filed hs hb]
      by_cases hold : e ∈ b.dejagnu
      · exact Or.inl (hd e hold hfirst)
      · have hnew := mem_delta.mpr ⟨he, hold⟩
        exact (hhd e hnew hfirst).imp_right (fun ho => ⟨ho, mem_reportedTests_dejagnu hnew⟩)
    · intro e he hfirst
      rw [listed_of_filed hs hb]
      by_cases hold : e ∈ b.shSim
      · exact Or.inl (hsim e hold hfirst)
      · have hnew := mem_delta.mpr ⟨he, hold⟩
        exact (hhs e hnew hfirst).imp_right (fun ho => ⟨ho.1, (mem_reportedTests_shSim hnew).mpr ho.2⟩)
  · refine ⟨b, by rw [baseline_next, if_neg hs, hb], ?_, ?_⟩
    · intro e he hfirst
      exact (listedTests_next s run).mpr (Or.inl (hd e he hfirst))
    · intro e he hfirst
      exact (listedTests_next s run).mpr (Or.inl (hsim e he hfirst))

lemma nothingLost_of_accounted {first : CiRun} {s : State} {run : CiRun} (h : Accounted first (next s run)) :
    NothingLost first s run := by
  intro hs _
  obtain ⟨b, hb, hd, hsim⟩ := h
  rw [baseline_next, if_pos hs] at hb
  obtain rfl := Option.some.inj hb
  exact ⟨hd, hsim⟩

lemma accounted_first {first : CiRun} (h : first.buildResult = .success) :
    Accounted first (next start first) := by
  refine ⟨record 0 first, by rw [baseline_next, if_pos h]; rfl, ?_, ?_⟩
  · exact fun e he hfirst => absurd he hfirst
  · exact fun e he hfirst => absurd he hfirst

lemma baseline_repeat (s : State) {run : CiRun} (hs : run.buildResult = .success) :
    ∃ b, baseline (next s run) = some b ∧ delta run.dejagnu b.dejagnu = [] ∧ delta run.shSim b.shSim = [] := by
  refine ⟨record s.earlier.length run, by rw [baseline_next, if_pos hs], ?_, ?_⟩
  · exact delta_eq_nil.mpr (fun _ he => he)
  · exact delta_eq_nil.mpr (fun _ he => he)

lemma openIssue_repeat {s : State} (h : Single s) {run : CiRun} (hs : run.buildResult = .success) :
    openIssue (next (next s run) run).issues = none := by
  have hsingle := single_next h run
  obtain ⟨b, hb, hd, hsim⟩ := baseline_repeat s hs
  have hnone : (detect fullLanes always (fun _ => (next s run).earlier) run).failureType = .none := by
    rw [detect_none hs, newDejagnu_eq, newShSim_eq, hb]
    exact ⟨hd, hsim⟩
  have hact := act_none (next s run).issues hnone
  rw [if_pos hs] at hact
  have hissues : (next (next s run) run).issues = update (next s run).issues (action (next s run) run) := rfl
  rw [hissues, action, hact]
  cases ho : openIssue (next s run).issues with
  | none => exact ho
  | some issue => exact hsingle

lemma listedTests_repeat (s : State) {run : CiRun} (hs : run.buildResult = .success) {t : Text} :
    t ∈ listedTests (next (next s run) run) ↔ t ∈ listedTests (next s run) := by
  obtain ⟨b, hb, hd, hsim⟩ := baseline_repeat s hs
  rw [listed_of_filed hs hb, reportedTests, hd, hsim]
  simp

lemma exists_unlisted {first : CiRun} {s : State} {run : CiRun} (h : ¬ Heard first s run) :
    run.buildResult = .success ∧
      ((∃ e ∈ run.dejagnu, e ∉ first.dejagnu ∧ testName e ∉ listedTests (next s run)) ∨
        ∃ e ∈ run.shSim, e ∉ first.shSim ∧ testName e ∉ listedTests (next s run)) := by
  rw [Heard] at h
  push Not at h
  obtain ⟨hs, b, hb, h⟩ := h
  refine ⟨hs, ?_⟩
  by_cases hd : ∀ e ∈ delta run.dejagnu b.dejagnu, e ∉ first.dejagnu →
      testName e ∈ listedTests s ∨ openIssue s.issues = none
  · right
    obtain ⟨e, he, hfirst, hlist, hlost⟩ := h (by simpa only [or_iff_not_imp_left] using hd)
    refine ⟨e, (mem_delta.mp he).1, hfirst, ?_⟩
    rw [listed_of_filed hs hb, mem_reportedTests_shSim he]
    rintro (hl | ⟨hnone, hl⟩)
    · exact hlist hl
    · exact absurd hl (by simpa using hlost hnone)
  · left
    push Not at hd
    obtain ⟨e, he, hfirst, hlist, hopen⟩ := hd
    refine ⟨e, (mem_delta.mp he).1, hfirst, ?_⟩
    rw [listed_of_filed hs hb]
    rintro (hl | ⟨hnone, -⟩)
    · exact hlist hl
    · exact hopen hnone

lemma single_start : Single start := rfl

theorem noRegressionLost_of_heard (first : CiRun) (hfirst : first.buildResult = .success) (runs : List CiRun) :
    (Along next (Heard first) start (first :: runs) → NoRegressionLost first runs) ∧
      ∀ run, ¬ Heard first (after next start (first :: runs)) run →
        ¬ NoRegressionLost first (runs ++ [run, run]) := by
  constructor
  · intro h
    refine ⟨nothingLost_of_accounted (accounted_first hfirst), ?_⟩
    exact along_of_invariant (fun _ _ hs hh => accounted_next hs hh)
      (fun _ _ hs hh => nothingLost_of_accounted (accounted_next hs hh)) (accounted_first hfirst) h.2
  · intro run hheard hlost
    obtain ⟨hs, hun⟩ := exists_unlisted hheard
    have hsingle : Single (after next start (first :: runs)) :=
      invariant_always Single (fun _ r h => single_next h r) single_start (first :: runs)
    rw [NoRegressionLost, ← List.cons_append, along_append] at hlost
    obtain ⟨hdej, hsim⟩ := hlost.2.2.1 hs (openIssue_repeat hsingle hs)
    obtain ⟨e, he, hnot, hlist⟩ | ⟨e, he, hnot, hlist⟩ := hun
    · exact hlist ((listedTests_repeat _ hs).mp (hdej e he hnot))
    · exact hlist ((listedTests_repeat _ hs).mp (hsim e he hnot))

theorem noRegressionLost_of_heard_example :
    NoRegressionLost (dejagnuRun '1' []) [dejagnuRun '2' [regression], dejagnuRun '3' []] :=
  (noRegressionLost_of_heard (dejagnuRun '1' []) rfl _).1 (by decide +kernel)

def secondRegression : Entry := ⟨['b'], ['y']⟩

theorem noRegressionLost_counterexample :
    ¬ NoRegressionLost (dejagnuRun '1' []) [dejagnuRun '2' [regression],
      dejagnuRun '3' [regression, secondRegression], dejagnuRun '4' [regression, secondRegression]] := by
  rintro ⟨-, -, -, h, -⟩
  have hlisted := (h rfl (by decide +kernel)).1 secondRegression (by decide +kernel) (by decide)
  exact absurd hlisted (by decide +kernel)

end ShMonitor.Workflow.History
