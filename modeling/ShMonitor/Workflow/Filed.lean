import ShMonitor.Workflow.Regression

/-! What a filed test regression says about the run that filed it and about the run whose commit bounds
the bisect. -/

namespace ShMonitor.Workflow.Filed

open ShMonitor.Texts ShMonitor.Detection ExtractFailures RegressionDetect LastGreen Regression
open ExtractShSimFailures (Suite isas suites execRe isAsciiWord isKnownFpXfail withIsa withIsa_word)

variable {A B : Type}

def lanes (isWord : Char → Bool) (stale : List Text) : Lanes (Option Text) Dir where
  dejagnu := dejagnuLane stale
  shSim := shSimLane isWord

structure SumsWellFormed (gccSum : Option Text) (dir : Dir) : Prop where
  dejagnu : ∀ sum ∈ gccSum, WellFormed (readText sum)
  shSim : ∀ file ∈ dir, WellFormed (readText file.2)

def DejagnuFails (gccSum : Option Text) (t : Text) : Prop :=
  ∃ sum ∈ gccSum, ∃ e ∈ failLines (readText sum), signature e = t

def ShSimFails (P : Entry → Prop) (dir : Dir) (t : Text) : Prop :=
  ∃ isa ∈ isas, ∃ suite, ∃ sum ∈ sumsOf dir suite isa, ∃ e ∈ failLines (readText sum), P e ∧
    signature (withIsa isa e) = t

def Reportable (isWord : Char → Bool) (e : Entry) : Prop :=
  (execRe isWord).search e.detail = true ∧ isKnownFpXfail e.path = false

lemma mem_dejagnuLane {stale : List Text} {gccSum : Option Text} (h : ∀ sum ∈ gccSum, WellFormed (readText sum))
    (hs : gccSum.isSome = true) {e : Entry} :
    e ∈ (dejagnuLane stale).fails gccSum ↔
      (∃ sum ∈ gccSum, e ∈ failLines (readText sum)) ∧ signature e ∉ stale := by
  obtain ⟨sum, rfl⟩ := Option.isSome_iff_exists.mp hs
  simp [dejagnuLane, mem_extract_fail, entries_failRe (h sum rfl)]

lemma mem_of_lookup {dir : Dir} {name text : Text} (h : dir.lookup name = some text) : (name, text) ∈ dir := by
  obtain ⟨l₁, l₂, rfl, -⟩ := List.lookup_eq_some_iff.mp h
  simp

lemma mem_shSimLane {isWord : Char → Bool} {dir : Dir} (h : ∀ file ∈ dir, WellFormed (readText file.2))
    {e : Entry} :
    e ∈ (shSimLane isWord).fails dir ↔ ∃ isa ∈ isas, ∃ suite, ∃ sum ∈ sumsOf dir suite isa,
      ∃ f ∈ failLines (readText sum), Reportable isWord f ∧ withIsa isa f = e := by
  have hall (suite : Suite) : suite ∈ suites := by cases suite <;> decide
  simp only [shSimLane, ExtractShSimFailures.mem_extract_fail, Reportable]
  constructor
  · rintro ⟨isa, hisa, suite, -, sum, hsum, f, hf, hx, hexec, rfl⟩
    rw [ExtractShSimFailures.fileMatches_eq (h _ (mem_of_lookup hsum))] at hf
    exact ⟨isa, hisa, suite, sum, hsum, f, hf, ⟨hexec, hx⟩, rfl⟩
  · rintro ⟨isa, hisa, suite, sum, hsum, f, hf, ⟨hexec, hx⟩, rfl⟩
    refine ⟨isa, hisa, suite, hall suite, sum, hsum, f, ?_, hx, hexec, rfl⟩
    rwa [ExtractShSimFailures.fileMatches_eq (h _ (mem_of_lookup hsum))]

lemma testName_withIsa {isa : Text} (hisa : isa ∈ isas) {l : Text} {e : Entry} (h : FailLine l e) :
    testName (withIsa isa e) = signature (withIsa isa e) :=
  testName_of_trimmed (by simp [withIsa]) (withIsa_word hisa h.path_word) h.detail_ne h.detail_trimmed.2

lemma mem_dejagnu_delta {stale : List Text} {current good : Option Text}
    (hcurrent : ∀ sum ∈ current, WellFormed (readText sum)) (hgood : ∀ sum ∈ good, WellFormed (readText sum))
    (hcur : (dejagnuLane stale).available current = true) (hbase : (dejagnuLane stale).available good = true)
    {t : Text} :
    t ∈ (delta ((dejagnuLane stale).fails current) ((dejagnuLane stale).fails good)).map testName ↔
      (t ∉ stale ∧ DejagnuFails current t) ∧ ¬ DejagnuFails good t := by
  rw [List.mem_map]
  constructor
  · rintro ⟨e, he, rfl⟩
    obtain ⟨hin, hout⟩ := mem_delta.mp he
    obtain ⟨⟨sum, hsum, hfail⟩, hstale⟩ := (mem_dejagnuLane hcurrent hcur).mp hin
    obtain ⟨l, -, hl⟩ := mem_failLines (hcurrent sum hsum) hfail
    rw [testName_eq hl]
    refine ⟨⟨hstale, sum, hsum, e, hfail, rfl⟩, ?_⟩
    rintro ⟨sum', hsum', e', hfail', hsig⟩
    obtain ⟨l', -, hl'⟩ := mem_failLines (hgood sum' hsum') hfail'
    obtain rfl := signature_inj hl'.path_word hl.path_word hsig
    exact hout ((mem_dejagnuLane hgood hbase).mpr ⟨⟨sum', hsum', hfail'⟩, hstale⟩)
  · rintro ⟨⟨hstale, sum, hsum, e, hfail, rfl⟩, hnot⟩
    obtain ⟨l, -, hl⟩ := mem_failLines (hcurrent sum hsum) hfail
    refine ⟨e, mem_delta.mpr ⟨(mem_dejagnuLane hcurrent hcur).mpr ⟨⟨sum, hsum, hfail⟩, hstale⟩, ?_⟩,
      testName_eq hl⟩
    intro hin
    obtain ⟨⟨sum', hsum', hfail'⟩, -⟩ := (mem_dejagnuLane hgood hbase).mp hin
    exact hnot ⟨sum', hsum', e, hfail', rfl⟩

lemma mem_shSim_delta {isWord : Char → Bool} {current good : Dir}
    (hcurrent : ∀ file ∈ current, WellFormed (readText file.2))
    (hgood : ∀ file ∈ good, WellFormed (readText file.2)) {t : Text} :
    t ∈ (delta ((shSimLane isWord).fails current) ((shSimLane isWord).fails good)).map testName ↔
      ShSimFails (Reportable isWord) current t ∧ ¬ ShSimFails (fun _ => True) good t := by
  rw [List.mem_map]
  constructor
  · rintro ⟨e, he, rfl⟩
    obtain ⟨hin, hout⟩ := mem_delta.mp he
    obtain ⟨isa, hisa, suite, sum, hsum, f, hfail, hrep, rfl⟩ := (mem_shSimLane hcurrent).mp hin
    obtain ⟨l, -, hl⟩ := mem_failLines (hcurrent _ (mem_of_lookup hsum)) hfail
    rw [testName_withIsa hisa hl]
    refine ⟨⟨isa, hisa, suite, sum, hsum, f, hfail, hrep, rfl⟩, ?_⟩
    rintro ⟨isa', hisa', suite', sum', hsum', f', hfail', -, hsig⟩
    obtain ⟨l', -, hl'⟩ := mem_failLines (hgood _ (mem_of_lookup hsum')) hfail'
    have heq := signature_inj (withIsa_word hisa' hl'.path_word) (withIsa_word hisa hl.path_word) hsig
    obtain ⟨rfl, rfl⟩ := ExtractShSimFailures.withIsa_inj hisa' hisa heq
    exact hout ((mem_shSimLane hgood).mpr ⟨isa', hisa', suite', sum', hsum', f', hfail', hrep, rfl⟩)
  · rintro ⟨⟨isa, hisa, suite, sum, hsum, f, hfail, hrep, rfl⟩, hnot⟩
    obtain ⟨l, -, hl⟩ := mem_failLines (hcurrent _ (mem_of_lookup hsum)) hfail
    have hin := (mem_shSimLane hcurrent).mpr ⟨isa, hisa, suite, sum, hsum, f, hfail, hrep, rfl⟩
    refine ⟨withIsa isa f, mem_delta.mpr ⟨hin, ?_⟩, testName_withIsa hisa hl⟩
    intro hbase
    obtain ⟨isa', hisa', suite', sum', hsum', f', hfail', -, heq⟩ := (mem_shSimLane hgood).mp hbase
    exact hnot ⟨isa', hisa', suite', sum', hsum', f', hfail', trivial, by rw [heq]⟩

lemma filed_dejagnu {lanes : Lanes A B} {api : Reachable} {earlier : Lookups → List (Record A B)}
    {issues : List Issue}
    {run : Run A B} {issue : Issue} (h : act lanes api earlier issues run = .filed issue)
    (ht : issue.failureType = .dejagnu) :
    newDejagnu lanes api earlier run ≠ [] ∧
      issue.regressedTests = (newDejagnu lanes api earlier run).map testName := by
  obtain ⟨-, -, htype, htests, -⟩ := act_filed h
  rw [ht] at htype
  by_cases hs : run.buildResult = .success
  · rw [detect_success hs] at htype htests
    split at htype
    · rename_i hne
      rw [if_pos hne] at htests
      exact ⟨hne, htests⟩
    · split at htype <;> cases htype
  · exact absurd htype.symm (detect_not_success hs).2.1

lemma filed_shSim {lanes : Lanes A B} {api : Reachable} {earlier : Lookups → List (Record A B)}
    {issues : List Issue}
    {run : Run A B} {issue : Issue} (h : act lanes api earlier issues run = .filed issue)
    (ht : issue.failureType = .shSim) :
    newShSim lanes api earlier run ≠ [] ∧
      issue.regressedTests = (newShSim lanes api earlier run).map testName := by
  obtain ⟨-, -, htype, htests, -⟩ := act_filed h
  rw [ht] at htype
  by_cases hs : run.buildResult = .success
  · rw [detect_success hs] at htype htests
    split at htype
    · cases htype
    · rename_i hd
      rw [if_neg hd] at htests
      split at htype
      · rename_i hne
        rw [if_pos hne] at htests
        exact ⟨hne, htests⟩
      · cases htype
  · exact absurd htype.symm (detect_not_success hs).2.2

lemma recompute_base {C : Type} {lane : Lane C} {current : C} {base : Option C}
    (h : recompute lane current base ≠ []) :
    ∃ good, base = some good ∧ lane.available current = true ∧ lane.available good = true ∧
      recompute lane current base = delta (lane.fails current) (lane.fails good) := by
  obtain ⟨e, he⟩ := List.exists_mem_of_ne_nil _ h
  obtain ⟨hcur, -, good, rfl, hbase, -⟩ := mem_recompute he
  refine ⟨good, rfl, hcur, hbase, ?_⟩
  rw [recompute, if_pos hcur, if_pos hbase]

abbrev PastRun := WorkflowRun (Option Text) Dir
abbrev CurrentRun := Run (Option Text) Dir

def FailsNow (isWord : Char → Bool) (stale : List Text) (run : CurrentRun) : FailureType → Text → Prop
  | .dejagnu, t => t ∉ stale ∧ DejagnuFails run.dejagnu t
  | .shSim, t => ShSimFails (Reportable isWord) run.shSim t
  | _, _ => False

def FailedIn (past : PastRun) : FailureType → Text → Prop
  | .dejagnu, t => DejagnuFails past.dejagnu t
  | .shSim, t => ShSimFails (fun _ => True) past.shSim t
  | _, _ => False

def baselineRun (api : Reachable) (workflowRuns : List PastRun) : FailureType → Option PastRun
  | .dejagnu => api.dejagnu.bind (settled · workflowRuns)
  | .shSim => api.shSim.bind (settled · workflowRuns)
  | _ => none

def boundRun (api : Reachable) (workflowRuns : List PastRun) : Option PastRun :=
  api.bound.bind (settled · workflowRuns)

structure Truthful (isWord : Char → Bool) (stale : List Text) (bound : Option PastRun) (run : CurrentRun)
    (issue : Issue) : Prop where
  good : issue.goodCommit = bound.bind WorkflowRun.lastTested
  now : ∀ t ∈ issue.regressedTests, FailsNow isWord stale run issue.failureType t
  before : ∀ past ∈ bound, ∀ t ∈ issue.regressedTests, ¬ FailedIn past issue.failureType t

/-- What fails now and failed in the bound's run failed in the baseline's run too. -/
def BaselineCovers (isWord : Char → Bool) (stale : List Text) (bound baseline : Option PastRun)
    (run : CurrentRun) (type : FailureType) : Prop :=
  ∀ late ∈ bound, ∀ early ∈ baseline, ∀ t, FailsNow isWord stale run type t → FailedIn late type t →
    FailedIn early type t

lemma goodCommit_eq {isWord : Char → Bool} {stale : List Text} {api : Reachable} {workflowRuns : List PastRun}
    {issues : List Issue} {run : CurrentRun} {issue : Issue}
    (h : act (lanes isWord stale) api (gatherRuns · workflowRuns) issues run = .filed issue) :
    issue.goodCommit = (boundRun api workflowRuns).bind WorkflowRun.lastTested := by
  obtain ⟨-, -, -, -, lookups, hbound, hgood⟩ := act_filed h
  rw [hgood, main_gatherRuns, boundRun, hbound, Option.bind_some, Option.bind_map]
  rfl

lemma filed_listed {isWord : Char → Bool} {stale : List Text} {api : Reachable} {workflowRuns : List PastRun}
    {issues : List Issue} {run : CurrentRun} {issue : Issue} (hrun : SumsWellFormed run.dejagnu run.shSim)
    (hpast : ∀ past ∈ workflowRuns, SumsWellFormed past.dejagnu past.shSim)
    (hfiled : act (lanes isWord stale) api (gatherRuns · workflowRuns) issues run = .filed issue)
    (htype : issue.failureType = .dejagnu ∨ issue.failureType = .shSim) :
    ∃ early, baselineRun api workflowRuns issue.failureType = some early ∧ ∀ t, t ∈ issue.regressedTests ↔
      FailsNow isWord stale run issue.failureType t ∧ ¬ FailedIn early issue.failureType t := by
  obtain ht | ht := htype
  · obtain ⟨hne, htests⟩ := filed_dejagnu hfiled ht
    obtain ⟨good, hbase, hcur, hgood, hdelta⟩ := recompute_base hne
    obtain ⟨lookups, hapi, hmain⟩ := Option.bind_eq_some_iff.mp hbase
    rw [main_gatherRuns, Option.map_map] at hmain
    obtain ⟨early, hsettled, rfl⟩ := Option.map_eq_some_iff.mp hmain
    refine ⟨early, ?_, fun t => ?_⟩
    · rw [ht, baselineRun, hapi, Option.bind_some, hsettled]
    · rw [htests, newDejagnu, hdelta, ht]
      exact mem_dejagnu_delta hrun.dejagnu (hpast early (settled_spec hsettled).1).dejagnu hcur hgood
  · obtain ⟨hne, htests⟩ := filed_shSim hfiled ht
    obtain ⟨good, hbase, hcur, hgood, hdelta⟩ := recompute_base hne
    obtain ⟨lookups, hapi, hmain⟩ := Option.bind_eq_some_iff.mp hbase
    rw [main_gatherRuns, Option.map_map] at hmain
    obtain ⟨early, hsettled, rfl⟩ := Option.map_eq_some_iff.mp hmain
    refine ⟨early, ?_, fun t => ?_⟩
    · rw [ht, baselineRun, hapi, Option.bind_some, hsettled]
    · rw [htests, newShSim, hdelta, ht]
      exact mem_shSim_delta hrun.shSim (hpast early (settled_spec hsettled).1).shSim

theorem filed_truthful_iff (isWord : Char → Bool) (stale : List Text) (api : Reachable)
    (workflowRuns : List PastRun)
    (issues : List Issue) (run : CurrentRun) (issue : Issue) (hrun : SumsWellFormed run.dejagnu run.shSim)
    (hpast : ∀ past ∈ workflowRuns, SumsWellFormed past.dejagnu past.shSim)
    (hfiled : act (lanes isWord stale) api (gatherRuns · workflowRuns) issues run = .filed issue)
    (htype : issue.failureType = .dejagnu ∨ issue.failureType = .shSim) :
    Truthful isWord stale (boundRun api workflowRuns) run issue ↔
      BaselineCovers isWord stale (boundRun api workflowRuns)
        (baselineRun api workflowRuns issue.failureType) run issue.failureType := by
  obtain ⟨early, hearly, hlisted⟩ := filed_listed hrun hpast hfiled htype
  constructor
  · intro h late hlate early' hearly' t hnow hlateFails
    obtain rfl := Option.some.inj (hearly.symm.trans hearly')
    by_contra hnot
    exact h.before late hlate t ((hlisted t).mpr ⟨hnow, hnot⟩) hlateFails
  · intro h
    refine ⟨goodCommit_eq hfiled, fun t ht => ((hlisted t).mp ht).1, ?_⟩
    intro late hlate t ht hlateFails
    obtain ⟨hnow, hnot⟩ := (hlisted t).mp ht
    exact hnot (h late hlate early hearly t hnow hlateFails)

def pastRun : PastRun where
  id := 7
  conclusion := some .failure
  jobs := [⟨buildAndTest, some .success⟩]
  lastTested := some ⟨['a'], by decide⟩
  dejagnu := none
  shSim := [("execute-m4.sum".toList, "FAIL: a.c execution,  -O1\n".toList)]

def currentRun : CurrentRun where
  buildResult := .success
  failedStep := ""
  commit := ⟨['b'], by decide⟩
  dejagnu := some "FAIL: b.c x\n".toList
  shSim := [("execute-m4.sum".toList, "FAIL: a.c execution,  -O1\nFAIL: a.c execution,  -O2\n".toList)]

def filedIssue : Issue where
  failureType := .shSim
  failedStep := shSimStep
  regressedTests := ["m4:a.c execution,  -O2".toList]
  goodCommit := some ⟨['a'], by decide⟩
  badCommit := ⟨['b'], by decide⟩
  isOpen := true

theorem filed_truthful_iff_example :
    Truthful isAsciiWord [] (boundRun always [pastRun]) currentRun filedIssue := by
  refine (filed_truthful_iff isAsciiWord [] always [pastRun] [] currentRun filedIssue
    ⟨by decide +kernel, by decide +kernel⟩
      (List.forall_mem_singleton.mpr ⟨by decide +kernel, by decide +kernel⟩)
    (by decide +kernel) (.inr rfl)).mpr ?_
  intro late hlate early hearly t _ hfails
  have hsame : baselineRun always [pastRun] filedIssue.failureType = boundRun always [pastRun] := rfl
  rw [hsame] at hearly
  obtain rfl := Option.some.inj (hlate.symm.trans hearly)
  exact hfails

def failing : Text := "FAIL: b.c x\n".toList

def greenRun (id : ℕ) (commit : Commit) (gccSum : Text) : PastRun where
  id := id
  conclusion := some .success
  jobs := [⟨buildAndTest, some .success⟩]
  lastTested := some commit
  dejagnu := some gccSum
  shSim := []

def twoRuns : List PastRun := [greenRun 8 ⟨['c'], by decide⟩ [], greenRun 7 ⟨['a'], by decide⟩ failing]

def lookupLost : Reachable := { always with bound := some (fun id => id ≠ 8) }

def failingRun : CurrentRun where
  buildResult := .success
  failedStep := ""
  commit := ⟨['d'], by decide⟩
  dejagnu := some failing
  shSim := []

def lateIssue : Issue where
  failureType := .dejagnu
  failedStep := dejagnuStep
  regressedTests := ["b.c x".toList]
  goodCommit := some ⟨['a'], by decide⟩
  badCommit := ⟨['d'], by decide⟩
  isOpen := true

theorem filed_truthful_counterexample :
    SumsWellFormed failingRun.dejagnu failingRun.shSim ∧
      (∀ past ∈ twoRuns, SumsWellFormed past.dejagnu past.shSim) ∧
      act (lanes isAsciiWord []) lookupLost (gatherRuns · twoRuns) [] failingRun = .filed lateIssue ∧
      ¬ Truthful isAsciiWord [] (boundRun lookupLost twoRuns) failingRun lateIssue := by
  refine ⟨⟨by decide +kernel, by decide +kernel⟩, ?_, by decide +kernel, ?_⟩
  · simp only [twoRuns, List.forall_mem_cons]
    exact ⟨⟨by decide +kernel, by decide +kernel⟩, ⟨by decide +kernel, by decide +kernel⟩, fun _ h => nomatch h⟩
  · intro h
    exact h.before (greenRun 7 ⟨['a'], by decide⟩ failing) rfl "b.c x".toList List.mem_cons_self
      ⟨failing, rfl, ⟨"b.c".toList, "x".toList⟩, by decide +kernel, by decide +kernel⟩

end ShMonitor.Workflow.Filed
