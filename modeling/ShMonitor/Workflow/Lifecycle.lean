import ShMonitor.Concurrency
import ShMonitor.Runs
import ShMonitor.Workflow.Regression

/-! `sh-regression.yml` under its concurrency group. The steps of a job come between runs that end
and people who close issues, and any step can be its last. -/

namespace ShMonitor.Workflow.Lifecycle

open ShMonitor.Texts ShMonitor.Detection ExtractFailures RegressionDetect LastGreen Regression Runs Concurrency

variable {A B : Type}

inductive Phase (A B : Type) where
  | begun (run : Run A B)
  | recomputed (run : Run A B) (fails : List Entry)
  | classified (run : Run A B) (found : Classified)
  | closing (run : Run A B) (number : ℕ)
  | clear (run : Run A B) (found : Classified)
  | bounded (run : Run A B) (found : Classified) (good : Option Commit)

/-- The issues are listed newest first; an issue's number is how many are older. -/
structure Board (A B : Type) where
  finished : List (WorkflowRun A B)
  issues : List Issue
  jobs : Group (Phase A B) (Run A B)

inductive Event (A B : Type) where
  | queued (run : Run A B)
  | concluded (run : WorkflowRun A B)
  | step (answer : Option Lookups) (unfinished : ℕ)
  | die
  | dismissed (number : ℕ)

/-- What `_gather_runs` gets, where runs that have not finished take up a part of the page. -/
def page (finished : List (WorkflowRun A B)) (unfinished : ℕ) (lookups : Lookups) : List (Record A B) :=
  gatherRuns lookups (finished.take (perPage - unfinished))

def openNumber : List Issue → Option ℕ
  | [] => none
  | issue :: older => if issue.isOpen then some older.length else openNumber older

def closeNumber (number : ℕ) : List Issue → List Issue
  | [] => []
  | issue :: older =>
    if older.length = number then { issue with isOpen := false } :: older else issue :: closeNumber number older

def issueOf (run : Run A B) (found : Classified) (good : Option Commit) : Issue :=
  ⟨found.failureType, found.failedStep, found.regressedTests, good, run.commit, true⟩

def classifyBroken (steps : Bool) (run : Run A B) : Classified :=
  match run.buildResult with
  | .failure => classify .failure (stepName steps run) none none
  | result => classify result "" none none

def proceed (lanes : Lanes A B) (earlier : Lookups → List (Record A B)) (issues : List Issue)
    (answer : Option Lookups) :
    Phase A B → Option (Phase A B) × List Issue
  | .begun run =>
    if run.buildResult = .success then
      (some (.recomputed run (newDejagnu lanes ⟨false, answer, none, none⟩ earlier run)), issues)
    -- `gh api ... || echo '{}'`: without an answer the name of the step is empty.
    else (some (.classified run (classifyBroken answer.isSome run)), issues)
  | .recomputed run fails =>
    (some (.classified run (classify .success "" (some fails)
      (some (newShSim lanes ⟨false, none, answer, none⟩ earlier run)))), issues)
  | .classified run found =>
    if found.failureType = .none then
      if run.buildResult = .success ∧ answer.isSome then ((openNumber issues).map (.closing run), issues)
      else (none, issues)
    else if answer.isSome ∧ openNumber issues = none then (some (.clear run found), issues)
    else (none, issues)
  | .closing _ number => (none, if answer.isSome then closeNumber number issues else issues)
  | .clear run found =>
    (answer.map (fun lookups =>
      .bounded run found ((main found.failureType (earlier lookups)).bind Record.commit)),
      issues)
  | .bounded run found good => (none, if answer.isSome then issueOf run found good :: issues else issues)

def next (lanes : Lanes A B) (b : Board A B) : Event A B → Board A B
  | .queued run => { b with jobs := b.jobs.request .begun run }
  | .concluded run => { b with finished := run :: b.finished }
  | .step answer unfinished =>
    match b.jobs.running with
    | none => b
    | some phase =>
      let (phase', issues) := proceed lanes (page b.finished unfinished) b.issues answer phase
      { b with issues := issues, jobs := b.jobs.proceed .begun phase' }
  | .die => { b with jobs := b.jobs.proceed .begun none }
  | .dismissed number => { b with issues := closeNumber number b.issues }

def start (finished : List (WorkflowRun A B)) : Board A B := ⟨finished, [], Group.idle⟩

inductive Notice where
  | report (issue : Issue)
  | green
  | dismissed

def hear : Option Issue → Notice → Option Issue
  | none, .report issue => some issue
  | some issue, .report _ => some issue
  | _, .green => none
  | _, .dismissed => none

def notices (b : Board A B) : Event A B → List Notice
  | .step (some _) _ =>
    match b.jobs.running with
    | some (.bounded run found good) => [.report (issueOf run found good)]
    | some (.closing _ number) => if openNumber b.issues = some number then [.green] else []
    | _ => []
  | .dismissed number => if openNumber b.issues = some number then [.dismissed] else []
  | _ => []

def opened (b : Board A B) : List Issue := b.issues.filter Issue.isOpen

def Clear : Phase A B → Prop
  | .clear _ _ => True
  | .bounded _ _ _ => True
  | _ => False

structure Inv (b : Board A B) : Prop where
  single : (opened b).length ≤ 1
  clear : ∀ phase ∈ b.jobs.running, Clear phase → opened b = []

lemma openNumber_eq_none {issues : List Issue} :
    openNumber issues = none ↔ issues.filter Issue.isOpen = [] := by
  induction issues with
  | nil => simp [openNumber]
  | cons issue older ih =>
    rw [openNumber, List.filter_cons]
    cases issue.isOpen with
    | true => simp
    | false => simpa using ih

lemma openNumber_lt {issues : List Issue} {number : ℕ} (h : openNumber issues = some number) :
    number < issues.length := by
  induction issues with
  | nil => cases h
  | cons issue older ih =>
    rw [openNumber] at h
    rw [List.length_cons]
    split at h
    · obtain rfl := Option.some.inj h
      omega
    · have hlt := ih h
      omega

lemma closeNumber_closed (number : ℕ) {issues : List Issue} (h : issues.filter Issue.isOpen = []) :
    closeNumber number issues = issues := by
  induction issues with
  | nil => rfl
  | cons issue older ih =>
    obtain ⟨type, step, tests, good, bad, isOpen⟩ := issue
    cases isOpen with
    | true => simp at h
    | false =>
      rw [List.filter_cons_of_neg Bool.false_ne_true] at h
      rw [closeNumber, ih h, ite_self]

lemma opened_closeNumber (number : ℕ) {issues : List Issue} (h : (issues.filter Issue.isOpen).length ≤ 1) :
    (closeNumber number issues).filter Issue.isOpen =
      if openNumber issues = some number then [] else issues.filter Issue.isOpen := by
  induction issues with
  | nil => simp [closeNumber]
  | cons issue older ih =>
    rw [closeNumber, openNumber]
    by_cases ho : issue.isOpen = true
    · rw [List.filter_cons_of_pos ho, List.length_cons] at h
      have holder : older.filter Issue.isOpen = [] := List.eq_nil_of_length_eq_zero (by omega)
      by_cases hn : older.length = number
      · simp [hn, ho, holder]
      · simp [hn, ho, holder, closeNumber_closed number holder]
    · rw [List.filter_cons_of_neg ho] at h ⊢
      rw [if_neg ho]
      by_cases hn : older.length = number
      · have hnot : openNumber older ≠ some number := fun hsome => by
          have hlt := openNumber_lt hsome
          omega
        simp [hn, hnot]
      · rw [if_neg hn, List.filter_cons_of_neg ho, ih h]

variable {lanes : Lanes A B} {b : Board A B}

lemma Inv.opened_eq (h : Inv b) : opened b = (opened b).head?.toList := by
  rcases hopen : opened b with _ | ⟨issue, _ | ⟨other, rest⟩⟩
  · rfl
  · rfl
  · have hlen := h.single
    rw [hopen, List.length_cons, List.length_cons] at hlen
    omega

lemma opened_close (h : Inv b) (number : ℕ) (notice : Notice) (hhear : ∀ found, hear found notice = none) :
    (closeNumber number b.issues).filter Issue.isOpen =
      ((if openNumber b.issues = some number then [notice] else []).foldl hear (opened b).head?).toList := by
  rw [opened_closeNumber number h.single]
  split
  · rw [List.foldl_cons, List.foldl_nil, hhear]
    rfl
  · exact h.opened_eq

def Reading : Phase A B → Prop
  | .closing _ _ => False
  | .bounded _ _ _ => False
  | _ => True

lemma proceed_reading {phase : Phase A B} (h : Reading phase) (earlier : Lookups → List (Record A B))
    (issues : List Issue) (answer : Option Lookups) :
    (proceed lanes earlier issues answer phase).2 = issues := by
  cases phase with
  | begun run =>
    rw [proceed]
    split <;> rfl
  | recomputed run fails => rfl
  | classified run found =>
    rw [proceed]
    split
    · split <;> rfl
    · split <;> rfl
  | clear run found => rfl
  | closing run number => exact h.elim
  | bounded run found good => exact h.elim

lemma notices_reading {phase : Phase A B} (h : Reading phase) (hb : b.jobs.running = some phase)
    (answer : Option Lookups) (unfinished : ℕ) : notices b (.step answer unfinished) = [] := by
  cases answer with
  | none => rfl
  | some lookups =>
    rw [notices, hb]
    cases phase with
    | closing run number => exact h.elim
    | bounded run found good => exact h.elim
    | _ => rfl

lemma opened_proceed (h : Inv b) (answer : Option Lookups) (unfinished : ℕ)
    (earlier : Lookups → List (Record A B)) {phase : Phase A B} (hb : b.jobs.running = some phase) :
    (proceed lanes earlier b.issues answer phase).2.filter Issue.isOpen =
      ((notices b (.step answer unfinished)).foldl hear (opened b).head?).toList := by
  by_cases hr : Reading phase
  · rw [proceed_reading hr, notices_reading hr hb]
    exact h.opened_eq
  · cases answer with
    | none =>
      have hissues : (proceed lanes earlier b.issues none phase).2 = b.issues := by
        cases phase with
        | closing run number => rfl
        | bounded run found good => rfl
        | _ => exact (hr trivial).elim
      rw [hissues]
      exact h.opened_eq
    | some lookups =>
      cases phase with
      | closing run number =>
        have hn : notices b (.step (some lookups) unfinished) =
            if openNumber b.issues = some number then [.green] else [] := by
          rw [notices, hb]
        rw [hn]
        exact opened_close h number .green (fun found => by cases found <;> rfl)
      | bounded run found good =>
        have hnone : opened b = [] := h.clear _ hb trivial
        have hn : notices b (.step (some lookups) unfinished) = [.report (issueOf run found good)] := by
          rw [notices, hb]
        have hfiled : (proceed lanes earlier b.issues (some lookups) (.bounded run found good)).2.filter
          Issue.isOpen =
            issueOf run found good :: opened b := List.filter_cons_of_pos rfl
        rw [hn, hfiled, hnone]
        rfl
      | _ => exact (hr trivial).elim

lemma opened_next (h : Inv b) (event : Event A B) :
    opened (next lanes b event) = ((notices b event).foldl hear (opened b).head?).toList := by
  cases event with
  | step answer unfinished =>
    cases hb : b.jobs.running with
    | none =>
      have hnext : next lanes b (.step answer unfinished) = b := by rw [next, hb]
      have hquiet : notices b (.step answer unfinished) = [] := by
        cases answer with
        | none => rfl
        | some lookups => rw [notices, hb]
      rw [hnext, hquiet]
      exact h.opened_eq
    | some phase =>
      have hnext : (next lanes b (.step answer unfinished)).issues =
          (proceed lanes (page b.finished unfinished) b.issues answer phase).2 := by
        rw [next, hb]
      rw [opened, hnext]
      exact opened_proceed h answer unfinished _ hb
  | dismissed number => exact opened_close h number .dismissed (fun found => by cases found <;> rfl)
  | queued run | concluded record | die => exact h.opened_eq

lemma clear_proceed (h : Inv b) (answer : Option Lookups) {earlier : Lookups → List (Record A B)}
    {phase phase' : Phase A B} (hb : b.jobs.running = some phase)
    (hp : phase' ∈ (proceed lanes earlier b.issues answer phase).1) (hclear : Clear phase') :
    opened b = [] := by
  cases phase with
  | begun run =>
    rw [proceed] at hp
    split at hp <;> obtain rfl := Option.some.inj hp <;> exact hclear.elim
  | recomputed run fails =>
    obtain rfl := Option.some.inj hp
    exact hclear.elim
  | classified run found =>
    rw [proceed] at hp
    split at hp
    · split at hp
      · obtain ⟨number, -, rfl⟩ := Option.map_eq_some_iff.mp hp
        exact hclear.elim
      · cases hp
    · split at hp
      · rename_i hnone
        exact openNumber_eq_none.mp hnone.2
      · cases hp
  | closing run number => cases hp
  | clear run found => exact h.clear _ hb trivial
  | bounded run found good => cases hp

lemma inv_next (event : Event A B) (h : Inv b) : Inv (next lanes b event) := by
  have hsingle : (opened (next lanes b event)).length ≤ 1 := by
    rw [opened_next h]
    exact Option.length_toList_le
  refine ⟨hsingle, ?_⟩
  intro phase hp hclear
  cases event with
  | queued run =>
    rcases Group.mem_settle hp with hp | ⟨-, run', -, rfl⟩
    · exact h.clear phase hp hclear
    · exact hclear.elim
  | concluded record => exact h.clear phase hp hclear
  | step answer unfinished =>
    cases hb : b.jobs.running with
    | none =>
      have hnext : next lanes b (.step answer unfinished) = b := by rw [next, hb]
      rw [hnext] at hp ⊢
      exact h.clear phase hp hclear
    | some started =>
      rw [next, hb] at hp
      rcases Group.mem_settle hp with hp' | ⟨-, run', -, rfl⟩
      · have hreading : Reading started := by
          cases started with
          | closing run number => cases hp'
          | bounded run found good => cases hp'
          | _ => trivial
        have hnone := clear_proceed h answer hb hp' hclear
        rw [opened_next h, notices_reading hreading hb, hnone]
        rfl
      · exact hclear.elim
  | die =>
    rcases Group.mem_settle hp with hp | ⟨-, run', -, rfl⟩
    · cases hp
    · exact hclear.elim
  | dismissed number =>
    have hnone := h.clear phase hp hclear
    rw [opened, next, closeNumber_closed number hnone]
    exact hnone

lemma inv_start (finished : List (WorkflowRun A B)) : Inv (start finished) where
  single := Nat.zero_le 1
  clear := fun _ hp => nomatch hp

theorem one_issue (lanes : Lanes A B) (finished : List (WorkflowRun A B)) (events : List (Event A B)) :
    opened (after (next lanes) (start finished) events) =
      ((observed (next lanes) notices (start finished) events).foldl hear none).toList := by
  have hinv : Inv (after (next lanes) (start finished) events) :=
    invariant_always Inv (fun _ event h => inv_next event h) (inv_start finished) events
  have hstep : ∀ (b : Board A B) (event : Event A B), Inv b →
      (opened (next lanes b event)).head? = (notices b event).foldl hear (opened b).head? := by
    intro b event h
    rw [opened_next h]
    cases (notices b event).foldl hear (opened b).head? <;> rfl
  have hseen := seen_after Inv (fun b => (opened b).head?)
    (fun _ event h => inv_next event h) hstep (inv_start finished)
    events
  rw [hinv.opened_eq, hseen]
  rfl

def arrival : Event A B → Option (Run A B)
  | .queued run => some run
  | _ => none

def Fresh {C : Type} (lane : Lane C) (results : WorkflowRun A B → C) (finished : List (WorkflowRun A B))
    (current : C) (t : Text) : Prop :=
  ∃ e ∈ lane.fails current, testName e = t ∧
    ∃ past ∈ finished, builtGreen past = true ∧ lane.available (results past) = true ∧
      e ∉ lane.fails (results past)

structure Found (lanes : Lanes A B) (finished : List (WorkflowRun A B)) (run : Run A B) (found : Classified) :
    Prop where
  broken : run.buildResult ≠ .success → ∃ steps, found = classifyBroken steps run
  tested : run.buildResult = .success → found.failureType ≠ .none → found.regressedTests ≠ []
  dejagnu : run.buildResult = .success → found.failureType ≠ .shSim →
    ∀ t ∈ found.regressedTests, Fresh lanes.dejagnu WorkflowRun.dejagnu finished run.dejagnu t
  shSim : run.buildResult = .success → found.failureType = .shSim →
    ∀ t ∈ found.regressedTests, Fresh lanes.shSim WorkflowRun.shSim finished run.shSim t

def Green (finished : List (WorkflowRun A B)) (commit : Commit) : Prop :=
  ∃ past ∈ finished, builtGreen past = true ∧ past.lastTested = some commit

structure Justified (lanes : Lanes A B) (finished : List (WorkflowRun A B)) (issue : Issue) (run : Run A B) :
    Prop where
  commit : issue.badCommit = run.commit
  found : Found lanes finished run ⟨issue.failureType, issue.failedStep, issue.regressedTests⟩
  regression : issue.failureType ≠ .none
  good : ∀ commit ∈ issue.goodCommit, Green finished commit

def runOf : Phase A B → Run A B
  | .begun run => run
  | .recomputed run _ => run
  | .classified run _ => run
  | .closing run _ => run
  | .clear run _ => run
  | .bounded run _ _ => run

def Kept (lanes : Lanes A B) (finished : List (WorkflowRun A B)) : Phase A B → Prop
  | .begun _ => True
  | .recomputed run fails =>
    run.buildResult = .success ∧
      ∀ e ∈ fails, Fresh lanes.dejagnu WorkflowRun.dejagnu finished run.dejagnu (testName e)
  | .classified run found => Found lanes finished run found
  | .closing _ _ => True
  | .clear run found => Found lanes finished run found ∧ found.failureType ≠ .none
  | .bounded run found good =>
    Found lanes finished run found ∧ found.failureType ≠ .none ∧ ∀ commit ∈ good, Green finished commit

variable {finished : List (WorkflowRun A B)} {run : Run A B}

lemma main_page {failureType : FailureType} {unfinished : ℕ} {lookups : Lookups} {record : Record A B}
    (h : main failureType (page finished unfinished lookups) = some record) :
    ∃ past ∈ finished, builtGreen past = true ∧ record = greenRecord past := by
  rw [page, main_gatherRuns] at h
  obtain ⟨past, hsettled, rfl⟩ := Option.map_eq_some_iff.mp h
  obtain ⟨hmem, hgreen, -⟩ := settled_spec hsettled
  exact ⟨past, List.mem_of_mem_take hmem, hgreen, rfl⟩

section

variable {finished' : List (WorkflowRun A B)} (hsub : ∀ past ∈ finished, past ∈ finished')
include hsub

lemma Fresh.mono {C : Type} {lane : Lane C} {results : WorkflowRun A B → C} {current : C} {t : Text}
    (h : Fresh lane results finished current t) : Fresh lane results finished' current t := by
  obtain ⟨e, he, ht, good, hgood, hrest⟩ := h
  exact ⟨e, he, ht, good, hsub good hgood, hrest⟩

lemma Green.mono {commit : Commit} (h : Green finished commit) : Green finished' commit := by
  obtain ⟨good, hgood, hrest⟩ := h
  exact ⟨good, hsub good hgood, hrest⟩

lemma Found.mono {found : Classified} (h : Found lanes finished run found) :
    Found lanes finished' run found where
  broken := h.broken
  tested := h.tested
  dejagnu hs ht t hmem := (h.dejagnu hs ht t hmem).mono hsub
  shSim hs ht t hmem := (h.shSim hs ht t hmem).mono hsub

lemma Justified.mono {issue : Issue} (h : Justified lanes finished issue run) :
    Justified lanes finished' issue run where
  commit := h.commit
  found := h.found.mono hsub
  regression := h.regression
  good commit hc := (h.good commit hc).mono hsub

lemma Kept.mono {phase : Phase A B} (h : Kept lanes finished phase) : Kept lanes finished' phase := by
  cases phase with
  | begun run => trivial
  | recomputed run fails => exact ⟨h.1, fun e he => (h.2 e he).mono hsub⟩
  | classified run found => exact Found.mono hsub h
  | closing run number => trivial
  | clear run found => exact ⟨h.1.mono hsub, h.2⟩
  | bounded run found good => exact ⟨h.1.mono hsub, h.2.1, fun commit hc => (h.2.2 commit hc).mono hsub⟩

end

lemma fresh_recompute {C : Type} {lane : Lane C} {results : WorkflowRun A B → C} {field : Record A B → C}
    {current : C}
    (hfield : ∀ past, field (greenRecord past) = results past) {failureType : FailureType} {unfinished : ℕ}
    {answer : Option Lookups} {e : Entry}
    (h : e ∈ recompute lane current
      (answer.bind (fun lookups => (main failureType (page finished unfinished lookups)).map field))) :
    Fresh lane results finished current (testName e) := by
  obtain ⟨-, he, base, hbase, havailable, hnot⟩ := mem_recompute h
  obtain ⟨lookups, -, hmain⟩ := Option.bind_eq_some_iff.mp hbase
  obtain ⟨record, hrecord, rfl⟩ := Option.map_eq_some_iff.mp hmain
  obtain ⟨past, hmem, hgreen, rfl⟩ := main_page hrecord
  rw [hfield] at havailable hnot
  exact ⟨e, he, rfl, past, hmem, hgreen, havailable, hnot⟩

lemma found_tested {fails simFails : List Entry} (hs : run.buildResult = .success)
    (hfails : ∀ e ∈ fails, Fresh lanes.dejagnu WorkflowRun.dejagnu finished run.dejagnu (testName e))
    (hsim : ∀ e ∈ simFails, Fresh lanes.shSim WorkflowRun.shSim finished run.shSim (testName e)) :
    Found lanes finished run (classify .success "" (some fails) (some simFails)) := by
  rw [classify_success]
  by_cases hd : fails = []
  · rw [if_neg (not_not.mpr hd)]
    by_cases hss : simFails = []
    · rw [if_neg (not_not.mpr hss)]
      exact ⟨fun h => absurd hs h, fun _ h => absurd rfl h, fun _ _ t ht => (nomatch ht), fun _ h => nomatch h⟩
    · rw [if_pos hss]
      refine ⟨fun h => absurd hs h, fun _ _ => by simpa using hss, fun _ h => absurd rfl h, ?_⟩
      intro _ _ t ht
      obtain ⟨e, he, rfl⟩ := List.mem_map.mp ht
      exact hsim e he
  · rw [if_pos hd]
    refine ⟨fun h => absurd hs h, fun _ _ => by simpa using hd, ?_, fun _ h => nomatch h⟩
    intro _ _ t ht
    obtain ⟨e, he, rfl⟩ := List.mem_map.mp ht
    exact hfails e he

lemma kept_proceed (unfinished : ℕ) (issues : List Issue) (answer : Option Lookups) {phase phase' : Phase A B}
    (h : Kept lanes finished phase)
    (hp : phase' ∈ (proceed lanes (page finished unfinished) issues answer phase).1) :
    runOf phase' = runOf phase ∧ Kept lanes finished phase' := by
  cases phase with
  | begun run =>
    rw [proceed] at hp
    split at hp
    · rename_i hs
      obtain rfl := Option.some.inj hp
      exact ⟨rfl, hs, fun e he => fresh_recompute (fun _ => rfl) he⟩
    · rename_i hs
      obtain rfl := Option.some.inj hp
      exact ⟨rfl, fun _ => ⟨_, rfl⟩, fun h => absurd h hs, fun h => absurd h hs, fun h => absurd h hs⟩
  | recomputed run fails =>
    obtain rfl := Option.some.inj hp
    exact ⟨rfl, found_tested h.1 h.2 (fun e he => fresh_recompute (fun _ => rfl) he)⟩
  | classified run found =>
    rw [proceed] at hp
    split at hp
    · split at hp
      · obtain ⟨number, -, rfl⟩ := Option.map_eq_some_iff.mp hp
        exact ⟨rfl, trivial⟩
      · cases hp
    · rename_i htype
      split at hp
      · obtain rfl := Option.some.inj hp
        exact ⟨rfl, h, htype⟩
      · cases hp
  | closing run number => cases hp
  | clear run found =>
    obtain ⟨lookups, -, rfl⟩ := Option.map_eq_some_iff.mp hp
    refine ⟨rfl, h.1, h.2, ?_⟩
    intro commit hc
    obtain ⟨record, hmain, hcommit⟩ := Option.bind_eq_some_iff.mp hc
    obtain ⟨past, hmem, hgreen, rfl⟩ := main_page hmain
    exact ⟨past, hmem, hgreen, hcommit⟩
  | bounded run found good => cases hp

lemma justified_closeNumber {issues : List Issue} {runs : List (Run A B)} (number : ℕ)
    (h : List.Forall₂ (Justified lanes finished) issues runs) :
    List.Forall₂ (Justified lanes finished) (closeNumber number issues) runs := by
  induction h with
  | nil => exact .nil
  | cons hhead htail ih =>
    rw [closeNumber]
    split
    · exact .cons ⟨hhead.commit, hhead.found, hhead.regression, hhead.good⟩ htail
    · exact .cons hhead ih

def jobRuns (b : Board A B) : List (Run A B) := b.jobs.held runOf id

structure Ledger (lanes : Lanes A B) (b : Board A B) (past : List (Run A B)) (runs : List (Run A B)) :
    Prop where
  order : (jobRuns b ++ runs).Sublist past
  filed : List.Forall₂ (Justified lanes b.finished) b.issues runs
  kept : ∀ phase ∈ b.jobs.running, Kept lanes b.finished phase

lemma runOf_begun (run : Run A B) : runOf (.begun run) = id run := rfl

lemma kept_settle {jobs : Group (Phase A B) (Run A B)} (h : ∀ phase ∈ jobs.running, Kept lanes finished phase) :
    ∀ phase ∈ (jobs.settle .begun).running, Kept lanes finished phase := by
  intro phase hp
  rcases Group.mem_settle hp with hp | ⟨-, run, -, rfl⟩
  · exact h phase hp
  · trivial

lemma kept_over (jobs : Group (Phase A B) (Run A B)) :
    ∀ phase ∈ (jobs.proceed .begun none).running, Kept lanes finished phase :=
  kept_settle (fun _ hp => nomatch hp)

variable {past runs : List (Run A B)}

lemma ledger_proceed (h : Ledger lanes b past runs) (answer : Option Lookups) (unfinished : ℕ)
    {phase : Phase A B} (hb : b.jobs.running = some phase) :
    ∃ runs', Ledger lanes
      { b with
        issues := (proceed lanes (page b.finished unfinished) b.issues answer phase).2
        jobs := b.jobs.proceed .begun (proceed lanes (page b.finished unfinished) b.issues answer phase).1
          } past runs' := by
  have hkept := h.kept phase hb
  have horder : ((b.jobs.waiting.map id).toList ++ runOf phase :: runs).Sublist past := by
    have ho := h.order
    rw [jobRuns, Group.held, hb, List.append_assoc] at ho
    exact ho
  have hshort : ((b.jobs.waiting.map id).toList ++ runs).Sublist past :=
    ((List.sublist_cons_self _ _).append_left _).trans horder
  by_cases hr : Reading phase
  · refine ⟨runs, ?_, ?_, kept_settle (fun phase' hp => (kept_proceed unfinished b.issues answer hkept hp).2)⟩
    · rw [jobRuns, Group.held_proceed runOf_begun, List.append_assoc]
      cases hp : (proceed lanes (page b.finished unfinished) b.issues answer phase).1 with
      | none => exact hshort
      | some phase' =>
        rw [Option.map_some, (kept_proceed unfinished b.issues answer hkept hp).1]
        exact horder
    · rw [proceed_reading hr]
      exact h.filed
  · cases phase with
    | closing run number =>
      refine ⟨runs, ?_, ?_, kept_over b.jobs⟩
      · rw [jobRuns, Group.held_proceed runOf_begun, List.append_assoc]
        exact hshort
      · cases answer with
        | some lookups => exact justified_closeNumber number h.filed
        | none => exact h.filed
    | bounded run found good =>
      cases answer with
      | none =>
        refine ⟨runs, ?_, h.filed, kept_over b.jobs⟩
        rw [jobRuns, Group.held_proceed runOf_begun, List.append_assoc]
        exact hshort
      | some lookups =>
        refine ⟨run :: runs, ?_, ?_, kept_over b.jobs⟩
        · rw [jobRuns, Group.held_proceed runOf_begun, List.append_assoc]
          exact horder
        · exact .cons ⟨rfl, hkept.1, hkept.2.1, hkept.2.2⟩ h.filed
    | _ => exact (hr trivial).elim

lemma ledger_next (h : Ledger lanes b past runs) (event : Event A B) :
    ∃ runs', Ledger lanes (next lanes b event) ((arrival event).toList ++ past) runs' := by
  cases event with
  | queued run =>
    refine ⟨runs, ?_, h.filed, kept_settle h.kept⟩
    rw [next, jobRuns, Group.held_request runOf_begun]
    exact (((Group.running_sublist b.jobs).append_right runs).trans h.order).cons_cons run
  | concluded run =>
    have hsub : ∀ past ∈ b.finished, past ∈ (next lanes b (.concluded run)).finished :=
      fun past hp => List.mem_cons_of_mem run hp
    exact ⟨runs, h.order, h.filed.imp (fun _ _ hj => hj.mono hsub), fun phase hp => (h.kept phase hp).mono hsub⟩
  | step answer unfinished =>
    cases hb : b.jobs.running with
    | none =>
      have hnext : next lanes b (.step answer unfinished) = b := by rw [next, hb]
      rw [hnext]
      exact ⟨runs, h⟩
    | some phase =>
      obtain ⟨runs', hl⟩ := ledger_proceed h answer unfinished hb
      refine ⟨runs', ?_⟩
      rw [next, hb]
      exact hl
  | die =>
    refine ⟨runs, ?_, h.filed, kept_over b.jobs⟩
    rw [next, jobRuns, Group.held_proceed runOf_begun, List.append_assoc]
    exact ((Group.waiting_sublist b.jobs).append_right runs).trans h.order
  | dismissed number => exact ⟨runs, h.order, justified_closeNumber number h.filed, h.kept⟩

lemma ledger_after (h : Ledger lanes b past runs) (events : List (Event A B)) :
    ∃ runs', Ledger lanes (after (next lanes) b events) ((events.filterMap arrival).reverse ++ past) runs' := by
  induction events generalizing b past runs with
  | nil => exact ⟨runs, h⟩
  | cons event events ih =>
    obtain ⟨runs', hl⟩ := ledger_next h event
    have hpast : ((event :: events).filterMap arrival).reverse ++ past =
        (events.filterMap arrival).reverse ++ ((arrival event).toList ++ past) := by
      rw [filterMap_cons_toList, List.reverse_append, List.append_assoc]
      cases arrival event <;> rfl
    rw [hpast]
    exact ih hl

lemma run_of_issue {issues : List Issue} (h : List.Forall₂ (Justified lanes finished) issues runs)
    {issue : Issue} (hissue : issue ∈ issues) : ∃ run ∈ runs, Justified lanes finished issue run := by
  induction h with
  | nil => cases hissue
  | @cons issue' run issues runs hhead htail ih =>
    rcases List.mem_cons.mp hissue with rfl | hissue
    · exact ⟨run, List.mem_cons_self, hhead⟩
    · obtain ⟨run', hrun', hjustified⟩ := ih hissue
      exact ⟨run', List.mem_cons_of_mem run hrun', hjustified⟩

lemma mem_finished {run : WorkflowRun A B} {events : List (Event A B)}
    (h : run ∈ (after (next lanes) b events).finished) : run ∈ b.finished ∨ .concluded run ∈ events := by
  induction events generalizing b with
  | nil => exact Or.inl h
  | cons event events ih =>
    rcases ih h with hnow | hlater
    · cases event with
      | concluded old =>
        rcases List.mem_cons.mp hnow with rfl | hnow
        · exact Or.inr List.mem_cons_self
        · exact Or.inl hnow
      | step answer unfinished =>
        left
        rw [next] at hnow
        split at hnow <;> exact hnow
      | queued run' | die | dismissed number => exact Or.inl hnow
    · exact Or.inr (List.mem_cons_of_mem event hlater)

section

variable (finished : List (WorkflowRun A B)) (unfinished : ℕ) (issues : List Issue) (run : Run A B)

def answered : Option Lookups := some (fun _ => true)

lemma answered_isSome : answered.isSome = true := rfl

lemma step_alone (phase : Phase A B) :
    next lanes ⟨finished, issues, ⟨some phase, none⟩⟩ (.step answered unfinished) =
      { finished := finished
        issues := (proceed lanes (page finished unfinished) issues answered phase).2
        jobs := ⟨(proceed lanes (page finished unfinished) issues answered phase).1, none⟩ } := by
  simp only [next, Group.proceed, Group.settle]
  cases (proceed lanes (page finished unfinished) issues answered phase).1 <;> rfl

lemma step_idle :
    next lanes ⟨finished, issues, ⟨none, none⟩⟩ (.step answered unfinished) =
      ⟨finished, issues, ⟨none, none⟩⟩ := rfl

lemma closeNumber_first {issues : List Issue} {number : ℕ} (h : openNumber issues = some number) :
    closeNumber number issues = closeFirst issues := by
  induction issues with
  | nil => cases h
  | cons issue older ih =>
    rw [openNumber] at h
    rw [closeNumber, closeFirst]
    split at h
    · rename_i ho
      rw [if_pos ho, if_pos (Option.some.inj h)]
    · rename_i ho
      have hlt := openNumber_lt h
      rw [if_neg ho, if_neg (by omega), ih h]

lemma openNumber_none {issues : List Issue} : openNumber issues = none ↔ openIssue issues = none := by
  rw [openNumber_eq_none, openIssue, List.find?_eq_none, List.filter_eq_nil_iff]

lemma after_classified :
    after (next lanes)
        ⟨finished, issues, ⟨some (.classified run (detect lanes always (page finished unfinished) run)), none⟩⟩
        (List.replicate 3 (.step answered unfinished)) =
      ⟨finished, update issues (act lanes always (page finished unfinished) issues run), .idle⟩ := by
  simp only [after, List.replicate, List.foldl_cons, List.foldl_nil]
  rw [step_alone, proceed]
  by_cases hn : (detect lanes always (page finished unfinished) run).failureType = .none
  · rw [act_none issues hn, if_pos hn]
    by_cases hs : run.buildResult = .success
    · rw [if_pos ⟨hs, rfl⟩, if_pos hs]
      cases hnum : openNumber issues with
      | none =>
        rw [Option.map_none, step_idle, step_idle, openNumber_none.mp hnum]
        rfl
      | some number =>
        have hopen : openIssue issues ≠ none := fun hnone => by
          rw [openNumber_none.mpr hnone] at hnum
          cases hnum
        obtain ⟨issue, hissue⟩ := Option.ne_none_iff_exists'.mp hopen
        rw [Option.map_some, step_alone, proceed, step_idle, hissue, if_pos answered_isSome,
          closeNumber_first hnum]
        rfl
    · rw [if_neg (fun h => hs h.1), if_neg hs, step_idle, step_idle]
      rfl
  · rw [act_found issues hn, if_neg hn]
    by_cases ho : openIssue issues = none
    · rw [if_pos ⟨rfl, openNumber_none.mpr ho⟩, step_alone, proceed, answered, Option.map_some,
        ← answered, step_alone, proceed, if_pos answered_isSome]
      simp only [ho, ne_eq, not_true_eq_false, if_false]
      rfl
    · rw [if_neg (fun h => ho (openNumber_none.mp h.2)), step_idle, step_idle]
      simp only [ne_eq, ho, not_false_eq_true, if_true]
      rfl

lemma begun_tested (hs : run.buildResult = .success) :
    after (next lanes) ⟨finished, issues, ⟨some (.begun run), none⟩⟩
      (List.replicate 2 (.step answered unfinished)) =
      ⟨finished, issues, ⟨some (.classified run (detect lanes always (page finished unfinished) run)),
        none⟩⟩ := by
  simp only [after, List.replicate, List.foldl_cons, List.foldl_nil]
  rw [step_alone, proceed, if_pos hs, step_alone, proceed, detect, hs]
  rfl

lemma begun_broken (hs : run.buildResult ≠ .success) :
    next lanes ⟨finished, issues, ⟨some (.begun run), none⟩⟩ (.step answered unfinished) =
      ⟨finished, issues, ⟨some (.classified run (detect lanes always (page finished unfinished) run)),
        none⟩⟩ := by
  rw [step_alone, proceed, if_neg hs, detect]
  cases hb : run.buildResult with
  | success => exact absurd hb hs
  | failure =>
    simp only [classifyBroken, hb]
    rfl
  | cancelled | skipped => simp only [classifyBroken, hb]

theorem undisturbed (lanes : Lanes A B) :
    after (next lanes) ⟨finished, issues, .idle⟩ (.queued run :: List.replicate 5 (.step answered unfinished)) =
      ⟨finished, update issues (act lanes always (page finished unfinished) issues run), .idle⟩ := by
  have hqueued : next lanes ⟨finished, issues, .idle⟩ (.queued run) =
    ⟨finished, issues, ⟨some (.begun run), none⟩⟩ := rfl
  have hrest := @after_classified A B lanes finished unfinished issues run
  rw [after] at hrest
  rw [after, List.foldl_cons, hqueued]
  by_cases hs : run.buildResult = .success
  · have htwo := @begun_tested A B lanes finished unfinished issues run hs
    have hsplit := List.replicate_add 2 3 (Event.step answered unfinished : Event A B)
    rw [after] at htwo
    rw [hsplit, List.foldl_append, htwo, hrest]
  · have hone := @begun_broken A B lanes finished unfinished issues run hs
    have hsplit := List.replicate_add 3 1 (Event.step answered unfinished : Event A B)
    rw [List.replicate_succ, hsplit, List.foldl_cons, List.foldl_append, hone, hrest]
    rfl

end

end ShMonitor.Workflow.Lifecycle
