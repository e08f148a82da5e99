import ShMonitor.Workflow.LastGreen
import ShMonitor.Detection.ExtractShSimFailures

/-! `sh-regression.yml`: one run of the job that detects a regression, closes or skips on the open issue,
and files a new one. -/

namespace ShMonitor.Workflow.Regression

open ShMonitor.Texts ShMonitor.Detection ExtractFailures RegressionDetect LastGreen

variable {A B : Type}

structure Lane (A : Type) where
  available : A → Bool
  fails : A → List Entry

def recompute (lane : Lane A) (current : A) (base : Option A) : List Entry :=
  let cur := if lane.available current then lane.fails current else []
  match base with
  | some b => if lane.available b then delta cur (lane.fails b) else []
  | none => []

def dejagnuLane (stale : List Text) : Lane (Option Text) where
  available gccSum := gccSum.isSome
  fails gccSum := (extract (gccSum.getD []) stale).fail

abbrev Dir := List (Text × Text)

def sumName (suite : ExtractShSimFailures.Suite) (isa : Text) : Text :=
  (match suite with
    | .execute => "execute-".toList
    | .ieee => "ieee-".toList) ++ isa ++ ".sum".toList

def sumsOf (dir : Dir) : ExtractShSimFailures.SumDir := fun suite isa => dir.lookup (sumName suite isa)

def shSimLane (isWord : Char → Bool) : Lane Dir where
  -- The `*` of a pathname does not match a leading dot.
  available dir := dir.any (fun file => decide (".sum".toList <:+ file.1 ∧ file.1.head? ≠ some '.'))
  fails dir := (ExtractShSimFailures.extract isWord (sumsOf dir)).fail

structure Lanes (A B : Type) where
  dejagnu : Lane A
  shSim : Lane B

structure Run (A B : Type) where
  buildResult : BuildResult
  failedStep : String
  commit : Commit
  dejagnu : A
  shSim : B

/-- What the API answers: whether it lists the steps of a failed job, and for each of the three calls of
`sh-lastgreen.py` the lookups that succeed, or nothing where the call or a download next to it fails. -/
structure Reachable where
  steps : Bool
  dejagnu : Option Lookups
  shSim : Option Lookups
  bound : Option Lookups

def always : Reachable := ⟨true, some (fun _ => true), some (fun _ => true), some (fun _ => true)⟩

structure Issue where
  failureType : FailureType
  failedStep : String
  regressedTests : List Text
  goodCommit : Option Commit
  badCommit : Commit
  isOpen : Bool
deriving DecidableEq

def newDejagnu (lanes : Lanes A B) (api : Reachable) (earlier : Lookups → List (Record A B)) (run : Run A B) :
    List Entry :=
  recompute lanes.dejagnu run.dejagnu
    (api.dejagnu.bind (fun lookups => (main .dejagnu (earlier lookups)).map Record.dejagnu))

def newShSim (lanes : Lanes A B) (api : Reachable) (earlier : Lookups → List (Record A B)) (run : Run A B) :
    List Entry :=
  recompute lanes.shSim run.shSim
    (api.shSim.bind (fun lookups => (main .shSim (earlier lookups)).map Record.shSim))

def stepName (steps : Bool) (run : Run A B) : String := if steps then run.failedStep else ""

def detect (lanes : Lanes A B) (api : Reachable) (earlier : Lookups → List (Record A B)) (run : Run A B) :
    Classified :=
  match run.buildResult with
  | .success =>
    classify .success "" (some (newDejagnu lanes api earlier run)) (some (newShSim lanes api earlier run))
  | .failure => classify .failure (stepName api.steps run) none none
  | result => classify result "" none none

def openIssue (issues : List Issue) : Option Issue := issues.find? Issue.isOpen

inductive Action where
  | quiet
  | closed (issue : Issue)
  | skipped
  | aborted
  | filed (issue : Issue)
deriving DecidableEq

def act (lanes : Lanes A B) (api : Reachable) (earlier : Lookups → List (Record A B)) (issues : List Issue)
    (run : Run A B) : Action :=
  let found := detect lanes api earlier run
  if found.failureType = .none then
    if run.buildResult = .success then
      match openIssue issues with
      | some issue => .closed issue
      | none => .quiet
    else .quiet
  else
    match openIssue issues with
    | some _ => .skipped
    | none =>
      match api.bound with
      | some lookups =>
        .filed ⟨found.failureType, found.failedStep, found.regressedTests,
          (main found.failureType (earlier lookups)).bind Record.commit, run.commit, true⟩
      | none => .aborted

def closeFirst : List Issue → List Issue
  | [] => []
  | issue :: issues =>
      if issue.isOpen then { issue with isOpen := false } :: issues else issue :: closeFirst issues

def update (issues : List Issue) : Action → List Issue
  | .closed _ => closeFirst issues
  | .filed issue => issue :: issues
  | _ => issues

lemma classify_success (fails shSimFails : List Entry) :
    classify .success "" (some fails) (some shSimFails) =
      if fails ≠ [] then ⟨.dejagnu, dejagnuStep, fails.map testName⟩
      else if shSimFails ≠ [] then ⟨.shSim, shSimStep, shSimFails.map testName⟩
      else ⟨.none, "", []⟩ := rfl

lemma detect_success {lanes : Lanes A B} {api : Reachable} {earlier : Lookups → List (Record A B)}
    {run : Run A B} (h : run.buildResult = .success) :
    detect lanes api earlier run =
      if newDejagnu lanes api earlier run ≠ [] then
        ⟨.dejagnu, dejagnuStep, (newDejagnu lanes api earlier run).map testName⟩
      else if newShSim lanes api earlier run ≠ [] then
        ⟨.shSim, shSimStep, (newShSim lanes api earlier run).map testName⟩
      else ⟨.none, "", []⟩ := by
  rw [detect, h]
  exact classify_success _ _

lemma detect_not_success {lanes : Lanes A B} {api : Reachable} {earlier : Lookups → List (Record A B)}
    {run : Run A B} (h : run.buildResult ≠ .success) :
    (detect lanes api earlier run).regressedTests = [] ∧
      (detect lanes api earlier run).failureType ≠ .dejagnu ∧
      (detect lanes api earlier run).failureType ≠ .shSim := by
  cases hb : run.buildResult with
  | success => exact absurd hb h
  | failure =>
    by_cases hs : stepName api.steps run = buildStep <;> simp [detect, hb, classify, hs]
  | cancelled | skipped => simp [detect, hb, classify]

lemma mem_recompute {lane : Lane A} {current : A} {base : Option A} {e : Entry}
    (h : e ∈ recompute lane current base) :
    lane.available current = true ∧ e ∈ lane.fails current ∧
      ∃ b, base = some b ∧ lane.available b = true ∧ e ∉ lane.fails b := by
  rw [recompute.eq_def] at h
  cases base with
  | none => cases h
  | some b =>
    by_cases hb : lane.available b = true
    · by_cases hc : lane.available current = true
      · simp only [hb, hc, if_true, mem_delta] at h
        exact ⟨hc, h.1, b, rfl, hb, h.2⟩
      · simp [hc, hb, delta] at h
    · simp [hb] at h

lemma act_none {lanes : Lanes A B} {api : Reachable} {earlier : Lookups → List (Record A B)}
    (issues : List Issue) {run : Run A B} (h : (detect lanes api earlier run).failureType = .none) :
    act lanes api earlier issues run =
      if run.buildResult = .success then (openIssue issues).elim .quiet .closed else .quiet := by
  simp only [act, h, if_true]
  cases openIssue issues <;> rfl

lemma act_found {lanes : Lanes A B} {api : Reachable} {earlier : Lookups → List (Record A B)}
    (issues : List Issue) {run : Run A B} (h : (detect lanes api earlier run).failureType ≠ .none) :
    act lanes api earlier issues run =
      let found := detect lanes api earlier run
      if openIssue issues ≠ none then .skipped
      else api.bound.elim .aborted (fun lookups =>
        .filed ⟨found.failureType, found.failedStep, found.regressedTests,
          (main found.failureType (earlier lookups)).bind Record.commit, run.commit, true⟩) := by
  simp only [act, if_neg h]
  cases openIssue issues <;> cases api.bound <;> rfl

lemma act_filed {lanes : Lanes A B} {api : Reachable} {earlier : Lookups → List (Record A B)}
    {issues : List Issue}
    {run : Run A B} {issue : Issue} (h : act lanes api earlier issues run = .filed issue) :
    openIssue issues = none ∧ issue.isOpen = true ∧
      issue.failureType = (detect lanes api earlier run).failureType ∧
      issue.regressedTests = (detect lanes api earlier run).regressedTests ∧
      ∃ lookups, api.bound = some lookups ∧
        issue.goodCommit = (main issue.failureType (earlier lookups)).bind Record.commit := by
  by_cases hn : (detect lanes api earlier run).failureType = .none
  · rw [act_none issues hn] at h
    split at h
    · cases ho : openIssue issues <;> simp [ho] at h
    · cases h
  · rw [act_found issues hn] at h
    dsimp only at h
    split at h
    · cases h
    · rename_i ho
      cases hb : api.bound with
      | none => simp [hb] at h
      | some lookups =>
        simp only [hb, Option.elim_some] at h
        obtain rfl := Action.filed.inj h
        exact ⟨not_ne_iff.mp ho, rfl, rfl, rfl, lookups, rfl, rfl⟩

lemma detect_none {lanes : Lanes A B} {api : Reachable} {earlier : Lookups → List (Record A B)} {run : Run A B}
    (h : run.buildResult = .success) :
    (detect lanes api earlier run).failureType = .none ↔
      newDejagnu lanes api earlier run = [] ∧ newShSim lanes api earlier run = [] := by
  rw [detect_success h]
  by_cases hd : newDejagnu lanes api earlier run = []
  · by_cases hs : newShSim lanes api earlier run = [] <;> simp [hd, hs]
  · simp [hd]

lemma act_closed {lanes : Lanes A B} {api : Reachable} {earlier : Lookups → List (Record A B)}
    {issues : List Issue} {run : Run A B} {issue : Issue} :
    act lanes api earlier issues run = .closed issue ↔
      run.buildResult = .success ∧ openIssue issues = some issue ∧
        newDejagnu lanes api earlier run = [] ∧ newShSim lanes api earlier run = [] := by
  by_cases hn : (detect lanes api earlier run).failureType = .none
  · rw [act_none issues hn]
    by_cases hs : run.buildResult = .success
    · rw [if_pos hs, ← detect_none hs]
      cases openIssue issues <;> simp [hn, hs]
    · simp [hs]
  · rw [act_found issues hn]
    refine iff_of_false ?_ ?_
    · by_cases ho : openIssue issues = none
      · cases api.bound <;> simp [ho]
      · simp [ho]
    · rintro ⟨hs, -, hd⟩
      exact hn ((detect_none hs).mpr hd)

end ShMonitor.Workflow.Regression
