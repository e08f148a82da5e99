import ShMonitor.Detection.RegressionDetect

/-! `sh-lastgreen.py`: the earlier run that serves as the last-green bound. A run carries its
dejagnu and sh-sim artifacts (`A` and `B`). `main` hands no tests to `pick_good_run`, and a check
that passes every run. A lookup of the state file that fails counts as a missing commit, and every
call of the script looks each run up anew. -/

namespace ShMonitor.Workflow.LastGreen

open ShMonitor.Texts ShMonitor.Detection.RegressionDetect

variable {A B : Type}

/-- An empty commit counts as a missing one throughout. -/
abbrev Commit := {sha : Text // sha ≠ []}

def commitOf (t : Text) : Option Commit := if h : t = [] then none else some ⟨t, h⟩

@[simp] lemma commitOf_nil : commitOf [] = none := rfl

lemma commitOf_val (c : Commit) : commitOf c.1 = some c := dif_neg c.2

lemma val_of_commitOf {t : Text} {c : Commit} (h : commitOf t = some c) : c.1 = t := by
  rw [commitOf] at h
  split at h
  · cases h
  · rw [← Option.some.inj h]

inductive Conclusion where
  | success
  | failure
  | neutral
  | cancelled
  | skipped
  | timedOut
  | actionRequired
deriving DecidableEq, Repr

structure Job where
  name : Text
  conclusion : Option Conclusion

def buildAndTest : Text := "build-and-test".toList

structure WorkflowRun (A B : Type) where
  id : ℕ
  conclusion : Option Conclusion
  jobs : List Job
  lastTested : Option Commit
  dejagnu : A
  shSim : B

structure Record (A B : Type) where
  runId : ℕ
  buildSuccess : Bool
  commit : Option Commit
  dejagnu : A
  shSim : B

def perPage : ℕ := 50

/-- The runs, by id, whose state file one call gets to read. -/
abbrev Lookups := ℕ → Bool

def annotate (lookups : Lookups) (run : WorkflowRun A B) : Option (Record A B) :=
  if run.conclusion = none ∨ run.conclusion = some .cancelled then none
  else
    (run.jobs.find? (fun j => j.name = buildAndTest)).map fun bt =>
      ⟨run.id, bt.conclusion = some .success, if lookups run.id then run.lastTested else none,
        run.dejagnu, run.shSim⟩

def gatherRuns (lookups : Lookups) (workflowRuns : List (WorkflowRun A B)) : List (Record A B) :=
  (workflowRuns.take perPage).filterMap (annotate lookups)

def pickGoodRun (runs : List (Record A B)) (failureType : FailureType) (regressedTests : List Text)
    (isTestPassing : Record A B → Bool) : Option (Record A B) :=
  match runs with
  | [] => none
  | r :: runs =>
    if ¬ r.buildSuccess then pickGoodRun runs failureType regressedTests isTestPassing
    else if r.commit = none then pickGoodRun runs failureType regressedTests isTestPassing
    else if failureType = .dejagnu ∧ ¬ isTestPassing r then
      pickGoodRun runs failureType regressedTests isTestPassing
    else some r

def main (failureType : FailureType) (runs : List (Record A B)) : Option (Record A B) :=
  pickGoodRun runs failureType [] (fun _ => true)

lemma main_cons (failureType : FailureType) (r : Record A B) (runs : List (Record A B)) :
    main failureType (r :: runs) =
      if r.buildSuccess = true ∧ r.commit ≠ none then some r else main failureType runs := by
  rw [main, pickGoodRun]
  by_cases hb : r.buildSuccess = true
  · by_cases hc : r.commit = none <;> simp [hb, hc, main]
  · simp [hb, main]

lemma main_eq_find (failureType : FailureType) (runs : List (Record A B)) :
    main failureType runs = runs.find? (fun r => decide (r.buildSuccess = true ∧ r.commit ≠ none)) := by
  induction runs with
  | nil => rfl
  | cons r runs ih =>
    rw [main_cons, List.find?_cons, ih]
    by_cases h : r.buildSuccess = true ∧ r.commit ≠ none <;> simp [h]

lemma main_failureType (type type' : FailureType) (runs : List (Record A B)) :
    main type runs = main type' runs := by
  rw [main_eq_find, main_eq_find]

lemma annotate_eq {lookups : Lookups} {run : WorkflowRun A B} {r : Record A B}
    (h : annotate lookups run = some r) :
    r.runId = run.id ∧ r.commit = (if lookups run.id then run.lastTested else none) ∧ r.dejagnu = run.dejagnu ∧
      r.shSim = run.shSim := by
  rw [annotate] at h
  split at h
  · cases h
  · obtain ⟨bt, -, rfl⟩ := Option.map_eq_some_iff.mp h
    exact ⟨rfl, rfl, rfl, rfl⟩

def builtGreen (run : WorkflowRun A B) : Bool :=
  run.conclusion ≠ none ∧ run.conclusion ≠ some .cancelled ∧
    (run.jobs.find? (fun j => j.name = buildAndTest)).any (fun bt => bt.conclusion = some .success)

def settled (lookups : Lookups) (workflowRuns : List (WorkflowRun A B)) : Option (WorkflowRun A B) :=
  (workflowRuns.take perPage).find? (fun run => builtGreen run ∧ lookups run.id ∧ run.lastTested ≠ none)

lemma annotate_green (lookups : Lookups) (run : WorkflowRun A B) :
    (annotate lookups run).any (fun r => decide (r.buildSuccess = true ∧ r.commit ≠ none)) =
      decide (builtGreen run ∧ lookups run.id ∧ run.lastTested ≠ none) := by
  rw [annotate, builtGreen]
  by_cases hover : run.conclusion = none ∨ run.conclusion = some .cancelled
  · have hnot : ¬ (run.conclusion ≠ none ∧ run.conclusion ≠ some .cancelled) := fun h => hover.elim h.1 h.2
    rw [if_pos hover, Option.any_none]
    simp [← and_assoc, hnot]
  · obtain ⟨hnone, hcancelled⟩ := not_or.mp hover
    rw [if_neg hover]
    cases hjob : run.jobs.find? (fun j => j.name = buildAndTest) with
    | none => simp
    | some bt =>
      cases hl : lookups run.id <;> simp [hnone, hcancelled]

lemma settled_spec {lookups : Lookups} {workflowRuns : List (WorkflowRun A B)} {run : WorkflowRun A B}
    (h : settled lookups workflowRuns = some run) :
    run ∈ workflowRuns ∧ builtGreen run = true ∧ lookups run.id = true ∧ run.lastTested ≠ none := by
  rw [settled] at h
  have hmem := List.mem_of_mem_take (List.mem_of_find?_eq_some h)
  have hfound := List.find?_some h
  exact ⟨hmem, of_decide_eq_true hfound⟩

def greenRecord (run : WorkflowRun A B) : Record A B := ⟨run.id, true, run.lastTested, run.dejagnu, run.shSim⟩

lemma annotate_settled {lookups : Lookups} {workflowRuns : List (WorkflowRun A B)} {run : WorkflowRun A B}
    (h : settled lookups workflowRuns = some run) : annotate lookups run = some (greenRecord run) := by
  obtain ⟨-, hgreen, hlookup, hcommit⟩ := settled_spec h
  have hany := annotate_green lookups run
  rw [decide_eq_true ⟨hgreen, hlookup, hcommit⟩] at hany
  obtain ⟨r, hr, hr'⟩ := (Option.any_eq_true _ _).mp hany
  obtain ⟨hid, hc, hd, hs⟩ := annotate_eq hr
  rw [if_pos hlookup] at hc
  have hb := (of_decide_eq_true hr').1
  obtain ⟨runId, buildSuccess, commit, dejagnu, shSim⟩ := r
  simp only at hid hc hd hs hb
  rw [hr, hid, hb, hc, hd, hs, greenRecord]

lemma main_gatherRuns (failureType : FailureType) (lookups : Lookups) (workflowRuns : List (WorkflowRun A B)) :
    main failureType (gatherRuns lookups workflowRuns) = (settled lookups workflowRuns).map greenRecord := by
  have hmain : main failureType (gatherRuns lookups workflowRuns) =
      (settled lookups workflowRuns).bind (annotate lookups) := by
    rw [main_eq_find, gatherRuns, List.find?_filterMap, settled]
    simp only [annotate_green]
  rw [hmain]
  cases hs : settled lookups workflowRuns with
  | none => rfl
  | some run => exact annotate_settled hs

end ShMonitor.Workflow.LastGreen
