import ShMonitor.Detection.ExtractFailures

/-! `sh-dejagnu-delta.py` and `sh-regression-detect.py`: the failures that are new against a baseline,
and what kind of regression a run shows. -/

namespace ShMonitor.Detection.RegressionDetect

open ShMonitor.Texts ExtractFailures

def delta (current baseline : List Entry) : List Entry := current.filter (fun e => decide (e ∉ baseline))

inductive BuildResult where
  | success
  | failure
  | cancelled
  | skipped
deriving DecidableEq, Repr

inductive FailureType where
  | build
  | script
  | dejagnu
  | shSim
  | none
deriving DecidableEq, Repr

structure Classified where
  failureType : FailureType
  failedStep : String
  regressedTests : List Text
deriving DecidableEq, Repr

def buildStep : String := "Build cross GCC"
def dejagnuStep : String := "Run dejagnu sh.exp"
def shSimStep : String := "Run sh-sim torture (execute slice + ieee, m2/m2a/m4)"

def testName (e : Entry) : Text := strip (signature e)

def classify (buildResult : BuildResult) (failedStep : String)
    (failures shSimFailures : Option (List Entry)) : Classified :=
  match buildResult with
  | .failure =>
    if failedStep = buildStep then ⟨.build, failedStep, []⟩ else ⟨.script, failedStep, []⟩
  | .success =>
    let fails := failures.getD []
    let shSimFails := shSimFailures.getD []
    if fails ≠ [] then ⟨.dejagnu, dejagnuStep, fails.map testName⟩
    else if shSimFails ≠ [] then ⟨.shSim, shSimStep, shSimFails.map testName⟩
    else ⟨.none, "", []⟩
  | _ => ⟨.none, "", []⟩

lemma mem_delta {current baseline : List Entry} {e : Entry} :
    e ∈ delta current baseline ↔ e ∈ current ∧ e ∉ baseline := by
  simp [delta]

lemma delta_eq_nil {current baseline : List Entry} :
    delta current baseline = [] ↔ ∀ e ∈ current, e ∈ baseline := by
  simp [delta, List.filter_eq_nil_iff]

lemma mem_extract_fail {sum : Text} {stale : List Text} {e : Entry} :
    e ∈ (extract sum stale).fail ↔ e ∈ entries failRe (readText sum) ∧ signature e ∉ stale := by
  simp [extract, partition]

lemma testName_append {e : Entry} (hne : e.path ≠ []) (hw : ∀ c ∈ e.path, nonSpace c = true) :
    testName e = e.path ++ rstrip (' ' :: e.detail) := by
  have hdrop : (signature e).dropWhile isSpace = signature e := by
    cases hx : e.path with
    | nil => exact absurd hx hne
    | cons c t => simp [signature, hx, nonSpace_iff.mp (hw c (by simp [hx]))]
  rw [testName, strip, hdrop]
  apply rstrip_append_of_last
  intro c hc
  exact nonSpace_iff.mp (hw c (List.mem_of_getLast? hc))

lemma testName_of_trimmed {e : Entry} (hne : e.path ≠ []) (hw : ∀ c ∈ e.path, nonSpace c = true)
    (hd : e.detail ≠ []) (ht : ∀ c ∈ e.detail.getLast?, isSpace c = false) : testName e = signature e := by
  rw [testName_append hne hw, signature, rstrip_of_last]
  intro c hc
  rw [List.getLast?_cons, List.getLast?_eq_getLast_of_ne_nil hd, Option.getD_some] at hc
  exact ht c (by rw [List.getLast?_eq_getLast_of_ne_nil hd]; exact hc)

lemma testName_eq {l : Text} {e : Entry} (h : FailLine l e) : testName e = signature e :=
  testName_of_trimmed h.path_ne h.path_word h.detail_ne h.detail_trimmed.2

lemma delta_extract {current baseline : Text} {stale : List Text} (hc : WellFormed (readText current))
    (hb : WellFormed (readText baseline)) :
    delta (extract current stale).fail (extract baseline stale).fail =
      (failLines (readText current)).filter
        (fun e => decide (signature e ∉ stale ∧ e ∉ failLines (readText baseline))) := by
  have hf : (extract current stale).fail =
      (failLines (readText current)).filter (fun e => decide (signature e ∉ stale)) := by
    simp [extract, partition, entries_failRe hc]
  rw [delta, hf, List.filter_filter]
  apply List.filter_congr
  intro e _
  simp only [mem_extract_fail, entries_failRe hb, decide_not, Bool.decide_and]
  by_cases hs : signature e ∈ stale <;> simp [hs]

theorem classify_wellFormed (baseline current : Text) (stale : List Text) (failedStep : String)
    (shSimFailures : Option (List Entry)) (hb : WellFormed (readText baseline))
    (hc : WellFormed (readText current)) (hs : shSimFailures.getD [] = []) :
    let detect := classify .success failedStep
      (some (delta (extract current stale).fail (extract baseline stale).fail)) shSimFailures
    detect.regressedTests = ((failLines (readText current)).filter
        (fun e => decide (signature e ∉ stale ∧ e ∉ failLines (readText baseline)))).map signature ∧
      detect.failureType = if detect.regressedTests = [] then .none else .dejagnu := by
  have hnames : (delta (extract current stale).fail (extract baseline stale).fail).map testName =
      ((failLines (readText current)).filter
        (fun e => decide (signature e ∉ stale ∧ e ∉ failLines (readText baseline)))).map signature := by
    rw [delta_extract hc hb]
    apply List.map_congr_left
    intro e he
    obtain ⟨l, -, hl⟩ := mem_failLines hc (List.mem_filter.mp he).1
    exact testName_eq hl
  rw [← hnames]
  cases hd : delta (extract current stale).fail (extract baseline stale).fail with
  | nil => simp [classify, hs]
  | cons e es => simp [classify]

theorem classify_wellFormed_example :
    (classify .success "" (some (delta
      (extract "FAIL: a.c x\nXFAIL: b.c y\nFAIL: b.c \t(z) 1\nFAIL: c.c w\n".toList ["c.c w".toList]).fail
      (extract "FAIL: a.c x\n".toList ["c.c w".toList]).fail)) none).regressedTests = ["b.c (z) 1".toList] := by
  have h := classify_wellFormed "FAIL: a.c x\n".toList
    "FAIL: a.c x\nXFAIL: b.c y\nFAIL: b.c \t(z) 1\nFAIL: c.c w\n".toList ["c.c w".toList] "" none
    (by decide) (by decide) rfl
  exact h.1.trans (by decide)

end ShMonitor.Detection.RegressionDetect
