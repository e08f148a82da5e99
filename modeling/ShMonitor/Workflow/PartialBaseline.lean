import ShMonitor.Workflow.Filed

/-! The sh-sim comparison of `sh-regression.yml` with a baseline that lacks some of its six sum files. -/

namespace ShMonitor.Workflow.PartialBaseline

open ShMonitor.Texts ShMonitor.Detection Regression Filed
open ExtractFailures (Entry)
open RegressionDetect (delta mem_delta)
open ExtractShSimFailures (Suite isas suites fileMatches withIsa withIsa_inj mem_extract_fail extract
  isAsciiWord)

variable (isWord : Char → Bool) (current baseline : Dir)

def ReportedBy (dir : Dir) (suite : Suite) (isa : Text) (f : Entry) : Prop :=
  ∃ sum, sumsOf dir suite isa = some sum ∧ f ∈ fileMatches sum ∧ Reportable isWord f

def newFails : List Entry :=
  delta (extract isWord (sumsOf current)).fail (extract isWord (sumsOf baseline)).fail

def NothingFabricated : Prop :=
  ∀ isa ∈ isas, ∀ suite, sumsOf baseline suite isa = none → ∀ f, ReportedBy isWord current suite isa f →
    withIsa isa f ∉ newFails isWord current baseline

def Covered : Prop :=
  ∀ isa ∈ isas, ∀ suite, sumsOf baseline suite isa = none → ∀ f, ReportedBy isWord current suite isa f →
    ∃ other, ReportedBy isWord baseline other isa f

variable {isWord current baseline}

lemma mem_extract_withIsa {dir : Dir} {isa : Text} (hisa : isa ∈ isas) {f : Entry} :
    withIsa isa f ∈ (extract isWord (sumsOf dir)).fail ↔ ∃ suite, ReportedBy isWord dir suite isa f := by
  have hall (suite : Suite) : suite ∈ suites := by cases suite <;> decide
  rw [mem_extract_fail]
  constructor
  · rintro ⟨isa', hisa', suite, -, sum, hsum, f', hf, hx, hexec, he⟩
    obtain ⟨rfl, rfl⟩ := withIsa_inj hisa' hisa he
    exact ⟨suite, sum, hsum, hf, hexec, hx⟩
  · rintro ⟨suite, sum, hsum, hf, hexec, hx⟩
    exact ⟨isa, hisa, suite, hall suite, sum, hsum, f, hf, hx, hexec, rfl⟩

lemma available_of_sumsOf {dir : Dir} {suite : Suite} {isa sum : Text} (h : sumsOf dir suite isa = some sum) :
    (shSimLane isWord).available dir = true := by
  have hdot : (sumName suite isa).head? ≠ some '.' := by
    intro hd
    have hfirst : (sumName suite isa).head? = some 'e' ∨ (sumName suite isa).head? = some 'i' := by
      cases suite with
      | execute => exact .inl rfl
      | ieee => exact .inr rfl
    rw [hd] at hfirst
    revert hfirst
    decide
  have hsum : ".sum".toList <:+ sumName suite isa := List.suffix_append _ _
  have hfile : (sumName suite isa, sum) ∈ dir := mem_of_lookup h
  simp only [shSimLane, List.any_eq_true, decide_eq_true_eq]
  exact ⟨_, hfile, hsum, hdot⟩

lemma fails_of_not_available {dir : Dir} (h : (shSimLane isWord).available dir ≠ true) :
    (shSimLane isWord).fails dir = [] := by
  apply List.eq_nil_iff_forall_not_mem.mpr
  intro e he
  obtain ⟨isa, -, suite, -, sum, hsum, -⟩ := mem_extract_fail.mp he
  exact h (available_of_sumsOf hsum)

lemma recompute_eq (hbase : (shSimLane isWord).available baseline = true) :
    recompute (shSimLane isWord) current (some baseline) = newFails isWord current baseline := by
  rw [recompute, if_pos hbase]
  by_cases hcur : (shSimLane isWord).available current = true
  · rw [if_pos hcur]
    rfl
  · rw [if_neg hcur, ← fails_of_not_available hcur]
    rfl

variable (isWord current baseline) in
theorem nothingFabricated_iff :
    ((shSimLane isWord).available baseline = true →
      recompute (shSimLane isWord) current (some baseline) = newFails isWord current baseline) ∧
    (NothingFabricated isWord current baseline ↔ Covered isWord current baseline) := by
  refine ⟨recompute_eq, ?_⟩
  have hmem {isa : Text} (hisa : isa ∈ isas) {suite : Suite} {f : Entry}
      (hf : ReportedBy isWord current suite isa f) :
      withIsa isa f ∉ newFails isWord current baseline ↔ ∃ other, ReportedBy isWord baseline other isa f := by
    rw [newFails, mem_delta, mem_extract_withIsa hisa, mem_extract_withIsa hisa]
    exact ⟨fun h => by_contra (fun hn => h ⟨⟨suite, hf⟩, hn⟩), fun h hn => hn.2 h⟩
  constructor
  · intro h isa hisa suite habsent f hf
    exact (hmem hisa hf).mp (h isa hisa suite habsent f hf)
  · intro h isa hisa suite habsent f hf
    exact (hmem hisa hf).mpr (h isa hisa suite habsent f hf)

def cutShort : Dir := [("execute-m2.sum".toList, "PASS: a.c execution test\n".toList)]

def complete : Dir := cutShort ++ [("execute-m4.sum".toList, "FAIL: a.c execution test\n".toList)]

theorem nothingFabricated_counterexample :
    (shSimLane isAsciiWord).available cutShort = true ∧
      ¬ NothingFabricated isAsciiWord complete cutShort := by
  refine ⟨by decide +kernel, ?_⟩
  intro h
  refine h "m4".toList (by decide +kernel) .execute (by decide +kernel) ⟨"a.c".toList, "execution test".toList⟩
    ⟨"FAIL: a.c execution test\n".toList,
      by decide +kernel, by decide +kernel, by decide +kernel, by decide +kernel⟩ ?_
  decide +kernel

end ShMonitor.Workflow.PartialBaseline
