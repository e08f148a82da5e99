import ShMonitor.Bisect.ShSim

/-! Whose results the sums of `run-sh-sim.sh` are: its runs of the test suites share one `gcc.sum`, which
nothing clears. A sum remembers the suite and ISA of the make that wrote it, if it was one of this
invocation; the steps of a run are its suites and ISAs in order, with what each make does. -/

namespace ShMonitor.Bisect.OwnSums

open ShMonitor.Texts ShMonitor.Detection
open ExtractShSimFailures (Suite suites SumDir)
open ShSim (SimRun State selector runSuites runShSim isaWords)

structure Step where
  suite : Suite
  isa : Text
  make : Option Text
  copy : Bool

structure Sum where
  text : Text
  maker : Option (Suite × Text)

structure Write where
  suite : Suite
  isa : Text
  sum : Sum

def Step.pair (step : Step) : Suite × Text := (step.suite, step.isa)

def Step.sum (step : Step) : Option Sum := step.make.map (fun text => ⟨text, some step.pair⟩)

lemma Step.sum_none {step : Step} (h : step.make = none) : step.sum = none := by
  rw [Step.sum, h]
  rfl

lemma Step.sum_some {step : Step} {text : Text} (h : step.make = some text) :
    step.sum = some ⟨text, some step.pair⟩ := by
  rw [Step.sum, h]
  rfl

def runSteps : List Step → Option Sum → List Write
  | [], _ => []
  | step :: rest, there =>
    match step.sum.or there with
    | none => runSteps rest none
    | some sum => if step.copy then ⟨step.suite, step.isa, sum⟩ :: runSteps rest (some sum) else []

structure Outcome where
  make : Option Text
  copy : Bool

def pairsOf (isas : List Text) : List (Suite × Text) :=
  isas.flatMap fun isa => suites.map fun suite => (suite, isa)

def stepsOf (isas : List Text) (outcomes : ℕ → Outcome) : List Step :=
  (pairsOf isas).mapIdx fun n p => ⟨p.1, p.2, (outcomes n).make, (outcomes n).copy⟩

def found (initial : Option Text) : Option Sum := initial.map (fun text => ⟨text, none⟩)

def writes (ready : Bool) (isas : List Text) (outcomes : ℕ → Outcome) (initial : Option Text) : List Write :=
  if ready then runSteps (stepsOf isas outcomes) (found initial) else []

def sumAfter (there : Option Sum) (before : List Step) : Option Sum :=
  before.foldl (fun there step => step.sum.or there) there

def Copies (there : Option Sum) (before : List Step) : Prop :=
  ∀ first step later, before = first ++ step :: later → (sumAfter there (first ++ [step])).isSome →
    step.copy = true

lemma sumAfter_append (there : Option Sum) (before : List Step) (step : Step) :
    sumAfter there (before ++ [step]) = step.sum.or (sumAfter there before) := by
  rw [sumAfter, List.foldl_append]
  rfl

lemma copies_cons {there : Option Sum} {step : Step} {before : List Step} :
    Copies there (step :: before) ↔ ((step.sum.or there).isSome → step.copy = true) ∧
      Copies (step.sum.or there) before := by
  constructor
  · intro h
    refine ⟨h [] step before rfl, fun first other later hsplit => ?_⟩
    exact h (step :: first) other later (by rw [hsplit]; rfl)
  · rintro ⟨hstep, hrest⟩ first other later hsplit
    cases first with
    | nil =>
      obtain ⟨rfl, -⟩ := List.cons.inj hsplit
      exact hstep
    | cons head first =>
      obtain ⟨rfl, htail⟩ := List.cons.inj hsplit
      exact hrest first other later htail

lemma mem_runSteps {w : Write} {steps : List Step} {there : Option Sum} :
    w ∈ runSteps steps there ↔ ∃ before step later sum, steps = before ++ step :: later ∧ Copies there before ∧
      step.copy = true ∧ step.sum.or (sumAfter there before) = some sum ∧ w = ⟨step.suite, step.isa, sum⟩ := by
  induction steps generalizing there with
  | nil => simp [runSteps]
  | cons step rest ih =>
    have hcons : (∃ before other later sum, step :: rest = before ++ other :: later ∧ Copies there before ∧
        other.copy = true ∧ other.sum.or (sumAfter there before) = some sum ∧
          w = ⟨other.suite, other.isa, sum⟩) ↔
        (step.copy = true ∧ ∃ sum, step.sum.or there = some sum ∧ w = ⟨step.suite, step.isa, sum⟩) ∨
          ((step.sum.or there).isSome → step.copy = true) ∧ w ∈ runSteps rest (step.sum.or there) := by
      rw [ih]
      constructor
      · rintro ⟨before, other, later, sum, hsplit, hcopies, hcopy, hsum, hw⟩
        cases before with
        | nil =>
          obtain ⟨rfl, -⟩ := List.cons.inj hsplit
          exact Or.inl ⟨hcopy, sum, hsum, hw⟩
        | cons head before =>
          obtain ⟨rfl, htail⟩ := List.cons.inj hsplit
          obtain ⟨hhead, hrest⟩ := copies_cons.mp hcopies
          exact Or.inr ⟨hhead, before, other, later, sum, htail, hrest, hcopy, hsum, hw⟩
      · rintro (⟨hcopy, sum, hsum, hw⟩ | ⟨hstep, before, other, later, sum, hsplit, hcopies, hcopy, hsum, hw⟩)
        · exact ⟨[], step, rest, sum, rfl, by rintro (_ | _) _ _ ⟨⟩, hcopy, hsum, hw⟩
        · exact ⟨step :: before, other, later,
            sum, by rw [hsplit]; rfl, copies_cons.mpr ⟨hstep, hcopies⟩, hcopy, hsum, hw⟩
    rw [hcons, runSteps]
    cases step.sum.or there with
    | none => simp
    | some sum =>
      cases step.copy with
      | true => simp
      | false => simp

def lastMade (before : List Step) : Option Step := before.reverse.find? (fun step => step.make.isSome)

lemma sumAfter_eq (there : Option Sum) (before : List Step) :
    sumAfter there before = ((lastMade before).bind Step.sum).or there := by
  induction before using List.reverseRecOn with
  | nil => rfl
  | append_singleton before step ih =>
    rw [sumAfter_append, lastMade, List.reverse_append, List.reverse_singleton, List.singleton_append,
      List.find?_cons]
    cases hmake : step.make with
    | none =>
      rw [Step.sum_none hmake, Option.none_or]
      exact ih
    | some text =>
      show step.sum.or _ = step.sum.or there
      rw [Step.sum_some hmake]
      rfl

lemma lastMade_made {before : List Step} {made : Step} (h : lastMade before = some made) :
    ∃ text, made.sum = some ⟨text, some made.pair⟩ := by
  have hmade : made.make.isSome = true := List.find?_some (p := fun step : Step => step.make.isSome) h
  obtain ⟨text, htext⟩ := Option.isSome_iff_exists.mp hmade
  exact ⟨text, Step.sum_some htext⟩

lemma sumAfter_isSome {initial : Option Text} {before : List Step} :
    (sumAfter (found initial) before).isSome ↔ initial.isSome ∨ ∃ made ∈ before, made.make.isSome := by
  induction before using List.reverseRecOn with
  | nil => simp [sumAfter, found]
  | append_singleton before step ih =>
    rw [sumAfter_append, Option.isSome_or, Bool.or_eq_true, ih]
    simp only [Step.sum, Option.isSome_map, List.mem_append, List.mem_singleton, or_and_right, exists_or,
      exists_eq_left]
    exact or_comm.trans or_assoc

def Reached (initial : Option Text) (before : List Step) : Prop :=
  ∀ first step later, before = first ++ step :: later →
    (initial.isSome ∨ ∃ made ∈ first ++ [step], made.make.isSome) → step.copy = true

def FindsOwn (initial : Option Text) (before : List Step) (step : Step) : Prop :=
  (lastMade before).elim (initial = none) (fun made => made.pair = step.pair)

lemma copies_iff_reached {initial : Option Text} {before : List Step} :
    Copies (found initial) before ↔ Reached initial before := by
  rw [Copies, Reached]
  simp only [sumAfter_isSome]

lemma findsOwn_iff {initial : Option Text} {before : List Step} {step : Step} :
    FindsOwn initial before step ↔ ∀ sum, sumAfter (found initial) before = some sum →
      sum.maker = some step.pair := by
  rw [sumAfter_eq, FindsOwn]
  cases hlast : lastMade before with
  | none => cases initial <;> simp [found]
  | some made =>
    obtain ⟨text, htext⟩ := lastMade_made hlast
    simp [htext]

theorem ownSums_iff (ready : Bool) (isas : List Text) (outcomes : ℕ → Outcome) (initial : Option Text) :
    (∀ w ∈ writes ready isas outcomes initial, w.sum.maker = some (w.suite, w.isa)) ↔
      (ready = true → ∀ before step later, stepsOf isas outcomes = before ++ step :: later →
        Reached initial before →
        step.make = none → step.copy = true → FindsOwn initial before step) := by
  cases ready with
  | false => simp [writes]
  | true =>
    have hwrites : writes true isas outcomes initial = runSteps (stepsOf isas outcomes) (found initial) := rfl
    simp only [hwrites, mem_runSteps, copies_iff_reached, findsOwn_iff, true_implies]
    constructor
    · intro h before step later hsplit hreached hmake hcopy sum hsum
      have hfinds : step.sum.or (sumAfter (found initial) before) = some sum := by
        rw [Step.sum_none hmake, Option.none_or, hsum]
      exact h ⟨step.suite, step.isa, sum⟩ ⟨before, step, later, sum, hsplit, hreached, hcopy, hfinds, rfl⟩
    · rintro h w ⟨before, step, later, sum, hsplit, hreached, hcopy, hsum, rfl⟩
      cases hmake : step.make with
      | none =>
        rw [Step.sum_none hmake, Option.none_or] at hsum
        exact h before step later hsplit hreached hmake hcopy sum hsum
      | some text =>
        rw [Step.sum_some hmake, Option.some_or, Option.some.injEq] at hsum
        rw [← hsum]
        rfl

def store (dir : SumDir) (w : Write) : SumDir :=
  Function.update dir w.suite (Function.update (dir w.suite) w.isa (some w.sum.text))

def stepOf (r : SimRun) (glob : Text) (p : Suite × Text) : Step :=
  ⟨p.1, p.2, r.make p.1 p.2 (selector p.1 glob), r.copy p.1 p.2⟩

def outcomesOf (r : SimRun) (glob : Text) (isas : List Text) (n : ℕ) : Outcome :=
  (pairsOf isas)[n]?.elim ⟨none, true⟩ (fun p => ⟨(stepOf r glob p).make, (stepOf r glob p).copy⟩)

lemma runSuites_steps (r : SimRun) (glob : Text) (pairs : List (Suite × Text)) (s : State) {there : Option Sum}
    (hthere : there.map Sum.text = s.treeSum) :
    (runSuites r glob pairs s).1 = (runSteps (pairs.map (stepOf r glob)) there).map
      (fun w => (w.suite, w.isa)) ∧
      (runSuites r glob pairs s).2.sums = (runSteps (pairs.map (stepOf r glob)) there).foldl store s.sums := by
  induction pairs generalizing s there with
  | nil => exact ⟨rfl, rfl⟩
  | cons p pairs ih =>
    have hsame : (((stepOf r glob p).sum.or there).map Sum.text) =
        (r.make p.1 p.2 (selector p.1 glob)).or s.treeSum := by
      rw [← hthere]
      show ((Option.map _ (r.make p.1 p.2 (selector p.1 glob))).or there).map Sum.text = _
      cases r.make p.1 p.2 (selector p.1 glob) with
      | none => rfl
      | some text => rfl
    rw [runSuites, List.map_cons, runSteps]
    cases hsum : (stepOf r glob p).sum.or there with
    | none =>
      rw [hsum] at hsame
      rw [← hsame]
      exact ih s (Option.or_eq_none_iff.mp hsame.symm).2.symm
    | some sum =>
      rw [hsum] at hsame
      rw [← hsame]
      show _ ∧ _
      by_cases hcopy : r.copy p.1 p.2 = true
      · have hstep : (stepOf r glob p).copy = true := hcopy
        simp only [Option.map_some, if_pos hcopy, if_pos hstep, List.map_cons, List.foldl_cons]
        have hcopied : (some sum).map Sum.text = some sum.text := rfl
        obtain ⟨hwritten, hsums⟩ := ih ⟨store s.sums ⟨p.1, p.2, sum⟩, some sum.text⟩ hcopied
        exact ⟨congrArg (List.cons p) hwritten, hsums⟩
      · have hstep : ¬ (stepOf r glob p).copy = true := hcopy
        simp only [Option.map_some, if_neg hcopy, if_neg hstep]
        exact ⟨rfl, rfl⟩

lemma stepsOf_outcomesOf (r : SimRun) (glob : Text) (isas : List Text) :
    stepsOf isas (outcomesOf r glob isas) = (pairsOf isas).map (stepOf r glob) := by
  refine List.ext_getElem (by simp [stepsOf]) ?_
  intro n hn hn'
  have hlength : n < (pairsOf isas).length := by simpa using hn'
  simp [stepsOf, outcomesOf, hlength, stepOf]

theorem runShSim_writes (pathnames : Text → List Text) (r : SimRun) (isa glob : Text) (s : State) :
    let written := writes r.ready (isaWords pathnames isa)
      (outcomesOf r glob (isaWords pathnames isa)) s.treeSum
    (runShSim pathnames r isa glob s).1 = written.map (fun w => (w.suite, w.isa)) ∧
      (runShSim pathnames r isa glob s).2.sums = written.foldl store s.sums := by
  show _ ∧ _
  rw [runShSim, writes]
  cases r.ready with
  | false => exact ⟨rfl, rfl⟩
  | true =>
    rw [if_pos rfl, if_pos rfl, stepsOf_outcomesOf]
    have hfound : (found s.treeSum).map Sum.text = s.treeSum := by cases s.treeSum <;> rfl
    exact runSuites_steps r glob _ s hfound

def executeSum : Text := "FAIL: gcc.c-torture/execute/a.c   -O2  execution test\n".toList

def ieeeFails (n : ℕ) : Outcome := ⟨if n = 0 then some executeSum else none, true⟩

theorem ownSums_counterexample :
    writes true ["m2".toList] ieeeFails none =
        [⟨.execute, "m2".toList, ⟨executeSum, some (.execute, "m2".toList)⟩⟩,
          ⟨.ieee, "m2".toList, ⟨executeSum, some (.execute, "m2".toList)⟩⟩] ∧
      ¬ ∀ w ∈ writes true ["m2".toList] ieeeFails none, w.sum.maker = some (w.suite, w.isa) := by
  have hwrites : writes true ["m2".toList] ieeeFails none =
      [⟨.execute, "m2".toList, ⟨executeSum, some (.execute, "m2".toList)⟩⟩,
        ⟨.ieee, "m2".toList, ⟨executeSum, some (.execute, "m2".toList)⟩⟩] := rfl
  refine ⟨hwrites, fun h => ?_⟩
  rw [hwrites] at h
  have hieee := h _ (List.mem_cons_of_mem _ List.mem_cons_self)
  cases hieee

end ShMonitor.Bisect.OwnSums
