import ShMonitor.Bisect.Dejagnu

/-! Sequences of dejagnu-mode invocations that share `OUT_DIR`, the build tree, the prefix and the cache:
which test run wrote the sum behind a verdict. -/

namespace ShMonitor.Bisect.Freshness

open ShMonitor.Texts ShMonitor.Shell Workflow.LastGreen Build Predicate Dejagnu Runs

variable {Tree Archive : Type}

structure State (Tree Archive : Type) where
  disk : Disk Tree Archive
  clock : ℕ

structure Invocation (Tree Archive : Type) where
  head : Option Commit
  file : Option Text
  outcomes : Outcomes Tree Archive

def invoke (w : World Tree Archive) (cacheDir : Bool) (s : State Tree Archive) (inv : Invocation Tree Archive) :
    Option Verdict × Disk Tree Archive :=
  (dejagnuPredicate w cacheDir inv.head inv.file).exec (host w inv.outcomes s.clock) none s.disk

def next (w : World Tree Archive) (cacheDir : Bool) (s : State Tree Archive) (inv : Invocation Tree Archive) :
    State Tree Archive :=
  ⟨(invoke w cacheDir s inv).2, s.clock + 1⟩

def start : State Tree Archive := ⟨⟨none, fun _ => none, fun _ => none, none, none, none⟩, 0⟩

/-- The invocation skips, or this invocation's test run of the compiler of its own commit wrote the
sum that it inspects. -/
def VerdictOwned (w : World Tree Archive) (cacheDir : Bool) (s : State Tree Archive)
    (inv : Invocation Tree Archive) : Prop :=
  ∃ v, (invoke w cacheDir s inv).1 = some v ∧
    (v ≠ .skip → ∃ sum, (invoke w cacheDir s inv).2.gccSum = some sum ∧
    sum.writer = s.clock ∧ ∃ sha, inv.head = some sha ∧ sum.compiler = some sha)

def Copies (w : World Tree Archive) (o : Outcomes Tree Archive) (tree : Tree) (b : BuildTree) : Prop :=
  (w.hasGcc tree = true ∧ b.hasGcc = true ∧ o.copy = true) ∧ (o.check ≠ none ∨ b.sum ≠ none)

/-- Nothing left by earlier invocations is taken for the commit's own: a sum is copied only when the test
run wrote it and the build tree is the commit's, and when none is copied there is none in `OUT_DIR`. -/
def NoLeftover (w : World Tree Archive) (cacheDir : Bool) (s : State Tree Archive)
    (inv : Invocation Tree Archive) :
    Prop :=
  ∀ sha, inv.head = some sha → inv.file ≠ none → ∀ p, prepared w inv.outcomes cacheDir sha s.disk = some p →
    (∀ b, p.2 = some b → Copies w inv.outcomes p.1 b → inv.outcomes.check ≠ none ∧ b.compiler = some sha) ∧
      ((∀ b, p.2 = some b → ¬ Copies w inv.outcomes p.1 b) → s.disk.gccSum = none)

def Stamped (n : ℕ) (d : Disk Tree Archive) : Prop :=
  (∀ sum, d.gccSum = some sum → sum.writer < n) ∧ ∀ b sum, d.buildTree = some b → b.sum = some sum →
    sum.writer < n

lemma Stamped.mono {m n : ℕ} (hmn : m ≤ n) {d : Disk Tree Archive} (h : Stamped m d) : Stamped n d :=
  ⟨fun sum hs => (h.1 sum hs).trans_le hmn, fun b sum hb hs => (h.2 b sum hb hs).trans_le hmn⟩

lemma stamped_run (w : World Tree Archive) (o : Outcomes Tree Archive) (id : ℕ) (c : Command)
    (d : Disk Tree Archive) (h : Stamped (id + 1) d) : Stamped (id + 1) ((host w o id).run c d).2 := by
  cases c with
  | extract sha =>
    simp only [host, runCommand]
    split
    · split <;> exact h
    · exact h
  | buildGcc sha =>
    simp only [host, runCommand]
    split
    · refine ⟨h.1, ?_⟩
      intro b sum hb hs
      obtain rfl := Option.some.inj hb
      cases hs
    · refine ⟨h.1, ?_⟩
      intro b sum hb hs
      rw [leftBuild] at hb
      split at hb
      · exact h.2 b sum hb hs
      · obtain rfl := Option.some.inj hb
        cases hs
  | pack sha =>
    simp only [host, runCommand]
    split <;> exact h
  | mvTarball sha =>
    simp only [host, runCommand]
    split <;> exact h
  | checkGcc =>
    refine ⟨h.1, ?_⟩
    intro b sum hb hs
    obtain ⟨b', hb', rfl⟩ := Option.map_eq_some_iff.mp hb
    cases hc : o.check with
    | none => exact h.2 b' sum hb' (by simpa [hc] using hs)
    | some text =>
      simp only [hc, Option.map_some, Option.some_or, Option.some.injEq] at hs
      rw [← hs]
      exact Nat.lt_succ_self id
  | copySum =>
    simp only [host, runCommand]
    split
    · rename_i sum _ hsum
      obtain ⟨b, hb, hs⟩ := Option.bind_eq_some_iff.mp hsum
      refine ⟨?_, h.2⟩
      intro sum' hs'
      obtain rfl := Option.some.inj hs'
      exact h.2 b sum hb hs
    · exact h
  | rmPrefix | mkdirPrefix | mkdirCache | rmTmp | reproduce | rmMetric | mkdirOut | measure => exact h

lemma stamped_next (w : World Tree Archive) (cacheDir : Bool) (s : State Tree Archive)
    (inv : Invocation Tree Archive)
    (h : Stamped s.clock s.disk) : Stamped (next w cacheDir s inv).clock (next w cacheDir s inv).disk :=
  Script.exec_preserves (host w inv.outcomes s.clock) (stamped_run w inv.outcomes s.clock) _
    (h.mono (Nat.le_succ s.clock))

lemma copied_cases (w : World Tree Archive) (o : Outcomes Tree Archive) (id : ℕ) (tree : Tree)
    (buildTree : Option BuildTree) :
    (copied w o id tree buildTree = none ∧ ∀ b, buildTree = some b → ¬ Copies w o tree b) ∨
      ∃ b, buildTree = some b ∧ Copies w o tree b ∧
        ((∃ text, o.check = some text ∧ copied w o id tree buildTree = some ⟨text, b.compiler, id⟩) ∨
          o.check = none ∧ ∃ sum, b.sum = some sum ∧ copied w o id tree buildTree = some sum) := by
  cases buildTree with
  | none => exact Or.inl ⟨rfl, fun b hb => by cases hb⟩
  | some b =>
    simp only [copied, Option.bind_some, Option.some.injEq, forall_eq', exists_eq_left']
    by_cases hc : w.hasGcc tree = true ∧ b.hasGcc = true ∧ o.copy = true
    · rw [if_pos hc]
      cases ht : o.check with
      | some text => exact Or.inr ⟨⟨hc, Or.inl (by simp [ht])⟩, Or.inl ⟨text, rfl, rfl⟩⟩
      | none =>
        cases hs : b.sum with
        | some sum => exact Or.inr ⟨⟨hc, Or.inr (by simp [hs])⟩, Or.inr ⟨rfl, sum, rfl, rfl⟩⟩
        | none => exact Or.inl ⟨rfl, fun h => h.2.elim (fun h => h ht) (fun h => h hs)⟩
    · rw [if_neg hc]
      exact Or.inl ⟨rfl, fun h => hc h.1⟩

lemma inspect_eq_skip {file : Text} {sum : Option SumFile} : inspect file sum = .skip ↔ sum = none := by
  cases sum with
  | none => simp [inspect]
  | some sum =>
    simp only [inspect]
    split <;> simp

lemma sum_owned_iff {w : World Tree Archive} {o : Outcomes Tree Archive} {s : State Tree Archive}
    (h : Stamped s.clock s.disk) {tree : Tree} {buildTree : Option BuildTree}
    (hb : ∀ b sum, buildTree = some b → b.sum = some sum → sum.writer < s.clock) {sha : Commit}
    {after : Option SumFile} (ha : after = (copied w o s.clock tree buildTree).or s.disk.gccSum) :
    (after ≠ none → ∃ sum, after = some sum ∧ sum.writer = s.clock ∧ sum.compiler = some sha) ↔
      (∀ b, buildTree = some b → Copies w o tree b → o.check ≠ none ∧ b.compiler = some sha) ∧
        ((∀ b, buildTree = some b → ¬ Copies w o tree b) → s.disk.gccSum = none) := by
  obtain ⟨hn, hno⟩ | ⟨b, rfl, hc, ⟨text, ht, hsome⟩ | ⟨ht, sum, hs, hsome⟩⟩ :=
    copied_cases w o s.clock tree buildTree
  · -- Nothing is copied, so the sum is an earlier invocation's.
    rw [hn, Option.none_or] at ha
    subst ha
    constructor
    · intro hl
      refine ⟨fun b hb hc => absurd hc (hno b hb), ?_⟩
      intro _
      by_contra hne
      obtain ⟨sum, hsum, hw, -⟩ := hl hne
      exact absurd hw (h.1 sum hsum).ne
    · intro hr hne
      exact absurd (hr.2 hno) hne
  · rw [hsome, Option.some_or] at ha
    subst ha
    constructor
    · intro hl
      obtain ⟨sum, hsum, -, hcomp⟩ := hl (Option.some_ne_none _)
      obtain rfl := Option.some.inj hsum
      refine ⟨?_, fun hall => absurd hc (hall b rfl)⟩
      intro b' hb' _
      obtain rfl := Option.some.inj hb'
      exact ⟨by simp [ht], hcomp⟩
    · intro hr _
      exact ⟨_, rfl, rfl, (hr.1 b rfl hc).2⟩
  · -- The sum in the build tree was left by an earlier test run.
    rw [hsome, Option.some_or] at ha
    subst ha
    constructor
    · intro hl
      obtain ⟨sum', hsum', hw, -⟩ := hl (Option.some_ne_none _)
      obtain rfl := Option.some.inj hsum'
      exact absurd hw (hb b sum rfl hs).ne
    · intro hr
      exact absurd ht (hr.1 b rfl hc).1

lemma stamped_prepared {w : World Tree Archive} {o : Outcomes Tree Archive} {cacheDir : Bool}
    {sha : Commit} {n : ℕ} {d : Disk Tree Archive} (h : Stamped n d) {p : Tree × Option BuildTree}
    (hp : prepared w o cacheDir sha d = some p) :
    ∀ b sum, p.2 = some b → b.sum = some sum → sum.writer < n := by
  intro b sum hb hs
  rw [prepared.eq_def] at hp
  split at hp
  · split at hp
    · obtain rfl := Option.some.inj hp
      exact h.2 b sum hb hs
    · cases hp
  · obtain ⟨tree, -, rfl⟩ := Option.map_eq_some_iff.mp hp
    obtain rfl := Option.some.inj hb
    cases hs

lemma verdictOwned_iff (w : World Tree Archive) (cacheDir : Bool) {s : State Tree Archive}
    (h : Stamped s.clock s.disk) (inv : Invocation Tree Archive) :
    VerdictOwned w cacheDir s inv ↔ NoLeftover w cacheDir s inv := by
  rw [VerdictOwned, NoLeftover, invoke]
  cases hh : inv.head with
  | none => exact iff_of_true ⟨.skip, rfl, fun hv => absurd rfl hv⟩ (fun sha hs => by cases hs)
  | some sha =>
    cases hf : inv.file with
    | none => exact iff_of_true ⟨.skip, rfl, fun hv => absurd rfl hv⟩ (fun sha _ hne => absurd rfl hne)
    | some file =>
      obtain ⟨v, d', he, hp⟩ := dejagnuMode_exec w inv.outcomes s.clock sha cacheDir file s.disk
      simp only [dejagnuPredicate, he, Option.some.injEq, forall_eq', exists_eq_left', ne_eq, reduceCtorEq,
        not_false_eq_true, true_implies]
      cases hx : prepared w inv.outcomes cacheDir sha s.disk with
      | none =>
        rw [hx] at hp
        exact iff_of_true (fun hv => absurd hp hv) (fun p hp => by cases hp)
      | some p =>
        rw [hx] at hp
        obtain ⟨hsum, rfl⟩ := hp
        simp only [inspect_eq_skip, Option.some.injEq, forall_eq']
        exact sum_owned_iff h (stamped_prepared h hx) hsum

lemma stamped_start : Stamped 0 (start : State Tree Archive).disk := by
  constructor
  · intro sum hs
    cases hs
  · intro b sum hb
    cases hb

theorem verdictOwned_along_iff (w : World Tree Archive) (cacheDir : Bool)
    (invs : List (Invocation Tree Archive)) :
    Along (next w cacheDir) (VerdictOwned w cacheDir) start invs ↔
      Along (next w cacheDir) (NoLeftover w cacheDir) start invs :=
  along_congr (fun s inv h => stamped_next w cacheDir s inv h)
    (fun _ inv h => verdictOwned_iff w cacheDir h inv) stamped_start

def firstRun : Invocation Text Text :=
  ⟨some commitA, some "a.c x\n".toList, { plainOutcomes with check := some "PASS: a.c x\n".toList }⟩

def secondRun : Invocation Text Text := ⟨some commitB, some "a.c x\n".toList, plainOutcomes⟩

theorem verdictOwned_counterexample :
    ¬ Along (next plainWorld false) (VerdictOwned plainWorld false) start [firstRun, secondRun] := by
  rintro ⟨-, ⟨v, hv, howned⟩, -⟩
  have hgood : (invoke plainWorld false (next plainWorld false start firstRun) secondRun).1 = some .good := by
    decide +kernel
  obtain rfl := Option.some.inj (hgood.symm.trans hv)
  obtain ⟨sum, hsum, hwriter, -⟩ := howned (by decide)
  have hold : (invoke plainWorld false (next plainWorld false start firstRun) secondRun).2.gccSum =
      some ⟨"PASS: a.c x\n".toList, some commitA, 0⟩ := by
    decide +kernel
  obtain rfl := Option.some.inj (hold.symm.trans hsum)
  exact Nat.zero_ne_one hwriter

end ShMonitor.Bisect.Freshness
