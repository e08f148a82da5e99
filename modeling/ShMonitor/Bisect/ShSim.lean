import ShMonitor.Bisect.Dejagnu
import ShMonitor.Detection.ExtractShSimFailures

/-! `run-sh-sim.sh` and the sh-sim mode of `sh-bisect-predicate.sh`. What each run of the simulator meets
is given by a `SimRun`; `pathnames` is what the shell expands a word with wildcards to. The runs leave
their standard input, the regressed-tests file, alone. -/

namespace ShMonitor.Bisect.ShSim

open ShMonitor.Texts ShMonitor.Detection
open ExtractShSimFailures (Suite suites isas SumDir)
open Predicate (Verdict)
open Dejagnu (failNeedle)

structure SimRun where
  ready : Bool
  make : Suite → Text → Text → Option Text
  copy : Suite → Text → Bool

structure State where
  sums : SumDir
  treeSum : Option Text

def isIfs (c : Char) : Bool := c == ' ' || c == '\t' || c == '\n'

def isWildcard (c : Char) : Bool := c == '*' || c == '?' || c == '['

def isaWords (pathnames : Text → List Text) (isa : Text) : List Text :=
  if isa = [] then isas
  else ((isa.splitOnP isIfs).filter (fun w => decide (w ≠ []))).flatMap fun w =>
    if w.any isWildcard then pathnames w else [w]

def selector (suite : Suite) (glob : Text) : Text :=
  match suite with
  | .execute => "execute.exp".toList ++ if glob = [] then [] else '=' :: glob
  | .ieee => "ieee.exp".toList

def runSuites (r : SimRun) (glob : Text) : List (Suite × Text) → State → List (Suite × Text) × State
  | [], s => ([], s)
  | (suite, isa) :: rest, s =>
    match (r.make suite isa (selector suite glob)).or s.treeSum with
    | none => runSuites r glob rest s
    | some sum =>
      if r.copy suite isa then
        let done := runSuites r glob rest
          ⟨Function.update s.sums suite (Function.update (s.sums suite) isa (some sum)), some sum⟩
        ((suite, isa) :: done.1, done.2)
      -- The script runs under `set -e`: a copy that fails ends it.
      else ([], { s with treeSum := some sum })

def runShSim (pathnames : Text → List Text) (r : SimRun) (isa glob : Text) (s : State) :
    List (Suite × Text) × State :=
  if r.ready then
    runSuites r glob ((isaWords pathnames isa).flatMap fun isa => suites.map fun suite => (suite, isa)) s
  else ([], s)

def tagOf (line : Text) : Text := line.takeWhile (· ≠ ' ')

def isaOf (line : Text) : Text := (tagOf line).takeWhile (· ≠ ':')

def pathOf (line : Text) : Text :=
  if ':' ∈ tagOf line then ((tagOf line).dropWhile (· ≠ ':')).tail else tagOf line

def globOf (line : Text) : Text := (pathOf line).rtakeWhile (· ≠ '/')

def hits (s : State) (line : Text) : Bool :=
  suites.any fun suite => (s.sums suite (isaOf line)).any fun sum => grepF (failNeedle (pathOf line)) sum

structure Made where
  line : Text
  written : List (Suite × Text)
deriving DecidableEq

def shSimLoop (pathnames : Text → List Text) (runs : ℕ → SimRun) : ℕ → List Text → State → List Made × Verdict
  | _, [], _ => ([], .good)
  | n, line :: rest, s =>
    if line = [] then shSimLoop pathnames runs n rest s
    else
      let run := runShSim pathnames (runs n) (isaOf line) (globOf line) s
      if hits run.2 line then ([⟨line, run.1⟩], .bad)
      else
        let done := shSimLoop pathnames runs (n + 1) rest run.2
        (⟨line, run.1⟩ :: done.1, done.2)

def cleared : State := ⟨fun _ _ => none, none⟩

def shSimMode (pathnames : Text → List Text) (file : Option Text) (built : Bool) (runs : ℕ → SimRun) :
    List Made × Verdict :=
  match file with
  | none => ([], .skip)
  | some file => if built then shSimLoop pathnames runs 0 (readLines file) cleared else ([], .skip)

def Evident (m : Made) : Prop := ∃ suite, (suite, isaOf m.line) ∈ m.written

def unterminated (file : Text) : Text := (lines file).getLast (lines_ne_nil file)

def EvidenceKept (file : Text) (result : List Made × Verdict) : Prop :=
  (result.2 = .good → result.1.map Made.line = (lines file).filter (fun l => decide (l ≠ [])) ∧
      ∀ m ∈ result.1, Evident m) ∧
    ((∃ m ∈ result.1, ¬ Evident m) → result.2 = .skip)

/-- Among the suites that a run gets to, one of `isa` has a sum that is copied; `there` says whether the
build tree holds a sum before. -/
def FindsSum (r : SimRun) (glob isa : Text) : List (Suite × Text) → Bool → Prop
  | [], _ => False
  | (suite, word) :: rest, there =>
    if (r.make suite word (selector suite glob)).isSome || there then
      r.copy suite word = true ∧ (word = isa ∨ FindsSum r glob isa rest true)
    else FindsSum r glob isa rest false

/-- Every line that is reached before a bad one, and the bad one, is run with a toolchain and a build tree
and finds a sum; without a bad one the file ends with a line end. -/
def Equipped (pathnames : Text → List Text) (runs : ℕ → SimRun) (last : Text) : ℕ → List Text → State → Prop
  | _, [], _ => last = []
  | n, line :: rest, s =>
    if line = [] then Equipped pathnames runs last n rest s
    else
      let run := runShSim pathnames (runs n) (isaOf line) (globOf line) s
      ((runs n).ready = true ∧ FindsSum (runs n) (globOf line) (isaOf line)
        ((isaWords pathnames (isaOf line)).flatMap fun isa => suites.map fun suite => (suite, isa))
        s.treeSum.isSome) ∧
        (hits run.2 line = true ∨ Equipped pathnames runs last (n + 1) rest run.2)

lemma mem_runSuites {r : SimRun} {glob isa : Text} {pairs : List (Suite × Text)} {s : State} :
    (∃ suite, (suite, isa) ∈ (runSuites r glob pairs s).1) ↔ FindsSum r glob isa pairs s.treeSum.isSome := by
  induction pairs generalizing s with
  | nil => simp [runSuites, FindsSum]
  | cons p rest ih =>
    obtain ⟨suite, word⟩ := p
    have hthere : ((r.make suite word (selector suite glob)).isSome || s.treeSum.isSome) =
        ((r.make suite word (selector suite glob)).or s.treeSum).isSome := Option.isSome_or.symm
    rw [runSuites, FindsSum, hthere]
    cases hm : (r.make suite word (selector suite glob)).or s.treeSum with
    | none =>
      have hs : s.treeSum = none := (Option.or_eq_none_iff.mp hm).2
      have hrest := ih (s := s)
      rw [hs] at hrest
      simpa using hrest
    | some sum =>
      cases hc : r.copy suite word with
      | false => simp
      | true =>
        have hrest := ih
          (s := ⟨Function.update s.sums suite (Function.update (s.sums suite) word (some sum)), some sum⟩)
        simp only [if_true, Option.isSome_some, true_and, List.mem_cons, Prod.mk.injEq] at hrest ⊢
        rw [← hrest]
        constructor
        · rintro ⟨suite', ⟨-, rfl⟩ | hmem⟩
          · exact Or.inl rfl
          · exact Or.inr ⟨suite', hmem⟩
        · rintro (rfl | ⟨suite', hmem⟩)
          · exact ⟨suite, Or.inl ⟨rfl, rfl⟩⟩
          · exact ⟨suite', Or.inr hmem⟩

lemma evident_iff {pathnames : Text → List Text} {r : SimRun} {line : Text} {s : State} :
    Evident ⟨line, (runShSim pathnames r (isaOf line) (globOf line) s).1⟩ ↔ r.ready = true ∧
      FindsSum r (globOf line) (isaOf line)
        ((isaWords pathnames (isaOf line)).flatMap fun isa => suites.map fun suite => (suite, isa))
        s.treeSum.isSome := by
  rw [← mem_runSuites, Evident, runShSim]
  cases r.ready <;> simp

lemma shSimLoop_facts (pathnames : Text → List Text) (runs : ℕ → SimRun) (last : Text) (n : ℕ) (ls : List Text)
    (s : State) :
    let result := shSimLoop pathnames runs n ls s
    result.2 ≠ .skip ∧
      (result.2 = .good → result.1.map Made.line = ls.filter (fun l => decide (l ≠ []))) ∧
      (Equipped pathnames runs last n ls s ↔ (∀ m ∈ result.1, Evident m) ∧ (result.2 = .good → last = [])) := by
  induction ls generalizing n s with
  | nil => simp [shSimLoop, Equipped]
  | cons line rest ih =>
    by_cases hl : line = []
    · simpa [shSimLoop, Equipped, hl] using ih n s
    · simp only [shSimLoop, Equipped, hl, if_false, ← evident_iff]
      by_cases hh : hits (runShSim pathnames (runs n) (isaOf line) (globOf line) s).2 line = true
      · simp [hh]
      · obtain ⟨hskip, hgood, heq⟩ := ih (n + 1) (runShSim pathnames (runs n) (isaOf line) (globOf line) s).2
        simp only [hh, Bool.false_eq_true, if_false, false_or, heq, List.forall_mem_cons, and_assoc]
        refine ⟨hskip, ?_, trivial⟩
        intro hv
        rw [List.map_cons, hgood hv, List.filter_cons_of_pos (by simpa using hl)]

lemma lines_eq (file : Text) : lines file = readLines file ++ [unterminated file] :=
  (List.dropLast_append_getLast (lines_ne_nil file)).symm

theorem evidenceKept_iff (pathnames : Text → List Text) (file : Text) (built : Bool) (runs : ℕ → SimRun) :
    EvidenceKept file (shSimMode pathnames (some file) built runs) ↔
      (built = true → Equipped pathnames runs (unterminated file) 0 (readLines file) cleared) := by
  cases built with
  | false => simp [EvidenceKept, shSimMode]
  | true =>
    obtain ⟨hskip, hgood, heq⟩ := shSimLoop_facts pathnames runs (unterminated file) 0 (readLines file) cleared
    simp only [EvidenceKept, shSimMode, if_true, true_implies, heq]
    constructor
    · rintro ⟨hlines, hmissing⟩
      refine ⟨?_, ?_⟩
      · intro m hm
        by_contra he
        exact hskip (hmissing ⟨m, hm, he⟩)
      · intro hv
        have hsame := (hlines hv).1
        rw [hgood hv, lines_eq, List.filter_append] at hsame
        by_contra hne
        simp [hne] at hsame
    · rintro ⟨hall, hlast⟩
      refine ⟨?_, ?_⟩
      · intro hv
        refine ⟨?_, hall⟩
        rw [hgood hv, lines_eq, hlast hv]
        simp
      · rintro ⟨m, hm, he⟩
        exact absurd (hall m hm) he

def missing : SimRun where
  ready := false
  make _ _ _ := none
  copy _ _ := true

theorem evidenceKept_counterexample :
    ¬ EvidenceKept "m2:a.c execution test\n".toList
      (shSimMode (fun _ => []) (some "m2:a.c execution test\n".toList) true (fun _ => missing)) := by
  rintro ⟨hgood, -⟩
  obtain ⟨-, hall⟩ := hgood (by decide +kernel)
  obtain ⟨suite, hmem⟩ := hall ⟨"m2:a.c execution test".toList, []⟩ (by decide +kernel)
  cases hmem

end ShMonitor.Bisect.ShSim
