import ShMonitor.Runs
import ShMonitor.Shell.Strict
import ShMonitor.Bisect.ShSim

/-! `build-sh-elf-gcc.sh`, which installs the compiler of a commit into the prefix that holds
binutils, the simulator and newlib, over any sequence of invocations, and whether `run-sh-sim.sh`
then runs what is there. -/

namespace ShMonitor.Bisect.BuildShElf

open ShMonitor.Texts ShMonitor.Shell ShMonitor.Detection Workflow.LastGreen Runs
open ExtractShSimFailures (isas)
open ShSim (SimRun State runShSim)

inductive Step where
  | checkSource
  | checkBinutils
  | checkNewlib
  | asVersion
  | rmBuild
  | mkdirBuild
  | configure
  | make
  | installGcc
  | installLibgcc
  | version
  | writeSmoke
  | smoke (isa : Text)
deriving DecidableEq

-- The commit whose sources are checked out, the exit status of each step, whether configure and
-- make leave a `gcc` directory in the build tree, and whether an `install-gcc` that fails leaves a
-- driver.
structure Outcomes where
  commit : Commit
  status : Step → ℕ
  gccDir : Step → Bool
  driver : Bool

def Outcomes.works (o : Outcomes) (step : Step) : Bool := o.status step == 0

structure Site where
  binutils : Bool
  newlib : Bool
  simulator : Bool
  driver : Option Commit
  gccDir : Bool

def runStep (o : Outcomes) : Step → Site → Bool × Site
  | .checkBinutils, s => (s.binutils, s)
  | .checkNewlib, s => (s.newlib, s)
  | .rmBuild, s => (true, { s with gccDir := false })
  | .mkdirBuild, s => (true, s)
  | .configure, s => (o.works .configure, { s with gccDir := s.gccDir || o.gccDir .configure })
  | .make, s => (o.works .make, { s with gccDir := s.gccDir || o.gccDir .make })
  | .installGcc, s =>
    (o.works .installGcc,
      { s with driver := if o.works .installGcc || o.driver then some o.commit else s.driver })
  | .checkSource, s => (o.works .checkSource, s)
  | .asVersion, s => (o.works .asVersion, s)
  | .installLibgcc, s => (o.works .installLibgcc, s)
  | .version, s => (o.works .version, s)
  | .writeSmoke, s => (o.works .writeSmoke, s)
  | .smoke isa, s => (o.works (.smoke isa), s)

def host (o : Outcomes) : Host Site Step := ⟨runStep o, fun _ s => s⟩

def checks : List Step := [.checkSource, .checkBinutils, .checkNewlib, .asVersion]

def compilation : List Step := [.rmBuild, .mkdirBuild, .configure, .make]

def installation : List Step := [.installGcc, .installLibgcc, .version, .writeSmoke]

def smokes : List Text → ℕ → Script Site Step ℕ
  | [], rc => .ret rc
  | isa :: rest, rc => .run (.smoke isa) fun ok => smokes rest (if ok then rc else 1)

-- The three checks exit by themselves.
def exitStatus (o : Outcomes) : Step → ℕ
  | .checkSource | .checkBinutils | .checkNewlib => 1
  | step => o.status step

def buildShElf (o : Outcomes) : Script Site Step ℕ :=
  .strictBy (checks ++ (compilation ++ installation)) (exitStatus o) (smokes isas 0)

def invoke (o : Outcomes) (s : Site) : Option ℕ × Site := (buildShElf o).exec (host o) none s

def next (s : Site) (o : Outcomes) : Site := (invoke o s).2

def ready (s : Site) : Bool := s.driver.isSome && s.simulator && s.gccDir

def runOn (pathnames : Text → List Text) (r : SimRun) (isa glob : Text) (s : Site) (dir : State) :=
  runShSim pathnames { r with ready := ready s } isa glob dir

def Skips (s : Site) : Prop :=
  ready s = false ∧ ∀ pathnames r isa glob dir, runOn pathnames r isa glob s dir = ([], dir)

def baked (gccDir : Bool) : Site := ⟨true, true, true, none, gccDir⟩

def Starts (o : Outcomes) : Prop := o.works .checkSource = true ∧ o.works .asVersion = true

instance (o : Outcomes) : Decidable (Starts o) :=
  inferInstanceAs (Decidable (o.works .checkSource = true ∧ o.works .asVersion = true))

def makesDir (o : Outcomes) : Bool := o.gccDir .configure || (o.works .configure && o.gccDir .make)

def LeavesDriver (o : Outcomes) : Prop :=
  Starts o ∧ (o.works .configure = true ∧ o.works .make = true) ∧ (o.works .installGcc || o.driver) = true

instance (o : Outcomes) : Decidable (LeavesDriver o) :=
  inferInstanceAs (Decidable (Starts o ∧ (o.works .configure = true ∧ o.works .make = true) ∧
    (o.works .installGcc || o.driver) = true))

structure Equipped (s : Site) : Prop where
  binutils : s.binutils = true
  newlib : s.newlib = true
  simulator : s.simulator = true

section

variable {o : Outcomes} {s : Site}

lemma exec_smokes (rest : List Text) (rc : ℕ) : ((smokes rest rc).exec (host o) none s).2 = s := by
  induction rest generalizing rc with
  | nil => rfl
  | cons isa rest ih => exact ih _

lemma all_checks (hs : Equipped s) :
    (host o).all checks s = (o.works .checkSource && o.works .asVersion, s) := by
  let works : Step → Bool := fun step => step == .checkBinutils || step == .checkNewlib || o.works step
  have hidle : ∀ step ∈ checks, (host o).run step s = (works step, s) := by
    rw [checks, List.forall_mem_cons, List.forall_mem_cons, List.forall_mem_cons, List.forall_mem_singleton]
    exact ⟨rfl, Prod.ext hs.binutils rfl, Prod.ext hs.newlib rfl, rfl⟩
  rw [Host.all_idle hidle]
  show (o.works .checkSource && (true && (true && (o.works .asVersion && true))), s) = _
  rw [Bool.true_and, Bool.true_and, Bool.and_true]

lemma all_compilation : (host o).all compilation s =
    (o.works .configure && o.works .make, { s with gccDir := makesDir o }) := by
  rw [compilation, Host.all_cons, Host.all_cons, Host.all_cons]
  show (if o.works .configure then
    (host o).all [.make] { s with gccDir := false || o.gccDir .configure } else _) = _
  by_cases hconfigure : o.works .configure = true
  · rw [if_pos hconfigure, Host.all_cons, makesDir, hconfigure, Bool.true_and, Bool.true_and, Bool.false_or]
    show (if o.works .make then _ else _) = _
    by_cases hmake : o.works .make = true
    · rw [if_pos hmake, hmake]
      rfl
    · rw [if_neg hmake, eq_false_of_ne_true hmake]
      rfl
  · rw [if_neg hconfigure, makesDir, eq_false_of_ne_true hconfigure, Bool.false_and, Bool.false_and,
      Bool.or_false]
    rfl

lemma all_installation : ((host o).all installation s).2 =
    { s with driver := if o.works .installGcc || o.driver then some o.commit else s.driver } := by
  have hidle : ∀ s : Site, ∀ step ∈ [Step.installLibgcc, .version, .writeSmoke],
      (host o).run step s = (o.works step, s) := by
    intro s
    rw [List.forall_mem_cons, List.forall_mem_cons, List.forall_mem_singleton]
    exact ⟨rfl, rfl, rfl⟩
  rw [installation, Host.all_cons, Host.all_idle (hidle _)]
  split
  · rfl
  · rfl

lemma next_eq (hs : Equipped s) : next s o = { s with
    gccDir := if Starts o then makesDir o else s.gccDir
    driver := if LeavesDriver o then some o.commit else s.driver } := by
  have hstate : next s o = ((host o).all (checks ++ (compilation ++ installation)) s).2 := by
    rw [next, invoke, buildShElf, Script.state_strictBy]
    split
    · exact exec_smokes isas 0
    · rfl
  rw [hstate, Host.all_append, all_checks hs]
  by_cases hstarts : Starts o
  · have hok : (o.works .checkSource && o.works .asVersion) = true := Bool.and_eq_true_iff.mpr hstarts
    rw [if_pos hok, if_pos hstarts, Host.all_append, all_compilation]
    by_cases hmade : o.works .configure = true ∧ o.works .make = true
    · rw [if_pos (Bool.and_eq_true_iff.mpr hmade), all_installation]
      by_cases hdriver : (o.works .installGcc || o.driver) = true
      · rw [if_pos hdriver, if_pos ⟨hstarts, hmade, hdriver⟩]
      · rw [if_neg hdriver, if_neg (fun h => hdriver h.2.2)]
    · rw [if_neg (fun h => hmade (Bool.and_eq_true_iff.mp h)), if_neg (fun h => hmade h.2.1)]
  · have hfailed : ¬ (o.works .checkSource && o.works .asVersion) = true :=
      fun h => hstarts (Bool.and_eq_true_iff.mp h)
    rw [if_neg hfailed, if_neg hstarts, if_neg (fun h => hstarts h.1)]

lemma equipped_next (hs : Equipped s) : Equipped (next s o) := by
  rw [next_eq hs]
  exact ⟨hs.binutils, hs.newlib, hs.simulator⟩

end

def lastStarted (invs : List Outcomes) : Option Outcomes := invs.reverse.find? (fun o => decide (Starts o))

def treeLeft (gccDir : Bool) (invs : List Outcomes) : Bool := (lastStarted invs).elim gccDir makesDir

lemma after_append (s : Site) (invs : List Outcomes) (o : Outcomes) :
    after next s (invs ++ [o]) = next (after next s invs) o :=
  List.foldl_append

lemma equipped_after {s : Site} (hs : Equipped s) (invs : List Outcomes) : Equipped (after next s invs) :=
  invariant_always Equipped (fun _ _ h => equipped_next h) hs invs

lemma driver_after {s : Site} (hs : Equipped s) (invs : List Outcomes) :
    (after next s invs).driver.isSome ↔ s.driver.isSome ∨ ∃ o ∈ invs, LeavesDriver o := by
  induction invs using List.reverseRecOn with
  | nil => simp [after]
  | append_singleton invs o ih =>
    rw [after_append, next_eq (equipped_after hs invs)]
    simp only [List.mem_append, List.mem_singleton, or_and_right, exists_or, exists_eq_left]
    rw [← or_assoc, ← ih]
    by_cases hdriver : LeavesDriver o
    · simp [hdriver]
    · simp [hdriver]

lemma gccDir_after (gccDir : Bool) (invs : List Outcomes) :
    (after next (baked gccDir) invs).gccDir = treeLeft gccDir invs := by
  have hs : Equipped (baked gccDir) := ⟨rfl, rfl, rfl⟩
  induction invs using List.reverseRecOn with
  | nil => rfl
  | append_singleton invs o ih =>
    rw [after_append, next_eq (equipped_after hs invs), treeLeft, lastStarted, List.reverse_append,
      List.reverse_singleton, List.singleton_append, List.find?_cons]
    by_cases hstarts : Starts o
    · simp [hstarts]
    · rw [treeLeft, lastStarted] at ih
      simpa [hstarts] using ih

lemma skips_iff {s : Site} : Skips s ↔ ready s = false := by
  refine ⟨fun h => h.1, fun h => ⟨h, fun pathnames r isa glob dir => ?_⟩⟩
  rw [runOn, runShSim, h]
  rfl

theorem leavesNone_iff (gccDir : Bool) (invs : List Outcomes) (last : Outcomes) :
    ((invoke last (after next (baked gccDir) invs)).1 ≠ some 0 →
      Skips (after next (baked gccDir) (invs ++ [last]))) ↔
      ((invoke last (after next (baked gccDir) invs)).1 ≠ some 0 →
        (∀ o ∈ invs ++ [last], ¬ LeavesDriver o) ∨ treeLeft gccDir (invs ++ [last]) = false) := by
  have hs : Equipped (baked gccDir) := ⟨rfl, rfl, rfl⟩
  refine imp_congr_right fun _ => ?_
  have hdriver := driver_after hs (invs ++ [last])
  rw [skips_iff, ready, (equipped_after hs _).simulator, gccDir_after, Bool.and_true, Bool.and_eq_false_iff,
    ← Bool.not_eq_true, hdriver]
  simp only [baked, Option.isSome_none, Bool.false_eq_true, false_or, not_exists, not_and]

def smokeFails : Outcomes where
  commit := Predicate.commitA
  status step := if step = .smoke "m2a".toList then 1 else 0
  gccDir _ := true
  driver := false

theorem leavesNone_counterexample :
    (invoke smokeFails (baked false)).1 = some 1 ∧
      (after next (baked false) [smokeFails]).driver = some smokeFails.commit ∧
      ¬ Skips (after next (baked false) [smokeFails]) := by
  refine ⟨by decide +kernel, rfl, ?_⟩
  rw [skips_iff]
  decide +kernel

end ShMonitor.Bisect.BuildShElf
