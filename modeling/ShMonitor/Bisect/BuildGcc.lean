import ShMonitor.Shell.Strict
import ShMonitor.Bisect.Predicate

/-! `build-gcc.sh` for `sh4-linux-gnu`, in which the steps that judge a commit and the steps that
only prepare for them end the script with the same status, and the verdicts of the predicate's build
mode on it. `F` is what a directory may hold. -/

namespace ShMonitor.Bisect.BuildGcc

open ShMonitor.Texts ShMonitor.Shell Workflow.LastGreen Build Predicate

variable {F Archive : Type}

inductive Infra where
  | configSource
  | configBuild
  | mkdirSource
  | init
  | remoteAdd
  | fetch (commit : Commit)
  | checkout
  | mkdirs
  | clean
  | enter
  | writeSmoke
  | mkdirSidecar
  | cleanSidecar
  | findLibgcc
  | mkdirLibgcc
  | copyLibgcc
deriving DecidableEq

inductive Judged where
  | configure
  | make
  | install
  | version
  | smoke
  | magic

inductive Step where
  | infra (i : Infra)
  | judge (j : Judged)
  | sidecar

structure Toolchain (F : Type) where
  empty : F
  judge : Judged → Commit → F × F → Bool × (F × F)
  smokeSource : F → F
  sidecar : Commit → F → Bool × F
  libgcc : F → Bool
  addLibgcc : F → F → F

/-- `GCC_SRC_DIR` with its FETCH_HEAD and the commit checked out, `GCC_BUILD_DIR`, `GCC_PREFIX` and
the build directory of the sidecar. -/
structure Site (F : Type) where
  repo : Bool
  fetchHead : Option Commit
  source : Option Commit
  buildDir : F
  installDir : F
  sidecarDir : F

def Site.dirs (s : Site F) : F × F := (s.buildDir, s.installDir)

def Site.withDirs (s : Site F) (dirs : F × F) : Site F := { s with buildDir := dirs.1, installDir := dirs.2 }

variable (t : Toolchain F)

def effect : Infra → Site F → Site F
  | .init, s => { s with repo := true }
  | .fetch commit, s => { s with fetchHead := some commit }
  | .checkout, s => { s with source := s.fetchHead }
  | .clean, s => { s with buildDir := t.empty, installDir := t.empty }
  | .writeSmoke, s => { s with buildDir := t.smokeSource s.buildDir }
  | .cleanSidecar, s => { s with sidecarDir := t.empty }
  | .copyLibgcc, s => { s with installDir := t.addLibgcc s.sidecarDir s.installDir }
  | .configSource, s | .configBuild, s | .mkdirSource, s | .remoteAdd, s | .mkdirs, s | .enter, s
  | .mkdirSidecar, s | .findLibgcc, s | .mkdirLibgcc, s => s

def runStep (works : Infra → Bool) : Step → Site F → Bool × Site F
  | .infra i, s => if works i then (true, effect t i s) else (false, s)
  | .judge j, s => s.source.elim (false, s) (fun commit =>
      ((t.judge j commit s.dirs).1, s.withDirs (t.judge j commit s.dirs).2))
  | .sidecar, s => s.source.elim (false, s) (fun commit =>
      ((t.sidecar commit s.sidecarDir).1, { s with sidecarDir := (t.sidecar commit s.sidecarDir).2 }))

def site (works : Infra → Bool) : Host (Site F) Step := ⟨runStep t works, fun _ s => s⟩

abbrev BuildScript (F : Type) := Script (Site F) Step ℕ

def configSteps : List Infra := [.configSource, .configBuild]

def initSteps (repo : Bool) : List Infra := if repo then [] else [.mkdirSource, .init, .remoteAdd]

def fetchSteps (commit : Commit) : List Infra := [.fetch commit, .checkout, .mkdirs, .clean, .enter]

def sidecarStage : BuildScript F :=
  .strict ([Infra.mkdirSidecar, .cleanSidecar].map .infra) 1 <| .run .sidecar fun ok =>
    if ok then
      .strict ([Infra.findLibgcc].map .infra) 1 <| .test fun s =>
        if t.libgcc s.sidecarDir then
          .strict ([Infra.mkdirLibgcc, .copyLibgcc].map .infra) 1 (.ret 0)
        else .ret 0
    else .ret 0

def compileStage : BuildScript F :=
  .strict ([Judged.configure, .make, .install, .version].map .judge) 1 <|
    .strict ([Infra.writeSmoke].map .infra) 1 <|
      .strict ([Judged.smoke, .magic].map .judge) 1 (sidecarStage t)

def buildGcc (commit : Commit) : BuildScript F :=
  .strict (configSteps.map .infra) 1 <| .test fun s =>
    .strict ((initSteps s.repo).map .infra) 1 <| .strict ((fetchSteps commit).map .infra) 1 (compileStage t)

def builder (commit : Commit) : Host (F × F) Judged := ⟨fun j => t.judge j commit, fun _ dirs => dirs⟩

def compiled (commit : Commit) : Option F :=
  let first := (builder t commit).all [.configure, .make, .install, .version] (t.empty, t.empty)
  let second := (builder t commit).all [.smoke, .magic] (t.smokeSource first.2.1, first.2.2)
  if first.1 && second.1 then some second.2.2 else none

def withSidecar (commit : Commit) (prefixDir : F) : F :=
  let side := t.sidecar commit t.empty
  if side.1 && t.libgcc side.2 then t.addLibgcc side.2 prefixDir else prefixDir

def product (commit : Commit) : Option F := (compiled t commit).map (withSidecar t commit)

def sidecarSteps (commit : Commit) : List Infra :=
  let side := t.sidecar commit t.empty
  [.mkdirSidecar, .cleanSidecar] ++
    if side.1 then [.findLibgcc] ++ if t.libgcc side.2 then [.mkdirLibgcc, .copyLibgcc] else [] else []

def infraSteps (commit : Commit) (repo : Bool) : List Infra :=
  configSteps ++ (initSteps repo ++ (fetchSteps commit ++ ([.writeSmoke] ++ sidecarSteps t commit)))

def installs (run : Option ℕ × Site F) : Option F := if run.1 = some 0 then some run.2.installDir else none

def gccOf (works : Infra → Bool) (s : Site F) (commit : Commit) : Option F :=
  installs ((buildGcc t commit).exec (site t works) none s)

section

variable {t} {works : Infra → Bool} {commit : Commit}

lemma installs_strict (cs : List Step) (k : BuildScript F) (s : Site F) :
    installs ((Script.strict cs 1 k).exec (site t works) none s) =
      if ((site t works).all cs s).1 then installs
        (k.exec (site t works) none ((site t works).all cs s).2) else none := by
  rw [Script.exec_strict]
  split
  · rfl
  · rfl

lemma all_infra (is : List Infra) (s : Site F) :
    ((site t works).all (is.map .infra) s).1 = is.all works ∧
      (is.all works = true → ((site t works).all (is.map .infra) s).2 =
        is.foldl (fun s i => effect t i s) s) := by
  induction is generalizing s with
  | nil => exact ⟨rfl, fun _ => rfl⟩
  | cons i is ih =>
    have hrun : (site t works).run (.infra i) s = if works i then (true, effect t i s) else (false, s) := rfl
    rw [List.map_cons, Host.all_cons, hrun, List.all_cons, List.foldl_cons]
    cases works i with
    | true => exact ih _
    | false => exact ⟨rfl, fun h => by cases h⟩

lemma installs_infra (is : List Infra) (k : BuildScript F) (s : Site F) :
    installs ((Script.strict (is.map .infra) 1 k).exec (site t works) none s) =
      if is.all works then
        installs (k.exec (site t works) none (is.foldl (fun s i => effect t i s) s))
      else none := by
  obtain ⟨hok, hstate⟩ := all_infra is s
  rw [installs_strict, hok]
  by_cases h : is.all works = true
  · rw [if_pos h, if_pos h, hstate h]
  · rw [if_neg h, if_neg h]

lemma all_judge (js : List Judged) {s : Site F} (hs : s.source = some commit) :
    (site t works).all (js.map .judge) s =
      (((builder t commit).all js s.dirs).1, s.withDirs ((builder t commit).all js s.dirs).2) := by
  induction js generalizing s with
  | nil => rfl
  | cons j js ih =>
    have hrun : (site t works).run (.judge j) s =
        ((t.judge j commit s.dirs).1, s.withDirs (t.judge j commit s.dirs).2) := by
      show runStep t works (.judge j) s = _
      rw [runStep, hs]
      rfl
    have hbuilder : (builder t commit).run j s.dirs = t.judge j commit s.dirs := rfl
    rw [List.map_cons, Host.all_cons, Host.all_cons, hrun, hbuilder]
    by_cases h : (t.judge j commit s.dirs).1 = true
    · rw [if_pos h, if_pos h]
      exact ih hs
    · rw [if_neg h, if_neg h]

lemma installs_judge (js : List Judged) (k : BuildScript F) {s : Site F} (hs : s.source = some commit) :
    installs ((Script.strict (js.map .judge) 1 k).exec (site t works) none s) =
      if ((builder t commit).all js s.dirs).1 then
        installs (k.exec (site t works) none (s.withDirs ((builder t commit).all js s.dirs).2))
      else none := by
  rw [installs_strict, all_judge js hs]

lemma if_all_append (is ks : List Infra) (x : Option F) :
    (if is.all works then (if ks.all works then x else none) else none) =
      if (is ++ ks).all works then x else none := by
  rw [List.all_append]
  cases is.all works with
  | false => rfl
  | true => rw [if_pos rfl, Bool.true_and]

lemma installs_sidecar {s : Site F} (hs : s.source = some commit) :
    installs ((sidecarStage t).exec (site t works) none s) =
      if (sidecarSteps t commit).all works then some (withSidecar t commit s.installDir) else none := by
  have hside : (site t works).run .sidecar { s with sidecarDir := t.empty } =
      ((t.sidecar commit t.empty).1, { s with sidecarDir := (t.sidecar commit t.empty).2 }) := by
    show runStep t works .sidecar _ = _
    rw [runStep]
    show s.source.elim _ _ = _
    rw [hs]
    rfl
  rw [sidecarStage, installs_infra, sidecarSteps, withSidecar, ← if_all_append]
  congr 1
  show installs ((Script.run Step.sidecar _).exec (site t works) none { s with sidecarDir := t.empty }) = _
  rw [Script.exec_run_of hside]
  cases (t.sidecar commit t.empty).1 with
  | false => rfl
  | true =>
    rw [if_pos rfl, if_pos rfl, installs_infra, Bool.true_and, ← if_all_append]
    congr 1
    show installs ((if t.libgcc (t.sidecar commit t.empty).2 then _ else _ : BuildScript F).exec _ _ _) = _
    cases t.libgcc (t.sidecar commit t.empty).2 with
    | false => rfl
    | true =>
      rw [if_pos rfl, if_pos rfl, if_pos rfl]
      exact installs_infra _ _ _

lemma installs_compile {s : Site F} (hs : s.source = some commit) (hempty : s.dirs = (t.empty, t.empty)) :
    installs ((compileStage t).exec (site t works) none s) =
      if ([Infra.writeSmoke] ++ sidecarSteps t commit).all works then product t commit else none := by
  rw [compileStage, product, compiled, installs_judge _ _ hs, hempty, ← if_all_append]
  generalize (builder t commit).all [.configure, .make, .install, .version] (t.empty, t.empty) = first
  obtain ⟨ok, dirs⟩ := first
  cases ok with
  | false => simp
  | true =>
    have hwritten : [Infra.writeSmoke].foldl (fun s i => effect t i s) (s.withDirs dirs) =
        s.withDirs (t.smokeSource dirs.1, dirs.2) := rfl
    have hsource : (s.withDirs (t.smokeSource dirs.1, dirs.2)).source = some commit := hs
    have hdirs : (s.withDirs (t.smokeSource dirs.1, dirs.2)).dirs = (t.smokeSource dirs.1, dirs.2) := rfl
    rw [if_pos rfl, installs_infra, hwritten, installs_judge _ _ hsource, hdirs]
    congr 1
    generalize (builder t commit).all [.smoke, .magic] (t.smokeSource dirs.1, dirs.2) = second
    obtain ⟨ok, dirs'⟩ := second
    cases ok with
    | false => simp
    | true =>
      have hmoved : ((s.withDirs (t.smokeSource dirs.1, dirs.2)).withDirs dirs').source = some commit := hs
      rw [if_pos rfl]
      exact installs_sidecar hmoved

lemma gccOf_eq (works : Infra → Bool) (s : Site F) (commit : Commit) :
    gccOf t works s commit = if (infraSteps t commit s.repo).all works then product t commit else none := by
  have hfetched : ∀ s : Site F, installs ((compileStage t).exec (site t works) none
      ((fetchSteps commit).foldl (fun s i => effect t i s) s)) =
      if ([Infra.writeSmoke] ++ sidecarSteps t commit).all works then product t commit else none := by
    intro s
    have hsource : ((fetchSteps commit).foldl (fun s i => effect t i s) s).source = some commit := rfl
    exact installs_compile hsource rfl
  rw [gccOf, buildGcc, installs_infra, infraSteps, ← if_all_append, ← if_all_append, ← if_all_append]
  congr 1
  show installs ((Script.strict ((initSteps s.repo).map .infra) 1 _).exec (site t works) none s) = _
  rw [installs_infra, installs_infra, hfetched]

end

structure Environment (F Archive : Type) where
  site : Site F
  works : Infra → Bool
  cacheDir : Bool
  outcomes : Outcomes F Archive
  disk : Disk F Archive

def worldIn (base : World F Archive) (env : Environment F Archive) : World F Archive :=
  { base with gcc := gccOf t env.works env.site }

def exitCode (base : World F Archive) (sha : Commit) (env : Environment F Archive) : Option Verdict :=
  ((predicate (worldIn t base env) env.cacheDir .build (some sha)).exec
    (host (worldIn t base env) env.outcomes 0) none env.disk).1

def Hit (sha : Commit) (env : Environment F Archive) : Prop :=
  env.cacheDir = true ∧ (env.disk.cache sha).isSome = true

instance (sha : Commit) (env : Environment F Archive) : Decidable (Hit sha env) :=
  inferInstanceAs (Decidable (env.cacheDir = true ∧ (env.disk.cache sha).isSome = true))

def CacheValid (base : World F Archive) (sha : Commit) (env : Environment F Archive) : Prop :=
  ∀ tarball, env.cacheDir = true → env.disk.cache sha = some tarball → env.outcomes.extract = true →
    ∃ tree, product t sha = some tree ∧ tarball = base.pack tree

def Corrupt (sha : Commit) (env : Environment F Archive) : Prop := Hit sha env ∧ env.outcomes.extract = false

def Faulty (sha : Commit) (env : Environment F Archive) : Prop :=
  ¬ Hit sha env ∧ ∃ i ∈ infraSteps t sha env.site.repo, env.works i = false

section

variable {t} {base : World F Archive} {sha : Commit} {env : Environment F Archive}

lemma store_code (w : World F Archive) (o : Outcomes F Archive) (id : ℕ) (sha : Commit) (d : Disk F Archive) :
    ∃ d', (store sha).exec (host w o id) none d = (some 0, d') := by
  rw [store, Script.exec, Script.exec]
  generalize (host w o id).run (.pack sha) _ = packed
  obtain ⟨ok, d'⟩ := packed
  cases ok with
  | true => exact ⟨_, rfl⟩
  | false => exact ⟨_, rfl⟩

lemma build_code (w : World F Archive) (o : Outcomes F Archive) (id : ℕ) (cacheDir : Bool) (sha : Commit)
    (d : Disk F Archive) : ∃ d', (build cacheDir sha).exec (host w o id) none d =
      (some (if cacheDir = true ∧ (d.cache sha).isSome = true then if o.extract then 0 else 2
        else if (w.gcc sha).isSome then 0 else 1), d') := by
  rw [build, Script.exec]
  by_cases hit : cacheDir = true ∧ (d.cache sha).isSome = true
  · obtain ⟨tarball, htarball⟩ := Option.isSome_iff_exists.mp hit.2
    rw [if_pos hit, if_pos hit, restore, Script.exec, Script.exec, Script.exec]
    simp only [host, runCommand, htarball]
    cases o.extract with
    | true => exact ⟨_, rfl⟩
    | false => exact ⟨_, rfl⟩
  · rw [if_neg hit, if_neg hit, Script.exec, Script.exec]
    cases hgcc : w.gcc sha with
    | none =>
      simp only [host, runCommand, hgcc]
      exact ⟨_, rfl⟩
    | some tree =>
      simp only [host, runCommand, hgcc]
      cases cacheDir with
      | false => exact ⟨_, rfl⟩
      | true => exact store_code w o id sha _

lemma exitCode_eq : exitCode t base sha env = some
    (if Hit sha env then if env.outcomes.extract then .good else .skip
      else if (gccOf t env.works env.site sha).isSome then .good else .bad) := by
  obtain ⟨d', hbuild⟩ : ∃ d',
    (build env.cacheDir sha).exec (host (worldIn t base env) env.outcomes 0) none env.disk =
      (some (if Hit sha env then if env.outcomes.extract then 0 else 2
        else if (gccOf t env.works env.site sha).isSome then 0 else 1), d') :=
    build_code (worldIn t base env) env.outcomes 0 env.cacheDir sha env.disk
  rw [exitCode, predicate, buildMode, Script.exec_bind _ _ hbuild]
  by_cases hit : Hit sha env
  · rw [if_pos hit, if_pos hit]
    cases env.outcomes.extract with
    | true => rfl
    | false => rfl
  · rw [if_neg hit, if_neg hit]
    cases (gccOf t env.works env.site sha).isSome with
    | true => rfl
    | false => rfl

lemma extract_of_hit (hit : Hit sha env) (h : ¬ Corrupt sha env) : env.outcomes.extract = true := by
  by_contra hfails
  exact h ⟨hit, eq_false_of_ne_true hfails⟩

lemma exitCode_skip (h : Corrupt sha env) : exitCode t base sha env = some .skip := by
  rw [exitCode_eq, if_pos h.1, h.2]
  rfl

lemma exitCode_broken (hvalid : CacheValid t base sha env) (hnone : product t sha = none)
    (h : ¬ Corrupt sha env) :
    exitCode t base sha env = some .bad := by
  have hmiss : ¬ Hit sha env := by
    intro hit
    obtain ⟨tarball, htarball⟩ := Option.isSome_iff_exists.mp hit.2
    obtain ⟨tree, htree, -⟩ := hvalid tarball hit.1 htarball (extract_of_hit hit h)
    rw [hnone] at htree
    cases htree
  rw [exitCode_eq, if_neg hmiss, gccOf_eq, hnone, ite_self]
  rfl

lemma exitCode_builds (hsome : (product t sha).isSome = true) (h : ¬ Corrupt sha env)
    [Decidable (Faulty t sha env)] :
    exitCode t base sha env = some (if Faulty t sha env then .bad else .good) := by
  rw [exitCode_eq]
  by_cases hit : Hit sha env
  · rw [if_pos hit, if_pos (extract_of_hit hit h), if_neg (fun hf => hf.1 hit)]
  · rw [if_neg hit, gccOf_eq]
    by_cases hworks : (infraSteps t sha env.site.repo).all env.works = true
    · have hclear : ¬ Faulty t sha env := by
        rintro ⟨-, i, hi, hfails⟩
        rw [List.all_eq_true.mp hworks i hi] at hfails
        cases hfails
      rw [if_pos hworks, if_pos hsome, if_neg hclear]
    · have hfaulty : Faulty t sha env := by
        obtain ⟨i, hi, hfails⟩ := List.all_eq_false.mp (eq_false_of_ne_true hworks)
        exact ⟨hit, i, hi, eq_false_of_ne_true hfails⟩
      rw [if_neg hworks, if_pos hfaulty]
      rfl

end

theorem sameVerdict_iff (base : World F Archive) (sha : Commit) (env env' : Environment F Archive)
    (hvalid : CacheValid t base sha env) (hvalid' : CacheValid t base sha env') :
    (∀ v v', exitCode t base sha env = some v → exitCode t base sha env' = some v' →
        v ≠ .skip → v' ≠ .skip → v = v') ↔
      ((product t sha).isSome = true → ¬ Corrupt sha env → ¬ Corrupt sha env' →
        (Faulty t sha env ↔ Faulty t sha env')) := by
  classical
  by_cases hcorrupt : Corrupt sha env ∨ Corrupt sha env'
  · refine iff_of_true ?_ (fun _ h h' => (not_or.mpr ⟨h, h'⟩ hcorrupt).elim)
    intro v v' hv hv' hskip hskip'
    obtain h | h := hcorrupt
    · rw [exitCode_skip h] at hv
      exact (hskip (Option.some.inj hv).symm).elim
    · rw [exitCode_skip h] at hv'
      exact (hskip' (Option.some.inj hv').symm).elim
  · obtain ⟨h, h'⟩ := not_or.mp hcorrupt
    cases hproduct : product t sha with
    | none =>
      rw [exitCode_broken hvalid hproduct h, exitCode_broken hvalid' hproduct h']
      refine iff_of_true ?_ (fun hsome => by cases hsome)
      rintro v v' ⟨⟩ ⟨⟩ - -
      rfl
    | some tree =>
      have hsome : (product t sha).isSome = true := by rw [hproduct]; rfl
      rw [exitCode_builds hsome h, exitCode_builds hsome h']
      by_cases hf : Faulty t sha env <;> by_cases hf' : Faulty t sha env' <;> simp [hf, hf', h, h']

def plainToolchain : Toolchain Text where
  empty := []
  judge j commit dirs := match j with
    | .install => (true, (dirs.1, commit.1))
    | _ => (true, dirs)
  smokeSource buildDir := buildDir
  sidecar _ dir := (false, dir)
  libgcc _ := false
  addLibgcc _ prefixDir := prefixDir

def onlineEnvironment : Environment Text Text where
  site := ⟨true, none, none, [], [], []⟩
  works _ := true
  cacheDir := false
  outcomes := plainOutcomes
  disk := cleanDisk

def offlineEnvironment : Environment Text Text :=
  { onlineEnvironment with works := fun i => !decide (i = .fetch commitA) }

lemma online_valid : CacheValid plainToolchain plainWorld commitA onlineEnvironment := by
  rintro _ ⟨⟩

lemma offline_valid : CacheValid plainToolchain plainWorld commitA offlineEnvironment := by
  rintro _ ⟨⟩

theorem sameVerdict_counterexample :
    CacheValid plainToolchain plainWorld commitA onlineEnvironment ∧
      CacheValid plainToolchain plainWorld commitA offlineEnvironment ∧
      exitCode plainToolchain plainWorld commitA onlineEnvironment = some .good ∧
      exitCode plainToolchain plainWorld commitA offlineEnvironment = some .bad :=
  ⟨online_valid, offline_valid, rfl, rfl⟩

theorem sameVerdict_iff_offline :
    (∀ v v', exitCode plainToolchain plainWorld commitA onlineEnvironment = some v →
        exitCode plainToolchain plainWorld commitA offlineEnvironment = some v' →
        v ≠ .skip → v' ≠ .skip → v = v') ↔
      ((product plainToolchain commitA).isSome = true → ¬ Corrupt commitA onlineEnvironment →
        ¬ Corrupt commitA offlineEnvironment →
        (Faulty plainToolchain commitA onlineEnvironment ↔ Faulty plainToolchain commitA offlineEnvironment)) :=
  sameVerdict_iff plainToolchain plainWorld commitA onlineEnvironment offlineEnvironment
    online_valid offline_valid

end ShMonitor.Bisect.BuildGcc
