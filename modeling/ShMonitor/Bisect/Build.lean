import Mathlib.Logic.Function.Basic
import ShMonitor.Shell.Script
import ShMonitor.Workflow.LastGreen

/-! `build` of `sh-bisect-predicate.sh`: build the compiler of the commit under test, or restore it from
the cache, if `BISECT_CACHE_DIR` is set (`cacheDir`). `World` holds what the code outside does, `Outcomes`
what happens in one invocation. -/

namespace ShMonitor.Bisect.Build

open ShMonitor.Texts ShMonitor.Shell Workflow.LastGreen

structure World (Tree Archive : Type) where
  empty : Tree
  pack : Tree → Archive
  unpack : Tree → Archive → Tree
  gcc : Commit → Option Tree
  hasGcc : Tree → Bool
  reproduce : Text → Option Tree → Bool
  measure : Text → Option Tree → Bool × Option Text
  jq : Text → Text → Text
  awkZero : Text → Bool
  awkLess : Text → Text → Bool

/-- A sum with the compiler that was tested and the invocation whose test run wrote it. -/
structure SumFile where
  text : Text
  compiler : Option Commit
  writer : ℕ
deriving DecidableEq

structure BuildTree where
  compiler : Option Commit
  hasGcc : Bool
  sum : Option SumFile

/-- `GCC_PREFIX`, `BISECT_CACHE_DIR` with its `.tmp` files, `GCC_BUILD_DIR` and the files of `OUT_DIR`. -/
structure Disk (Tree Archive : Type) where
  installed : Option Tree
  cache : Commit → Option Archive
  tmp : Commit → Option Archive
  buildTree : Option BuildTree
  gccSum : Option SumFile
  metricOut : Option Text

inductive Command where
  | rmPrefix
  | mkdirPrefix
  | extract (sha : Commit)
  | buildGcc (sha : Commit)
  | mkdirCache
  | pack (sha : Commit)
  | mvTarball (sha : Commit)
  | rmTmp (sha : Commit)
  | reproduce (command : Text)
  | rmMetric
  | mkdirOut
  | measure (script : Text)
  | checkGcc
  | copySum

/-- Which commands succeed, what `make check-gcc` writes, and what a command leaves that fails or is
killed. A build that stops before it clears the build tree leaves `none` there, else whether there
is a `gcc`. -/
structure Outcomes (Tree Archive : Type) where
  extract : Bool
  pack : Bool
  mv : Bool
  check : Option Text
  copy : Bool
  partialTree : Option Tree
  partialArchive : Option Archive
  partialBuild : Option Bool
  partialSum : Option SumFile
  partialMetric : Option Text

variable {Tree Archive : Type}

def leftBuild (o : Outcomes Tree Archive) (sha : Commit) (old : Option BuildTree) : Option BuildTree :=
  match o.partialBuild with
  | none => old
  | some hasGcc => some ⟨some sha, hasGcc, none⟩

def runCommand (w : World Tree Archive) (o : Outcomes Tree Archive) (id : ℕ) :
    Command → Disk Tree Archive → Bool × Disk Tree Archive
  | .rmPrefix, d => (true, { d with installed := none })
  | .mkdirPrefix, d => (true, { d with installed := some (d.installed.getD w.empty) })
  | .extract sha, d =>
    match d.cache sha, d.installed with
    | some tarball, some tree =>
      if o.extract then (true, { d with installed := some (w.unpack tree tarball) })
      else (false, { d with installed := o.partialTree })
    | _, _ => (false, d)
  | .buildGcc sha, d =>
    match w.gcc sha with
    | some tree => (true, { d with installed := some tree, buildTree := some ⟨some sha, true, none⟩ })
    | none => (false, { d with installed := o.partialTree, buildTree := leftBuild o sha d.buildTree })
  | .mkdirCache, d => (true, d)
  | .pack sha, d =>
    match o.pack, d.installed with
    | true, some tree => (true, { d with tmp := Function.update d.tmp sha (some (w.pack tree)) })
    | _, _ => (false, { d with tmp := Function.update d.tmp sha o.partialArchive })
  | .mvTarball sha, d =>
    match o.mv, d.tmp sha with
    | true, some tarball =>
      (true, { d with
        cache := Function.update d.cache sha (some tarball), tmp := Function.update d.tmp sha none })
    | _, _ => (false, d)
  | .rmTmp sha, d => (true, { d with tmp := Function.update d.tmp sha none })
  | .reproduce command, d => (w.reproduce command d.installed, d)
  | .rmMetric, d => (true, { d with metricOut := none })
  | .mkdirOut, d => (true, d)
  | .measure script, d =>
    let outcome := w.measure script d.installed
    (outcome.1, { d with metricOut := outcome.2.or d.metricOut })
  | .checkGcc, d =>
    (true, { d with buildTree := d.buildTree.map fun b =>
      { b with sum := (o.check.map fun text => ⟨text, b.compiler, id⟩).or b.sum } })
  | .copySum, d =>
    match o.copy, d.buildTree.bind BuildTree.sum with
    | true, some sum => (true, { d with gccSum := some sum })
    | _, _ => (false, d)

def tornCommand (w : World Tree Archive) (o : Outcomes Tree Archive) (id : ℕ) :
    Command → Disk Tree Archive → Disk Tree Archive
  | .rmPrefix, d | .mkdirPrefix, d | .extract _, d => { d with installed := o.partialTree }
  | .buildGcc sha, d => { d with installed := o.partialTree, buildTree := leftBuild o sha d.buildTree }
  | .pack sha, d | .rmTmp sha, d => { d with tmp := Function.update d.tmp sha o.partialArchive }
  -- A rename is atomic: killed, it has moved the archive or it has not.
  | .mvTarball sha, d => (runCommand w o id (.mvTarball sha) d).2
  | .rmMetric, d | .measure _, d => { d with metricOut := o.partialMetric }
  | .checkGcc, d => { d with buildTree := d.buildTree.map fun b => { b with sum := o.partialSum } }
  | .copySum, d => { d with gccSum := o.partialSum }
  | .mkdirCache, d | .reproduce _, d | .mkdirOut, d => d

def host (w : World Tree Archive) (o : Outcomes Tree Archive) (id : ℕ) : Host (Disk Tree Archive) Command :=
  ⟨runCommand w o id, tornCommand w o id⟩

abbrev Predicate (Tree Archive ρ : Type) := Script (Disk Tree Archive) Command ρ

def restore (sha : Commit) : Predicate Tree Archive ℕ :=
  .run .rmPrefix fun _ => .run .mkdirPrefix fun _ => .run (.extract sha) fun ok =>
    if ok then .ret 0 else .run .rmPrefix fun _ => .ret 2

def store (sha : Commit) : Predicate Tree Archive ℕ :=
  .run .mkdirCache fun _ => .run (.pack sha) fun ok =>
    if ok then .run (.mvTarball sha) fun _ => .ret 0 else .run (.rmTmp sha) fun _ => .ret 0

def build (cacheDir : Bool) (sha : Commit) : Predicate Tree Archive ℕ :=
  .test fun d =>
    if cacheDir = true ∧ (d.cache sha).isSome = true then restore sha
    else
      .run .rmPrefix fun _ => .run (.buildGcc sha) fun ok =>
        if ok then if cacheDir then store sha else .ret 0
        else .ret 1

def CacheSound (w : World Tree Archive) (d : Disk Tree Archive) : Prop :=
  ∀ sha tarball, d.cache sha = some tarball → ∃ tree, w.gcc sha = some tree ∧ tarball = w.pack tree

lemma cacheSound_mv {w : World Tree Archive} {o : Outcomes Tree Archive} {id : ℕ} {d : Disk Tree Archive}
    {sha : Commit} (h : CacheSound w d) (ht : ∀ tarball, d.tmp sha = some tarball →
      ∃ tree, w.gcc sha = some tree ∧ tarball = w.pack tree) :
    CacheSound w (runCommand w o id (.mvTarball sha) d).2 := by
  intro sha' tarball' hc
  simp only [runCommand] at hc
  split at hc
  · rename_i tarball _ htmp
    by_cases hs : sha' = sha
    · subst hs
      simp only [Function.update_self, Option.some.injEq] at hc
      exact hc ▸ ht tarball htmp
    · simp only [Function.update_of_ne hs] at hc
      exact h sha' tarball' hc
  · exact h sha' tarball' hc

inductive Built (w : World Tree Archive) (o : Outcomes Tree Archive) (cacheDir : Bool) (sha : Commit)
    (before after : Disk Tree Archive) : ℕ → Prop
  | ok (tree : Tree) (gcc : w.gcc sha = some tree) (installed : after.installed = some tree) :
      Built w o cacheDir sha before after 0
  | broken (gcc : w.gcc sha = none) : Built w o cacheDir sha before after 1
  | notRestored (hit : cacheDir = true ∧ (before.cache sha).isSome = true) (extract : o.extract = false) :
      Built w o cacheDir sha before after 2

section

variable {w : World Tree Archive} {o : Outcomes Tree Archive} {id : ℕ} {sha : Commit} {d : Disk Tree Archive}

lemma restore_meets (hw : ∀ tree, w.unpack w.empty (w.pack tree) = tree) (h : CacheSound w d)
    (hit : (d.cache sha).isSome = true) :
    (restore sha).Meets (host w o id) (fun rc d' => CacheSound w d' ∧ Built w o true sha d d' rc)
      (CacheSound w) d := by
  obtain ⟨tarball, ht⟩ := Option.isSome_iff_exists.mp hit
  obtain ⟨tree, hg, rfl⟩ := h sha tarball ht
  simp only [restore, Script.meets_run, host, runCommand, tornCommand, ht, Option.getD_none, hw]
  refine ⟨h, h, h, ?_⟩
  cases hx : o.extract with
  | true => exact ⟨h, .ok tree hg rfl⟩
  | false => exact ⟨h, h, .notRestored ⟨rfl, hit⟩ hx⟩

lemma run_pack (id : ℕ) {tree : Tree} (hi : d.installed = some tree) :
    runCommand w o id (.pack sha) d = (o.pack, { d with
      tmp := Function.update d.tmp sha (if o.pack then some (w.pack tree) else o.partialArchive) }) := by
  cases hp : o.pack <;> simp [runCommand, hp, hi]

lemma installed_mv (w : World Tree Archive) (o : Outcomes Tree Archive) (id : ℕ) (sha : Commit)
    (d : Disk Tree Archive) : (runCommand w o id (.mvTarball sha) d).2.installed = d.installed := by
  simp only [runCommand]
  split <;> rfl

lemma store_meets (h : CacheSound w d) {tree : Tree} (hg : w.gcc sha = some tree)
    (hi : d.installed = some tree) :
    (store sha).Meets (host w o id) (fun rc d' => CacheSound w d' ∧ rc = 0 ∧ d'.installed = some tree)
      (CacheSound w) d := by
  rw [store, Script.meets_run]
  refine ⟨h, ?_⟩
  rw [Script.meets_run_of (run_pack id hi)]
  refine ⟨h, ?_⟩
  cases o.pack with
  | false => exact ⟨h, h, rfl, hi⟩
  | true =>
    -- The archive is complete before it's moved to where later invocations look for it.
    have hmv : CacheSound w (runCommand w o id (.mvTarball sha)
        { d with tmp := Function.update d.tmp sha (some (w.pack tree)) }).2 := by
      refine cacheSound_mv h ?_
      intro tarball ht
      simp only [Function.update_self, Option.some.injEq] at ht
      exact ⟨tree, hg, ht.symm⟩
    exact ⟨hmv, hmv, rfl, (installed_mv w o id sha _).trans hi⟩

variable (o id sha) in
lemma build_meets (hw : ∀ tree, w.unpack w.empty (w.pack tree) = tree) {cacheDir : Bool}
    (h : cacheDir = true → CacheSound w d) :
    (build cacheDir sha).Meets (host w o id)
      (fun rc d' => (cacheDir = true → CacheSound w d') ∧ Built w o cacheDir sha d d' rc)
      (fun d' => cacheDir = true → CacheSound w d') d := by
  rw [build, Script.meets_test]
  split
  · obtain ⟨rfl, hit⟩ := ‹cacheDir = true ∧ _›
    exact Script.Meets.mono (fun _ _ hx => ⟨fun _ => hx.1, hx.2⟩) (fun _ hx _ => hx)
      (restore_meets hw (h rfl) hit)
  · refine ⟨h, h, ?_⟩
    cases hg : w.gcc sha with
    | none =>
      simp only [host, runCommand, hg]
      exact ⟨h, .broken hg⟩
    | some tree =>
      simp only [host, runCommand, hg]
      cases cacheDir with
      | false => exact ⟨h, .ok tree hg rfl⟩
      | true =>
        refine Script.Meets.mono ?_ (fun _ hx _ => hx) (store_meets ?_ hg rfl)
        · rintro rc d' ⟨hs, rfl, hi⟩
          exact ⟨fun _ => hs, .ok tree hg hi⟩
        · exact h rfl

end

end ShMonitor.Bisect.Build
