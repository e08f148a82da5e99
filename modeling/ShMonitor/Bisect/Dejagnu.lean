import ShMonitor.Bisect.Predicate

/-! `run-dejagnu.sh` and the dejagnu mode of `sh-bisect-predicate.sh`. -/

namespace ShMonitor.Bisect.Dejagnu

open ShMonitor.Texts ShMonitor.Shell Workflow.LastGreen Build Predicate Runs

variable {Tree Archive : Type}

def runDejagnu (w : World Tree Archive) : Predicate Tree Archive Bool :=
  .test fun d =>
    if d.installed.map w.hasGcc ≠ some true then .ret false
    else if d.buildTree.map BuildTree.hasGcc ≠ some true then .ret false
    else .run .mkdirOut fun ok =>
      if ok then .run .checkGcc fun _ => .run .copySum fun ok => .ret ok else .ret false

def failNeedle (t : Text) : Text := "FAIL: ".toList ++ t

lemma not_mem_failNeedle {c : Char} (hc : c ∉ "FAIL: ".toList) {t : Text} (h : c ∉ t) : c ∉ failNeedle t := by
  intro hm
  obtain hm | hm := List.mem_append.mp hm
  · exact hc hm
  · exact h hm

def inspect (file : Text) : Option SumFile → Verdict
  | none => .skip
  | some sum =>
    if (readLines file).any (fun t => decide (t ≠ []) && grepF (failNeedle t) sum.text) then .bad else .good

def dejagnuMode (w : World Tree Archive) (cacheDir : Bool) (sha : Commit) (file : Option Text) :
    Predicate Tree Archive Verdict :=
  match file with
  | none => .ret .skip
  | some file =>
    (build cacheDir sha).bind fun rc =>
      if rc ≠ 0 then .ret .skip
      else (runDejagnu w).bind fun _ => .test fun d => .ret (inspect file d.gccSum)

def dejagnuPredicate (w : World Tree Archive) (cacheDir : Bool) (head : Option Commit) (file : Option Text) :
    Predicate Tree Archive Verdict :=
  match head with
  | none => .ret .skip
  | some sha => dejagnuMode w cacheDir sha file

def prepared (w : World Tree Archive) (o : Outcomes Tree Archive) (cacheDir : Bool) (sha : Commit)
    (d : Disk Tree Archive) : Option (Tree × Option BuildTree) :=
  match cacheDir, d.cache sha with
  | true, some tarball => if o.extract then some (w.unpack w.empty tarball, d.buildTree) else none
  | _, _ => (w.gcc sha).map fun tree => (tree, some ⟨some sha, true, none⟩)

def copied (w : World Tree Archive) (o : Outcomes Tree Archive) (id : ℕ) (tree : Tree)
    (buildTree : Option BuildTree) :
    Option SumFile :=
  buildTree.bind fun b =>
    if w.hasGcc tree = true ∧ b.hasGcc = true ∧ o.copy = true then
      (o.check.map fun text => ⟨text, b.compiler, id⟩).or b.sum
    else none

section

variable (w : World Tree Archive) (o : Outcomes Tree Archive) (id : ℕ) (sha : Commit)

lemma store_exec {d : Disk Tree Archive} {tree : Tree} (hi : d.installed = some tree) :
    ∃ d', (store sha).exec (host w o id) none d = (some 0, d') ∧ d'.gccSum = d.gccSum ∧
      d'.installed = some tree ∧ d'.buildTree = d.buildTree := by
  rw [store, Script.exec, Script.exec_run_of (run_pack id hi)]
  cases o.pack with
  | false => exact ⟨_, rfl, rfl, hi, rfl⟩
  | true =>
    refine ⟨_, rfl, ?_, (installed_mv w o id sha _).trans hi, ?_⟩
    · simp only [host, runCommand]
      split <;> rfl
    · simp only [host, runCommand]
      split <;> rfl

lemma restore_exec {d : Disk Tree Archive} {tarball : Archive} (ht : d.cache sha = some tarball) :
    ∃ rc d', (restore sha).exec (host w o id) none d = (some rc, d') ∧ d'.gccSum = d.gccSum ∧
      if o.extract then rc = 0 ∧ d'.installed = some (w.unpack w.empty tarball) ∧ d'.buildTree = d.buildTree
      else rc ≠ 0 := by
  simp only [restore, Script.exec, host, runCommand, ht, Option.getD_none]
  cases o.extract with
  | true => exact ⟨_, _, rfl, rfl, rfl, rfl, rfl⟩
  | false => exact ⟨_, _, rfl, rfl, Nat.succ_ne_zero _⟩

lemma build_exec (cacheDir : Bool) (d : Disk Tree Archive) :
    ∃ rc d', (build cacheDir sha).exec (host w o id) none d = (some rc, d') ∧ d'.gccSum = d.gccSum ∧
      match prepared w o cacheDir sha d with
      | none => rc ≠ 0
      | some p => rc = 0 ∧ d'.installed = some p.1 ∧ d'.buildTree = p.2 := by
  rw [build, Script.exec]
  by_cases hit : cacheDir = true ∧ (d.cache sha).isSome = true
  · rw [if_pos hit]
    obtain ⟨rfl, hs⟩ := hit
    obtain ⟨tarball, ht⟩ := Option.isSome_iff_exists.mp hs
    obtain ⟨rc, d', he, hsum, hr⟩ := restore_exec w o id sha ht
    refine ⟨rc, d', he, hsum, ?_⟩
    cases hx : o.extract <;> simpa [prepared, ht, hx] using hr
  · rw [if_neg hit]
    have hmiss : prepared w o cacheDir sha d = (w.gcc sha).map fun tree =>
      (tree, some ⟨some sha, true, none⟩) := by
      cases cacheDir with
      | false => rfl
      | true =>
        have hc : d.cache sha = none := by simpa using hit
        simp [prepared, hc]
    rw [hmiss]
    cases hg : w.gcc sha with
    | none =>
      simp only [Script.exec, host, runCommand, hg]
      exact ⟨_, _, rfl, rfl, Nat.succ_ne_zero _⟩
    | some tree =>
      simp only [Script.exec, host, runCommand, hg]
      cases cacheDir with
      | false => exact ⟨_, _, rfl, rfl, rfl, rfl, rfl⟩
      | true =>
        obtain ⟨d', he, hsum, hi, hb⟩ := store_exec w o id sha
          (d := { d with installed := some tree, buildTree := some ⟨some sha, true, none⟩ }) rfl
        exact ⟨_, d', he, hsum, rfl, hi, hb⟩

lemma runDejagnu_exec {d : Disk Tree Archive} {tree : Tree} (hi : d.installed = some tree) :
    ∃ ok d', (runDejagnu w).exec (host w o id) none d = (some ok, d') ∧
      d'.gccSum = (copied w o id tree d.buildTree).or d.gccSum := by
  rw [runDejagnu, Script.exec, hi, Option.map_some]
  cases hg : w.hasGcc tree with
  | false => exact ⟨false, d, rfl, by cases d.buildTree <;> simp [copied, hg]⟩
  | true =>
    cases hb : d.buildTree with
    | none => exact ⟨false, d, rfl, rfl⟩
    | some b =>
      cases hgcc : b.hasGcc with
      | false => exact ⟨false, d, by simp [Script.exec, hgcc], by simp [copied, hgcc]⟩
      | true =>
        simp only [ne_eq, not_true_eq_false, if_false, Option.map_some, hgcc, Script.exec, host, runCommand,
          if_true, hb, Option.bind_some, copied, hg, true_and]
        cases o.copy with
        | false => exact ⟨false, _, rfl, rfl⟩
        | true =>
          cases (o.check.map fun text => (⟨text, b.compiler, id⟩ : SumFile)).or b.sum with
          | none => exact ⟨false, _, rfl, rfl⟩
          | some sum => exact ⟨true, _, rfl, rfl⟩

lemma dejagnuMode_exec (cacheDir : Bool) (file : Text) (d : Disk Tree Archive) :
    ∃ v d', (dejagnuMode w cacheDir sha (some file)).exec (host w o id) none d = (some v, d') ∧
      match prepared w o cacheDir sha d with
      | none => v = .skip
      | some p => d'.gccSum = (copied w o id p.1 p.2).or d.gccSum ∧ v = inspect file d'.gccSum := by
  obtain ⟨rc, d', he, hsum, hp⟩ := build_exec w o id sha cacheDir d
  rw [dejagnuMode, Script.exec_bind (host w o id) _ he]
  cases hx : prepared w o cacheDir sha d with
  | none =>
    rw [hx] at hp
    exact ⟨_, _, by rw [if_pos hp]; rfl, rfl⟩
  | some p =>
    rw [hx] at hp
    obtain ⟨rfl, hi, hb⟩ := hp
    obtain ⟨ok, d'', hr, hs⟩ := runDejagnu_exec w o id hi
    rw [hb, hsum] at hs
    refine ⟨_, d'', ?_, hs, rfl⟩
    simp only [ne_eq, not_true_eq_false, if_false]
    rw [Script.exec_bind (host w o id) _ hr]
    rfl

end

end ShMonitor.Bisect.Dejagnu
