import ShMonitor.Runs
import ShMonitor.Bisect.Build

/-! `sh-bisect-predicate.sh` in build, script and metric mode, over any sequence of invocations that share
the cache and the prefix. The exit codes 0, 1 and 125 are `good`, `bad` and `skip`. -/

namespace ShMonitor.Bisect.Predicate

open ShMonitor.Texts ShMonitor.Shell Workflow.LastGreen Build Runs

variable {Tree Archive : Type}

inductive Verdict where
  | good
  | bad
  | skip
deriving DecidableEq, Repr

structure MetricArgs where
  script : Text
  key : Text
  threshold : Text
  direction : Text

def setOption (m : MetricArgs) (option value : Text) : Option MetricArgs :=
  if option = "--script".toList then some { m with script := value }
  else if option = "--key".toList then some { m with key := value }
  else if option = "--threshold".toList then some { m with threshold := value }
  else if option = "--direction".toList then some { m with direction := value }
  else none

def parseArgs (m : MetricArgs) : List Text → Option MetricArgs
  | [] => some m
  | [_] => none
  | option :: value :: args => (setOption m option value).bind (fun m => parseArgs m args)

def below : Text := "below".toList
def above : Text := "above".toList

def metricArgs (args : List Text) : Option MetricArgs :=
  (parseArgs ⟨[], [], [], []⟩ args).bind fun m =>
    if m.script = [] ∨ m.key = [] ∨ m.threshold = [] ∨ m.direction = [] then none
    else if m.direction ≠ below ∧ m.direction ≠ above then none
    else some m

def judge (w : World Tree Archive) (m : MetricArgs) : Option Text → Verdict
  | none => .skip
  | some json =>
    let value := w.jq m.key json
    if value = [] ∨ value = "null".toList then .skip
    else if w.awkZero value then .skip
    else if m.direction = below ∧ w.awkLess value m.threshold ∨
      m.direction = above ∧ w.awkLess m.threshold value then .bad
    else .good

def buildMode (cacheDir : Bool) (sha : Commit) : Predicate Tree Archive Verdict :=
  (build cacheDir sha).bind fun rc => if rc = 0 then .ret .good else if rc = 2 then .ret .skip else .ret .bad

def scriptMode (cacheDir : Bool) (sha : Commit) (command : Text) : Predicate Tree Archive Verdict :=
  (build cacheDir sha).bind fun rc =>
    if rc ≠ 0 then .ret .skip
    else .run (.reproduce command) fun ok => if ok then .ret .good else .ret .bad

def metricMode (w : World Tree Archive) (cacheDir : Bool) (sha : Commit) (args : List Text) :
    Predicate Tree Archive Verdict :=
  match metricArgs args with
  | none => .ret .skip
  | some m =>
    (build cacheDir sha).bind fun rc =>
      if rc ≠ 0 then .ret .skip
      else
        .run .rmMetric fun _ => .run .mkdirOut fun _ => .run (.measure m.script) fun ok =>
          if ok then .test fun d => .ret (judge w m d.metricOut) else .ret .skip

inductive Mode where
  | build
  | script (command : Text)
  | metric (args : List Text)

def predicate (w : World Tree Archive) (cacheDir : Bool) (mode : Mode) (head : Option Commit) :
    Predicate Tree Archive Verdict :=
  match head with
  | none => .ret .skip
  | some sha =>
    match mode with
    | .build => buildMode cacheDir sha
    | .script command => scriptMode cacheDir sha command
    | .metric args => metricMode w cacheDir sha args

def verdict (w : World Tree Archive) (sha : Commit) : Mode → Verdict
  | .build => if w.gcc sha = none then .bad else .good
  | .script command => (w.gcc sha).elim .skip fun tree =>
      if w.reproduce command (some tree) then .good else .bad
  | .metric args => (metricArgs args).elim .skip fun m => (w.gcc sha).elim .skip fun tree =>
      if (w.measure m.script (some tree)).1 then judge w m (w.measure m.script (some tree)).2 else .skip

def ExtractionFailed (o : Outcomes Tree Archive) (cacheDir : Bool) (head : Option Commit)
    (d : Disk Tree Archive) :
    Prop :=
  ∃ sha, head = some sha ∧ cacheDir = true ∧ (d.cache sha).isSome = true ∧ o.extract = false

section

variable {w : World Tree Archive} (hw : ∀ tree, w.unpack w.empty (w.pack tree) = tree)
  {o : Outcomes Tree Archive} {id : ℕ} {cacheDir : Bool} {d : Disk Tree Archive}

include hw

lemma bind_build_meets (h : cacheDir = true → CacheSound w d) {sha : Commit} {v : Verdict}
    {next : ℕ → Predicate Tree Archive Verdict}
    (hok : ∀ tree d', w.gcc sha = some tree → d'.installed = some tree → (cacheDir = true → CacheSound w d') →
      (next 0).Meets (host w o id) (fun v' d'' => (cacheDir = true → CacheSound w d'') ∧ v' = v)
        (fun d'' => cacheDir = true → CacheSound w d'') d')
    (hbroken : w.gcc sha = none → next 1 = .ret v) (hfailed : next 2 = .ret .skip) :
    ((build cacheDir sha).bind next).Meets (host w o id)
      (fun v' d' => (cacheDir = true → CacheSound w d') ∧
        (v' = v ∨ v' = .skip ∧ ExtractionFailed o cacheDir (some sha) d))
      (fun d' => cacheDir = true → CacheSound w d') d := by
  refine Script.Meets.bind (Script.Meets.mono ?_ (fun _ hx => hx) (build_meets o id sha hw h))
  rintro rc d' ⟨hs, hb⟩
  cases hb with
  | ok tree gcc installed =>
    exact Script.Meets.mono (fun _ _ hv => ⟨hv.1, Or.inl hv.2⟩) (fun _ hx => hx) (hok tree d' gcc installed hs)
  | broken gcc =>
    rw [hbroken gcc]
    exact ⟨hs, Or.inl rfl⟩
  | notRestored hit extract =>
    rw [hfailed]
    exact ⟨hs, Or.inr ⟨rfl, sha, rfl, hit.1, hit.2, extract⟩⟩

lemma mode_meets (h : cacheDir = true → CacheSound w d) (sha : Commit) (mode : Mode) :
    (predicate w cacheDir mode (some sha)).Meets (host w o id)
      (fun v d' => (cacheDir = true → CacheSound w d') ∧
        (v = verdict w sha mode ∨ v = .skip ∧ ExtractionFailed o cacheDir (some sha) d))
      (fun d' => cacheDir = true → CacheSound w d') d := by
  cases mode with
  | build =>
    refine bind_build_meets hw h ?_ ?_ rfl
    · intro tree d' hg _ hs
      exact ⟨hs, by simp [verdict, hg]⟩
    · intro hg
      simp [verdict, hg]
  | script command =>
    refine bind_build_meets hw h ?_ ?_ rfl
    · intro tree d' hg hi hs
      refine ⟨hs, ?_⟩
      simp only [host, runCommand, hi, verdict, hg, Option.elim_some]
      cases w.reproduce command (some tree) <;> exact ⟨hs, rfl⟩
    · intro hg
      simp [verdict, hg]
  | metric args =>
    simp only [predicate, metricMode, verdict]
    cases hm : metricArgs args with
    | none => exact ⟨h, Or.inl rfl⟩
    | some m =>
      refine bind_build_meets hw h ?_ ?_ rfl
      · intro tree d' hg hi hs
        refine ⟨hs, hs, hs, ?_⟩
        simp only [host, runCommand, hi, hg, Option.elim_some]
        cases (w.measure m.script (some tree)).1 with
        | true => exact ⟨hs, by simp⟩
        | false => exact ⟨hs, rfl⟩
      · intro hg
        simp [hg]

end

structure Invocation (Tree Archive : Type) where
  head : Option Commit
  mode : Mode
  outcomes : Outcomes Tree Archive
  kill : Option ℕ

def invoke (w : World Tree Archive) (cacheDir : Bool) (inv : Invocation Tree Archive) (d : Disk Tree Archive) :
    Option Verdict × Disk Tree Archive :=
  (predicate w cacheDir inv.mode inv.head).exec (host w inv.outcomes 0) inv.kill d

def next (w : World Tree Archive) (d : Disk Tree Archive) (inv : Invocation Tree Archive) : Disk Tree Archive :=
  (invoke w true inv d).2

lemma predicate_meets {w : World Tree Archive} (hw : ∀ tree, w.unpack w.empty (w.pack tree) = tree)
    (o : Outcomes Tree Archive) (id : ℕ) (cacheDir : Bool) {d : Disk Tree Archive}
    (h : cacheDir = true → CacheSound w d) (mode : Mode) (head : Option Commit) :
    (predicate w cacheDir mode head).Meets (host w o id)
      (fun v d' => (cacheDir = true → CacheSound w d') ∧
        (v = head.elim .skip (verdict w · mode) ∨ v = .skip ∧ ExtractionFailed o cacheDir head d))
      (fun d' => cacheDir = true → CacheSound w d') d := by
  cases head with
  | none => exact ⟨h, Or.inl rfl⟩
  | some sha => exact mode_meets hw h sha mode

lemma cacheSound_next {w : World Tree Archive} (hw : ∀ tree, w.unpack w.empty (w.pack tree) = tree)
    (d : Disk Tree Archive) (inv : Invocation Tree Archive) (h : CacheSound w d) :
    CacheSound w (next w d inv) := by
  have hs := (predicate_meets hw inv.outcomes 0 true (fun _ => h) inv.mode inv.head).sound inv.kill
  rw [next, invoke]
  cases hv : ((predicate w true inv.mode inv.head).exec (host w inv.outcomes 0) inv.kill d).1 with
  | none => exact hs.2 hv rfl
  | some v => exact (hs.1 v hv).1 rfl

lemma uncached_verdict {w : World Tree Archive} (hw : ∀ tree, w.unpack w.empty (w.pack tree) = tree)
    (o : Outcomes Tree Archive) (id : ℕ) (mode : Mode) (head : Option Commit) (d : Disk Tree Archive) :
    ((predicate w false mode head).exec (host w o id) none d).1 =
      some (head.elim .skip (verdict w · mode)) := by
  obtain ⟨v, d', hv⟩ := Script.exec_none_isSome (host w o id) (predicate w false mode head) d
  have hs := (predicate_meets hw o id false (d := d) (fun h => by cases h) mode head).sound none
  rw [hv] at hs ⊢
  obtain ⟨-, rfl | ⟨-, sha, -, hc, -⟩⟩ := hs.1 v rfl
  · rfl
  · cases hc

theorem cache_transparent (w : World Tree Archive) (hw : ∀ tree, w.unpack w.empty (w.pack tree) = tree)
    (start : Disk Tree Archive) (hstart : ∀ sha, start.cache sha = none)
    (invs : List (Invocation Tree Archive)) :
    let d := after (next w) start invs
    CacheSound w d ∧
      (∀ sha o kill d', (build true sha).exec (host w o 0) kill d = (some 0, d') →
        ∃ tree, w.gcc sha = some tree ∧ d'.installed = some tree) ∧
      ∀ inv v d', invoke w true inv d = (some v, d') →
        (∀ o d₀, (invoke w false { inv with outcomes := o, kill := none } d₀).1 = some v) ∨
          v = .skip ∧ ExtractionFailed inv.outcomes true inv.head d := by
  have hsound : CacheSound w (after (next w) start invs) :=
    invariant_always (CacheSound w) (cacheSound_next hw) (fun sha _ ht => by simp [hstart sha] at ht) invs
  refine ⟨hsound, ?_, ?_⟩
  · intro sha o kill d' hb
    have hs := (build_meets o 0 sha hw (fun _ : true = true => hsound)).sound kill
    rw [hb] at hs
    cases (hs.1 0 rfl).2 with
    | ok tree gcc installed => exact ⟨tree, gcc, installed⟩
  · intro inv v d' hv
    have hs := (predicate_meets hw inv.outcomes 0 true (fun _ => hsound) inv.mode inv.head).sound inv.kill
    rw [invoke] at hv
    rw [hv] at hs
    obtain ⟨-, rfl | hfailed⟩ := hs.1 v rfl
    · exact Or.inl (fun o d₀ => uncached_verdict hw o 0 inv.mode inv.head d₀)
    · exact Or.inr hfailed

def plainWorld : World Text Text where
  empty := []
  pack tree := tree
  unpack _ tarball := tarball
  gcc sha := some sha.1
  hasGcc _ := true
  reproduce command tree := tree = some command
  measure _ tree := (true, tree)
  jq _ json := json
  awkZero value := value = ['0']
  awkLess value threshold := value.length < threshold.length

def plainOutcomes : Outcomes Text Text where
  extract := true
  pack := true
  mv := true
  check := none
  copy := true
  partialTree := none
  partialArchive := none
  partialBuild := none
  partialSum := none
  partialMetric := none

def cleanDisk : Disk Text Text := ⟨none, fun _ => none, fun _ => none, none, none, none⟩

def buildAt (sha : Commit) (kill : Option ℕ) : Invocation Text Text := ⟨some sha, .build, plainOutcomes, kill⟩

def commitA : Commit := ⟨['a'], List.cons_ne_nil _ _⟩
def commitB : Commit := ⟨['b'], List.cons_ne_nil _ _⟩

theorem cache_transparent_example :
    (∀ o d₀, (invoke plainWorld false { buildAt commitA none with outcomes := o } d₀).1 = some .good) ∨
      Verdict.good = .skip ∧ ExtractionFailed plainOutcomes true (some commitA)
        (after (next plainWorld) cleanDisk [buildAt commitA (some 3), buildAt commitB none]) :=
  (cache_transparent plainWorld (fun _ => rfl) cleanDisk (fun _ => rfl)
    [buildAt commitA (some 3), buildAt commitB none]).2.2 (buildAt commitA none) .good _ rfl

end ShMonitor.Bisect.Predicate
