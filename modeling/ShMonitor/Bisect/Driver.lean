import ShMonitor.Bisect.Log

/-! `bisect-aug04-regression.sh`: two bisections of one range that share the cache, one after the
other, and the summary of what they found. -/

namespace ShMonitor.Bisect.Driver

open Texts Bisection Build Predicate Session Log Runs Shell Workflow.LastGreen

variable {Tree Archive α : Type}

def goodRev : Text := "672923ae05596d602c16f4bdb74".toList

def badRev : Text := "91dda5028f6a7adcb4bf8f98484".toList

def csibeKey : Text := "csibe_total_os_bytes_sh4".toList

def csibeGood : Text := "1543331".toList

def csibeBad : Text := "1496355".toList

def csibeThreshold : Text := "1519843".toList

def iceMode : Mode := .script "TARGET=sh4-linux-gnu scripts/run-busybox.sh".toList

def csibeMode : Mode :=
  .metric ["--script".toList, "scripts/run-csibe.sh".toList, "--key".toList, csibeKey,
    "--threshold".toList, csibeThreshold, "--direction".toList, below]

def culpritFromLog (log : Text) : Text := (culprits log).head?.getD []

/-- What happens while the driver runs; `fetch`, `checkout` and `tee` (of `summary.txt`) are exit
statuses. -/
structure Conditions (Tree Archive : Type) where
  preflight : Bool
  fetch : ℕ
  iceTicks : List (Tick Tree Archive)
  icePrinted : Printed
  csibeTicks : List (Tick Tree Archive)
  csibePrinted : Printed
  checkout : ℕ
  reportTick : Tick Tree Archive
  tee : ℕ
  gitLog : Text → Option Text
  outRoot : Text
  keepCache : Bool

def describe (gitLog : Text → Option Text) (sha : Text) : Text :=
  (if sha = [] then none else gitLog sha).getD "(not identified)".toList

def sameLine : Text := "=> SAME commit causes both symptoms.".toList

def differentLine : Text := "=> DIFFERENT commits. The two symptoms are independent.".toList

def couldNotLine : Text := "=> COULD NOT COMPARE: at least one bisect failed to identify a culprit.".toList

def iceMissing : Text := "   - BusyBox ICE bisect did not converge on a culprit (see bisect1-ice.log).".toList

def csibeMissing : Text :=
  "   - CSiBE size bisect did not converge on a culprit (see bisect2-csibe.log).".toList

def advice : List Text :=
  ["   This usually means every commit in range was skipped — check the".toList,
    "   preflight output above and the log for build/skip reasons before".toList, "   re-running.".toList]

def notConverged (iceSha csibeSha : Text) : List Text :=
  (if iceSha = [] then [iceMissing] else []) ++ ((if csibeSha = [] then [csibeMissing] else []) ++ advice)

def comparison (iceSha csibeSha : Text) : List Text :=
  if iceSha ≠ [] ∧ csibeSha ≠ [] then if iceSha = csibeSha then [sameLine] else [differentLine]
  else couldNotLine :: notConverged iceSha csibeSha

def summaryHead (gitLog : Text → Option Text) (iceSha csibeSha : Text) : List Text :=
  ["Aug 4 regression bisect summary".toList,
    "Range: ".toList ++ goodRev ++ "..".toList ++ badRev, [],
    "BusyBox ICE culprit:  ".toList ++ describe gitLog iceSha,
    "CSiBE size culprit:   ".toList ++ describe gitLog csibeSha, []]

def caution : List Text :=
  ["Review the per-step verdicts in the logs before trusting these SHAs:".toList,
    "CI only sampled the range endpoints, so an intermittent or".toList,
    "config-dependent fault would still converge on something.".toList]

def summaryTail (outRoot : Text) : List Text :=
  [[], "CSiBE: good=".toList ++ csibeGood ++ " bad=".toList ++ csibeBad ++ " threshold=".toList ++
    csibeThreshold ++ " (".toList ++ csibeKey ++ ")".toList,
    "Logs:  ".toList ++ outRoot ++ "/bisect1-ice.log  ".toList ++ outRoot ++ "/bisect2-csibe.log".toList,
    "ICE:   ".toList ++ outRoot ++ "/ice-report.txt".toList, []] ++ caution

def summaryOf (gitLog : Text → Option Text) (outRoot iceSha csibeSha : Text) : List Text :=
  summaryHead gitLog iceSha csibeSha ++ (comparison iceSha csibeSha ++ summaryTail outRoot)

structure Outcome where
  iceSha : Text
  csibeSha : Text
  summary : Option (List Text)
  exit : ℕ

variable (w : World Tree Archive) (sha : α → Commit)

def report (tick : Tick Tree Archive) (iceSha : Text) (d : Disk Tree Archive) : Disk Tree Archive :=
  if h : iceSha = [] then d
  else
    (invoke w true ⟨if tick.revParse then some ⟨iceSha, h⟩ else none, .build, tick.outcomes, tick.kill⟩ d).2

def prune (keepCache : Bool) (exit : ℕ) (d : Disk Tree Archive) : Disk Tree Archive :=
  if exit ≠ 0 ∨ keepCache = true then d else { d with cache := fun _ => none, tmp := fun _ => none }

def startsMark (line : Text) : Bool := line.head? == some '='

lemma summaryHead_start (gitLog : Text → Option Text) (iceSha csibeSha : Text) :
    (summaryHead gitLog iceSha csibeSha).any startsMark = false := by
  unfold summaryHead
  rfl

lemma caution_start : caution.any startsMark = false := by decide +kernel

lemma summaryTail_start (outRoot : Text) : (summaryTail outRoot).any startsMark = false := by
  rw [summaryTail, List.any_append, caution_start]
  rfl

lemma advice_start : advice.any startsMark = false := by decide +kernel

lemma missing_start : startsMark iceMissing = false ∧ startsMark csibeMissing = false := by decide +kernel

lemma notConverged_start (iceSha csibeSha : Text) : (notConverged iceSha csibeSha).any startsMark = false := by
  rw [notConverged, List.any_append, List.any_append, advice_start]
  split <;> split <;> simp [missing_start]

lemma not_mem_of_any {line : Text} (h : startsMark line = true) {ls : List Text}
    (hls : ls.any startsMark = false) :
    line ∉ ls := by
  intro hmem
  have := List.any_eq_false.mp hls line hmem
  exact this h

lemma mem_summaryOf {line : Text} (h : startsMark line = true) (gitLog : Text → Option Text)
    (outRoot iceSha csibeSha : Text) :
    line ∈ summaryOf gitLog outRoot iceSha csibeSha ↔
      line = if iceSha ≠ [] ∧ csibeSha ≠ [] then if iceSha = csibeSha then sameLine else differentLine
        else couldNotLine := by
  have hhead := not_mem_of_any h (summaryHead_start gitLog iceSha csibeSha)
  have htail := not_mem_of_any h (summaryTail_start outRoot)
  have hnotes := not_mem_of_any h (notConverged_start iceSha csibeSha)
  rw [summaryOf, List.mem_append, List.mem_append, or_iff_right hhead, or_iff_left htail, comparison]
  split
  · split <;> exact List.mem_singleton
  · rw [List.mem_cons, or_iff_left hnotes]

lemma same_mem {gitLog : Text → Option Text} {outRoot iceSha csibeSha : Text} :
    sameLine ∈ summaryOf gitLog outRoot iceSha csibeSha ↔ iceSha ≠ [] ∧ csibeSha ≠ [] ∧ iceSha = csibeSha := by
  rw [mem_summaryOf rfl]
  split_ifs with hboth heq
  · exact iff_of_true rfl ⟨hboth.1, hboth.2, heq⟩
  · exact iff_of_false (by decide) (fun h => heq h.2.2)
  · exact iff_of_false (by decide) (fun h => hboth ⟨h.1, h.2.1⟩)

lemma different_mem {gitLog : Text → Option Text} {outRoot iceSha csibeSha : Text} :
    differentLine ∈ summaryOf gitLog outRoot iceSha csibeSha ↔ iceSha ≠ [] ∧ csibeSha ≠ [] ∧
      iceSha ≠ csibeSha := by
  rw [mem_summaryOf rfl]
  split_ifs with hboth heq
  · exact iff_of_false (by decide) (fun h => h.2.2 heq)
  · exact iff_of_true rfl ⟨hboth.1, hboth.2, heq⟩
  · exact iff_of_false (by decide) (fun h => hboth ⟨h.1, h.2.1⟩)

section

variable {sha} (hsha : ∀ c, Full (sha c)) {printed : Printed} (hquiet : printed.Quiet) {ending : Ending α}

include hsha hquiet

lemma culpritFromLog_log : culpritFromLog (printed.log sha ending) = (named sha ending).head?.getD [] := by
  rw [culpritFromLog, culprits_log hsha hquiet]

lemma culprit_ne_nil : culpritFromLog (printed.log sha ending) ≠ [] ↔ ∃ c, ending = .found c := by
  rw [culpritFromLog_log hsha hquiet]
  cases ending with
  | found c => simpa [named] using (sha c).2
  | stuck | interrupted c => simp [named]

lemma culprit_of_found {c : α} (h : ending = .found c) :
    culpritFromLog (printed.log sha ending) = (sha c).1 := by
  rw [culpritFromLog_log hsha hquiet, h]
  rfl

end

lemma cache_run (w : World Tree Archive) (o : Outcomes Tree Archive) (s : Commit) (c : Command)
    {d : Disk Tree Archive}
    (h : (d.cache s).isSome = true) : ((runCommand w o 0 c d).2.cache s).isSome = true := by
  cases c with
  | mvTarball s' =>
    simp only [runCommand]
    split
    · by_cases hs : s = s'
      · simp [hs]
      · simpa [hs] using h
    · exact h
  | extract s' =>
    simp only [runCommand]
    split
    · split <;> exact h
    · exact h
  | buildGcc s' =>
    simp only [runCommand]
    split <;> exact h
  | pack s' | copySum =>
    simp only [runCommand]
    split <;> exact h
  | _ => exact h

lemma cache_torn (w : World Tree Archive) (o : Outcomes Tree Archive) (s : Commit) (c : Command)
    {d : Disk Tree Archive}
    (h : (d.cache s).isSome = true) : ((tornCommand w o 0 c d).cache s).isSome = true := by
  cases c with
  | mvTarball s' => exact cache_run w o s (.mvTarball s') h
  | _ => exact h

lemma cache_invoke (inv : Invocation Tree Archive) (s : Commit) {d : Disk Tree Archive}
    (h : (d.cache s).isSome = true) : ((invoke w true inv d).2.cache s).isSome = true :=
  Script.exec_keeps (host w inv.outcomes 0) (J := fun d => (d.cache s).isSome = true)
    (fun c _ => cache_run w inv.outcomes s c) (fun c _ => cache_torn w inv.outcomes s c) _ inv.kill h

section

variable [PartialOrder α] (git : Bisector α) (good bad : α)

def runIce (cond : Conditions Tree Archive) (d : Disk Tree Archive) : Ending α × Disk Tree Archive :=
  bisectRun w sha git true iceMode good bad cond.iceTicks d

def runCsibe (cond : Conditions Tree Archive) (d : Disk Tree Archive) : Ending α × Disk Tree Archive :=
  bisectRun w sha git true csibeMode good bad cond.csibeTicks (runIce w sha git good bad cond d).2

def driver (cond : Conditions Tree Archive) (d : Disk Tree Archive) : Outcome × Disk Tree Archive :=
  if cond.preflight = false then (⟨[], [], none, 1⟩, d)
  else if cond.fetch ≠ 0 then (⟨[], [], none, cond.fetch⟩, d)
  else
    let ice := runIce w sha git good bad cond d
    let csibe := runCsibe w sha git good bad cond d
    let iceSha := culpritFromLog (cond.icePrinted.log sha ice.1)
    let csibeSha := culpritFromLog (cond.csibePrinted.log sha csibe.1)
    if iceSha ≠ [] ∧ cond.checkout ≠ 0 then (⟨iceSha, csibeSha, none, cond.checkout⟩, csibe.2)
    else
      let exit := if cond.tee ≠ 0 then cond.tee else if iceSha = [] ∧ csibeSha = [] then 1 else 0
      (⟨iceSha, csibeSha, some (summaryOf cond.gitLog cond.outRoot iceSha csibeSha), exit⟩,
        prune cond.keepCache exit (report w cond.reportTick iceSha csibe.2))

lemma cache_bisectRun (mode : Mode) (ticks : List (Tick Tree Archive)) (s : Commit) {d : Disk Tree Archive}
    (h : (d.cache s).isSome = true) :
    ((bisectRun w sha git true mode good bad ticks d).2.cache s).isSome = true := by
  have htest (c : α) (tick : Tick Tree Archive) (d : Disk Tree Archive) (hd : (d.cache s).isSome = true) :
      ((test w sha true mode c tick d).2.cache s).isSome = true ∧
        ∀ m ∈ (test w sha true mode c tick d).1, True :=
    ⟨cache_invoke w (invocation sha mode c tick) s hd, fun _ _ => trivial⟩
  exact (drive_spec git htest ticks _ h).1

variable {w sha git good bad} {cond : Conditions Tree Archive} {d : Disk Tree Archive}

lemma driver_disk (P : Disk Tree Archive → Prop) (hskipped : P d)
    (hrun : P (runCsibe w sha git good bad cond d).2)
    (hreport : ∀ iceSha, P (report w cond.reportTick iceSha (runCsibe w sha git good bad cond d).2)) :
    (driver w sha git good bad cond d).1.exit ≠ 0 → P (driver w sha git good bad cond d).2 := by
  intro hexit
  simp only [driver] at hexit ⊢
  split_ifs at hexit ⊢ with hpre hfetch hcheckout htee hnone
  · exact hskipped
  · exact hskipped
  · exact hrun
  · rw [prune, if_pos (Or.inl htee)]
    exact hreport _
  · exact hreport _
  · exact absurd rfl hexit

lemma driver_exit (hsha : ∀ c, Full (sha c)) (hice : cond.icePrinted.Quiet) (hcsibe : cond.csibePrinted.Quiet) :
    (driver w sha git good bad cond d).1.exit = 0 ↔
      (driver w sha git good bad cond d).1.summary ≠ none ∧ cond.tee = 0 ∧ ∃ c,
        (runIce w sha git good bad cond d).1 = .found c ∨
          (runCsibe w sha git good bad cond d).1 = .found c := by
  have hfirst : culpritFromLog (cond.icePrinted.log sha (runIce w sha git good bad cond d).1) ≠ [] ↔ _ :=
    culprit_ne_nil hsha hice
  have hsecond : culpritFromLog (cond.csibePrinted.log sha (runCsibe w sha git good bad cond d).1) ≠ [] ↔ _ :=
    culprit_ne_nil hsha hcsibe
  simp only [driver, exists_or, ← hfirst, ← hsecond]
  split_ifs with hpre hfetch hcheckout htee hnone
  · simp
  · simpa using hfetch
  · simpa using hcheckout.2
  · simp [htee]
  · simp [hnone]
  · simpa [not_not.mp htee, or_iff_not_imp_left] using hnone

lemma driver_summary (hsha : ∀ c, Full (sha c)) (hinj : Function.Injective sha) (hice : cond.icePrinted.Quiet)
    (hcsibe : cond.csibePrinted.Quiet) {summary : List Text}
    (h : (driver w sha git good bad cond d).1.summary = some summary) :
    (sameLine ∈ summary ↔ ∃ c, (runIce w sha git good bad cond d).1 = .found c ∧
      (runCsibe w sha git good bad cond d).1 = .found c) ∧
    (differentLine ∈ summary ↔ ∃ c c', c ≠ c' ∧ (runIce w sha git good bad cond d).1 = .found c ∧
      (runCsibe w sha git good bad cond d).1 = .found c') := by
  have hsummary : summary = summaryOf cond.gitLog cond.outRoot
      (culpritFromLog (cond.icePrinted.log sha (runIce w sha git good bad cond d).1))
      (culpritFromLog (cond.csibePrinted.log sha (runCsibe w sha git good bad cond d).1)) := by
    simp only [driver] at h
    split_ifs at h <;> exact (Option.some.inj h).symm
  rw [hsummary, same_mem, different_mem, culprit_ne_nil hsha hice, culprit_ne_nil hsha hcsibe]
  have heq {c c' : α} (hc : (runIce w sha git good bad cond d).1 = .found c)
      (hc' : (runCsibe w sha git good bad cond d).1 = .found c') :
      culpritFromLog (cond.icePrinted.log sha (runIce w sha git good bad cond d).1) =
        culpritFromLog (cond.csibePrinted.log sha (runCsibe w sha git good bad cond d).1) ↔ c = c' := by
    rw [culprit_of_found hsha hice hc, culprit_of_found hsha hcsibe hc', Subtype.val_inj, hinj.eq_iff]
  constructor
  · constructor
    · rintro ⟨⟨c, hc⟩, ⟨c', hc'⟩, hshas⟩
      obtain rfl := (heq hc hc').mp hshas
      exact ⟨c, hc, hc'⟩
    · rintro ⟨c, hc, hc'⟩
      exact ⟨⟨c, hc⟩, ⟨c, hc'⟩, (heq hc hc').mpr rfl⟩
  · constructor
    · rintro ⟨⟨c, hc⟩, ⟨c', hc'⟩, hshas⟩
      exact ⟨c, c', fun h => hshas ((heq hc hc').mpr h), hc, hc'⟩
    · rintro ⟨c, c', hne, hc, hc'⟩
      exact ⟨⟨c, hc⟩, ⟨c', hc'⟩, fun h => hne ((heq hc hc').mp h)⟩

theorem driver_truthful (w : World Tree Archive) (hw : ∀ tree, w.unpack w.empty (w.pack tree) = tree)
    (start : Disk Tree Archive) (hstart : ∀ s, start.cache s = none) (earlier : List (Invocation Tree Archive))
    (sha : α → Commit) (hsha : ∀ c, Full (sha c)) (hinj : Function.Injective sha) (git : Bisector α)
    (good bad : α) (hrange : ¬ bad ≤ good) (cond : Conditions Tree Archive) (hice : cond.icePrinted.Quiet)
    (hcsibe : cond.csibePrinted.Quiet) :
    let d := after (next w) start earlier
    let ice := (runIce w sha git good bad cond d).1
    let csibe := (runCsibe w sha git good bad cond d).1
    let result := driver w sha git good bad cond d
    Justified (markOf w sha iceMode) good bad (bisectLog w sha git true iceMode good bad cond.iceTicks d) ice ∧
    Justified (markOf w sha csibeMode) good bad
      (bisectLog w sha git true csibeMode good bad cond.csibeTicks (runIce w sha git good bad cond d).2) csibe ∧
    (result.1.exit = 0 ↔ result.1.summary ≠ none ∧ cond.tee = 0 ∧ ∃ c, ice = .found c ∨ csibe = .found c) ∧
    (∀ summary ∈ result.1.summary, (sameLine ∈ summary ↔ ∃ c, ice = .found c ∧ csibe = .found c) ∧
      (differentLine ∈ summary ↔ ∃ c c', c ≠ c' ∧ ice = .found c ∧ csibe = .found c')) ∧
    (result.1.exit ≠ 0 → CacheSound w result.2 ∧
      ∀ s, (d.cache s).isSome = true → (result.2.cache s).isSome = true) := by
  intro d ice csibe result
  have hd : CacheSound w d := cacheSound_after hw hstart earlier
  obtain ⟨hfirst, hicejust⟩ := bisectRun_sound sha iceMode hw git good bad cond.iceTicks
    (fun _ : true = true => hd)
  obtain ⟨hsecond, hcsibejust⟩ := bisectRun_sound sha csibeMode hw git good bad cond.csibeTicks hfirst
  refine ⟨hicejust hrange, hcsibejust hrange, driver_exit hsha hice hcsibe,
    fun summary => driver_summary hsha hinj hice hcsibe, ?_⟩
  intro hexit
  have hreported (iceSha : Text) :
    CacheSound w (report w cond.reportTick iceSha (runCsibe w sha git good bad cond d).2) := by
    rw [report]
    split
    · exact hsecond rfl
    · exact cacheSound_next hw _ _ (hsecond rfl)
  refine ⟨driver_disk (CacheSound w) hd (hsecond rfl) hreported hexit, ?_⟩
  intro s hs
  have hkept := cache_bisectRun w sha git good bad csibeMode cond.csibeTicks s
    (cache_bisectRun w sha git good bad iceMode cond.iceTicks s hs)
  refine driver_disk (fun d => (d.cache s).isSome = true) hs hkept ?_ hexit
  intro iceSha
  rw [report]
  split
  · exact hkept
  · exact cache_invoke w _ s hkept

theorem driver_uncached (w : World Tree Archive) (hw : ∀ tree, w.unpack w.empty (w.pack tree) = tree)
    (start : Disk Tree Archive) (hstart : ∀ s, start.cache s = none) (earlier : List (Invocation Tree Archive))
    (sha : α → Commit) (git : Bisector α) (good bad : α) (cond : Conditions Tree Archive)
    (hice : ∀ tick ∈ cond.iceTicks, tick.Reliable) (hcsibe : ∀ tick ∈ cond.csibeTicks, tick.Reliable)
    (iceTicks csibeTicks : List (Tick Tree Archive)) (hiceTicks : ∀ tick ∈ iceTicks, tick.Reliable)
    (hcsibeTicks : ∀ tick ∈ csibeTicks, tick.Reliable) (hiceLength : iceTicks.length = cond.iceTicks.length)
    (hcsibeLength : csibeTicks.length = cond.csibeTicks.length) (d₁ d₂ : Disk Tree Archive) :
    (runIce w sha git good bad cond (after (next w) start earlier)).1 =
        (bisectRun w sha git false iceMode good bad iceTicks d₁).1 ∧
      (runCsibe w sha git good bad cond (after (next w) start earlier)).1 =
        (bisectRun w sha git false csibeMode good bad csibeTicks d₂).1 := by
  have hd := cacheSound_after hw hstart earlier
  obtain ⟨hfirst, -⟩ := bisectRun_sound sha iceMode hw git good bad cond.iceTicks (fun _ : true = true => hd)
  have hnocache {d : Disk Tree Archive} : false = true → CacheSound w d := fun h => by cases h
  rw [runCsibe, runIce, bisectRun_alone sha hw git good bad hice (fun _ => hd),
    bisectRun_alone sha hw git good bad hcsibe hfirst, bisectRun_alone sha hw git good bad hiceTicks hnocache,
    bisectRun_alone sha hw git good bad hcsibeTicks hnocache, hiceLength, hcsibeLength]
  exact ⟨rfl, rfl⟩

end

def padded (c : Fin 4) : Commit := ⟨List.replicate 39 '0' ++ Nat.toDigits 10 c, by simp⟩

def oldest : Fin 4 := 0

def breaking : Fin 4 := 2

def newest : Fin 4 := 3

def tracedWorld : World Text Text :=
  { plainWorld with
    reproduce := fun _ tree => decide (tree = some (padded oldest).1 ∨ tree = some (padded 1).1)
    measure := fun _ tree => (true,
      some (if tree = some (padded newest).1 then csibeBad.take 6 else csibeGood)) }

def quietConditions : Conditions Text Text where
  preflight := true
  fetch := 0
  iceTicks := [quietTick, quietTick]
  icePrinted := ⟨["Bisecting: 1 revision left to test after this".toList], []⟩
  csibeTicks := [quietTick, quietTick]
  csibePrinted := ⟨[], []⟩
  checkout := 0
  reportTick := quietTick
  tee := 0
  gitLog sha := some sha
  outRoot := "/out".toList
  keepCache := false

lemma padded_full : ∀ c : Fin 4, Full (padded c) := by
  unfold Full
  decide +kernel

lemma padded_injective : Function.Injective padded := by
  unfold Function.Injective
  decide +kernel

lemma quietConditions_ice : quietConditions.icePrinted.Quiet := by
  constructor <;> decide +kernel

lemma quietConditions_csibe : quietConditions.csibePrinted.Quiet := by
  constructor <;> decide +kernel

def unsaved : Conditions Text Text := { quietConditions with tee := 1 }

theorem driver_truthful_traced :
    (driver tracedWorld padded byMiddle 0 3 unsaved (after (next tracedWorld) cleanDisk [])).1.exit = 1 ∧
      (driver tracedWorld padded byMiddle 0 3 unsaved
        (after (next tracedWorld) cleanDisk [])).1.summary.isSome = true ∧
      Justified (markOf tracedWorld padded csibeMode) 0 3
        (bisectLog tracedWorld padded byMiddle true csibeMode 0 3 unsaved.csibeTicks
          (runIce tracedWorld padded byMiddle 0 3 unsaved (after (next tracedWorld) cleanDisk [])).2)
        (runCsibe tracedWorld padded byMiddle 0 3 unsaved (after (next tracedWorld) cleanDisk [])).1 := by
  refine ⟨by decide +kernel, by decide +kernel, ?_⟩
  exact (driver_truthful tracedWorld (fun _ => rfl) cleanDisk (fun _ => rfl) [] padded padded_full
    padded_injective byMiddle 0 3 (by decide) unsaved quietConditions_ice quietConditions_csibe).2.1

theorem driver_uncached_traced :
    (runIce tracedWorld padded byMiddle 0 3 quietConditions (after (next tracedWorld) cleanDisk [])).1 =
        (bisectRun tracedWorld padded byMiddle false iceMode 0 3 [quietTick, quietTick] cleanDisk).1 ∧
      (runCsibe tracedWorld padded byMiddle 0 3 quietConditions (after (next tracedWorld) cleanDisk [])).1 =
        (bisectRun tracedWorld padded byMiddle false csibeMode 0 3 [quietTick, quietTick] cleanDisk).1 :=
  driver_uncached tracedWorld (fun _ => rfl) cleanDisk (fun _ => rfl) [] padded byMiddle 0 3 quietConditions
    quiet_reliable quiet_reliable [quietTick, quietTick]
      [quietTick, quietTick] quiet_reliable quiet_reliable rfl rfl
    cleanDisk cleanDisk

end ShMonitor.Bisect.Driver
