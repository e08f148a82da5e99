import ShMonitor.Bisect.Driver
import ShMonitor.Workflow.Filed
import ShMonitor.Workflow.IssueText
import ShMonitor.Workflow.Sync

/-! The Bisect step of `sh-regression.yml`, what it hands on, and the issue that the last step files
with it. -/

namespace ShMonitor.Workflow.Bisected

open Texts Detection RegressionDetect LastGreen Regression IssueText Bisection
open Bisect.Log (Printed culprits Full named culprits_log)
open Sync (assign captured settings lastOf setting setting_assign settings_cons captured_single)

variable {α A B : Type}

def stepCommands : List (Text × Text) :=
  [("Run CSiBE size measurements".toList, "scripts/run-csibe.sh".toList),
    ("Run CoreMark size measurement".toList, "scripts/run-coremark-size.sh".toList),
    ("Run LRA differential watchdog".toList, "scripts/run-lra-corpus.sh".toList),
    ("Run BusyBox build + smoke + size".toList, "scripts/run-busybox.sh".toList),
    ("Run BusyBox+musl build + smoke + size".toList, "scripts/run-busybox-musl.sh".toList),
    ("Run BusyBox+musl FDPIC build + smoke + size".toList, "ABI=fdpic scripts/run-busybox-musl.sh".toList),
    ("Run BusyBox+musl LTO build + smoke + size".toList, "LTO=1 scripts/run-busybox-musl.sh".toList),
    ("Run BusyBox+musl FDPIC+LTO build + smoke + size".toList,
      "LTO=1 ABI=fdpic scripts/run-busybox-musl.sh".toList),
    ("Run musl build + smoke + size".toList, "scripts/run-musl.sh".toList)]

def commandFor (step : Text) : Option Text := stepCommands.lookup step

inductive Argument where
  | nothing
  | command (command : Text)
  | tests (tests : List Text)

def argument (issue : Issue) : Option Argument :=
  match issue.failureType with
  | .script => (commandFor issue.failedStep.toList).map .command
  | .dejagnu | .shSim => some (.tests issue.regressedTests)
  | .build | .none => some .nothing

/-- What the step meets: whether the clone and `git bisect start` succeed, what is printed around
the bisection, whether it is its time budget that interrupts it, and what git shows of a commit. -/
structure Around where
  started : Bool
  printed : Printed
  timedOut : Bool
  subject : Text → Text
  author : Text → Text

def flag : Text := ['1']

def emptyrangeName : Text := ['e', 'm', 'p', 't', 'y', 'r', 'a', 'n', 'g', 'e']
def noargName : Text := ['n', 'o', 'a', 'r', 'g']
def exhaustedName : Text := ['e', 'x', 'h', 'a', 'u', 's', 't', 'e', 'd']
def narrowedBadName : Text := ['n', 'a', 'r', 'r', 'o', 'w', 'e', 'd', '_', 'b', 'a', 'd']
def culpritName : Text := ['c', 'u', 'l', 'p', 'r', 'i', 't']
def subjectName : Text := ['s', 'u', 'b', 'j', 'e', 'c', 't']
def authorName : Text := ['a', 'u', 't', 'h', 'o', 'r']

variable (sha : α → Commit) (around : Around)

def logged (ending : Ending α) : List Text :=
  let culprit := captured (culprits (around.printed.log sha ending))
  lines (assign culpritName culprit) ++
    if culprit = [] then []
    else lines (assign subjectName (captured [around.subject culprit])) ++
      lines (assign authorName (captured [around.author culprit]))

def reported (ending : Ending α) : List Text :=
  match ending, around.timedOut with
  | .interrupted c, true => [assign exhaustedName flag, assign narrowedBadName (sha c).1]
  | ending, _ => logged sha around ending

def ending (good bad : α) (argument : Option Argument) (session : Argument → Ending α) : Option (Ending α) :=
  if (sha good).1 = (sha bad).1 then none
  else argument.bind fun a => if around.started then some (session a) else none

def bisectStep (good bad : α) (argument : Option Argument) (session : Argument → Ending α) : List Text :=
  if (sha good).1 = (sha bad).1 then [assign emptyrangeName flag]
  else match argument with
  | none => [assign noargName flag]
  | some a => if around.started then reported sha around (session a) else []

/-- What a double-quoted word of the shell stands for, where none of its characters is special there. -/
def interpolated (t : Text) : Option Text :=
  if t.any (fun c => c == '"' || c == '$' || c.toNat == 0x60 || c.toNat == 0x5c) then none else some t

def assemble (issue : Issue) (output : List Text) (runUrl log : Text) : Option Result :=
  (settings output).bind fun found =>
    (interpolated (lastOf culpritName found)).bind fun culprit =>
      (interpolated (lastOf subjectName found)).bind fun subject =>
        (interpolated (lastOf authorName found)).bind fun author =>
          (interpolated (lastOf narrowedBadName found)).bind fun narrowedBad =>
            (interpolated (lastOf exhaustedName found)).map fun exhausted =>
              { failureType := issue.failureType
                failedStep := issue.failedStep.toList
                regressedTests := issue.regressedTests
                goodCommit := issue.goodCommit
                badCommit := some issue.badCommit
                runUrl := runUrl
                culprit := commitOf culprit
                culpritSubject := subject
                culpritAuthor := author
                narrowedGood := issue.goodCommit
                narrowedBad := commitOf narrowedBad
                exhausted := decide (exhausted = flag)
                logExcerpt := log }

structure Outputs where
  culprit : Text
  subject : Text
  author : Text
  narrowedBad : Text
  exhausted : Text

def found (output : List (Text × Text)) : Outputs :=
  ⟨lastOf culpritName output, lastOf subjectName output, lastOf authorName output,
    lastOf narrowedBadName output, lastOf exhaustedName output⟩

def silent : Outputs := ⟨[], [], [], [], []⟩

def outputsOf : Option (Ending α) → Outputs
  | some (.found c) => ⟨(sha c).1, around.subject (sha c).1, around.author (sha c).1, [], []⟩
  | some (.interrupted c) => if around.timedOut then ⟨[], [], [], (sha c).1, flag⟩ else silent
  | some .stuck | none => silent

structure Around.Plain (around : Around) : Prop where
  quiet : around.printed.Quiet
  subject_line : ∀ c, '\n' ∉ around.subject c
  author_line : ∀ c, '\n' ∉ around.author c
  subject_plain : ∀ c, interpolated (around.subject c) = some (around.subject c)
  author_plain : ∀ c, interpolated (around.author c) = some (around.author c)

lemma names_plain : ∀ name ∈ [emptyrangeName, noargName, exhaustedName, narrowedBadName, culpritName,
    subjectName, authorName], '=' ∉ name ∧ '\n' ∉ name := by decide

lemma lines_assign {name value : Text} (hn : '\n' ∉ name) (hv : '\n' ∉ value) :
    lines (assign name value) = [assign name value] := by
  apply lines_single
  simp [assign, hn, hv]

lemma settings_nil : settings [] = some [] := rfl

lemma captured_line {t : Text} (h : '\n' ∉ t) : captured [t] = t :=
  captured_single (fun hlast => h (List.mem_of_getLast? hlast))

section

variable {sha around}

lemma newline_sha (hsha : ∀ c, Full (sha c)) (c : α) : '\n' ∉ (sha c).1 :=
  not_mem_commit Bisect.Log.not_hex_newline (List.all_eq_true.mp (hsha c).2)

lemma logged_found (hsha : ∀ c, Full (sha c)) (haround : around.Plain) (c : α) :
    logged sha around (.found c) = [assign culpritName (sha c).1, assign subjectName (around.subject (sha c).1),
      assign authorName (around.author (sha c).1)] := by
  have hnames := names_plain
  have hcaptured : captured (culprits (around.printed.log sha (.found c))) = (sha c).1 := by
    rw [culprits_log hsha haround.quiet]
    exact captured_line (newline_sha hsha c)
  simp only [logged, hcaptured, if_neg (sha c).2, captured_line (haround.subject_line _),
    captured_line (haround.author_line _)]
  rw [lines_assign (hnames culpritName (by simp)).2 (newline_sha hsha c),
    lines_assign (hnames subjectName (by simp)).2 (haround.subject_line _),
    lines_assign (hnames authorName (by simp)).2 (haround.author_line _)]
  rfl

lemma logged_none (hsha : ∀ c, Full (sha c)) (haround : around.Plain) {ending : Ending α}
    (h : named sha ending = []) : logged sha around ending = [assign culpritName []] := by
  have hnames := names_plain
  have hcaptured : captured (culprits (around.printed.log sha ending)) = [] := by
    rw [culprits_log hsha haround.quiet, h]
    rfl
  simp only [logged, hcaptured, if_true, List.append_nil]
  exact lines_assign (hnames culpritName (by simp)).2 List.not_mem_nil

lemma settings_single {name : Text} (hname : '=' ∉ name) (value : Text) :
    settings [assign name value] = some [(name, value)] := by
  rw [settings_cons hname, settings_nil]
  rfl

lemma settings_reported (hsha : ∀ c, Full (sha c)) (haround : around.Plain) (ending : Ending α) :
    (settings (reported sha around ending)).map found = some (outputsOf sha around (some ending)) := by
  have hnames := names_plain
  have hnone {ending : Ending α} (h : named sha ending = []) :
      (settings (logged sha around ending)).map found = some silent := by
    rw [logged_none hsha haround h, settings_single (hnames culpritName (by simp)).1]
    rfl
  cases ending with
  | found c =>
    rw [reported, logged_found hsha haround, settings_cons (hnames culpritName (by simp)).1,
      settings_cons (hnames subjectName (by simp)).1, settings_single (hnames authorName (by simp)).1]
    · rfl
    · exact fun d h => by cases h
  | stuck => exact hnone rfl
  | interrupted c =>
    have hsilent := @hnone (.interrupted c) rfl
    simp only [reported, outputsOf]
    cases around.timedOut with
    | false => exact hsilent
    | true =>
      rw [settings_cons (hnames exhaustedName (by simp)).1,
        settings_single (hnames narrowedBadName (by simp)).1]
      rfl

lemma settings_bisectStep (hsha : ∀ c, Full (sha c)) (haround : around.Plain) (good bad : α)
    (argument : Option Argument) (session : Argument → Ending α) :
    (settings (bisectStep sha around good bad argument session)).map found =
      some (outputsOf sha around (ending sha around good bad argument session)) := by
  have hnames := names_plain
  rw [bisectStep.eq_def, ending]
  split
  · rw [settings_single (hnames emptyrangeName (by simp)).1]
    rfl
  · cases argument with
    | none =>
      rw [settings_single (hnames noargName (by simp)).1]
      rfl
    | some a =>
      rw [Option.bind_some]
      dsimp only
      split
      · exact settings_reported hsha haround _
      · rfl

lemma interpolated_sha (hsha : ∀ c, Full (sha c)) (c : α) : interpolated (sha c).1 = some (sha c).1 := by
  apply if_neg
  intro hany
  obtain ⟨x, hx, hspecial⟩ := List.any_eq_true.mp hany
  have hhex := List.all_eq_true.mp (hsha c).2 x hx
  have hcode (n : ℕ) (hn : x.toNat = n) : x = Char.ofNat n := by rw [← hn, Char.ofNat_toNat]
  simp only [Bool.or_eq_true, beq_iff_eq] at hspecial
  rcases hspecial with ((rfl | rfl) | h) | h
  · exact absurd hhex (by decide)
  · exact absurd hhex (by decide)
  · rw [hcode _ h] at hhex
    exact absurd hhex (by decide)
  · rw [hcode _ h] at hhex
    exact absurd hhex (by decide)

end

def resultOf (issue : Issue) (outputs : Outputs) (runUrl log : Text) : Result where
  failureType := issue.failureType
  failedStep := issue.failedStep.toList
  regressedTests := issue.regressedTests
  goodCommit := issue.goodCommit
  badCommit := some issue.badCommit
  runUrl := runUrl
  culprit := commitOf outputs.culprit
  culpritSubject := outputs.subject
  culpritAuthor := outputs.author
  narrowedGood := issue.goodCommit
  narrowedBad := commitOf outputs.narrowedBad
  exhausted := decide (outputs.exhausted = flag)
  logExcerpt := log

section

variable {sha around}

lemma assemble_outputs (hsha : ∀ c, Full (sha c)) (haround : around.Plain) (issue : Issue) (runUrl log : Text)
    {output : List Text} {ended : Option (Ending α)}
    (h : (settings output).map found = some (outputsOf sha around ended)) :
    assemble issue output runUrl log = some (resultOf issue (outputsOf sha around ended) runUrl log) := by
  obtain ⟨pairs, hpairs, hfound⟩ := Option.map_eq_some_iff.mp h
  have hflag : interpolated flag = some flag := by decide
  have hplain : interpolated (found pairs).culprit = some (found pairs).culprit ∧
      interpolated (found pairs).subject = some (found pairs).subject ∧
      interpolated (found pairs).author = some (found pairs).author ∧
      interpolated (found pairs).narrowedBad = some (found pairs).narrowedBad ∧
      interpolated (found pairs).exhausted = some (found pairs).exhausted := by
    rw [hfound]
    rcases ended with - | (c | - | c)
    · exact ⟨rfl, rfl, rfl, rfl, rfl⟩
    · exact ⟨interpolated_sha hsha c, haround.subject_plain _, haround.author_plain _, rfl, rfl⟩
    · exact ⟨rfl, rfl, rfl, rfl, rfl⟩
    · rw [outputsOf]
      split
      · exact ⟨rfl, rfl, rfl, interpolated_sha hsha c, hflag⟩
      · exact ⟨rfl, rfl, rfl, rfl, rfl⟩
  obtain ⟨hculprit, hsubject, hauthor, hnarrowed, hexhausted⟩ := hplain
  rw [assemble, hpairs, Option.bind_some, ← hfound]
  change (interpolated (found pairs).culprit).bind _ = _
  rw [hculprit, Option.bind_some]
  change (interpolated (found pairs).subject).bind _ = _
  rw [hsubject, Option.bind_some]
  change (interpolated (found pairs).author).bind _ = _
  rw [hauthor, Option.bind_some]
  change (interpolated (found pairs).narrowedBad).bind _ = _
  rw [hnarrowed, Option.bind_some]
  change (interpolated (found pairs).exhausted).map _ = _
  rw [hexhausted]
  rfl

end

def findingOf (good : α) : Option (Ending α) → Finding
  | some (.found c) => .culprit (sha c).1
  | some (.interrupted c) => if around.timedOut then .narrowed (sha good).1 (sha c).1 else .inconclusive
  | some .stuck | none => .inconclusive

section

variable {sha around}

lemma finding_resultOf {issue : Issue} {good : α} (hgood : issue.goodCommit = some (sha good))
    (ended : Option (Ending α)) (runUrl log : Text) :
    (resultOf issue (outputsOf sha around ended) runUrl log).finding = findingOf sha around good ended := by
  have hsilent : (resultOf issue silent runUrl log).finding = .inconclusive := by
    simp [Result.finding, resultOf, silent, commitOf, hgood, flag]
  rcases ended with - | (c | - | c)
  · exact hsilent
  · simp [Result.finding, resultOf, outputsOf, findingOf, commitOf_val]
  · exact hsilent
  · rw [outputsOf, findingOf]
    split
    · simp [Result.finding, resultOf, commitOf_val, commitOf_nil, hgood, shown]
    · exact hsilent

end

lemma newline_testName {e : ExtractFailures.Entry} (hpath : ∀ c ∈ e.path, nonSpace c = true)
    (hdetail : '\n' ∉ e.detail) : '\n' ∉ testName e := by
  intro hmem
  have hsignature : '\n' ∈ ExtractFailures.signature e :=
    List.dropWhile_subset _ ((List.rdropWhile_prefix _ _).subset hmem)
  rcases List.mem_append.mp hsignature with h | h
  · exact newline_not_mem_of_nonSpace hpath h
  · rcases List.mem_cons.mp h with h | h
    · exact absurd h (by decide)
    · exact hdetail h

lemma dejagnu_lines {stale : List Text} {gccSum : Option Text} {e : ExtractFailures.Entry}
    (h : e ∈ (dejagnuLane stale).fails gccSum) : '\n' ∉ testName e := by
  obtain ⟨hentry, -⟩ := mem_extract_fail.mp h
  obtain ⟨u, v, gap, blanks, rest, -, -, hreads⟩ := ExtractFailures.mem_entries hentry
  exact newline_testName hreads.path_word hreads.detail_line

lemma shSim_lines {isWord : Char → Bool} {dir : Dir} {e : ExtractFailures.Entry}
    (h : e ∈ (shSimLane isWord).fails dir) : '\n' ∉ testName e := by
  obtain ⟨isa, hisa, suite, -, sum, -, f, hf, -, -, rfl⟩ := ExtractShSimFailures.mem_extract_fail.mp h
  obtain ⟨gs, hgs, hf⟩ := List.mem_filterMap.mp hf
  obtain ⟨u, v, rest, -, hmatch⟩ := Regex.mem_findall hgs
  obtain ⟨-, path, t, -, -, hpath, hgroups⟩ := ExtractShSimFailures.matchAt_failLineRe hmatch
  obtain rfl : gs = _ := hgroups
  obtain rfl := Option.some.inj hf
  apply newline_testName
  · exact ExtractShSimFailures.withIsa_word hisa hpath
  · intro hmem
    have htake := (List.rdropWhile_prefix _ _).subset hmem
    simpa [notNewline] using List.mem_takeWhile_imp htake

lemma filed_lines {isWord : Char → Bool} {stale : List Text} {api : Reachable}
    {earlier : Lookups → List (Record (Option Text) Dir)} {issues : List Issue}
    {run : Run (Option Text) Dir} {issue : Issue}
    (h : act (Filed.lanes isWord stale) api earlier issues run = .filed issue) :
    ∀ t ∈ issue.regressedTests, '\n' ∉ t := by
  obtain ⟨-, -, -, htests, -⟩ := act_filed h
  rw [htests]
  intro t ht
  by_cases hs : run.buildResult = .success
  · rw [detect_success hs] at ht
    split at ht
    · obtain ⟨e, he, rfl⟩ := List.mem_map.mp ht
      exact dejagnu_lines (mem_recompute he).2.1
    · split at ht
      · obtain ⟨e, he, rfl⟩ := List.mem_map.mp ht
        exact shSim_lines (mem_recompute he).2.1
      · cases ht
  · rw [(detect_not_success hs).1] at ht
    cases ht

section

variable {sha around}

lemma hex_sha (hsha : ∀ c, Full (sha c)) (c : α) : Hex (some (sha c)) := by
  rintro d ⟨⟩
  exact List.all_eq_true.mp (hsha c).2

lemma hex_none : Hex none := by
  rintro d ⟨⟩

lemma resultOf_plain (hsha : ∀ c, Full (sha c)) (haround : around.Plain) {issue : Issue} {good bad : α}
    (hgood : issue.goodCommit = some (sha good)) (hbad : issue.badCommit = sha bad)
    (htests : ∀ t ∈ issue.regressedTests, '\n' ∉ t) (hstep : '\n' ∉ issue.failedStep.toList)
    (ended : Option (Ending α)) {runUrl : Text} (hurl : '\n' ∉ runUrl) (log : Text) :
    (resultOf issue (outputsOf sha around ended) runUrl log).Plain := by
  have houtputs : '\n' ∉ (outputsOf sha around ended).subject ∧ '\n' ∉ (outputsOf sha around ended).author ∧
      Hex (commitOf (outputsOf sha around ended).culprit) ∧
        Hex (commitOf (outputsOf sha around ended).narrowedBad) := by
    have hsilent : '\n' ∉ silent.subject ∧ '\n' ∉ silent.author ∧ Hex (commitOf silent.culprit) ∧
        Hex (commitOf silent.narrowedBad) :=
      ⟨List.not_mem_nil, List.not_mem_nil, hex_none, hex_none⟩
    rcases ended with - | (c | - | c)
    · exact hsilent
    · refine ⟨haround.subject_line _, haround.author_line _, ?_, hex_none⟩
      rw [outputsOf, commitOf_val]
      exact hex_sha hsha c
    · exact hsilent
    · rw [outputsOf]
      split
      · refine ⟨List.not_mem_nil, List.not_mem_nil, hex_none, ?_⟩
        rw [commitOf_val]
        exact hex_sha hsha c
      · exact hsilent
  obtain ⟨hsubject, hauthor, hculprit, hnarrowed⟩ := houtputs
  refine ⟨htests, hstep, hurl, hsubject, hauthor, ?_⟩
  intro o ho
  simp only [Result.commits, resultOf, hgood, hbad, List.mem_cons, List.not_mem_nil, or_false] at ho
  rcases ho with rfl | rfl | rfl | rfl | rfl
  · exact hex_sha hsha good
  · exact hex_sha hsha bad
  · exact hculprit
  · exact hex_sha hsha good
  · exact hnarrowed

end

section

variable {Tree Archive E σ : Type} [PartialOrder α]

open Bisect.Build (World Disk)
open Bisect.Predicate (Mode)
open Bisect.Session (Tick bisectRun bisectLog bisectRun_sound markOf)

def modeOf : Argument → Option Mode
  | .nothing => some .build
  | .command command => some (.script command)
  | .tests _ => none

/-- What a session meets: the disk and the invocations of the modes that build a commit and judge
the build, and any predicate at all for the modes that read sums. -/
structure Bench (Tree Archive α E σ : Type) where
  ticks : List (Tick Tree Archive)
  disk : Disk Tree Archive
  sums : List Text → α → E → σ → Option Mark × σ
  events : List E
  state : σ

def session (w : World Tree Archive) (git : Bisector α) (bench : Bench Tree Archive α E σ) (good bad : α)
    (a : Argument) :
    Ending α :=
  match a with
  | .nothing => (bisectRun w sha git false .build good bad bench.ticks bench.disk).1
  | .command command => (bisectRun w sha git false (.script command) good bad bench.ticks bench.disk).1
  | .tests tests => (drive git (bench.sums tests) bench.events (.start good bad) bench.state).1

def sessionLog (w : World Tree Archive) (git : Bisector α) (bench : Bench Tree Archive α E σ) (good bad : α)
    (a : Argument) : List (α × Mark) :=
  match a with
  | .nothing => bisectLog w sha git false .build good bad bench.ticks bench.disk
  | .command command => bisectLog w sha git false (.script command) good bad bench.ticks bench.disk
  | .tests tests => trail git (bench.sums tests) bench.events (.start good bad) bench.state

/-- A commit that is named has failed its own test, and what lies below it comes before one that has
passed. -/
def Supported (good bad : α) (tests : List (α × Mark)) : Finding → Prop
  | .culprit name => ∃ c, name = (sha c).1 ∧ Concluded good bad tests (.found c)
  | .narrowed first last =>
      first = (sha good).1 ∧ ∃ c, last = (sha c).1 ∧ Concluded good bad tests (.interrupted c)
  | .noBound => False
  | .inconclusive => True

variable {sha around}

lemma session_concluded {w : World Tree Archive} (hw : ∀ tree, w.unpack w.empty (w.pack tree) = tree)
    (git : Bisector α) (bench : Bench Tree Archive α E σ) {good bad : α} (hrange : ¬ bad ≤ good)
    (a : Argument) :
    Concluded good bad (sessionLog sha w git bench good bad a) (session sha w git bench good bad a) := by
  cases a with
  | nothing => exact ((bisectRun_sound sha _ hw git good bad bench.ticks (by simp)).2 hrange).concluded
  | command command => exact ((bisectRun_sound sha _ hw git good bad bench.ticks (by simp)).2 hrange).concluded
  | tests ts =>
    exact (drive_spec git (J := fun _ => True) (fun _ _ _ _ => ⟨trivial, fun _ _ => trivial⟩) bench.events _
      trivial).2.concluded hrange

lemma session_answers {w : World Tree Archive} (hw : ∀ tree, w.unpack w.empty (w.pack tree) = tree)
    (git : Bisector α) (bench : Bench Tree Archive α E σ) {good bad : α} (hrange : ¬ bad ≤ good) {a : Argument}
    {mode : Mode} (h : modeOf a = some mode) :
    ∀ t ∈ sessionLog sha w git bench good bad a, t.2 = markOf w sha mode t.1 ∨ t.2 = .skip := by
  cases a with
  | nothing =>
    obtain rfl := Option.some.inj h
    exact ((bisectRun_sound sha _ hw git good bad bench.ticks (by simp)).2 hrange).answers
  | command command =>
    obtain rfl := Option.some.inj h
    exact ((bisectRun_sound sha _ hw git good bad bench.ticks (by simp)).2 hrange).answers
  | tests ts => cases h

omit [PartialOrder α] in
lemma mem_ending {good bad : α} {argument : Option Argument} {session : Argument → Ending α} {e : Ending α}
    (h : e ∈ ending sha around good bad argument session) : ∃ a, argument = some a ∧ session a = e := by
  rw [ending] at h
  split at h
  · cases h
  · obtain ⟨a, ha, he⟩ := Option.bind_eq_some_iff.mp h
    split at he
    · exact ⟨a, ha, Option.some.inj he⟩
    · cases he

lemma findingOf_supported {good bad : α} {tests : List (α × Mark)} {ended : Option (Ending α)}
    (h : ∀ e ∈ ended, Concluded good bad tests e) :
    Supported sha good bad tests (findingOf sha around good ended) := by
  rcases ended with - | (c | - | c)
  · trivial
  · exact ⟨c, rfl, h _ rfl⟩
  · trivial
  · rw [findingOf]
    split
    · exact ⟨rfl, c, rfl, h _ rfl⟩
    · trivial

def failedOf (issue : Issue) : Failed :=
  match issue.failureType with
  | .dejagnu => .dejagnu issue.regressedTests
  | .shSim => .shSim issue.regressedTests
  | type => .step issue.failedStep.toList (typeName type)

theorem issue_justified (w : World Tree Archive) (hw : ∀ tree, w.unpack w.empty (w.pack tree) = tree)
    (sha : α → Commit)
    (hsha : ∀ c, Full (sha c)) (git : Bisector α) (bench : Bench Tree Archive α E σ) (around : Around)
    (haround : around.Plain) (isWord : Char → Bool) (stale : List Text) (api : Reachable)
    (earlier : Lookups → List (Record (Option Text) Dir)) (issues : List Issue) (run : Run (Option Text) Dir)
    (issue : Issue) (hfiled : act (Filed.lanes isWord stale) api earlier issues run = .filed issue)
    (good bad : α)
    (hgood : issue.goodCommit = some (sha good)) (hbad : issue.badCommit = sha bad) (hrange : ¬ bad ≤ good)
    (hstep : '\n' ∉ issue.failedStep.toList) (runUrl log : Text) (hurl : '\n' ∉ runUrl) :
    ∃ result, assemble issue (bisectStep sha around good bad (argument issue)
        (session sha w git bench good bad)) runUrl log = some result ∧
      let told := readBody (body result)
      told.failed = failedOf issue ∧ told.range = some ((sha good).1, (sha bad).1) ∧
        told.finding = findingOf sha around good
          (ending sha around good bad (argument issue) (session sha w git bench good bad)) ∧
        ∀ a ∈ argument issue, Supported sha good bad (sessionLog sha w git bench good bad a) told.finding ∧
          ∀ mode ∈ modeOf a, ∀ t ∈ sessionLog sha w git bench good bad a,
            t.2 = markOf w sha mode t.1 ∨ t.2 = .skip := by
  have hplain := resultOf_plain hsha haround hgood hbad (filed_lines hfiled) hstep
    (ending sha around good bad (argument issue) (session sha w git bench good bad)) hurl log
  refine ⟨_, assemble_outputs hsha haround issue runUrl log
    (settings_bisectStep hsha haround good bad (argument issue) _), ?_⟩
  dsimp only
  rw [readBody_body hplain]
  have hfinding (ended : Option (Ending α)) : (resultOf issue (outputsOf sha around ended) runUrl log).finding =
      findingOf sha around good ended := finding_resultOf hgood ended runUrl log
  refine ⟨rfl, ?_, hfinding _, ?_⟩
  · simp [Result.told, Result.bounds, resultOf, hgood, hbad]
  · intro a ha
    refine ⟨?_, fun mode hmode => session_answers hw git bench hrange hmode⟩
    rw [Result.told, hfinding]
    apply findingOf_supported
    intro e he
    obtain ⟨a', ha', rfl⟩ := mem_ending he
    obtain rfl := Option.some.inj (ha.symm.trans ha')
    exact session_concluded hw git bench hrange a

end

open Bisect.Build (World)
open Bisect.Predicate (plainWorld cleanDisk)
open Bisect.Session (Tick markOf byMiddle quietTick)
open Bisect.Driver (padded oldest breaking newest padded_full)

def brokenLate : World Text Text :=
  { plainWorld with gcc := fun sha => if sha = padded breaking ∨ sha = padded newest then none else some sha.1 }

def aroundBuild : Around where
  started := true
  printed := ⟨[], ["bisect found first bad commit".toList]⟩
  timedOut := false
  subject _ := "sh: x".toList
  author _ := "A".toList

lemma aroundBuild_plain : aroundBuild.Plain where
  quiet := by constructor <;> decide +kernel
  subject_line _ := (by decide : '\n' ∉ "sh: x".toList)
  author_line _ := (by decide : '\n' ∉ "A".toList)
  subject_plain _ := (by decide : interpolated "sh: x".toList = some "sh: x".toList)
  author_plain _ := (by decide : interpolated "A".toList = some "A".toList)

def buildRun : Run (Option Text) Dir := ⟨.failure, buildStep, padded newest, none, []⟩

def oldRecord : Record (Option Text) Dir := ⟨0, true, some (padded oldest), none, []⟩

def buildIssue : Issue := ⟨.build, buildStep, [], some (padded oldest), padded newest, true⟩

def buildBench : Bench Text Text (Fin 4) Unit Unit :=
  ⟨[quietTick, quietTick], cleanDisk, fun _ _ _ _ => (none, ()), [], ()⟩

theorem issue_justified_build :
    ∃ result, assemble buildIssue (bisectStep padded aroundBuild 0 3 (argument buildIssue)
        (session padded brokenLate byMiddle buildBench 0 3)) "runs/7".toList [] = some result ∧
      (readBody (body result)).finding = .culprit (padded 2).1 ∧
      Supported padded 0 3 (sessionLog padded brokenLate byMiddle buildBench 0 3 .nothing)
        (readBody (body result)).finding := by
  obtain ⟨result, hresult, -, -, hfinding, hsupported⟩ :=
    issue_justified brokenLate (fun _ => rfl) padded padded_full
    byMiddle buildBench aroundBuild aroundBuild_plain ExtractShSimFailures.isAsciiWord [] always
    (fun _ => [oldRecord]) [] buildRun buildIssue (by decide +kernel) 0 3 rfl rfl (by decide)
      (by decide +kernel) "runs/7".toList [] (by decide +kernel)
  have hending : ending padded aroundBuild 0 3 (argument buildIssue)
      (session padded brokenLate byMiddle buildBench 0 3) = some (.found 2) := by
    decide +kernel
  rw [hending] at hfinding
  exact ⟨result, hresult, hfinding, (hsupported .nothing rfl).1⟩

end ShMonitor.Workflow.Bisected
