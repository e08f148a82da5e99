import ShMonitor.Bisect.Log

/-! `sh-file-issue.py`: the title and the body of a regression issue, and what a reader of the body
finds in it again. -/

namespace ShMonitor.Workflow.IssueText

open Texts Detection.RegressionDetect LastGreen
open Bisect.Log (isHex not_hex_newline)

/-- The object of `result.json`; a text that is missing is an empty one. -/
structure Result where
  failureType : FailureType
  failedStep : Text
  regressedTests : List Text
  goodCommit : Option Commit
  badCommit : Option Commit
  runUrl : Text
  culprit : Option Commit
  culpritSubject : Text
  culpritAuthor : Text
  narrowedGood : Option Commit
  narrowedBad : Option Commit
  exhausted : Bool
  logExcerpt : Text

def typeName : FailureType → Text
  | .build => "build".toList
  | .script => "script".toList
  | .dejagnu => "dejagnu".toList
  | .shSim => "sh-sim".toList
  | .none => "none".toList

def shortLength : ℕ := 12

def short (sha : Option Commit) : Text := sha.elim "?".toList (fun c => c.1.take shortLength)

def shown (sha : Option Commit) : Text := sha.elim "None".toList Subtype.val

def commitBase : Text := "https://github.com/gcc-mirror/gcc/commit".toList

def compareBase : Text := "https://github.com/gcc-mirror/gcc/compare".toList

def commitUrl (sha : Option Commit) : Text := commitBase ++ '/' :: shown sha

def compareUrl (good bad : Commit) : Text := compareBase ++ '/' :: (good.1 ++ ("...".toList ++ bad.1))

def span (good bad : Text) : Text := good ++ ("..".toList ++ bad)

def what (r : Result) : Text :=
  if r.failureType = .dejagnu ∨ r.failureType = .shSim then
    let extra := if 1 < r.regressedTests.length
      then " (+".toList ++ Nat.toDigits 10 (r.regressedTests.length - 1) ++ " more)".toList else []
    r.regressedTests.head?.getD (typeName r.failureType ++ " regression".toList) ++ extra
  else if r.failedStep = [] then "build failure".toList else r.failedStep

def toCommit : Text := " → gcc-mirror".toList

def toRange : Text := " → range".toList

def heading : Text := "SH CI regression: ".toList

def title (r : Result) : Text :=
  heading ++ (what r ++
    if r.culprit.isSome then toCommit ++ ' ' :: short r.culprit
    else if r.exhausted then toRange ++ ' ' :: span (short r.narrowedGood) (short r.narrowedBad)
    else toRange ++ ' ' :: span (short r.goodCommit) (short r.badCommit))

def newDejagnu : Text := "New dejagnu test regression(s) (job stayed green, `.fail` non-empty):".toList

def newShSim : Text :=
  "New sh-sim execution regression(s) on the SH simulator (one `isa:test` per line):".toList

def item (test : Text) : Text := "- `".toList ++ (test ++ "`".toList)

def failedAt : Text := "`build-and-test` failed at step **".toList

def typeIs : Text := "** (type:".toList

def stepLine (r : Result) : Text :=
  failedAt ++ (r.failedStep ++ (typeIs ++ (" `".toList ++ (typeName r.failureType ++ "`).".toList))))

def failure (r : Result) : List Text :=
  ["## Failure".toList, []] ++
    ((match r.failureType with
      | .dejagnu => newDejagnu :: r.regressedTests.map item
      | .shSim => newShSim :: r.regressedTests.map item
      | _ => [stepLine r]) ++ [[]])

def bisectedTo : Text := "Bisected to **".toList

def ranOut : Text :=
  "Bisect ran out of its time budget and **could not be fully bisected** (incomplete). Narrowed to:".toList

def noBound : Text :=
  "No bisect was run: the **last-green** commit bound could not be established (no prior green run found in ".toList ++
    "history). First-red commit below.".toList

def notIsolated : Text :=
  "Bisect did not isolate a single culprit (the failing step had no reproduce command, or the bisect was ".toList ++
    "inconclusive). The range below bounds the regression.".toList

def quote (r : Result) : List Text :=
  if r.culpritAuthor ≠ [] ∨ r.culpritSubject ≠ [] then
    [[], "> ".toList ++ (r.culpritSubject ++ ("  ".toList ++ '\n' :: ("> — ".toList ++ r.culpritAuthor)))]
  else []

def verdict (r : Result) : List Text :=
  if r.culprit.isSome then
    (bisectedTo ++ (short r.culprit ++ ("** — ".toList ++ commitUrl r.culprit))) :: quote r
  else if r.exhausted then
    [ranOut, [], "- good: ".toList ++ (short r.narrowedGood ++ (" — ".toList ++ commitUrl r.narrowedGood)),
      "- bad:  ".toList ++ (short r.narrowedBad ++ (" — ".toList ++ commitUrl r.narrowedBad))]
  else if r.goodCommit = none then [noBound]
  else [notIsolated]

def culprit (r : Result) : List Text := ["## Culprit".toList, []] ++ (verdict r ++ [[]])

def rangeHead : Text := "## Bisected range".toList

def range (r : Result) : List Text :=
  match r.goodCommit, r.badCommit with
  | some good, some bad => [rangeHead, [], compareUrl good bad, []]
  | _, _ => []

def runHead : Text := "## CI run".toList

def logLines (log : Text) : List Text :=
  if log = [] then []
  else [[], "<details><summary>Failing step log (tail)</summary>".toList, [], "```".toList, log, "```".toList,
    "</details>".toList]

def ciRun (r : Result) : List Text := [runHead, [], r.runUrl] ++ logLines r.logExcerpt

def joinLines (ls : List Text) : Text := ['\n'].intercalate ls

def body (r : Result) : Text := joinLines (failure r ++ (culprit r ++ (range r ++ ciRun r)))

inductive Finding where
  | culprit (sha : Text)
  | narrowed (good bad : Text)
  | noBound
  | inconclusive
deriving DecidableEq

inductive Failed where
  | dejagnu (tests : List Text)
  | shSim (tests : List Text)
  | step (name type : Text)
deriving DecidableEq

structure Told where
  failed : Failed
  finding : Finding
  range : Option (Text × Text)
  runUrl : Text
  logExcerpt : Text
deriving DecidableEq

def lastPart (c : Char) (t : Text) : Text := t.rtakeWhile (· != c)

def unquote (line : Text) : Text := (line.drop 3).dropLast

def readStep (line : Text) : Failed :=
  let last := lastPart ' ' line
  .step (((line.drop failedAt.length).rdrop (last.length + 1)).rdrop typeIs.length) ((last.drop 1).rdrop 3)

def readFailure (ls : List Text) : Failed × List Text :=
  let header := ls.getD 2 []
  let rest := ls.drop 3
  let tests := (rest.takeWhile (fun l => decide (l ≠ []))).map unquote
  let left := (rest.dropWhile (fun l => decide (l ≠ []))).drop 1
  if header = newDejagnu then (.dejagnu tests, left)
  else if header = newShSim then (.shSim tests, left)
  else (readStep header, rest.drop 1)

def readFinding (ls : List Text) : Finding :=
  let first := ls.getD 0 []
  if bisectedTo <+: first then .culprit (lastPart '/' first)
  else if first = ranOut then .narrowed (lastPart '/' (ls.getD 2 [])) (lastPart '/' (ls.getD 3 []))
  else if first = noBound then .noBound
  else .inconclusive

def isHead (line : Text) : Bool := decide (line = rangeHead ∨ line = runHead)

def readCulprit (ls : List Text) : Finding × List Text :=
  (readFinding (ls.drop 2), (ls.drop 2).dropWhile (fun l => !isHead l))

def readSpan (url : Text) : Text × Text :=
  let names := lastPart '/' url
  (names.takeWhile (· != '.'), lastPart '.' names)

def readRange (ls : List Text) : Option (Text × Text) × List Text :=
  if ls.head? = some rangeHead then (some (readSpan (ls.getD 2 [])), ls.drop 4) else (none, ls)

def readRun (ls : List Text) : Text × Text := (ls.getD 2 [], joinLines (ls.drop 7).dropLast.dropLast)

def readBody (t : Text) : Told :=
  let failure := readFailure (lines t)
  let culprit := readCulprit failure.2
  let range := readRange culprit.2
  let run := readRun range.2
  ⟨failure.1, culprit.1, range.1, run.1, run.2⟩

def shorten (sha : Text) : Text := if sha = "None".toList then "?".toList else sha.take shortLength

def Told.target (told : Told) : Option Text :=
  match told.finding with
  | .culprit sha => some (shorten sha)
  | .narrowed good bad => some (span (shorten good) (shorten bad))
  | .inconclusive => told.range.map (fun r => span (shorten r.1) (shorten r.2))
  | .noBound => none

def Hex (sha : Option Commit) : Prop := ∀ c ∈ sha, ∀ x ∈ c.1, isHex x = true

namespace Result

variable (r : Result)

def finding : Finding :=
  match r.culprit with
  | some c => .culprit c.1
  | none =>
    if r.exhausted then .narrowed (shown r.narrowedGood) (shown r.narrowedBad)
    else if r.goodCommit = none then .noBound
    else .inconclusive

def bounds : Option (Text × Text) :=
  match r.goodCommit, r.badCommit with
  | some good, some bad => some (good.1, bad.1)
  | _, _ => none

def failed : Failed :=
  match r.failureType with
  | .dejagnu => .dejagnu r.regressedTests
  | .shSim => .shSim r.regressedTests
  | type => .step r.failedStep (typeName type)

def told : Told where
  failed := r.failed
  finding := r.finding
  range := r.bounds
  runUrl := r.runUrl
  logExcerpt := r.logExcerpt

def commits : List (Option Commit) := [r.goodCommit, r.badCommit, r.culprit, r.narrowedGood, r.narrowedBad]

/-- Commits are hexadecimal, and the other texts one line each, but for the log. -/
structure Plain : Prop where
  tests : ∀ t ∈ r.regressedTests, '\n' ∉ t
  failedStep : '\n' ∉ r.failedStep
  runUrl : '\n' ∉ r.runUrl
  subject : '\n' ∉ r.culpritSubject
  author : '\n' ∉ r.culpritAuthor
  commits : ∀ sha ∈ r.commits, Hex sha

end Result

lemma lines_append (l t : Text) : lines (l ++ '\n' :: t) = lines l ++ lines t := by
  induction l using line_induction with
  | last l hl => rw [lines_cons hl, lines_single hl, List.singleton_append]
  | line l m hl ih =>
      rw [List.append_assoc, List.cons_append, lines_cons hl, lines_cons hl, ih, List.cons_append]

lemma lines_joinLines {ls : List Text} (h : ls ≠ []) : lines (joinLines ls) = ls.flatMap lines := by
  induction ls with
  | nil => exact absurd rfl h
  | cons l ls ih =>
    cases ls with
    | nil => simp [joinLines]
    | cons m ls =>
      have hjoin : joinLines (l :: m :: ls) = l ++ '\n' :: joinLines (m :: ls) := by simp [joinLines]
      rw [hjoin, lines_append, ih (by simp)]
      rfl

lemma joinLines_lines (t : Text) : joinLines (lines t) = t := List.intercalate_splitOn '\n'

lemma flatMap_lines {ls : List Text} (h : ∀ l ∈ ls, '\n' ∉ l) : ls.flatMap lines = ls := by
  induction ls with
  | nil => rfl
  | cons l ls ih =>
    rw [List.flatMap_cons, lines_single (h l (by simp)), ih (fun m hm => h m (List.mem_cons_of_mem _ hm)),
      List.singleton_append]

lemma lastPart_append {c : Char} {w : Text} (hw : c ∉ w) (t : Text) : lastPart c (t ++ c :: w) = w := by
  have htake : ∀ x ∈ w.reverse, (x != c) = true := by
    intro x hx
    simp only [List.mem_reverse] at hx
    apply bne_iff_ne.mpr
    rintro rfl
    exact hw hx
  rw [lastPart, List.rtakeWhile, List.reverse_append, List.reverse_cons, List.append_assoc,
    List.takeWhile_append_of_pos htake]
  simp

section

variable {c : Char} (hc : isHex c = false)

include hc

lemma not_mem_commit {sha : Commit} (h : ∀ x ∈ sha.1, isHex x = true) : c ∉ sha.1 := by
  intro hmem
  have hhex := h c hmem
  rw [hc] at hhex
  cases hhex

lemma not_mem_shown (hnone : c ∉ "None".toList) {sha : Option Commit} (h : Hex sha) :
    c ∉ shown sha := by
  cases sha with
  | none => exact hnone
  | some d => exact not_mem_commit hc (h d rfl)

lemma not_mem_short (hnone : c ≠ '?') {sha : Option Commit} (h : Hex sha) :
    c ∉ short sha := by
  cases sha with
  | none => simpa [short] using hnone
  | some d => exact fun hmem => not_mem_commit hc (h d rfl) (List.mem_of_mem_take hmem)

end

lemma shorten_shown {sha : Option Commit} (h : Hex sha) :
    shorten (shown sha) = short sha := by
  cases sha with
  | none => rfl
  | some d =>
    have hne : d.1 ≠ "None".toList := by
      intro hd
      have hhex := h d rfl 'N' (by rw [hd]; simp)
      exact absurd hhex (by decide)
    exact if_neg hne

lemma lastPart_commitUrl {sha : Option Commit} (h : Hex sha) (t : Text) :
    lastPart '/' (t ++ commitUrl sha) = shown sha := by
  rw [commitUrl, ← List.append_assoc]
  exact lastPart_append (not_mem_shown (by decide) (by decide) h) _

lemma readSpan_compareUrl {good bad : Commit} (hgood : ∀ x ∈ good.1, isHex x = true)
    (hbad : ∀ x ∈ bad.1, isHex x = true) : readSpan (compareUrl good bad) = (good.1, bad.1) := by
  have hslash : '/' ∉ good.1 ++ ("...".toList ++ bad.1) := by
    have hg : '/' ∉ good.1 := not_mem_commit (by decide) hgood
    have hb : '/' ∉ bad.1 := not_mem_commit (by decide) hbad
    simp [hg, hb]
  have hdots : good.1 ++ ("...".toList ++ bad.1) = (good.1 ++ "..".toList) ++ '.' :: bad.1 := by simp
  have htake : ∀ x ∈ good.1, (x != '.') = true := by
    intro x hx
    apply bne_iff_ne.mpr
    rintro rfl
    exact not_mem_commit (by decide) hgood hx
  rw [readSpan, compareUrl, lastPart_append hslash]
  apply Prod.ext
  · rw [List.takeWhile_append_of_pos htake]
    simp
  · rw [hdots]
    exact lastPart_append (not_mem_commit (by decide) hbad) _

lemma unquote_item (test : Text) : unquote (item test) = test := by
  simp [unquote, item]

lemma item_ne (test : Text) : item test ≠ [] := by simp [item]

lemma newline_item {test : Text} (h : '\n' ∉ test) : '\n' ∉ item test := by simp [item, h]

lemma newline_texts : '\n' ∉ newDejagnu ∧ '\n' ∉ newShSim ∧ '\n' ∉ failedAt ∧ '\n' ∉ bisectedTo ∧
    '\n' ∉ ranOut ∧ '\n' ∉ rangeHead ∧ '\n' ∉ runHead ∧ '\n' ∉ commitBase ∧ '\n' ∉ compareBase := by
  delta newDejagnu newShSim failedAt bisectedTo ranOut rangeHead runHead commitBase compareBase
  refine ⟨?_, ?_, ?_, ?_, ?_, ?_, ?_, ?_, ?_⟩ <;> rw [String.toList_ofList] <;> decide +kernel

lemma newline_inconclusive : '\n' ∉ noBound ∧ '\n' ∉ notIsolated := by
  delta noBound notIsolated
  constructor <;> rw [String.toList_ofList, String.toList_ofList] <;> decide +kernel

lemma heads_of_texts : newDejagnu.head? = some 'N' ∧ newShSim.head? = some 'N' ∧ failedAt.head? = some '`' ∧
    bisectedTo.head? = some 'B' ∧ ranOut.head? = some 'B' ∧ rangeHead.head? = some '#' ∧
      runHead.head? = some '#' := by
  delta newDejagnu newShSim failedAt bisectedTo ranOut rangeHead runHead
  refine ⟨?_, ?_, ?_, ?_, ?_, ?_, ?_⟩ <;> rw [String.toList_ofList] <;> decide +kernel

lemma heads_inconclusive : noBound.head? = some 'N' ∧ notIsolated.head? = some 'B' := by
  delta noBound notIsolated
  constructor <;> rw [String.toList_ofList, String.toList_ofList] <;> decide +kernel

lemma bisectedTo_apart : ¬ bisectedTo <+: ranOut ∧ ¬ bisectedTo <+: noBound ∧ ¬ bisectedTo <+: notIsolated := by
  delta bisectedTo ranOut noBound notIsolated
  refine ⟨?_, ?_, ?_⟩
  · rw [String.toList_ofList, String.toList_ofList]
    decide +kernel
  · rw [String.toList_ofList, String.toList_ofList, String.toList_ofList]
    decide +kernel
  · rw [String.toList_ofList, String.toList_ofList, String.toList_ofList]
    decide +kernel

lemma verdicts_apart : noBound ≠ ranOut ∧ notIsolated ≠ ranOut ∧ notIsolated ≠ noBound ∧ runHead ≠ rangeHead ∧
    newShSim ≠ newDejagnu := by
  delta noBound notIsolated ranOut runHead rangeHead newShSim newDejagnu
  refine ⟨?_, ?_, ?_, ?_, ?_⟩
  · rw [String.toList_ofList, String.toList_ofList, String.toList_ofList]
    decide +kernel
  · rw [String.toList_ofList, String.toList_ofList, String.toList_ofList]
    decide +kernel
  · rw [String.toList_ofList, String.toList_ofList, String.toList_ofList, String.toList_ofList]
    decide +kernel
  · rw [String.toList_ofList, String.toList_ofList]
    decide +kernel
  · rw [String.toList_ofList, String.toList_ofList]
    decide +kernel

lemma not_isHead {line : Text} (h : line.head? ≠ some '#') : isHead line = false := by
  obtain ⟨-, -, -, -, -, hrange, hrun⟩ := heads_of_texts
  apply decide_eq_false
  rintro (rfl | rfl)
  · exact h hrange
  · exact h hrun

lemma stepLine_apart (r : Result) : ¬ (stepLine r = newDejagnu ∨ stepLine r = newShSim) := by
  obtain ⟨hdejagnu, hshSim, hfailed, -⟩ := heads_of_texts
  have hstep : (stepLine r).head? = some '`' := by simp [stepLine, List.head?_append, hfailed]
  rintro (h | h)
  · rw [h, hdejagnu] at hstep
    cases hstep
  · rw [h, hshSim] at hstep
    cases hstep

lemma rdrop_append_length (l m : Text) : (l ++ m).rdrop m.length = l := by simp [List.rdrop]

lemma readStep_stepLine (r : Result) : readStep (stepLine r) = .step r.failedStep (typeName r.failureType) := by
  have hblank : ' ' ∉ "`".toList ++ (typeName r.failureType ++ "`).".toList) :=
    by cases r.failureType <;> decide
  have htype : (("`".toList ++ (typeName r.failureType ++ "`).".toList)).drop 1).rdrop 3 =
    typeName r.failureType :=
    rdrop_append_length (typeName r.failureType) "`).".toList
  generalize hlast : "`".toList ++ (typeName r.failureType ++ "`).".toList) = last at hblank htype
  have hline : stepLine r = failedAt ++ (r.failedStep ++ (typeIs ++ ' ' :: last)) := by
    rw [← hlast]
    rfl
  have hpart : lastPart ' ' (stepLine r) = last := by
    have hsplit : stepLine r = (failedAt ++ (r.failedStep ++ typeIs)) ++ ' ' :: last := by
      rw [hline]
      simp only [List.append_assoc]
    rw [hsplit, lastPart_append hblank]
  have hname : ((stepLine r).drop failedAt.length).rdrop (last.length + 1) = r.failedStep ++ typeIs := by
    rw [hline, List.drop_left, ← List.append_assoc, ← List.length_cons (a := ' '), rdrop_append_length]
  rw [readStep, hpart, hname, rdrop_append_length, htype]

lemma readTests (header : Text) (tests : List Text) (tail : List Text) :
    let ls := ["## Failure".toList, []] ++ ((header :: tests.map item) ++ [[]]) ++ tail
    ls.getD 2 [] = header ∧ ((ls.drop 3).takeWhile (fun l => decide (l ≠ []))).map unquote = tests ∧
      ((ls.drop 3).dropWhile (fun l => decide (l ≠ []))).drop 1 = tail := by
  have hitems : ∀ l ∈ tests.map item, decide (l ≠ []) = true := by
    intro l hl
    obtain ⟨t, -, rfl⟩ := List.mem_map.mp hl
    exact decide_eq_true (item_ne t)
  simp only [List.cons_append, List.nil_append, List.getD_cons_succ, List.getD_cons_zero, List.drop_succ_cons,
    List.drop_zero, List.append_assoc, List.takeWhile_append_of_pos hitems, List.dropWhile_append_of_pos hitems]
  simp [Function.comp_def, unquote_item]

lemma readFailure_failure (r : Result) (tail : List Text) :
    readFailure (failure r ++ tail) = (r.failed, tail) := by
  obtain ⟨-, -, -, -, hapart⟩ := verdicts_apart
  obtain ⟨hdejagnu, hshSim⟩ := not_or.mp (stepLine_apart r)
  rw [failure, Result.failed]
  cases ht : r.failureType with
  | dejagnu =>
    obtain ⟨hheader, htests, htail⟩ := readTests newDejagnu r.regressedTests tail
    rw [readFailure, hheader, htests, htail, if_pos rfl]
  | shSim =>
    obtain ⟨hheader, htests, htail⟩ := readTests newShSim r.regressedTests tail
    rw [readFailure, hheader, htests, htail, if_neg hapart, if_pos rfl]
  | build | script | none =>
    have hstep := readStep_stepLine r
    rw [ht] at hstep
    simp [readFailure, hdejagnu, hshSim, hstep]

def verdictLines (r : Result) : List Text :=
  match r.culprit with
  | some _ =>
    (bisectedTo ++ (short r.culprit ++ ("** — ".toList ++ commitUrl r.culprit))) ::
      if r.culpritAuthor ≠ [] ∨ r.culpritSubject ≠ [] then
        [[], "> ".toList ++ (r.culpritSubject ++ "  ".toList), "> — ".toList ++ r.culpritAuthor]
      else []
  | none => verdict r

lemma newline_commitUrl {sha : Option Commit} (h : Hex sha) : '\n' ∉ commitUrl sha := by
  obtain ⟨-, -, -, -, -, -, -, hbase, -⟩ := newline_texts
  have hsha : '\n' ∉ shown sha := not_mem_shown not_hex_newline (by decide) h
  simp [commitUrl, hbase, hsha]

lemma newline_named {sha : Option Commit} (h : Hex sha) (sep : Text) (hsep : '\n' ∉ sep) :
    '\n' ∉ short sha ++ (sep ++ commitUrl sha) := by
  have hshort : '\n' ∉ short sha := not_mem_short not_hex_newline (by decide) h
  simp [hshort, hsep, newline_commitUrl h]

lemma lines_quote {r : Result} (h : r.Plain) :
    (quote r).flatMap lines =
      if r.culpritAuthor ≠ [] ∨ r.culpritSubject ≠ [] then
        [[], "> ".toList ++ (r.culpritSubject ++ "  ".toList), "> — ".toList ++ r.culpritAuthor]
      else [] := by
  have hsubject : '\n' ∉ "> ".toList ++ (r.culpritSubject ++ "  ".toList) := by simp [h.subject]
  have hauthor : '\n' ∉ "> — ".toList ++ r.culpritAuthor := by simp [h.author]
  rw [quote]
  split
  · have hlines := lines_cons hsubject ("> — ".toList ++ r.culpritAuthor)
    rw [lines_single hauthor] at hlines
    simpa [lines_single] using hlines
  · rfl

lemma lines_verdict {r : Result} (h : r.Plain) : (verdict r).flatMap lines = verdictLines r := by
  obtain ⟨-, -, -, hbisected, hran, -⟩ := newline_texts
  obtain ⟨hbound, hisolated⟩ := newline_inconclusive
  rw [verdictLines, verdict]
  cases hc : r.culprit with
  | some c =>
    have hfirst : '\n' ∉ bisectedTo ++ (short (some c) ++ ("** — ".toList ++ commitUrl (some c))) := by
      have hnamed := newline_named (h.commits r.culprit (by simp [Result.commits])) "** — ".toList (by decide)
      rw [hc] at hnamed
      exact fun hmem => (List.mem_append.mp hmem).elim hbisected hnamed
    simp only [Option.isSome_some, if_true, List.flatMap_cons, lines_single hfirst, lines_quote h]
    rfl
  | none =>
    have hgood := newline_named (h.commits r.narrowedGood (by simp [Result.commits])) " — ".toList (by decide)
    have hbad := newline_named (h.commits r.narrowedBad (by simp [Result.commits])) " — ".toList (by decide)
    apply flatMap_lines
    intro l hl
    simp only [Option.isSome_none, Bool.false_eq_true, if_false] at hl
    split at hl
    · simp only [List.mem_cons, List.not_mem_nil, or_false] at hl
      rcases hl with rfl | rfl | rfl | rfl
      · exact hran
      · exact List.not_mem_nil
      · exact fun hmem => (List.mem_append.mp hmem).elim (by decide) hgood
      · exact fun hmem => (List.mem_append.mp hmem).elim (by decide) hbad
    · split at hl
      · exact List.mem_singleton.mp hl ▸ hbound
      · exact List.mem_singleton.mp hl ▸ hisolated

lemma isHead_verdictLines (r : Result) : ∀ l ∈ verdictLines r, isHead l = false := by
  obtain ⟨-, -, -, hbisected, hran, -, -⟩ := heads_of_texts
  obtain ⟨hbound, hisolated⟩ := heads_inconclusive
  intro l hl
  apply not_isHead
  rw [verdictLines] at hl
  cases hc : r.culprit with
  | some c =>
    rw [hc] at hl
    simp only [List.mem_cons] at hl
    rcases hl with rfl | hl
    · simp [List.head?_append, hbisected]
    · split at hl
      · simp only [List.mem_cons, List.not_mem_nil, or_false] at hl
        rcases hl with rfl | rfl | rfl <;> simp
      · cases hl
  | none =>
    rw [hc, verdict, hc] at hl
    simp only [Option.isSome_none, Bool.false_eq_true, if_false] at hl
    split at hl
    · simp only [List.mem_cons, List.not_mem_nil, or_false] at hl
      rcases hl with rfl | rfl | rfl | rfl
      · simp [hran]
      · simp
      · simp
      · simp
    · split at hl
      · simp [List.mem_singleton.mp hl, hbound]
      · simp [List.mem_singleton.mp hl, hisolated]

lemma readFinding_verdictLines {r : Result} (h : r.Plain) (tail : List Text) :
    readFinding (verdictLines r ++ tail) = r.finding := by
  obtain ⟨hran, hbound, hisolated⟩ := bisectedTo_apart
  obtain ⟨hboundRan, hisolatedRan, hisolatedBound, -⟩ := verdicts_apart
  rw [verdictLines, Result.finding]
  cases hc : r.culprit with
  | some c =>
    have hsha := lastPart_commitUrl (h.commits r.culprit (by simp [Result.commits]))
      (bisectedTo ++ (short r.culprit ++ "** — ".toList))
    rw [hc] at hsha
    simp only [List.append_assoc] at hsha
    simp only [readFinding, List.cons_append, List.getD_cons_zero, List.prefix_append, if_true, hsha]
    rfl
  | none =>
    have hgood := lastPart_commitUrl (h.commits r.narrowedGood (by simp [Result.commits]))
      ("- good: ".toList ++ (short r.narrowedGood ++ " — ".toList))
    have hbad := lastPart_commitUrl (h.commits r.narrowedBad (by simp [Result.commits]))
      ("- bad:  ".toList ++ (short r.narrowedBad ++ " — ".toList))
    simp only [List.append_assoc] at hgood hbad
    simp only [verdict, hc, Option.isSome_none, Bool.false_eq_true, if_false]
    split
    · simp only [readFinding, List.cons_append, List.getD_cons_zero, List.getD_cons_succ, if_neg hran,
        if_true, hgood, hbad]
    · split
      · simp only [readFinding, List.cons_append, List.getD_cons_zero, if_neg hbound, if_neg hboundRan, if_true]
      · simp only [readFinding, List.cons_append, List.getD_cons_zero, if_neg hisolated, if_neg hisolatedRan,
          if_neg hisolatedBound]

lemma readCulprit_culprit {r : Result} (h : r.Plain) {head : Text} (hhead : isHead head = true)
    (tail : List Text) :
    readCulprit ((["## Culprit".toList, []] ++ (verdictLines r ++ [[]])) ++ head :: tail) =
      (r.finding, head :: tail) := by
  have hlines : ∀ l ∈ verdictLines r ++ [[]], (!isHead l) = true := by
    intro l hl
    rw [Bool.not_eq_true']
    rcases List.mem_append.mp hl with hl | hl
    · exact isHead_verdictLines r l hl
    · rw [List.mem_singleton.mp hl]
      exact not_isHead (by simp)
  have hdrop : ((["## Culprit".toList, []] ++ (verdictLines r ++ [[]])) ++ head :: tail).drop 2 =
      (verdictLines r ++ [[]]) ++ head :: tail := rfl
  rw [readCulprit, hdrop, List.dropWhile_append_of_pos hlines, List.dropWhile_cons_of_neg (by simp [hhead]),
    List.append_assoc, readFinding_verdictLines h]

lemma readRange_range {r : Result} (h : r.Plain) {tail : List Text} (htail : tail.head? = some runHead) :
    readRange (range r ++ tail) = (r.bounds, tail) := by
  obtain ⟨-, -, -, hapart, -⟩ := verdicts_apart
  have hnone : readRange tail = (none, tail) := if_neg (by simpa [htail] using hapart)
  rw [range.eq_def, Result.bounds]
  cases hg : r.goodCommit with
  | none => exact hnone
  | some good =>
    cases hb : r.badCommit with
    | none => exact hnone
    | some bad =>
      have hurl := readSpan_compareUrl (h.commits r.goodCommit (by simp [Result.commits]) good hg)
        (h.commits r.badCommit (by simp [Result.commits]) bad hb)
      simp [readRange, hurl]

lemma newline_range {r : Result} (h : r.Plain) : ∀ l ∈ range r, '\n' ∉ l := by
  obtain ⟨-, -, -, -, -, hrange, -, -, hbase⟩ := newline_texts
  rw [range.eq_def]
  cases hg : r.goodCommit with
  | none => simp
  | some good =>
    cases hb : r.badCommit with
    | none => simp
    | some bad =>
      have hgood : '\n' ∉ good.1 :=
        not_mem_commit not_hex_newline (h.commits r.goodCommit (by simp [Result.commits]) good hg)
      have hbad : '\n' ∉ bad.1 :=
        not_mem_commit not_hex_newline (h.commits r.badCommit (by simp [Result.commits]) bad hb)
      simp [hrange, compareUrl, hbase, hgood, hbad]

lemma newline_failure {r : Result} (h : r.Plain) : ∀ l ∈ failure r, '\n' ∉ l := by
  obtain ⟨hdejagnu, hshSim, hfailed, -⟩ := newline_texts
  have hitems : ∀ l ∈ r.regressedTests.map item, '\n' ∉ l := by
    intro l hl
    obtain ⟨t, ht, rfl⟩ := List.mem_map.mp hl
    exact newline_item (h.tests t ht)
  have htype : '\n' ∉ typeName r.failureType := by cases r.failureType <;> decide
  have hmid : '\n' ∉ typeIs := by decide
  have hstep : '\n' ∉ stepLine r := by simp [stepLine, hfailed, h.failedStep, hmid, htype]
  intro l hl
  rw [failure] at hl
  simp only [List.mem_append, List.mem_cons, List.not_mem_nil, or_false] at hl
  rcases hl with (rfl | rfl) | hl | rfl
  · decide
  · exact List.not_mem_nil
  · cases ht : r.failureType with
    | dejagnu =>
      rw [ht] at hl
      exact (List.mem_cons.mp hl).elim (fun heq => heq ▸ hdejagnu) (hitems l)
    | shSim =>
      rw [ht] at hl
      exact (List.mem_cons.mp hl).elim (fun heq => heq ▸ hshSim) (hitems l)
    | build | script | none =>
      rw [ht] at hl
      exact List.mem_singleton.mp hl ▸ hstep
  · exact List.not_mem_nil

lemma readRun_ciRun {r : Result} (h : r.Plain) :
    readRun ((ciRun r).flatMap lines) = (r.runUrl, r.logExcerpt) := by
  obtain ⟨-, -, -, -, -, -, hrun, -⟩ := newline_texts
  have hopen : '\n' ∉ "<details><summary>Failing step log (tail)</summary>".toList := by
    rw [String.toList_ofList]
    decide +kernel
  simp only [ciRun, logLines, List.flatMap_append, List.flatMap_cons, List.flatMap_nil, lines_single hrun,
    lines_single h.runUrl, lines_single List.not_mem_nil, List.singleton_append, List.append_nil]
  split
  · rename_i hlog
    simp [readRun, joinLines, hlog]
  · have hticks : '\n' ∉ "```".toList := by decide
    have hclose : '\n' ∉ "</details>".toList := by decide
    have hlast (a b : Text) : (lines r.logExcerpt ++ [a, b]).dropLast.dropLast = lines r.logExcerpt := by
      rw [← List.singleton_append, ← List.append_assoc, List.dropLast_concat, List.dropLast_concat]
    simp only [readRun, List.flatMap_cons, List.flatMap_nil, lines_single hopen, lines_single hticks,
      lines_single hclose, lines_single List.not_mem_nil, List.cons_append, List.nil_append, List.append_nil,
      List.getD_cons_succ, List.getD_cons_zero, List.drop_succ_cons, List.drop_zero, hlast, joinLines_lines]

lemma readBody_body {r : Result} (h : r.Plain) : readBody (body r) = r.told := by
  have hculprit : (culprit r).flatMap lines = ["## Culprit".toList, []] ++ (verdictLines r ++ [[]]) := by
    rw [culprit, List.flatMap_append, List.flatMap_append, lines_verdict h]
    rfl
  have hlines : lines (body r) = failure r ++ ((["## Culprit".toList, []] ++ (verdictLines r ++ [[]])) ++
      (range r ++ (ciRun r).flatMap lines)) := by
    rw [body, lines_joinLines (by simp [failure])]
    simp only [List.flatMap_append, flatMap_lines (newline_failure h), flatMap_lines (newline_range h),
      hculprit]
  have hrunHead : ((ciRun r).flatMap lines).head? = some runHead := by
    obtain ⟨-, -, -, -, -, -, hrun, -⟩ := newline_texts
    simp [ciRun, lines_single hrun]
  have hhead : ∃ head tail, range r ++ (ciRun r).flatMap lines = head :: tail ∧ isHead head = true := by
    obtain ⟨tail, htail⟩ := List.head?_eq_some_iff.mp hrunHead
    have hrun : ∃ head tail, (ciRun r).flatMap lines = head :: tail ∧ isHead head = true :=
      ⟨runHead, tail, htail, decide_eq_true (Or.inr rfl)⟩
    rw [range.eq_def]
    cases r.goodCommit with
    | none => exact hrun
    | some good =>
      cases r.badCommit with
      | none => exact hrun
      | some bad => exact ⟨rangeHead, _, rfl, decide_eq_true (Or.inl rfl)⟩
  obtain ⟨head, tail, htail, hisHead⟩ := hhead
  have hread := readCulprit_culprit h hisHead tail
  rw [← htail] at hread
  rw [readBody, hlines, readFailure_failure, hread, readRange_range h hrunHead, readRun_ciRun h]
  rfl

lemma lastPart_span {good bad : Option Commit} (hgood : Hex good) (hbad : Hex bad) (t : Text) :
    lastPart ' ' (t ++ ' ' :: span (short good) (short bad)) = span (short good) (short bad) := by
  apply lastPart_append
  have hg : ' ' ∉ short good := not_mem_short (by decide) (by decide) hgood
  have hb : ' ' ∉ short bad := not_mem_short (by decide) (by decide) hbad
  simp [span, hg, hb]

lemma lastPart_title {r : Result} (h : r.Plain) : ∀ t ∈ r.told.target, lastPart ' ' (title r) = t := by
  have hcommits : ∀ sha ∈ r.commits, Hex sha := h.commits
  simp only [Result.commits, List.mem_cons, List.not_mem_nil, or_false, forall_eq_or_imp, forall_eq] at hcommits
  obtain ⟨hgood, hbad, hculprit, hnarrowedGood, hnarrowedBad⟩ := hcommits
  have htitle (e w : Text) : heading ++ (what r ++ (e ++ ' ' :: w)) = (heading ++ (what r ++ e)) ++
    ' ' :: w := by
    simp only [List.append_assoc]
  intro t ht
  cases hc : r.culprit with
  | some c =>
    have hblank : ' ' ∉ short r.culprit := not_mem_short (by decide) (by decide) hculprit
    have hshort := shorten_shown hculprit
    simp only [Result.told, Result.finding, Told.target, hc, Option.mem_def, Option.some.injEq] at ht
    rw [title, if_pos (by simp [hc]), htitle, lastPart_append hblank, ← hshort, hc]
    exact ht
  | none =>
    simp only [Result.told, Result.finding, Told.target, hc] at ht
    rw [title, if_neg (by simp [hc])]
    by_cases hx : r.exhausted = true
    · simp only [hx, if_true, Option.mem_def, Option.some.injEq, shorten_shown hnarrowedGood,
        shorten_shown hnarrowedBad] at ht
      rw [if_pos hx, htitle, lastPart_span hnarrowedGood hnarrowedBad]
      exact ht
    · rw [if_neg hx] at ht ⊢
      rw [htitle, lastPart_span hgood hbad]
      cases hg : r.goodCommit with
      | none => simp [hg] at ht
      | some good =>
        cases hb : r.badCommit with
        | none => simp [hg, Result.bounds, hb] at ht
        | some bad =>
          have hsg := shorten_shown hgood
          have hsb := shorten_shown hbad
          simp only [hg, Result.bounds, hb, reduceCtorEq, if_false, Option.map_some, Option.mem_def,
            Option.some.injEq] at ht
          rw [hg] at hsg
          rw [hb] at hsb
          rw [← hsg, ← hsb]
          exact ht

theorem issue_readable (r : Result) (h : r.Plain) :
    readBody (body r) = r.told ∧ ∀ t ∈ (readBody (body r)).target, lastPart ' ' (title r) = t := by
  rw [readBody_body h]
  exact ⟨rfl, lastPart_title h⟩

def sample : Result where
  failureType := .script
  failedStep := "Run **musl** build".toList
  regressedTests := []
  goodCommit := some ⟨['1', 'a'], List.cons_ne_nil _ _⟩
  badCommit := some ⟨['2', 'b'], List.cons_ne_nil _ _⟩
  runUrl := "runs/7".toList
  culprit := some ⟨['2', 'b'], List.cons_ne_nil _ _⟩
  culpritSubject := "sh: x".toList
  culpritAuthor := []
  narrowedGood := some ⟨['1', 'a'], List.cons_ne_nil _ _⟩
  narrowedBad := none
  exhausted := false
  logExcerpt := "a\n\nb".toList

theorem issue_readable_sample :
    readBody (body sample) = sample.told ∧ sample.told.failed = .step sample.failedStep "script".toList ∧
      ∀ t ∈ (readBody (body sample)).target, lastPart ' ' (title sample) = t := by
  obtain ⟨htold, htitle⟩ := issue_readable sample
    { tests := by decide +kernel
      failedStep := by decide
      runUrl := by decide
      subject := by decide
      author := by decide
      commits := by
        simp only [Result.commits, sample, List.forall_mem_cons, Hex, Option.mem_def, reduceCtorEq,
          false_imp_iff, implies_true, Option.some.injEq, forall_eq', List.not_mem_nil, and_true]
        decide }
  exact ⟨htold, rfl, htitle⟩

end ShMonitor.Workflow.IssueText
