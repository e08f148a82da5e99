import Mathlib.Data.List.DropRight
import Mathlib.Logic.Function.Basic
import ShMonitor.Texts.Json

/-! `run-lra-corpus.sh`: each case of the manifest is compiled by the current and by the reference
compiler at each of its levels, and programs are run and compared by the hash of what they print and
by their exit status. `sha256sum` is a parameter. -/

namespace ShMonitor.Lra.Corpus

open Texts

abbrev Bytes := List UInt8

inductive Ending where
  | exited (status : UInt8)
  | timedOut
  deriving DecidableEq

structure Execution where
  stdout : Bytes
  ending : Ending

def Ending.exitCode : Ending → UInt8
  | .exited status => status
  | .timedOut => 124

structure Sha256 where
  digest : Bytes → Text
  alphanumeric : ∀ b, ∀ c ∈ digest b, c.isAlphanum = true

def sha256sum (sha : Sha256) (input : Bytes) : Text := sha.digest input ++ "  -\n".toList

def cutFirst (t : Text) : Text := unlines ((readLines t).map (fun l => l.takeWhile (· ≠ ' ')))

def substitutedText (t : Text) : Text := t.rdropWhile (· == '\n')

/-- What the shell's `$(...)` keeps of a program's output: a variable holds no NUL byte. -/
def substituted (output : Bytes) : Bytes := (output.filter (fun b => b ≠ 0)).rdropWhile (· == 10)

def timeoutMarker : Text := "TIMEOUT".toList

-- `set -e` does not reach into `$(...)`, so a failing program does not end the function.
def runUnderQemu (sha : Sha256) (bin : Execution) : Text :=
  let stdout := substituted bin.stdout
  let exitCode := bin.ending.exitCode
  if exitCode = 124 then timeoutMarker
  else
    let hash := substitutedText (cutFirst (sha256sum sha stdout))
    Nat.toDigits 10 exitCode.toNat ++ ':' :: hash

inductive Outcome where
  | bothOk
  | diverged
  | currentIce
  | refIce
  | bothIce
  | timeout
  deriving DecidableEq

structure Case where
  name : Text
  expected : Text
  opts : List Text

structure Result where
  opt : Text
  outcome : Outcome
  detail : Text

/-- The program that each compiler makes of a case at a level, `none` where `compile_one` fails. -/
structure Toolchain where
  current : Text → Text → Option Execution
  reference : Text → Text → Option Execution

def compilesAndRuns : Text := "compiles_and_runs".toList

def detailOf (cur ref : Text) : Text := "cur=".toList ++ (cur ++ (" ref=".toList ++ ref))

def compareRuns (opt cur ref : Text) : Result :=
  if cur = timeoutMarker ∨ ref = timeoutMarker then ⟨opt, .timeout, detailOf cur ref⟩
  else if cur = ref then ⟨opt, .bothOk, []⟩
  else ⟨opt, .diverged, detailOf cur ref⟩

def record (sha : Sha256) (tools : Toolchain) (c : Case) (opt : Text) : Result :=
  match tools.current c.name opt, tools.reference c.name opt with
  | some cur, some ref =>
    if c.expected = compilesAndRuns then compareRuns opt (runUnderQemu sha cur) (runUnderQemu sha ref)
    else ⟨opt, .bothOk, []⟩
  | none, some _ => ⟨opt, .currentIce, []⟩
  | some _, none => ⟨opt, .refIce, []⟩
  | none, none => ⟨opt, .bothIce, []⟩

structure Tally where
  counts : Outcome → ℕ
  total : ℕ

def Tally.add (tally : Tally) (result : Result) : Tally where
  counts := Function.update tally.counts result.outcome (tally.counts result.outcome + 1)
  total := tally.total + 1

/-- The cases of the results file. A case of the manifest without a file is left out. -/
def runCorpus (sha : Sha256) (tools : Toolchain) (present : Text → Bool) (manifest : List Case) :
    List (Case × List Result) :=
  (manifest.filter (fun c => present c.name)).map (fun c => (c, c.opts.map (record sha tools c)))

def tallyOf (cases : List (Case × List Result)) : Tally :=
  (cases.flatMap Prod.snd).foldl Tally.add ⟨fun _ => 0, 0⟩

def divergedCount (tally : Tally) : ℕ :=
  tally.counts .diverged + tally.counts .currentIce + tally.counts .timeout

lemma foldl_add (results : List Result) (tally : Tally) (o : Outcome) :
    (results.foldl Tally.add tally).counts o = tally.counts o + results.countP (fun r => r.outcome = o) ∧
      (results.foldl Tally.add tally).total = tally.total + results.length := by
  induction results generalizing tally with
  | nil => exact ⟨rfl, rfl⟩
  | cons r results ih =>
    obtain ⟨hcounts, htotal⟩ := ih (tally.add r)
    rw [List.foldl_cons, hcounts, htotal, List.countP_cons, List.length_cons]
    constructor
    · show Function.update tally.counts r.outcome (tally.counts r.outcome + 1) o + _ = _
      rw [Function.update_apply]
      by_cases ho : o = r.outcome
      · subst ho
        rw [if_pos rfl, if_pos (decide_eq_true rfl)]
        omega
      · rw [if_neg ho, if_neg (by simpa using Ne.symm ho)]
        omega
    · show tally.total + 1 + _ = _
      omega

lemma counts_tallyOf (cases : List (Case × List Result)) (o : Outcome) :
    (tallyOf cases).counts o = (cases.flatMap Prod.snd).countP (fun r => r.outcome = o) ∧
      (tallyOf cases).total = (cases.flatMap Prod.snd).length := by
  obtain ⟨hcounts, htotal⟩ := foldl_add (cases.flatMap Prod.snd) ⟨fun _ => 0, 0⟩ o
  exact ⟨hcounts.trans (Nat.zero_add _), htotal.trans (Nat.zero_add _)⟩

lemma isAlphanum_ne {c d : Char} (hc : c.isAlphanum = true) (hd : d.isAlphanum = false) : c ≠ d := by
  rintro rfl
  rw [hc] at hd
  cases hd

lemma hash_eq (sha : Sha256) (input : Bytes) :
    substitutedText (cutFirst (sha256sum sha input)) = sha.digest input := by
  have hblank : ∀ c ∈ sha.digest input, decide (c ≠ ' ') = true := fun c hc =>
    decide_eq_true (isAlphanum_ne (sha.alphanumeric input c hc) (by decide))
  have hline : sha256sum sha input = unlines [sha.digest input ++ "  -".toList] := by
    simp [sha256sum, unlines]
  have hnewline : ∀ l ∈ [sha.digest input ++ "  -".toList], '\n' ∉ l := by
    intro l hl hm
    rw [List.mem_singleton.mp hl, List.mem_append] at hm
    obtain hm | hm := hm
    · exact isAlphanum_ne (sha.alphanumeric input _ hm) (by decide) rfl
    · exact absurd hm (by decide)
  have hfirst : (sha.digest input ++ "  -".toList).takeWhile (· ≠ ' ') = sha.digest input := by
    rw [List.takeWhile_append_of_pos hblank]
    exact List.append_nil _
  rw [hline, cutFirst, readLines_unlines hnewline, List.map_singleton, hfirst]
  have hcut : unlines [sha.digest input] = sha.digest input ++ ['\n'] := by simp [unlines]
  rw [hcut, substitutedText, List.rdropWhile_concat_pos _ _ _ rfl]
  apply List.rdropWhile_eq_self_iff.mpr
  intro hne
  have hlast := isAlphanum_ne (sha.alphanumeric input _ (List.getLast_mem hne))
    (by decide : ('\n').isAlphanum = false)
  simpa using hlast

lemma runUnderQemu_eq (sha : Sha256) (output : Bytes) (status : UInt8) :
    runUnderQemu sha ⟨output, .exited status⟩ =
    if status = 124 then timeoutMarker
    else Nat.toDigits 10 status.toNat ++ ':' :: sha.digest (substituted output) := by
  rw [runUnderQemu]
  simp only [hash_eq, Ending.exitCode]

lemma timeoutMarker_ne (n : ℕ) (t : Text) : Nat.toDigits 10 n ++ t ≠ timeoutMarker := by
  intro h
  cases hdigits : Nat.toDigits 10 n with
  | nil => exact Nat.toDigits_ne_nil hdigits
  | cons c ds =>
    rw [hdigits] at h
    obtain ⟨rfl, -⟩ := List.cons.inj h
    have hdigit := isDigit_of_mem_toDigits (n := n) (c := 'T') (by rw [hdigits]; exact List.mem_cons_self)
    cases hdigit

lemma runUnderQemu_timeout {sha : Sha256} {output : Bytes} {status : UInt8} :
    runUnderQemu sha ⟨output, .exited status⟩ = timeoutMarker ↔ status = 124 := by
  rw [runUnderQemu_eq]
  by_cases hstatus : status = 124
  · rw [if_pos hstatus]
    exact iff_of_true rfl hstatus
  · rw [if_neg hstatus]
    exact iff_of_false (timeoutMarker_ne _ _) hstatus

lemma toDigits_inj {m n : ℕ} (h : Nat.toDigits 10 m = Nat.toDigits 10 n) : m = n := by
  have hvalue := congrArg (fun ds => Nat.ofDigitChars 10 ds 0) h
  simpa only [Nat.ofDigitChars_ten_toDigits] using hvalue

lemma runUnderQemu_inj {sha : Sha256} {output output' : Bytes} {status status' : UInt8} (h : status ≠ 124)
    (h' : status' ≠ 124) :
    runUnderQemu sha ⟨output, .exited status⟩ = runUnderQemu sha ⟨output', .exited status'⟩ ↔
      status = status' ∧ sha.digest (substituted output) = sha.digest (substituted output') := by
  have hdigits : ':' ∉ Nat.toDigits 10 status.toNat := fun hm => absurd (isDigit_of_mem_toDigits hm) (by decide)
  have hdigest : ':' ∉ sha.digest (substituted output) := fun hm => absurd (sha.alphanumeric _ _ hm) (by decide)
  rw [runUnderQemu_eq, runUnderQemu_eq, if_neg h, if_neg h', List.append_cons_inj_of_notMem hdigits hdigest]
  constructor
  · rintro ⟨hs, -, hd⟩
    exact ⟨UInt8.toNat_inj.mp (toDigits_inj hs), hd⟩
  · rintro ⟨rfl, hd⟩
    exact ⟨rfl, rfl, hd⟩

def SameVisible (output output' : Bytes) : Prop :=
  ∃ text m n, output.filter (fun b => b ≠ 0) = text ++ List.replicate m 10 ∧
    output'.filter (fun b => b ≠ 0) = text ++ List.replicate n 10

def NoCollision (sha : Sha256) (input input' : Bytes) : Prop :=
  sha.digest input = sha.digest input' → input = input'

lemma rdropWhile_replicate (text : Bytes) (n : ℕ) :
    (text ++ List.replicate n 10).rdropWhile (· == 10) = text.rdropWhile (· == 10) := by
  induction n with
  | zero => rw [List.replicate_zero, List.append_nil]
  | succ n ih => rw [List.replicate_succ', ← List.append_assoc, List.rdropWhile_concat_pos _ _ _ rfl, ih]

lemma exists_replicate (output : Bytes) : ∃ n, output = output.rdropWhile (· == 10) ++ List.replicate n 10 := by
  refine ⟨(output.rtakeWhile (· == 10)).length, ?_⟩
  have hall : output.rtakeWhile (· == 10) = List.replicate (output.rtakeWhile (· == 10)).length 10 := by
    apply List.eq_replicate_of_mem
    intro b hb
    simpa using List.mem_rtakeWhile_imp hb
  rw [← hall]
  exact List.rdropWhile_append_rtakeWhile.symm

lemma substituted_eq_iff {output output' : Bytes} :
    substituted output = substituted output' ↔ SameVisible output output' := by
  constructor
  · intro h
    obtain ⟨m, hm⟩ := exists_replicate (output.filter (fun b => b ≠ 0))
    obtain ⟨n, hn⟩ := exists_replicate (output'.filter (fun b => b ≠ 0))
    refine ⟨substituted output, m, n, hm, ?_⟩
    rw [h]
    exact hn
  · rintro ⟨text, m, n, hm, hn⟩
    rw [substituted, substituted, hm, hn, rdropWhile_replicate, rdropWhile_replicate]

lemma compareRuns_outcome {opt cur ref : Text} (hcur : cur ≠ timeoutMarker) (href : ref ≠ timeoutMarker) :
    (compareRuns opt cur ref).outcome = if cur = ref then .bothOk else .diverged := by
  rw [compareRuns, if_neg (not_or.mpr ⟨hcur, href⟩)]
  split <;> rfl

lemma compareRuns_timeout {opt cur ref : Text} (h : cur = timeoutMarker ∨ ref = timeoutMarker) :
    (compareRuns opt cur ref).outcome = .timeout := by
  rw [compareRuns, if_pos h]

lemma ite_outcome_iff {p q : Prop} [Decidable p] [Decidable q] :
    ((if p then Outcome.bothOk else .diverged) = if q then .bothOk else .diverged) ↔ (p ↔ q) := by
  by_cases hp : p <;> by_cases hq : q <;> simp [hp, hq]

theorem meansEqual_iff (sha : Sha256) (tools : Toolchain) (c : Case) (opt : Text) (output output' : Bytes)
    (status status' : UInt8) (hruns : c.expected = compilesAndRuns)
    (hcur : tools.current c.name opt = some ⟨output, .exited status⟩)
    (href : tools.reference c.name opt = some ⟨output', .exited status'⟩)
    (hsha : NoCollision sha (substituted output) (substituted output')) :
    (record sha tools c opt).outcome = (if output = output' ∧ status = status' then .bothOk else .diverged) ↔
      status ≠ 124 ∧ status' ≠ 124 ∧ ¬ (status = status' ∧ output ≠ output' ∧ SameVisible output output') := by
  have hrecord : record sha tools c opt = compareRuns opt (runUnderQemu sha ⟨output, .exited status⟩)
      (runUnderQemu sha ⟨output', .exited status'⟩) := by
    rw [record, hcur, href]
    exact if_pos hruns
  rw [hrecord]
  by_cases htimeout : status = 124 ∨ status' = 124
  · have hmarker : (compareRuns opt (runUnderQemu sha ⟨output, .exited status⟩)
        (runUnderQemu sha ⟨output', .exited status'⟩)).outcome = .timeout := by
      apply compareRuns_timeout
      exact Or.imp runUnderQemu_timeout.mpr runUnderQemu_timeout.mpr htimeout
    rw [hmarker]
    apply iff_of_false
    · split <;> simp
    · rintro ⟨h, h', -⟩
      exact htimeout.elim h h'
  · obtain ⟨h, h'⟩ := not_or.mp htimeout
    have hdigest : sha.digest (substituted output) = sha.digest (substituted output') ↔
      SameVisible output output' := by
      rw [← substituted_eq_iff]
      exact ⟨hsha, congrArg sha.digest⟩
    rw [compareRuns_outcome (mt runUnderQemu_timeout.mp h) (mt runUnderQemu_timeout.mp h'), ite_outcome_iff,
      runUnderQemu_inj h h', hdigest]
    have hsame : output = output' → SameVisible output output' := by
      rintro rfl
      exact substituted_eq_iff.mp rfl
    constructor
    · intro hiff
      refine ⟨h, h', ?_⟩
      rintro ⟨hs, hne, hv⟩
      exact hne (hiff.mp ⟨hs, hv⟩).1
    · rintro ⟨-, -, hnot⟩
      constructor
      · rintro ⟨hs, hv⟩
        exact ⟨by_contra fun hne => hnot ⟨hs, hne, hv⟩, hs⟩
      · rintro ⟨ho, hs⟩
        exact ⟨hs, hsame ho⟩

def okBytes : Bytes := [111, 107]

def koBytes : Bytes := [107, 111]

def hexByte (b : UInt8) : Text := [Nat.digitChar (b.toNat / 16), Nat.digitChar (b.toNat % 16)]

def shortSha : Sha256 where
  digest input :=
    if input = okBytes then "2689367b205c16ce32ed4200942b8b8b1e262dfc70d9bc9fbc77c49699a4f1df".toList
    else if input = koBytes then "1fdbc74ccfd68d0714ae539c0d93f2f3a1805387632eca33d3bd6a5013afb13e".toList
    else input.flatMap hexByte
  alphanumeric input c hc := by
    have hdigit : ∀ d < 16, (Nat.digitChar d).isAlphanum = true := by decide
    split at hc
    · have hall :
          "2689367b205c16ce32ed4200942b8b8b1e262dfc70d9bc9fbc77c49699a4f1df".toList.all Char.isAlphanum =
            true := by
        decide +kernel
      exact List.all_eq_true.mp hall c hc
    · split at hc
      · have hall :
            "1fdbc74ccfd68d0714ae539c0d93f2f3a1805387632eca33d3bd6a5013afb13e".toList.all
              Char.isAlphanum = true := by
          decide +kernel
        exact List.all_eq_true.mp hall c hc
      · obtain ⟨b, -, hb⟩ := List.mem_flatMap.mp hc
        have hbyte := b.toNat_lt
        obtain rfl | hb := List.mem_cons.mp hb
        · exact hdigit _ (by omega)
        · rw [List.mem_singleton.mp hb]
          exact hdigit _ (by omega)

def printing (output output' : Bytes) (status : UInt8) : Toolchain where
  current _ _ := some ⟨output, .exited status⟩
  reference _ _ := some ⟨output', .exited status⟩

def runCase : Case := ⟨"pr64366.c".toList, compilesAndRuns, ["O2".toList]⟩

theorem meansEqual_iff_okKo :
    (record shortSha (printing okBytes koBytes 0) runCase "O2".toList).outcome =
        (if okBytes = koBytes ∧ (0 : UInt8) = 0 then .bothOk else .diverged) ↔
      (0 : UInt8) ≠ 124 ∧ (0 : UInt8) ≠ 124 ∧
        ¬ ((0 : UInt8) = 0 ∧ okBytes ≠ koBytes ∧ SameVisible okBytes koBytes) :=
  meansEqual_iff shortSha (printing okBytes koBytes 0) runCase "O2".toList okBytes koBytes 0 0 rfl rfl rfl
    (fun h => absurd h (by decide))

theorem meansEqual_counterexample :
    (record shortSha (printing (okBytes ++ [10]) okBytes 0) runCase "O2".toList).outcome = .bothOk ∧
      okBytes ++ [10] ≠ okBytes ∧
    (record shortSha (printing okBytes okBytes 124) runCase "O2".toList).outcome = .timeout := by
  decide +kernel

end ShMonitor.Lra.Corpus
