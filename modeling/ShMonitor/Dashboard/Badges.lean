import ShMonitor.Dashboard.Lanes

/-! The status badges of `ci-full.yml`: what each shows, read by name from the merged metrics of the
sh4 lane. A value that is missing or no count stops the step. -/

namespace ShMonitor.Dashboard.Badges

open Texts Lanes
open Bisect.Csibe (Corpus entryName summedBytes)

variable {π : Type}

inductive Color where
  | green
  | yellow
  | red
  | blue
deriving DecidableEq

structure Badge where
  file : Text
  message : Text
  color : Color
deriving DecidableEq

/-- `[.[] | select(.name == $name)][0].value`, where it is a count. -/
def valueOf (name : Text) (metrics : Metrics π) : Option ℕ :=
  (metrics.find? (fun b => b.name = name)).bind fun b =>
    match b.value with
    | .count n => some n
    | .percent _ => none

def decimalText (n : ℕ) : Text := Nat.toDigits 10 n

def dejagnuBadge (fail : ℕ) : Badge :=
  ⟨"dejagnu".toList, "dejagnu-".toList ++ (decimalText fail ++ "%20fail".toList),
    if 5 < fail then .red else if 0 < fail then .yellow else .green⟩

def csibeBadge (bytes : ℕ) : Badge :=
  ⟨"csibe".toList, "csibe--Os-".toList ++ (decimalText (bytes / 1024) ++ "%20KB".toList), .blue⟩

def coremarkBadge (text : ℕ) : Badge :=
  ⟨"coremark".toList, "coremark%20.text-".toList ++ (decimalText text ++ "%20bytes".toList), .blue⟩

def lraBadge (diverged : ℕ) : Badge :=
  ⟨"lra".toList, "lra-".toList ++ (decimalText diverged ++ "%20diverged".toList),
    if 3 < diverged then .red else if 0 < diverged then .yellow else .green⟩

def busyboxBadge (text pass : ℕ) : Badge :=
  ⟨"busybox".toList,
    "busybox-".toList ++ (decimalText (text / 1024) ++
      ("%20KB%20(".toList ++ (decimalText pass ++ "%2F10)".toList))),
    if pass = 0 ∨ text = 0 then .red else if pass < 10 then .yellow else .green⟩

def muslBadge (text pass : ℕ) : Badge :=
  ⟨"musl".toList, "musl-".toList ++ (decimalText (text / 1024) ++ "%20KB".toList),
    if text = 0 then .red else if pass = 0 then .yellow else .green⟩

def buildFailing : Text := "build%20failing".toList

def failingBadge (name label : Text) : Badge := ⟨name, label ++ ('-' :: buildFailing), .red⟩

def shSimFile : Text := "sh-sim".toList

def shSimLabel : Text := "sh--sim".toList

def shSimBadge (fail pass : ℕ) : Badge :=
  if pass = 0 then failingBadge shSimFile shSimLabel
  else if 0 < fail then
    ⟨shSimFile, shSimLabel ++ ('-' :: (decimalText fail ++ "%20fail".toList)),
      if 5 < fail then .red else .yellow⟩
  else ⟨shSimFile, shSimLabel ++ ('-' :: (decimalText pass ++ "%20pass".toList)), .green⟩

def csibeTotal : Text := "csibe_total_os_bytes_sh4".toList

def coremarkText : Text := "coremark_text_bytes_sh4".toList

def busyboxText : Text := "busybox_text_bytes_sh4".toList

def busyboxPass : Text := "busybox_smoke_pass_sh4".toList

def muslText : Text := "musl_libc_text_bytes_sh4".toList

def muslPass : Text := "musl_smoke_pass_sh4".toList

def valueBadges (metrics : Metrics π) : Option (List Badge) := do
  let fail ← valueOf Detection.ParseDejagnu.failCount metrics
  let csibe ← valueOf csibeTotal metrics
  let coremark ← valueOf coremarkText metrics
  let diverged ← valueOf lraDiverged metrics
  let bbt ← valueOf busyboxText metrics
  let bbp ← valueOf busyboxPass metrics
  let mlt ← valueOf muslText metrics
  let mls ← valueOf muslPass metrics
  let simFail ← valueOf Detection.ParseShSim.failCount metrics
  let simPass ← valueOf Detection.ParseShSim.passCount metrics
  some [dejagnuBadge fail, csibeBadge csibe, coremarkBadge coremark, lraBadge diverged, busyboxBadge bbt bbp,
    muslBadge mlt mls, shSimBadge simFail simPass]

def failingBadges : List Badge :=
  ["dejagnu".toList, "csibe".toList, "coremark".toList, "lra".toList, "busybox".toList, "musl".toList].map
    (fun b => failingBadge b b) ++ [failingBadge shSimFile shSimLabel]

/-- The step reads `metrics/all.json`, which is absent where build-and-test has failed. -/
def badges (all : Option (Metrics π)) : Option (List Badge) := all.elim (some failingBadges) valueBadges

lemma find_names (metrics : Metrics π) (name : Text) :
    metrics.find? (fun b => b.name = name) = metrics[(names metrics).idxOf name]? := by
  induction metrics with
  | nil => rfl
  | cons b metrics ih =>
    rw [names, List.map_cons, List.idxOf_cons, List.find?_cons]
    by_cases h : b.name = name
    · rw [decide_eq_true h, beq_iff_eq.mpr h]
      rfl
    · rw [decide_eq_false h, beq_false_of_ne h, cond_false, List.getElem?_cons_succ]
      exact ih

lemma valueOf_index {metrics : Metrics π} {ns : List Text} (hnames : names metrics = ns) {name : Text} {i : ℕ}
    (hi : ns.idxOf name = i) {found : Text} {unit : Text} {n : ℕ}
    (hget : metrics[i]? = some (entry found unit n)) :
    valueOf name metrics = some n := by
  rw [valueOf, find_names, hnames, hi, hget]
  rfl

lemma valueOf_append {first second : Metrics π} {name : Text} (h : name ∉ names first) :
    valueOf name (first ++ second) = valueOf name second := by
  have hnone : first.find? (fun b => b.name = name) = none := by
    rw [List.find?_eq_none]
    intro b hb hname
    exact h (List.mem_map.mpr ⟨b, hb, of_decide_eq_true hname⟩)
  rw [valueOf, List.find?_append, hnone, Option.none_or, valueOf]

section

variable (isWord : Char → Bool) (pct : ℕ → ℕ → π) (corpus : Corpus) (run : Sh4Run)

def headMetrics : Metrics π :=
  parsed (Detection.ParseDejagnu.parse run.gccSum) ++ csibe .sh4 run.compiler corpus

def densityMetrics : Metrics π :=
  [("coremark".toList, run.coremarkDensity), ("csibe".toList, run.csibeDensity)].flatMap corpusMetrics ++
    (totalMetrics pct (run.csibeDensity.m2 + (run.coremarkDensity.m2 + 0))
      (run.csibeDensity.m2a + (run.coremarkDensity.m2a + 0))
        (run.csibeDensity.m4 + (run.coremarkDensity.m4 + 0)) ++ twoWayMetrics pct run.busyboxDensity)

def lateMetrics : Metrics π :=
  (((sh4Files isWord pct corpus run).drop 2).take 8).flatten ++
    (densityMetrics pct run ++ parsed (Detection.ParseShSim.parse isWord run.simSums))

lemma allJson_split : allJson isWord pct corpus run =
    some (headMetrics corpus run ++ lateMetrics isWord pct corpus run) := by
  have hdensity : buildMetrics pct [("csibe".toList, run.csibeDensity),
    ("coremark".toList, run.coremarkDensity)] run.busyboxDensity = densityMetrics pct run := by
    rw [buildMetrics, densities_sorted]
    rfl
  rw [allJson, merge_arrays, headMetrics, List.append_assoc, lateMetrics, sh4Files, hdensity]
  simp only [List.flatten_cons, List.flatten_nil, List.append_nil, List.drop_succ_cons, List.drop_zero,
    List.take_succ_cons, List.take_zero, List.append_assoc]

lemma names_late : names (lateMetrics isWord pct corpus run) = coremarkNames ++ lateNames := rfl

lemma csibeTotal_eq : csibeTotal = entryName .sh4 Bisect.Csibe.totalName .os := by decide +kernel

lemma dejagnuNames_head : ∀ name ∈ dejagnuNames, ¬ csibeHead <+: name := by decide +kernel

lemma lateNames_places :
    let place (name : Text) := (coremarkNames ++ lateNames).idxOf name
    place coremarkText = 0 ∧ place lraDiverged = 3 ∧ place busyboxText = 6 ∧ place busyboxPass = 9 ∧
      place muslText = 31 ∧
      place muslPass = 33 ∧ place Detection.ParseShSim.failCount = 53 ∧
        place Detection.ParseShSim.passCount = 54 := by
  decide +kernel

lemma lateNames_plain :
    let plain (name : Text) := ¬ csibeHead <+: name ∧ name ∉ dejagnuNames
    plain coremarkText ∧ plain lraDiverged ∧ plain busyboxText ∧ plain busyboxPass ∧ plain muslText ∧
      plain muslPass ∧
      plain Detection.ParseShSim.failCount ∧ plain Detection.ParseShSim.passCount := by
  decide +kernel

variable {isWord pct corpus run}

lemma valueOf_late {name : Text} (hhead : ¬ csibeHead <+: name) (hdejagnu : name ∉ dejagnuNames) {i : ℕ}
    (hi : (coremarkNames ++ lateNames).idxOf name = i) {found unit : Text} {n : ℕ}
    (hget : (lateMetrics isWord pct corpus run)[i]? = some (entry found unit n)) :
    valueOf name (headMetrics corpus run ++ lateMetrics isWord pct corpus run) = some n := by
  rw [valueOf_append, valueOf_index (names_late isWord pct corpus run) hi hget]
  rw [headMetrics, names_append, List.mem_append, not_or]
  refine ⟨hdejagnu, fun hm => ?_⟩
  obtain ⟨project, opt, rfl⟩ := mem_csibeNames ((names_csibe .sh4 run.compiler corpus).mem hm)
  exact hhead (List.prefix_append _ _)

lemma valueOf_dejagnu {rest : Metrics π} :
    valueOf Detection.ParseDejagnu.failCount (headMetrics corpus run ++ rest) =
    some ((Detection.ParseDejagnu.statusRe Detection.ExtractFailures.failTag).findall
      (readText run.gccSum)).length := by
  rw [valueOf, headMetrics, List.append_assoc, parsed, Detection.ParseDejagnu.parse,
    Detection.ParseDejagnu.patterns]
  rw [List.map_cons, List.map_cons, List.cons_append, List.find?_cons_of_pos (by simp [entry])]
  rfl

lemma valueOf_csibe {rest : Metrics π} : valueOf csibeTotal (headMetrics corpus run ++ rest) =
    some (summedBytes corpus run.compiler) := by
  have hdejagnu : csibeTotal ∉ names (parsed (Detection.ParseDejagnu.parse run.gccSum) : Metrics π) := by
    intro hm
    exact dejagnuNames_head csibeTotal hm (by decide +kernel)
  have hfind (entries : List (Text × ℕ)) (rest : Metrics π) {n : ℕ} (h : entries.lookup csibeTotal = some n) :
      valueOf csibeTotal (entries.map (fun e => entry e.1 bytesUnit e.2) ++ rest) = some n := by
    induction entries with
    | nil => cases h
    | cons e entries ih =>
      rw [List.lookup_cons] at h
      by_cases hname : e.1 = csibeTotal
      · rw [hname, beq_self_eq_true] at h
        rw [valueOf, List.map_cons, List.cons_append, List.find?_cons_of_pos (by exact decide_eq_true hname)]
        exact h
      · rw [beq_false_of_ne (Ne.symm hname)] at h
        rw [valueOf, List.map_cons, List.cons_append,
          List.find?_cons_of_neg (by exact fun hd => hname (of_decide_eq_true hd))]
        exact ih h
  rw [headMetrics, List.append_assoc, valueOf_append hdejagnu]
  apply hfind
  rw [csibeTotal_eq]
  exact Bisect.Csibe.lookup_runCsibe .sh4 run.compiler corpus

end

def simTotal (isWord : Char → Bool) (part : Detection.ParseShSim.Counts → ℕ)
    (dir : Detection.ExtractShSimFailures.SumDir) : ℕ :=
  ((Detection.ExtractShSimFailures.isas.map (fun isa => Detection.ParseShSim.count isWord (dir .execute isa)) ++
    Detection.ExtractShSimFailures.isas.map
      (fun isa => Detection.ParseShSim.count isWord (dir .ieee isa))).map part).sum

def runBadges (isWord : Char → Bool) (corpus : Corpus) (run : Sh4Run) : List Badge :=
  [dejagnuBadge
      ((Detection.ParseDejagnu.statusRe Detection.ExtractFailures.failTag).findall
        (readText run.gccSum)).length,
    csibeBadge (summedBytes corpus run.compiler), coremarkBadge run.coremark.text,
    lraBadge (Lra.Corpus.divergedCount run.tally), busyboxBadge run.busybox.text run.busybox.pass,
    muslBadge run.musl.text run.musl.pass,
    shSimBadge (simTotal isWord Detection.ParseShSim.Counts.nfail run.simSums)
      (simTotal isWord Detection.ParseShSim.Counts.npass run.simSums)]

lemma valueBadges_run (isWord : Char → Bool) (pct : ℕ → ℕ → π) (corpus : Corpus) (run : Sh4Run) :
    valueBadges (headMetrics corpus run ++ lateMetrics isWord pct corpus run) =
      some (runBadges isWord corpus run) := by
  obtain ⟨hcoremark, hlra, hbbt, hbbp, hmlt, hmls, hfail, hpass⟩ := lateNames_places
  obtain ⟨hcoremark', hlra', hbbt', hbbp', hmlt', hmls', hfail', hpass'⟩ := lateNames_plain
  rw [valueBadges, valueOf_dejagnu, valueOf_csibe,
    valueOf_late hcoremark'.1 hcoremark'.2 hcoremark rfl, valueOf_late hlra'.1 hlra'.2 hlra rfl,
    valueOf_late hbbt'.1 hbbt'.2 hbbt rfl, valueOf_late hbbp'.1 hbbp'.2 hbbp rfl,
    valueOf_late hmlt'.1 hmlt'.2 hmlt rfl, valueOf_late hmls'.1 hmls'.2 hmls rfl,
    valueOf_late hfail'.1 hfail'.2 hfail rfl, valueOf_late hpass'.1 hpass'.2 hpass rfl]
  rfl

theorem badges_exact (isWord : Char → Bool) (pct : ℕ → ℕ → π) (corpus : Corpus) (run : Option Sh4Run) :
    badges (run.bind (allJson isWord pct corpus)) =
      some ((run.map (runBadges isWord corpus)).getD failingBadges) := by
  cases run with
  | none => rfl
  | some run =>
    rw [Option.bind_some, allJson_split, badges, Option.elim_some, valueBadges_run]
    rfl

end ShMonitor.Dashboard.Badges
