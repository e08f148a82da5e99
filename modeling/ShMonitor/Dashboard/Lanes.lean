import Mathlib.Data.Char
import Mathlib.Data.List.Lex
import ShMonitor.Bisect.Csibe
import ShMonitor.Dashboard.Charts
import ShMonitor.Dashboard.Migrate
import ShMonitor.Detection.ParseShSim
import ShMonitor.Lra.Corpus

/-! The metrics that the measuring scripts write, and `merge-metrics.py`, which puts the files of a lane
together. A value is a count or one of the percentages of the density lane. -/

namespace ShMonitor.Dashboard.Lanes

open Texts Migrate Trend Charts
open Bisect.Csibe (Compiler Corpus Project Opt entryName runCsibe sanitize)

variable {π : Type}

inductive Value (π : Type) where
  | count (n : ℕ)
  | percent (p : π)

abbrev Metrics (π : Type) := List (Bench (Value π))

def bytesUnit : Text := "bytes".toList

def entry (name unit : Text) (n : ℕ) : Bench (Value π) := ⟨name, unit, .count n⟩

def suffixed (base arch : Text) : Text := base ++ '_' :: arch

def parsed (metrics : List Detection.ParseDejagnu.Metric) : Metrics π :=
  metrics.map (fun m => entry m.name m.unit m.value)

def csibe (arch : Bisect.Csibe.Arch) (cc : Compiler) (corpus : Corpus) : Metrics π :=
  (runCsibe arch cc corpus).map (fun e => entry e.1 bytesUnit e.2)

structure Sections where
  text : ℕ
  rodata : ℕ
  total : ℕ

def coremark (arch : Text) (s : Sections) : Metrics π :=
  [entry (suffixed "coremark_text_bytes".toList arch) bytesUnit s.text,
    entry (suffixed "coremark_rodata_bytes".toList arch) bytesUnit s.rodata,
    entry (suffixed "coremark_total_bytes".toList arch) bytesUnit s.total]

structure Image extends Sections where
  pass : ℕ

def applets : Text := "applets".toList

def busybox (metric arch : Text) (image : Image) : Metrics π :=
  [entry (suffixed (metric ++ "_text_bytes".toList) arch) bytesUnit image.text,
    entry (suffixed (metric ++ "_rodata_bytes".toList) arch) bytesUnit image.rodata,
    entry (suffixed (metric ++ "_total_bytes".toList) arch) bytesUnit image.total,
    entry (suffixed (metric ++ "_smoke_pass".toList) arch) applets image.pass,
    entry (suffixed (metric ++ "_smoke_total".toList) arch) applets 10]

def busyboxMetric : Text := "busybox".toList

def muslMetric (abiFdpic withLto : Bool) : Text :=
  "busybox_musl".toList ++ ((if abiFdpic then "_fdpic".toList else []) ++
    (if withLto then "_lto".toList else []))

structure Libc where
  text : ℕ
  total : ℕ
  pass : ℕ

def runs : Text := "runs".toList

def musl (arch : Text) (libc : Libc) : Metrics π :=
  [entry (suffixed "musl_libc_text_bytes".toList arch) bytesUnit libc.text,
    entry (suffixed "musl_libc_total_bytes".toList arch) bytesUnit libc.total,
    entry (suffixed "musl_smoke_pass".toList arch) runs libc.pass,
    entry (suffixed "musl_smoke_total".toList arch) runs 1]

def tuples : Text := "tuples".toList

def lraDiverged : Text := "lra_diverged_count".toList

def lraMetrics (tally : Lra.Corpus.Tally) : Metrics π :=
  [entry lraDiverged tuples (Lra.Corpus.divergedCount tally),
    entry "lra_current_ice_count".toList tuples (tally.counts .currentIce),
    entry "lra_total_count".toList tuples tally.total]

structure Density where
  m2 : ℕ
  m2a : ℕ
  m4 : ℕ
  common : ℕ

structure TwoWay where
  m2 : ℕ
  m4 : ℕ
  common : ℕ

def countUnit : Text := "count".toList

def percentUnit : Text := "percent".toList

def densityTotal (part : Density → ℕ) (density : List (Text × Density)) : ℕ :=
  (density.map (fun c => part c.2)).sum

def corpusMetrics (c : Text × Density) : Metrics π :=
  let name (word : Text) := "sh_density_".toList ++ (c.1 ++ word)
  [entry (name "_text_bytes_m2".toList) bytesUnit c.2.m2,
    entry (name "_text_bytes_m2a".toList) bytesUnit c.2.m2a,
    entry (name "_text_bytes_m4".toList) bytesUnit c.2.m4,
      entry (name "_objects_common".toList) countUnit c.2.common]

def totalMetrics (pct : ℕ → ℕ → π) (m2 m2a m4 : ℕ) : Metrics π :=
  [entry "sh_density_total_text_bytes_m2".toList bytesUnit m2,
    entry "sh_density_total_text_bytes_m2a".toList bytesUnit m2a,
    entry "sh_density_total_text_bytes_m4".toList bytesUnit m4,
    ⟨"sh_density_total_m2a_vs_m2_pct".toList, percentUnit, .percent (pct m2 m2a)⟩,
    ⟨"sh_density_total_m2_vs_m4_pct".toList, percentUnit, .percent (pct m4 m2)⟩,
    ⟨"sh_density_total_m2a_vs_m4_pct".toList, percentUnit, .percent (pct m4 m2a)⟩]

def twoWayMetrics (pct : ℕ → ℕ → π) (b : TwoWay) : Metrics π :=
  [entry "sh_density_busybox_text_bytes_m2".toList bytesUnit b.m2,
    entry "sh_density_busybox_text_bytes_m4".toList bytesUnit b.m4,
    entry "sh_density_busybox_objects_common".toList countUnit b.common,
    ⟨"sh_density_busybox_m2_vs_m4_pct".toList, percentUnit, .percent (pct b.m4 b.m2)⟩]

def buildMetrics (pct : ℕ → ℕ → π) (density : List (Text × Density)) (b : TwoWay) : Metrics π :=
  (density.mergeSort (fun c d => decide (c.1 ≤ d.1))).flatMap corpusMetrics ++
    (totalMetrics pct (densityTotal Density.m2 density) (densityTotal Density.m2a density)
      (densityTotal Density.m4 density) ++ twoWayMetrics pct b)

inductive Input (π : Type) where
  | missing
  | invalid
  | array (metrics : Metrics π)

def mergeMetrics (skipMissing : Bool) : List (Input π) → Option (Metrics π)
  | [] => some []
  | .array metrics :: inputs => (mergeMetrics skipMissing inputs).map (metrics ++ ·)
  | .missing :: inputs => if skipMissing then mergeMetrics skipMissing inputs else none
  | .invalid :: _ => none

structure Sh4Run where
  gccSum : Text
  compiler : Compiler
  coremark : Sections
  tally : Lra.Corpus.Tally
  busybox : Image
  busyboxMusl : Bool → Bool → Image
  musl : Libc
  csibeDensity : Density
  coremarkDensity : Density
  busyboxDensity : TwoWay
  simSums : Detection.ExtractShSimFailures.SumDir

/-- What one arch of bench-multi measures; a script that fails leaves no file. -/
structure ArchRun where
  csibe : Option Compiler
  coremark : Option Sections
  busybox : Option Image
  busyboxMusl : Option Image
  busyboxMuslLto : Option Image
  musl : Option Libc

structure MultiRun where
  arm : ArchRun
  x86 : ArchRun
  riscv32Musl : Option Image
  riscv32MuslLto : Option Image

def sh4Arch : Text := "sh4".toList

def armArch : Text := "arm".toList

def x86Arch : Text := "x86".toList

def riscv32Arch : Text := "riscv32".toList

def left {τ : Type} (file : Option τ) (write : τ → Metrics π) : Input π :=
  file.elim .missing (fun x => .array (write x))

section

variable (isWord : Char → Bool) (pct : ℕ → ℕ → π) (corpus : Corpus)

def sh4Files (run : Sh4Run) : List (Metrics π) :=
  [parsed (Detection.ParseDejagnu.parse run.gccSum), csibe .sh4 run.compiler corpus,
    coremark sh4Arch run.coremark, lraMetrics run.tally, busybox busyboxMetric sh4Arch run.busybox,
    busybox (muslMetric false false) sh4Arch (run.busyboxMusl false false),
    busybox (muslMetric true false) sh4Arch (run.busyboxMusl true false),
    busybox (muslMetric false true) sh4Arch (run.busyboxMusl false true),
    busybox (muslMetric true true) sh4Arch (run.busyboxMusl true true), musl sh4Arch run.musl,
    buildMetrics pct [("csibe".toList, run.csibeDensity), ("coremark".toList, run.coremarkDensity)]
      run.busyboxDensity, parsed (Detection.ParseShSim.parse isWord run.simSums)]

def allJson (run : Sh4Run) : Option (Metrics π) :=
  mergeMetrics false ((sh4Files isWord pct corpus run).map .array)

def archFiles (arch : Text) (csibeArch : Bisect.Csibe.Arch) (run : ArchRun) : List (Input π) :=
  [left run.csibe (fun cc => csibe csibeArch cc corpus), left run.coremark (coremark arch),
    left run.busybox (busybox busyboxMetric arch), left run.busyboxMusl (busybox (muslMetric false false) arch),
    left run.busyboxMuslLto (busybox (muslMetric false true) arch), left run.musl (musl arch)]

def allMultiJson (run : MultiRun) : Option (Metrics π) :=
  mergeMetrics true (archFiles corpus armArch .arm run.arm ++ (archFiles corpus x86Arch .x86 run.x86 ++
    [left run.riscv32Musl (busybox (muslMetric false false) riscv32Arch),
      left run.riscv32MuslLto (busybox (muslMetric false true) riscv32Arch)]))

end

def names (metrics : Metrics π) : List Text := metrics.map Bench.name

def cells (corpus : Corpus) : List (Text × Opt) :=
  (Bisect.Csibe.runs corpus).map (fun run => (sanitize run.1.name, run.2)) ++
    [(Bisect.Csibe.totalName, .os), (Bisect.Csibe.totalName, .o2)]

def csibeNames (arch : Bisect.Csibe.Arch) (corpus : Corpus) : List Text :=
  (cells corpus).map (fun c => entryName arch c.1 c.2)

def noImage : Image := ⟨⟨0, 0, 0⟩, 0⟩

def muslNames (arch : Text) : List Text :=
  names (busybox (muslMetric false false) arch noImage ++ busybox (muslMetric false true) arch noImage :
    Metrics Unit)

def archNames (arch : Text) : List Text :=
  names (coremark arch ⟨0, 0, 0⟩ ++ (busybox busyboxMetric arch noImage) : Metrics Unit) ++
    (muslNames arch ++ names (musl arch ⟨0, 0, 0⟩ : Metrics Unit))

def dejagnuNames : List Text := [Detection.ParseDejagnu.failCount, Detection.ParseDejagnu.unresolvedCount]

def coremarkNames : List Text := names (coremark sh4Arch ⟨0, 0, 0⟩ : Metrics Unit)

def lateNames : List Text :=
  names (lraMetrics ⟨fun _ => 0, 0⟩ ++ (busybox busyboxMetric sh4Arch noImage ++
    (busybox (muslMetric false false) sh4Arch noImage ++ (busybox (muslMetric true false) sh4Arch noImage ++
      (busybox (muslMetric false true) sh4Arch noImage ++ (busybox (muslMetric true true) sh4Arch noImage ++
        (musl sh4Arch ⟨0, 0, 0⟩ ++ (corpusMetrics ("coremark".toList, ⟨0, 0, 0, 0⟩) ++
          (corpusMetrics ("csibe".toList, ⟨0, 0, 0, 0⟩) ++ (totalMetrics (fun _ _ => ()) 0 0 0 ++
            (twoWayMetrics (fun _ _ => ()) ⟨0, 0, 0⟩ ++
              parsed (Detection.ParseShSim.parse (fun _ => false) (fun _ _ => none)))))))))))) : Metrics Unit)

def roundNames (corpus : Corpus) : List Text :=
  (dejagnuNames ++ (csibeNames .sh4 corpus ++ (coremarkNames ++ lateNames))) ++
    ((csibeNames .arm corpus ++ archNames armArch) ++
      ((csibeNames .x86 corpus ++ archNames x86Arch) ++ muslNames riscv32Arch))

def fixedNames : List Text :=
  (dejagnuNames ++ (coremarkNames ++ lateNames)) ++
    (archNames armArch ++ (archNames x86Arch ++ muslNames riscv32Arch))

lemma roundNames_perm (corpus : Corpus) :
    (roundNames corpus).Perm ((csibeNames .sh4 corpus ++
      (csibeNames .arm corpus ++ csibeNames .x86 corpus)) ++ fixedNames) := by
  rw [List.perm_iff_count]
  intro name
  simp only [roundNames, fixedNames, List.count_append]
  omega

def Stable (name : Text) : Prop := maybeRename name = name ∧ ignored name = false ∧ name ∉ objectPrototype

instance (name : Text) : Decidable (Stable name) :=
  inferInstanceAs (Decidable (_ ∧ _ ∧ _))

lemma fixedNames_stable : ∀ name ∈ fixedNames, Stable name := by decide +kernel

def nameCode (name : Text) : ℕ := name.foldl (fun n c => 128 * n + c.toNat) 0

lemma fixedNames_nodup : fixedNames.Nodup := by
  apply List.Nodup.of_map nameCode
  decide +kernel

def csibeHead : Text := "csibe_".toList

def csibeTail (arch : Bisect.Csibe.Arch) (opt : Opt) : Text :=
  '_' :: (opt.lower ++ ("_bytes_".toList ++ arch.text))

lemma entryName_eq (arch : Bisect.Csibe.Arch) (project : Text) (opt : Opt) :
    entryName arch project opt = (csibeHead ++ project) ++ csibeTail arch opt := (List.append_assoc _ _ _).symm

lemma csibeTail_length (arch : Bisect.Csibe.Arch) (opt : Opt) : (csibeTail arch opt).length = 13 := by
  cases arch <;> cases opt <;> rfl

lemma csibeTail_injective {arch arch' : Bisect.Csibe.Arch} {opt opt' : Opt}
    (h : csibeTail arch opt = csibeTail arch' opt') :
    arch = arch' ∧ opt = opt' := by
  cases arch <;> cases opt <;> cases arch' <;> cases opt' <;>
    first
    | exact ⟨rfl, rfl⟩
    | exact absurd h (by decide)

lemma entryName_injective {arch arch' : Bisect.Csibe.Arch} {project project' : Text} {opt opt' : Opt}
    (h : entryName arch project opt = entryName arch' project' opt') :
    arch = arch' ∧ project = project' ∧ opt = opt' := by
  rw [entryName_eq, entryName_eq] at h
  obtain ⟨hhead, htail⟩ := List.append_inj' h (by rw [csibeTail_length, csibeTail_length])
  obtain ⟨harch, hopt⟩ := csibeTail_injective htail
  exact ⟨harch, List.append_cancel_left hhead, hopt⟩

lemma suffix_csibeTail {s : Text} (hs : s.length ≤ 13) {arch : Bisect.Csibe.Arch} {project : Text} {opt : Opt}
    (h : s <:+ entryName arch project opt) : s <:+ csibeTail arch opt := by
  rw [entryName_eq] at h
  apply List.suffix_of_suffix_length_le h (List.suffix_append _ _)
  rwa [csibeTail_length]

lemma entryName_stable (arch : Bisect.Csibe.Arch) (project : Text) (opt : Opt) :
    Stable (entryName arch project opt) := by
  have hdoubled : ¬ doubled <:+ csibeTail arch opt := by cases arch <;> cases opt <;> decide
  have hlra : ¬ Trend.lra <:+ csibeTail arch opt := by cases arch <;> cases opt <;> decide
  have hsuffixed : Suffixed (entryName arch project opt) := by
    refine ⟨'_' :: arch.text, by cases arch <;> decide, ?_⟩
    rw [entryName_eq]
    exact List.IsSuffix.trans (by cases arch <;> cases opt <;> decide)
      (List.suffix_append _ (csibeTail arch opt))
  refine ⟨rename_suffixed (fun h => hdoubled (suffix_csibeTail (by decide) h)) hsuffixed, ?_, ?_⟩
  · rw [ignored, decide_eq_false_iff_not]
    exact fun h => hlra (suffix_csibeTail (by decide) h)
  · intro h
    have hproto : ∀ name ∈ objectPrototype, ¬ csibeHead <+: name := by decide +kernel
    exact hproto _ h (List.prefix_append csibeHead _)

lemma fixedNames_head : ∀ name ∈ fixedNames, ¬ csibeHead <+: name := by decide +kernel

lemma mem_csibeNames {arch : Bisect.Csibe.Arch} {corpus : Corpus} {name : Text}
    (h : name ∈ csibeNames arch corpus) :
    ∃ project opt, name = entryName arch project opt := by
  obtain ⟨c, -, rfl⟩ := List.mem_map.mp h
  exact ⟨c.1, c.2, rfl⟩

lemma mem_roundNames {corpus : Corpus} {name : Text} (h : name ∈ roundNames corpus) :
    (∃ arch project opt, name = entryName arch project opt) ∨ name ∈ fixedNames := by
  obtain h | h := List.mem_append.mp ((roundNames_perm corpus).mem_iff.mp h)
  · obtain h | h := List.mem_append.mp h
    · exact Or.inl ⟨_, mem_csibeNames h⟩
    · obtain h | h := List.mem_append.mp h
      · exact Or.inl ⟨_, mem_csibeNames h⟩
      · exact Or.inl ⟨_, mem_csibeNames h⟩
  · exact Or.inr h

lemma roundNames_stable (corpus : Corpus) : ∀ name ∈ roundNames corpus, Stable name := by
  intro name h
  obtain ⟨arch, project, opt, rfl⟩ | h := mem_roundNames h
  · exact entryName_stable arch project opt
  · exact fixedNames_stable name h

structure Apart (corpus : Corpus) : Prop where
  distinct : (corpus.projects.map (fun p => sanitize p.name)).Nodup
  total : ∀ p ∈ corpus.projects, sanitize p.name ≠ Bisect.Csibe.totalName

def vendored : List Text :=
  ["bzip2-1.0.2".toList, "cg_compiler_opensrc".toList, "compiler".toList, "flex-2.5.31".toList,
    "include".toList,
    "jikespg-1.3".toList, "jpeg-6b".toList, "libmspack".toList, "libpng-1.2.5".toList,
      "lwip-0.5.3.preproc".toList,
    "mpeg2dec-0.3.1".toList, "mpgcut-1.1".toList, "replaypc-0.4.0.preproc".toList, "teem-1.6.0-src".toList,
    "ttt-0.10.1.preproc".toList, "unrarlib-0.4.0".toList, "zlib-1.1.4".toList]

lemma vendored_distinct : (vendored.map sanitize).Nodup := by
  apply List.Nodup.of_map nameCode
  decide +kernel

lemma apart_of_vendored {corpus : Corpus} (h : ∀ p ∈ corpus.projects, p.name ∈ vendored) : Apart corpus := by
  constructor
  · have hnames : corpus.projects.map (fun p => sanitize p.name) =
      (corpus.projects.map Project.name).map sanitize := by
      rw [List.map_map]
      rfl
    rw [hnames]
    refine List.Nodup.map_on ?_ corpus.distinct
    intro name hname name' hname' heq
    obtain ⟨p, hp, rfl⟩ := List.mem_map.mp hname
    obtain ⟨q, hq, rfl⟩ := List.mem_map.mp hname'
    exact List.inj_on_of_nodup_map vendored_distinct (h p hp) (h q hq) heq
  · intro p hp htotal
    have hname := h p hp
    rw [Bisect.Csibe.sanitize_total.mp htotal] at hname
    exact absurd hname (by decide)

lemma cells_nodup {corpus : Corpus} (h : Apart corpus) : (cells corpus).Nodup := by
  have hruns : ∀ projects : List Project, (projects.map (fun p => sanitize p.name)).Nodup →
      ((projects.flatMap (fun p => [(p, Opt.os), (p, Opt.o2)])).map
        (fun run => (sanitize run.1.name, run.2))).Nodup := by
    intro projects hdistinct
    induction projects with
    | nil => exact List.nodup_nil
    | cons p projects ih =>
      rw [List.map_cons, List.nodup_cons] at hdistinct
      have hother (opt : Opt) : (sanitize p.name, opt) ∉
          (projects.flatMap (fun p => [(p, Opt.os), (p, Opt.o2)])).map
            (fun run => (sanitize run.1.name, run.2)) := by
        intro hm
        obtain ⟨run, hrun, heq⟩ := List.mem_map.mp hm
        obtain ⟨q, hq, hrun⟩ := List.mem_flatMap.mp hrun
        have hname : run.1 = q := by
          obtain rfl | hrun := List.mem_cons.mp hrun
          · rfl
          · rw [List.mem_singleton.mp hrun]
        exact hdistinct.1 (List.mem_map.mpr ⟨q, hq, hname ▸ (Prod.mk.inj heq).1⟩)
      simp only [List.flatMap_cons, List.map_cons, List.cons_append, List.nil_append, List.nodup_cons,
        List.mem_cons, not_or]
      exact ⟨⟨by simp, hother .os⟩, hother .o2, ih hdistinct.2⟩
  refine (hruns corpus.projects h.distinct).append (by decide) ?_
  intro c hc htotal
  obtain ⟨run, hrun, rfl⟩ := List.mem_map.mp hc
  obtain ⟨q, hq, hrun⟩ := List.mem_flatMap.mp hrun
  have hname : run.1 = q := by
    obtain rfl | hrun := List.mem_cons.mp hrun
    · rfl
    · rw [List.mem_singleton.mp hrun]
  have hsanitized : sanitize run.1.name = Bisect.Csibe.totalName := by
    obtain heq | heq := List.mem_cons.mp htotal
    · exact (Prod.mk.inj heq).1
    · exact (Prod.mk.inj (List.mem_singleton.mp heq)).1
  exact h.total q hq (hname ▸ hsanitized)

lemma csibeNames_nodup {corpus : Corpus} (h : Apart corpus) (arch : Bisect.Csibe.Arch) :
    (csibeNames arch corpus).Nodup := by
  apply (cells_nodup h).map
  intro c c' heq
  obtain ⟨-, hproject, hopt⟩ := entryName_injective heq
  exact Prod.ext hproject hopt

lemma csibeNames_disjoint {arch arch' : Bisect.Csibe.Arch} (h : arch ≠ arch') (corpus : Corpus) :
    (csibeNames arch corpus).Disjoint (csibeNames arch' corpus) := by
  intro name hname hname'
  obtain ⟨project, opt, rfl⟩ := mem_csibeNames hname
  obtain ⟨project', opt', heq⟩ := mem_csibeNames hname'
  exact h (entryName_injective heq).1

lemma roundNames_nodup {corpus : Corpus} (h : Apart corpus) : (roundNames corpus).Nodup := by
  rw [(roundNames_perm corpus).nodup_iff]
  apply List.Nodup.append _ fixedNames_nodup
  · intro name hname hfixed
    apply fixedNames_head name hfixed
    obtain hname | hname := List.mem_append.mp hname
    · obtain ⟨project, opt, rfl⟩ := mem_csibeNames hname
      exact List.prefix_append _ _
    · obtain hname | hname := List.mem_append.mp hname
      · obtain ⟨project, opt, rfl⟩ := mem_csibeNames hname
        exact List.prefix_append _ _
      · obtain ⟨project, opt, rfl⟩ := mem_csibeNames hname
        exact List.prefix_append _ _
  · refine (csibeNames_nodup h .sh4).append ?_ ?_
    · exact (csibeNames_nodup h .arm).append (csibeNames_nodup h .x86)
        (csibeNames_disjoint Bisect.Csibe.Arch.noConfusion corpus)
    · intro name hsh4 hothers
      obtain hname | hname := List.mem_append.mp hothers
      · exact csibeNames_disjoint Bisect.Csibe.Arch.noConfusion corpus hsh4 hname
      · exact csibeNames_disjoint Bisect.Csibe.Arch.noConfusion corpus hsh4 hname

def arrays : Input π → Metrics π
  | .array metrics => metrics
  | .missing | .invalid => []

lemma merge_arrays (skip : Bool) (files : List (Metrics π)) :
    mergeMetrics skip (files.map .array) = some files.flatten := by
  induction files with
  | nil => rfl
  | cons file files ih => rw [List.map_cons, mergeMetrics, ih, Option.map_some, List.flatten_cons]

lemma merge_skipping {inputs : List (Input π)} (h : ∀ input ∈ inputs, input ≠ .invalid) :
    mergeMetrics true inputs = some (inputs.flatMap arrays) := by
  induction inputs with
  | nil => rfl
  | cons input inputs ih =>
    have hrest := ih (fun i hi => h i (List.mem_cons_of_mem input hi))
    cases input with
    | missing => exact hrest
    | invalid => exact absurd rfl (h _ List.mem_cons_self)
    | array first => rw [mergeMetrics, hrest, Option.map_some, List.flatMap_cons, arrays]

lemma names_append (first second : Metrics π) : names (first ++ second) = names first ++ names second :=
  List.map_append

lemma names_csibe (arch : Bisect.Csibe.Arch) (cc : Compiler) (corpus : Corpus) :
    (names (csibe arch cc corpus : Metrics π)).Sublist (csibeNames arch corpus) := by
  have hentries : ∀ (rs : List (Project × Opt)) (sums : Bisect.Csibe.Sums),
      ((rs.foldl (Bisect.Csibe.addProject arch cc) sums).entries.map Prod.fst).Sublist
        (sums.entries.map Prod.fst ++ rs.map (fun run => entryName arch (sanitize run.1.name) run.2)) := by
    intro rs
    induction rs with
    | nil =>
      intro sums
      rw [List.foldl_nil, List.map_nil, List.append_nil]
    | cons run rs ih =>
      intro sums
      rw [List.foldl_cons, List.map_cons, List.append_cons]
      refine (ih _).trans (List.Sublist.append ?_ (List.Sublist.refl _))
      rw [Bisect.Csibe.addProject]
      split
      · exact List.sublist_append_left _ _
      · split <;> exact (List.map_append ▸ List.Sublist.refl _)
  have hrun := hentries (Bisect.Csibe.runs corpus) ⟨[], 0, 0⟩
  rw [List.map_nil, List.nil_append] at hrun
  rw [names, csibe, List.map_map, csibeNames, cells, List.map_append, List.map_map]
  show ((runCsibe arch cc corpus).map Prod.fst).Sublist _
  rw [runCsibe, List.map_append]
  exact hrun.append (List.Sublist.refl _)

lemma densities_sorted (csibe coremark : Density) :
    [("csibe".toList, csibe), ("coremark".toList, coremark)].mergeSort (fun c d => decide (c.1 ≤ d.1)) =
      [("coremark".toList, coremark), ("csibe".toList, csibe)] := by
  simp [List.mergeSort, List.merge]
  decide

section

variable (isWord : Char → Bool) (pct : ℕ → ℕ → π) (corpus : Corpus)

lemma names_allJson (run : Sh4Run) : ∃ metrics, allJson isWord pct corpus run = some metrics ∧
    (names metrics).Sublist (dejagnuNames ++ (csibeNames .sh4 corpus ++ (coremarkNames ++ lateNames))) := by
  refine ⟨_, merge_arrays false (sh4Files isWord pct corpus run), ?_⟩
  have hnames : names (sh4Files isWord pct corpus run).flatten =
      dejagnuNames ++ (names (csibe .sh4 run.compiler corpus : Metrics π) ++ (coremarkNames ++ lateNames)) := by
    simp only [sh4Files, buildMetrics, densities_sorted, List.flatten_cons, names_append]
    rfl
  rw [hnames]
  exact (List.Sublist.refl _).append ((names_csibe .sh4 run.compiler corpus).append (List.Sublist.refl _))

lemma names_left {τ : Type} (file : Option τ) (write : τ → Metrics π) {full : List Text}
    (h : ∀ x, (names (write x)).Sublist full) : (names (arrays (left file write))).Sublist full := by
  cases file with
  | none => exact List.nil_sublist full
  | some x => exact h x

lemma names_fixed {τ : Type} (file : Option τ) (write : τ → Metrics π) {full : List Text}
    (h : ∀ x, names (write x) = full) :
    (names (arrays (left file write))).Sublist full :=
  names_left file write (fun x => h x ▸ List.Sublist.refl _)

lemma left_ne_invalid {τ : Type} (file : Option τ) (write : τ → Metrics π) : left file write ≠ .invalid := by
  cases file <;> exact fun h => Input.noConfusion rfl (heq_of_eq h)

lemma names_archFiles (arch : Text) (csibeArch : Bisect.Csibe.Arch) (run : ArchRun) :
    (names ((archFiles corpus arch csibeArch run).flatMap arrays : Metrics π)).Sublist
      (csibeNames csibeArch corpus ++ archNames arch) := by
  have hnames : csibeNames csibeArch corpus ++ archNames arch =
      csibeNames csibeArch corpus ++ (names (coremark arch ⟨0, 0, 0⟩ : Metrics Unit) ++
        (names (busybox busyboxMetric arch noImage : Metrics Unit) ++
          (names (busybox (muslMetric false false) arch noImage : Metrics Unit) ++
            (names (busybox (muslMetric false true) arch noImage : Metrics Unit) ++
              (names (musl arch ⟨0, 0, 0⟩ : Metrics Unit) ++ []))))) := rfl
  rw [hnames]
  simp only [archFiles, List.flatMap_cons, List.flatMap_nil, names_append]
  refine (names_left run.csibe _ (fun cc => names_csibe csibeArch cc corpus)).append ?_
  refine (names_fixed run.coremark (coremark arch) (fun _ => rfl)).append ?_
  refine (names_fixed run.busybox (busybox busyboxMetric arch) (fun _ => rfl)).append ?_
  refine (names_fixed run.busyboxMusl (busybox (muslMetric false false) arch) (fun _ => rfl)).append ?_
  refine (names_fixed run.busyboxMuslLto (busybox (muslMetric false true) arch) (fun _ => rfl)).append ?_
  exact (names_fixed run.musl (musl arch) (fun _ => rfl)).append (List.Sublist.refl [])

lemma names_allMultiJson (run : MultiRun) : ∃ metrics, allMultiJson corpus run = some (metrics : Metrics π) ∧
    (names metrics).Sublist
      ((csibeNames .arm corpus ++ archNames armArch) ++
        ((csibeNames .x86 corpus ++ archNames x86Arch) ++ muslNames riscv32Arch)) := by
  refine ⟨_, merge_skipping ?_, ?_⟩
  · intro input hinput
    simp only [archFiles, List.mem_append, List.mem_cons, List.not_mem_nil, or_false] at hinput
    rcases hinput with (rfl | rfl | rfl | rfl | rfl | rfl) | (rfl | rfl | rfl | rfl | rfl | rfl) |
      (rfl | rfl) <;>
      exact left_ne_invalid _ _
  · have hnames : muslNames riscv32Arch =
        names (busybox (muslMetric false false) riscv32Arch noImage : Metrics Unit) ++
          (names (busybox (muslMetric false true) riscv32Arch noImage : Metrics Unit) ++ []) := rfl
    rw [List.flatMap_append, List.flatMap_append, names_append, names_append, hnames]
    refine (names_archFiles corpus armArch .arm run.arm).append
      ((names_archFiles corpus x86Arch .x86 run.x86).append ?_)
    simp only [List.flatMap_cons, List.flatMap_nil, names_append]
    refine (names_fixed run.riscv32Musl (busybox (muslMetric false false) riscv32Arch) (fun _ => rfl)).append ?_
    exact (names_fixed run.riscv32MuslLto (busybox (muslMetric false true) riscv32Arch) (fun _ => rfl)).append
      (List.Sublist.refl [])

end

end ShMonitor.Dashboard.Lanes
