import Mathlib.Algebra.Ring.Nat
import Mathlib.Order.Lattice
import ShMonitor.Texts.Json
import ShMonitor.Bisect.Predicate

/-! Metric mode of `sh-bisect-predicate.sh` with jq and awk: which options it takes, which value it
compares with the threshold, and when that comparison is one of numbers. -/

namespace ShMonitor.Bisect.Metric

open ShMonitor.Texts ShMonitor.Shell Workflow.LastGreen Build Predicate

variable {Tree Archive α : Type}

def nameField : Text := "name".toList
def valueField : Text := "value".toList

/-- `map(select(.name == $k)) | if length == 0 then "" else .[0].value end` -/
def select (key : Text) (file : Json α) : Option (Json α) :=
  file.elements.bind fun entries =>
    (Json.selectField nameField key entries).bind fun
      | [] => some (.str [])
      | entry :: _ => entry.field valueField

def jq (tools : Tools α) (key file : Text) : Text := tools.output ((tools.parse file).bind (select key))

def withTools [LinearOrder α] [Zero α] (w : World Tree Archive) (tools : Tools α) : World Tree Archive :=
  { w with jq := jq tools, awkZero := tools.awkZero, awkLess := tools.awkLess }

def scriptOption : Text := "--script".toList
def keyOption : Text := "--key".toList
def thresholdOption : Text := "--threshold".toList
def directionOption : Text := "--direction".toList

def options : List Text := [scriptOption, keyOption, thresholdOption, directionOption]

def lastOf (option : Text) (pairs : List (Text × Text)) (default : Text) : Text :=
  (pairs.reverse.lookup option).getD default

def given (m : MetricArgs) (pairs : List (Text × Text)) : MetricArgs :=
  ⟨lastOf scriptOption pairs m.script, lastOf keyOption pairs m.key, lastOf thresholdOption pairs m.threshold,
    lastOf directionOption pairs m.direction⟩

structure Given (args : List Text) (m : MetricArgs) : Prop where
  pairs : ∃ pairs : List (Text × Text), args = pairs.flatMap (fun p => [p.1, p.2]) ∧
    (∀ p ∈ pairs, p.1 ∈ options) ∧
    m = given ⟨[], [], [], []⟩ pairs
  script : m.script ≠ []
  key : m.key ≠ []
  threshold : m.threshold ≠ []
  direction : m.direction = below ∨ m.direction = above

lemma lastOf_cons (option name value : Text) (pairs : List (Text × Text)) (default : Text) :
    lastOf option ((name, value) :: pairs) default =
      lastOf option pairs (if option = name then value else default) := by
  rw [lastOf, lastOf, List.reverse_cons, List.lookup_append]
  cases pairs.reverse.lookup option with
  | some found => rfl
  | none =>
    rw [List.lookup_cons]
    by_cases hname : option = name
    · simp [hname]
    · simp [hname, beq_false_of_ne hname]

lemma given_cons (m : MetricArgs) (name value : Text) (pairs : List (Text × Text)) :
    given m ((name, value) :: pairs) = given (given m [(name, value)]) pairs := by
  simp only [given, lastOf_cons]
  rfl

lemma setOption_eq (m : MetricArgs) (name value : Text) :
    setOption m name value = if name ∈ options then some (given m [(name, value)]) else none := by
  have hset : setOption m name value =
      if name = scriptOption then some { m with script := value }
      else if name = keyOption then some { m with key := value }
      else if name = thresholdOption then some { m with threshold := value }
      else if name = directionOption then some { m with direction := value }
      else none := rfl
  have hgiven : given m [(name, value)] =
      ⟨if scriptOption = name then value else m.script, if keyOption = name then value else m.key,
        if thresholdOption = name then value else m.threshold,
        if directionOption = name then value else m.direction⟩ := by
    simp only [given, lastOf_cons]
    rfl
  rw [hset, hgiven]
  by_cases h : name ∈ options
  · rw [if_pos h]
    simp only [options, List.mem_cons, List.not_mem_nil, or_false] at h
    obtain rfl | rfl | rfl | rfl := h
    · rfl
    · rfl
    · rfl
    · rfl
  · rw [if_neg h]
    simp only [options, List.mem_cons, List.not_mem_nil, or_false, not_or] at h
    rw [if_neg h.1, if_neg h.2.1, if_neg h.2.2.1, if_neg h.2.2.2]

lemma parseArgs_iff {m m' : MetricArgs} {args : List Text} : parseArgs m args = some m' ↔
    ∃ pairs : List (Text × Text), args = pairs.flatMap (fun p => [p.1, p.2]) ∧ (∀ p ∈ pairs, p.1 ∈ options) ∧
      m' = given m pairs := by
  induction m, args using parseArgs.induct generalizing m' with
  | case1 m =>
    constructor
    · intro h
      exact ⟨[], rfl, by simp, (Option.some.inj h).symm⟩
    · rintro ⟨_ | ⟨p, pairs⟩, hargs, -, rfl⟩
      · rfl
      · cases hargs
  | case2 m name =>
    refine iff_of_false (by simp [parseArgs]) ?_
    rintro ⟨_ | ⟨p, pairs⟩, hargs, -⟩
    · cases hargs
    · cases hargs
  | case3 m name value args ih =>
    rw [parseArgs, setOption_eq]
    by_cases hname : name ∈ options
    · rw [if_pos hname, Option.bind_some, ih]
      constructor
      · rintro ⟨pairs, rfl, hpairs, rfl⟩
        exact ⟨(name, value) :: pairs, rfl, List.forall_mem_cons.mpr ⟨hname, hpairs⟩,
          (given_cons m name value pairs).symm⟩
      · rintro ⟨_ | ⟨⟨name', value'⟩, pairs⟩, hargs, hpairs, rfl⟩
        · cases hargs
        · obtain ⟨rfl, rfl, rfl⟩ : name = name' ∧ value = value' ∧
            args = pairs.flatMap (fun p => [p.1, p.2]) := by
            simpa using hargs
          exact ⟨pairs, rfl, (List.forall_mem_cons.mp hpairs).2, given_cons m name value pairs⟩
    · rw [if_neg hname]
      refine iff_of_false (by simp) ?_
      rintro ⟨_ | ⟨⟨name', value'⟩, pairs⟩, hargs, hpairs, -⟩
      · cases hargs
      · obtain rfl : name = name' := (List.cons.inj hargs).1
        exact hname (hpairs _ List.mem_cons_self)

lemma metricArgs_iff {args : List Text} {m : MetricArgs} : metricArgs args = some m ↔ Given args m := by
  rw [metricArgs, Option.bind_eq_some_iff]
  constructor
  · rintro ⟨m', hparse, h⟩
    split at h
    · cases h
    · rename_i hempty
      split at h
      · cases h
      · rename_i hdirection
        obtain rfl := Option.some.inj h
        simp only [not_or] at hempty
        exact ⟨parseArgs_iff.mp hparse, hempty.1, hempty.2.1, hempty.2.2.1, by tauto⟩
  · rintro ⟨hpairs, hscript, hkey, hthreshold, hdirection⟩
    refine ⟨m, parseArgs_iff.mpr hpairs, ?_⟩
    have hne : m.direction ≠ [] := by
      rintro hnil
      obtain h | h := hdirection
      · exact absurd (hnil.symm.trans h) (by decide)
      · exact absurd (hnil.symm.trans h) (by decide)
    rw [if_neg (by tauto), if_neg (by tauto)]

lemma head_selectField {name value : Text} {entries selected : List (Json α)}
    (h : Json.selectField name value entries = some selected) :
    selected.head? = entries.find? (fun entry => ((entry.field name).map (Json.isText value)).getD false) := by
  induction entries generalizing selected with
  | nil =>
    obtain rfl := Option.some.inj h
    rfl
  | cons entry entries ih =>
    obtain ⟨found, hfound, h⟩ := Option.bind_eq_some_iff.mp h
    obtain ⟨rest, hrest, rfl⟩ := Option.map_eq_some_iff.mp h
    rw [List.find?_cons, hfound, Option.map_some, Option.getD_some]
    cases found.isText value with
    | true => rfl
    | false => exact ih hrest

section

variable [LinearOrder α] [Zero α] (w : World Tree Archive) (tools : Tools α) (o : Outcomes Tree Archive)
    (id : ℕ) (cacheDir : Bool) (sha : Commit) (d : Disk Tree Archive)

def built : Option ℕ × Disk Tree Archive := (build cacheDir sha).exec (host (withTools w tools) o id) none d

structure Measured (args : List Text) (m : MetricArgs) (file : Text) : Prop where
  options : Given args m
  build : (built w tools o id cacheDir sha d).1 = some 0
  script : w.measure m.script (built w tools o id cacheDir sha d).2.installed = (true, some file)

structure Compared (m : MetricArgs) (file : Text) : Prop where
  found : jq tools m.key file ≠ []
  not_null : jq tools m.key file ≠ "null".toList
  not_zero : tools.awkZero (jq tools m.key file) = false

def Beyond (m : MetricArgs) (a t : α) : Prop := m.direction = below ∧ a < t ∨ m.direction = above ∧ t < a

def namedValue (key : Text) : Json α → Option (Json α)
  | .arr entries =>
    (entries.find? (fun entry => ((entry.field nameField).map (Json.isText key)).getD false)).bind
      (Json.field valueField)
  | _ => none

structure Numbers (m : MetricArgs) (file : Text) (a t : α) : Prop where
  value : (tools.parse file).bind (namedValue m.key) = some (.num a)
  threshold : tools.number m.threshold = some t

structure Truthful (args : List Text) (v : Verdict) : Prop where
  bad : v = .bad → ∃ m file a t, Measured w tools o id cacheDir sha d args m file ∧ Numbers tools m file a t ∧
    a ≠ 0 ∧ Beyond m a t
  good : v = .good → ∃ m file a t, Measured w tools o id cacheDir sha d args m file ∧ Numbers tools m file a t ∧
    a ≠ 0 ∧ ¬ Beyond m a t

variable {w tools o id cacheDir sha d}

lemma judge_eq (m : MetricArgs) (file : Text) : judge (withTools w tools) m (some file) =
    if jq tools m.key file = [] ∨ jq tools m.key file = "null".toList then .skip
    else if tools.awkZero (jq tools m.key file) then .skip
    else if m.direction = below ∧ tools.awkLess (jq tools m.key file) m.threshold ∨
        m.direction = above ∧ tools.awkLess m.threshold (jq tools m.key file) then .bad
    else .good := rfl

lemma judge_skip {m : MetricArgs} {file : Text} (h : ¬ Compared tools m file) :
    judge (withTools w tools) m (some file) = .skip := by
  rw [judge_eq]
  by_cases h1 : jq tools m.key file = [] ∨ jq tools m.key file = "null".toList
  · rw [if_pos h1]
  · rw [if_neg h1, if_pos]
    rw [not_or] at h1
    by_contra hz
    exact h ⟨h1.1, h1.2, Bool.not_eq_true _ ▸ hz⟩

lemma judge_compared {m : MetricArgs} {file : Text} (h : Compared tools m file) :
    judge (withTools w tools) m (some file) =
      if m.direction = below ∧ tools.awkLess (jq tools m.key file) m.threshold ∨
        m.direction = above ∧ tools.awkLess m.threshold (jq tools m.key file) then .bad else .good := by
  obtain ⟨hfound, hnull, hzero⟩ := h
  rw [judge_eq, if_neg (not_or.mpr ⟨hfound, hnull⟩), if_neg (by simp [hzero])]

lemma jq_of_numbers {m : MetricArgs} {file : Text} (h : Compared tools m file) {a t : α}
    (hn : Numbers tools m file a t) : jq tools m.key file = tools.print a := by
  obtain ⟨json, hparse, hvalue⟩ := Option.bind_eq_some_iff.mp hn.value
  have hjq : jq tools m.key file = tools.output (select m.key json) := by rw [jq, hparse, Option.bind_some]
  cases hselect : select m.key json with
  | none =>
    rw [hselect] at hjq
    exact absurd hjq h.found
  | some found =>
    cases json with
    | arr entries =>
      obtain ⟨entry, hentry, hnum⟩ := Option.bind_eq_some_iff.mp hvalue
      obtain ⟨_, hentries, hfound⟩ := Option.bind_eq_some_iff.mp hselect
      obtain rfl := Option.some.inj hentries
      obtain ⟨selected, hselected, hfound⟩ := Option.bind_eq_some_iff.mp hfound
      have hhead := (head_selectField hselected).trans hentry
      cases selected with
      | nil => cases hhead
      | cons first selected =>
        obtain rfl := Option.some.inj hhead
        obtain rfl := Option.some.inj (hfound.symm.trans hnum)
        rw [hjq, hselect, Tools.output_num]
    | _ => cases hvalue

lemma judge_numbers {m : MetricArgs} {file : Text} (h : Compared tools m file) {a t : α}
    (hn : Numbers tools m file a t) :
    a ≠ 0 ∧ (judge (withTools w tools) m (some file) = .bad ↔ Beyond m a t) ∧
      (judge (withTools w tools) m (some file) = .good ↔ ¬ Beyond m a t) := by
  have hjq := jq_of_numbers h hn
  have hbeyond : (m.direction = below ∧ tools.awkLess (jq tools m.key file) m.threshold = true ∨
      m.direction = above ∧ tools.awkLess m.threshold (jq tools m.key file) = true) ↔ Beyond m a t := by
    rw [hjq, Tools.awkLess_of_number (tools.number_print a) hn.threshold,
      Tools.awkLess_of_number hn.threshold (tools.number_print a)]
    rfl
  refine ⟨?_, ?_⟩
  · intro hzero
    have hz := h.not_zero
    rw [hjq, (Tools.awkZero_print a).mpr hzero] at hz
    cases hz
  · rw [judge_compared h]
    by_cases hb : Beyond m a t
    · rw [if_pos (hbeyond.mpr hb)]
      simp [hb]
    · rw [if_neg (fun hn => hb (hbeyond.mp hn))]
      simp [hb]

lemma exec_metric (args : List Text) {rc : ℕ} {d' : Disk Tree Archive}
    (hbuilt : built w tools o id cacheDir sha d = (some rc, d')) :
    ((predicate (withTools w tools) cacheDir (.metric args) (some sha)).exec
      (host (withTools w tools) o id) none d).1 =
      some ((metricArgs args).elim .skip fun m =>
        if rc = 0 ∧ (w.measure m.script d'.installed).1 = true then
          judge (withTools w tools) m (w.measure m.script d'.installed).2
        else .skip) := by
  rw [predicate, metricMode]
  cases metricArgs args with
  | none => rfl
  | some m =>
    have hmeasure : (withTools w tools).measure = w.measure := rfl
    dsimp only
    rw [Script.exec_bind _ _ hbuilt, Option.elim_some]
    by_cases hrc : rc = 0
    · subst hrc
      cases hok : (w.measure m.script d'.installed).1 <;>
        simp [Script.exec, host, runCommand, hmeasure, hok]
    · rw [if_pos hrc, if_neg (fun h => hrc h.1)]
      rfl

lemma Measured.unique {args : List Text} {m m' : MetricArgs} {file file' : Text}
    (h : Measured w tools o id cacheDir sha d args m file)
    (h' : Measured w tools o id cacheDir sha d args m' file') :
    m = m' ∧ file = file' := by
  obtain rfl := Option.some.inj ((metricArgs_iff.mpr h.options).symm.trans (metricArgs_iff.mpr h'.options))
  have hscript := h.script.symm.trans h'.script
  exact ⟨rfl, Option.some.inj (Prod.mk.inj hscript).2⟩

variable (w tools o id cacheDir sha d) in
lemma exec_metric_cases (args : List Text) :
    ∃ v d', (predicate (withTools w tools) cacheDir (.metric args) (some sha)).exec
        (host (withTools w tools) o id) none d = (some v, d') ∧
      ((v = .skip ∧ ∀ m file, Measured w tools o id cacheDir sha d args m file → ¬ Compared tools m file) ∨
        ∃ m file, Measured w tools o id cacheDir sha d args m file ∧ Compared tools m file ∧
          v = judge (withTools w tools) m (some file)) := by
  obtain ⟨v, d', hv⟩ := Script.exec_none_isSome (host (withTools w tools) o id)
    (predicate (withTools w tools) cacheDir (.metric args) (some sha)) d
  refine ⟨v, d', hv, ?_⟩
  obtain ⟨rc, d₁, hbuilt⟩ := Script.exec_none_isSome (host (withTools w tools) o id) (build cacheDir sha) d
  have hbuilt : built w tools o id cacheDir sha d = (some rc, d₁) := hbuilt
  have hverdict := exec_metric args hbuilt
  rw [hv] at hverdict
  have hverdict := Option.some.inj hverdict
  have hmeasured {m : MetricArgs} {file : Text} (h : Measured w tools o id cacheDir sha d args m file) :
      v = judge (withTools w tools) m (some file) := by
    have hrc : rc = 0 := Option.some.inj ((congrArg Prod.fst hbuilt).symm.trans h.build)
    have hscript := h.script
    rw [hbuilt] at hscript
    rw [hverdict, metricArgs_iff.mpr h.options, Option.elim_some, if_pos ⟨hrc, by rw [hscript]⟩, hscript]
  by_cases hex : ∃ m file, Measured w tools o id cacheDir sha d args m file ∧ Compared tools m file
  · obtain ⟨m, file, hm, hc⟩ := hex
    exact .inr ⟨m, file, hm, hc, hmeasured hm⟩
  · have hno (m : MetricArgs) (file : Text) (hm : Measured w tools o id cacheDir sha d args m file) :
        ¬ Compared tools m file := fun hc => hex ⟨m, file, hm, hc⟩
    refine .inl ⟨?_, hno⟩
    cases hargs : metricArgs args with
    | none => rw [hverdict, hargs, Option.elim_none]
    | some m =>
      rw [hverdict, hargs, Option.elim_some]
      split
      · rename_i hok
        cases hfile : (w.measure m.script d₁.installed).2 with
        | none => rfl
        | some file =>
          apply judge_skip
          apply hno m file
          refine ⟨metricArgs_iff.mp hargs, by rw [hbuilt, hok.1], ?_⟩
          rw [hbuilt]
          exact Prod.ext hok.2 hfile
      · rfl

theorem verdict_real_iff (w : World Tree Archive) (tools : Tools α) (o : Outcomes Tree Archive) (id : ℕ)
    (cacheDir : Bool) (sha : Commit) (args : List Text) (d : Disk Tree Archive) :
    ∃ v d', (predicate (withTools w tools) cacheDir (.metric args) (some sha)).exec
        (host (withTools w tools) o id) none d = (some v, d') ∧
      (Truthful w tools o id cacheDir sha d args v ↔
        ∀ m file, Measured w tools o id cacheDir sha d args m file → Compared tools m file →
          ∃ a t, Numbers tools m file a t) := by
  obtain ⟨v, d', hv, ⟨rfl, hno⟩ | ⟨m, file, hm, hc, rfl⟩⟩ := 
    exec_metric_cases w tools o id cacheDir sha d args
  · refine ⟨.skip, d', hv, ?_⟩
    refine iff_of_true ⟨by rintro ⟨⟩, by rintro ⟨⟩⟩ ?_
    intro m file hm hc
    exact absurd hc (hno m file hm)
  · refine ⟨_, d', hv, ?_⟩
    constructor
    · intro htruth m' file' hm' hc'
      obtain ⟨rfl, rfl⟩ := hm.unique hm'
      have hne : judge (withTools w tools) m (some file) = .bad ∨
        judge (withTools w tools) m (some file) = .good := by
        rw [judge_compared hc]
        split
        · exact .inl rfl
        · exact .inr rfl
      obtain hbad | hgood := hne
      · obtain ⟨m', file', a, t, hm', hn, -⟩ := htruth.bad hbad
        obtain ⟨rfl, rfl⟩ := hm.unique hm'
        exact ⟨a, t, hn⟩
      · obtain ⟨m', file', a, t, hm', hn, -⟩ := htruth.good hgood
        obtain ⟨rfl, rfl⟩ := hm.unique hm'
        exact ⟨a, t, hn⟩
    · intro hnumbers
      obtain ⟨a, t, hn⟩ := hnumbers m file hm hc
      obtain ⟨hne, hbad, hgood⟩ := judge_numbers hc hn
      exact ⟨fun hv => ⟨m, file, a, t, hm, hn, hne, hbad.mp hv⟩,
        fun hv => ⟨m, file, a, t, hm, hn, hne, hgood.mp hv⟩⟩

end

def sizeKey : Text := "csibe_total_os_bytes_sh4".toList

def sizeFile : Json ℕ := .arr [.obj [(nameField, .str sizeKey), (valueField, .num 1543331)]]

def sizeTools : Tools ℕ := plainTools (fun _ => some sizeFile)

def sizeWorld : World Text Text := { plainWorld with measure := fun _ _ => (true, some []) }

def wordArgs : List Text :=
  [scriptOption, ['s'], keyOption, sizeKey, thresholdOption, "abc".toList, directionOption, below]

theorem verdict_real_counterexample :
    ((predicate (withTools sizeWorld sizeTools) false (.metric wordArgs) (some commitA)).exec
        (host (withTools sizeWorld sizeTools) plainOutcomes 0) none cleanDisk).1 = some .bad ∧
      ¬ Truthful sizeWorld sizeTools plainOutcomes 0 false commitA cleanDisk wordArgs .bad := by
  refine ⟨by decide +kernel, ?_⟩
  intro h
  obtain ⟨m, file, a, t, hm, hn, -⟩ := h.bad rfl
  have hword : (metricArgs wordArgs).map MetricArgs.threshold = some "abc".toList := by decide +kernel
  rw [metricArgs_iff.mpr hm.options, Option.map_some] at hword
  have hnumber := hn.threshold
  have hnone : sizeTools.number "abc".toList = none := by decide +kernel
  rw [Option.some.inj hword, hnone] at hnumber
  cases hnumber

end ShMonitor.Bisect.Metric
