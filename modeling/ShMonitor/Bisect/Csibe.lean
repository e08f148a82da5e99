import Mathlib.Algebra.BigOperators.Group.List.Basic
import Mathlib.Algebra.Order.BigOperators.Group.List
import Mathlib.Data.Nat.Cast.Order.Ring
import ShMonitor.Bisect.Metric

/-! `run-csibe.sh` as the script of a metric bisect. A source that does not compile leaves its
object out of the totals, and the totals are published all the same. The shell adds up in 64 bits;
the sums here are those of a corpus whose bytes stay below 2^63. -/

namespace ShMonitor.Bisect.Csibe

open ShMonitor.Texts ShMonitor.Shell Workflow.LastGreen Build Predicate ShMonitor.Bisect.Metric

variable {Tree Archive α : Type}

inductive Arch where
  | sh4
  | arm
  | x86

def Arch.text : Arch → Text
  | .sh4 => "sh4".toList
  | .arm => "arm".toList
  | .x86 => "x86".toList

inductive Opt where
  | os
  | o2
deriving DecidableEq

def Opt.lower : Opt → Text
  | .os => ['o', 's']
  | .o2 => ['o', '2']

abbrev Object := List (Text × ℕ)

def codeSections : List Text := [".text".toList, ".rodata".toList, ".data".toList]

def objectSize (obj : Object) : ℕ := ((obj.filter (fun s => codeSections.contains s.1)).map Prod.snd).sum

structure Project where
  name : Text
  sources : List Text
  shipped : List (Text × Object)
deriving DecidableEq

/-- The directories of the corpus, in the order of the shell's `*`. -/
structure Corpus where
  projects : List Project
  distinct : (projects.map Project.name).Nodup

abbrev Compiler := Project → Opt → Text → Option Object

abbrev Workdir := Text → Option Object

def objectPath (src : Text) : Text := (src.rdropWhile (· != '.')).dropLast ++ ".o".toList

def objectPaths (p : Project) : List Text := (p.shipped.map Prod.fst ++ p.sources.map objectPath).dedup

/-- A compiler that fails leaves the object as it was. -/
def compileAll (cc : Text → Option Object) : List Text → Workdir × Bool → Workdir × Bool
  | [], st => st
  | src :: sources, (dir, ok) =>
    match cc src with
    | some obj => compileAll cc sources (Function.update dir (objectPath src) (some obj), ok)
    | none => compileAll cc sources (dir, false)

def compiled (cc : Compiler) (p : Project) (opt : Opt) : Workdir × Bool :=
  compileAll (cc p opt) p.sources (fun path => p.shipped.lookup path, true)

def object (cc : Compiler) (p : Project) (opt : Opt) (path : Text) : Option Object := (compiled cc p opt).1 path

def sizeAt (cc : Compiler) (p : Project) (opt : Opt) (path : Text) : ℕ :=
  ((object cc p opt path).map objectSize).getD 0

def sizeOfObjects (cc : Compiler) (p : Project) (opt : Opt) : ℕ := ((objectPaths p).map (sizeAt cc p opt)).sum

def measureProject (cc : Compiler) (p : Project) (opt : Opt) : Option ℕ :=
  if p.sources = [] then none
  else if (compiled cc p opt).2 = false ∧
    (objectPaths p).countP (fun path => (object cc p opt path).isSome) = 0 then none
  else if sizeOfObjects cc p opt = 0 then none
  else some (sizeOfObjects cc p opt)

def sanitize (name : Text) : Text := name.map (fun c => if c.isAlphanum || c == '_' then c else '_')

def entryName (arch : Arch) (project : Text) (opt : Opt) : Text :=
  "csibe_".toList ++ (project ++ ('_' :: (opt.lower ++ ("_bytes_".toList ++ arch.text))))

def totalName : Text := ['t', 'o', 't', 'a', 'l']

structure Sums where
  entries : List (Text × ℕ)
  os : ℕ
  o2 : ℕ

def addProject (arch : Arch) (cc : Compiler) (sums : Sums) (run : Project × Opt) : Sums :=
  match measureProject cc run.1 run.2 with
  | none => sums
  | some bytes =>
    let entries := sums.entries ++ [(entryName arch (sanitize run.1.name) run.2, bytes)]
    match run.2 with
    | .os => ⟨entries, sums.os + bytes, sums.o2⟩
    | .o2 => ⟨entries, sums.os, sums.o2 + bytes⟩

def runs (corpus : Corpus) : List (Project × Opt) := corpus.projects.flatMap (fun p => [(p, .os), (p, .o2)])

def runCsibe (arch : Arch) (cc : Compiler) (corpus : Corpus) : List (Text × ℕ) :=
  let sums := (runs corpus).foldl (addProject arch cc) ⟨[], 0, 0⟩
  sums.entries ++ [(entryName arch totalName .os, sums.os), (entryName arch totalName .o2, sums.o2)]

def jsonEntry [NatCast α] (entry : Text × ℕ) : Json α :=
  .obj [(nameField, .str entry.1), ("unit".toList, .str "bytes".toList), (valueField, .num (entry.2 : α))]

def toJson [NatCast α] (entries : List (Text × ℕ)) : Json α := .arr (entries.map jsonEntry)

def bytes (cc : Compiler) (p : Project) : ℕ := (measureProject cc p .os).getD 0

def named (corpus : Corpus) : List Project := corpus.projects.filter (fun p => decide (p.name = totalName))

def counted (corpus : Corpus) (cc : Compiler) : List Project :=
  if ((named corpus).map (bytes cc)).sum = 0 then corpus.projects else named corpus

def summedBytes (corpus : Corpus) (cc : Compiler) : ℕ := ((counted corpus cc).map (bytes cc)).sum

lemma sanitize_total {name : Text} : sanitize name = totalName ↔ name = totalName := by
  constructor
  · intro h
    have hkeep : ∀ c ∈ name, (if c.isAlphanum || c == '_' then c else '_') = c := by
      intro c hc
      have hmem : (if c.isAlphanum || c == '_' then c else '_') ∈ totalName := h ▸ List.mem_map_of_mem hc
      split at hmem
      · exact if_pos ‹_›
      · exact absurd hmem (by decide)
    rw [sanitize, List.map_congr_left hkeep, List.map_id'] at h
    exact h
  · rintro rfl
    decide

lemma entryName_total (arch : Arch) (name : Text) (opt : Opt) :
    entryName arch name opt = entryName arch totalName .os ↔ name = totalName ∧ opt = .os := by
  constructor
  · intro h
    have h := List.append_cancel_left h
    obtain ⟨hname, htail⟩ := List.append_inj' h (by cases opt <;> rfl)
    refine ⟨hname, ?_⟩
    have hopt := (List.append_inj (List.cons.inj htail).2 (by cases opt <;> rfl)).1
    cases opt with
    | os => rfl
    | o2 => exact absurd hopt (by decide)
  · rintro ⟨rfl, rfl⟩
    rfl

lemma sizeOfObjects_of_none {cc : Compiler} {p : Project} {opt : Opt}
    (h : (objectPaths p).countP (fun path => (object cc p opt path).isSome) = 0) :
    sizeOfObjects cc p opt = 0 := by
  rw [sizeOfObjects, List.sum_eq_zero]
  intro n hn
  obtain ⟨path, hpath, rfl⟩ := List.mem_map.mp hn
  have hnone := List.countP_eq_zero.mp h path hpath
  rw [sizeAt, Option.not_isSome_iff_eq_none.mp hnone]
  rfl

lemma measureProject_os (cc : Compiler) (p : Project) :
    measureProject cc p .os = if bytes cc p = 0 then none else some (bytes cc p) := by
  rw [bytes, measureProject]
  split
  · rfl
  · split
    · rfl
    · split
      · rfl
      · rw [Option.getD_some, if_neg ‹_›]

lemma bytes_eq (cc : Compiler) (p : Project) :
    bytes cc p = if p.sources = [] then 0 else sizeOfObjects cc p .os := by
  rw [bytes, measureProject]
  split
  · rfl
  · split
    · rename_i h
      exact (sizeOfObjects_of_none h.2).symm
    · split
      · rename_i h
        exact h.symm
      · rfl

def totalEntry (cc : Compiler) (p : Project) : Option ℕ :=
  if p.name = totalName then measureProject cc p .os else none

lemma lookup_snoc (arch : Arch) (name : Text) (opt : Opt) (entries : List (Text × ℕ)) (n : ℕ) :
    (entries ++ [(entryName arch (sanitize name) opt, n)]).lookup (entryName arch totalName .os) =
      (entries.lookup (entryName arch totalName .os)).or
        (if name = totalName ∧ opt = .os then some n else none) := by
  rw [List.lookup_append, List.lookup_cons, List.lookup_nil]
  have hname := entryName_total arch (sanitize name) opt
  rw [sanitize_total] at hname
  by_cases h : name = totalName ∧ opt = .os
  · rw [if_pos h, beq_iff_eq.mpr (hname.mpr h).symm]
  · rw [if_neg h, beq_false_of_ne (fun he => h (hname.mp he.symm))]

lemma addProject_os (arch : Arch) (cc : Compiler) (sums : Sums) (p : Project) :
    (addProject arch cc sums (p, .os)).os = sums.os + bytes cc p ∧
      (addProject arch cc sums (p, .os)).entries.lookup (entryName arch totalName .os) =
        (sums.entries.lookup (entryName arch totalName .os)).or (totalEntry cc p) := by
  rw [addProject, totalEntry, bytes]
  cases measureProject cc p .os with
  | none => simp
  | some n =>
    refine ⟨rfl, ?_⟩
    rw [lookup_snoc]
    simp

lemma addProject_o2 (arch : Arch) (cc : Compiler) (sums : Sums) (p : Project) :
    (addProject arch cc sums (p, .o2)).os = sums.os ∧
      (addProject arch cc sums (p, .o2)).entries.lookup (entryName arch totalName .os) =
        sums.entries.lookup (entryName arch totalName .os) := by
  rw [addProject]
  cases measureProject cc p .o2 with
  | none => exact ⟨rfl, rfl⟩
  | some n =>
    refine ⟨rfl, ?_⟩
    rw [lookup_snoc]
    simp

lemma foldl_addProject (arch : Arch) (cc : Compiler) (ps : List Project) (sums : Sums) :
    let after := (ps.flatMap (fun p => [(p, .os), (p, .o2)])).foldl (addProject arch cc) sums
    after.os = sums.os + (ps.map (bytes cc)).sum ∧
      after.entries.lookup (entryName arch totalName .os) =
        (sums.entries.lookup (entryName arch totalName .os)).or (ps.findSome? (totalEntry cc)) := by
  induction ps generalizing sums with
  | nil => simp
  | cons p ps ih =>
    obtain ⟨hos, hlookup⟩ := addProject_os arch cc sums p
    obtain ⟨hos', hlookup'⟩ := addProject_o2 arch cc (addProject arch cc sums (p, .os)) p
    obtain ⟨hsum, hfound⟩ := ih (addProject arch cc (addProject arch cc sums (p, .os)) (p, .o2))
    dsimp only at hsum hfound ⊢
    rw [List.flatMap_cons, List.foldl_append, List.foldl_cons, List.foldl_cons, List.foldl_nil, hsum,
      hfound, hos', hos,
      hlookup', hlookup, List.map_cons, List.sum_cons, Nat.add_assoc, Option.or_assoc, List.findSome?_cons]
    refine ⟨rfl, ?_⟩
    cases totalEntry cc p <;> rfl

lemma findSome_totalEntry (cc : Compiler) {ps : List Project} (h : (ps.map Project.name).Nodup) :
    ps.findSome? (totalEntry cc) =
      let bytes := ((ps.filter (fun p => decide (p.name = totalName))).map (bytes cc)).sum
      if bytes = 0 then none else some bytes := by
  induction ps with
  | nil => rfl
  | cons p ps ih =>
    obtain ⟨hp, hps⟩ := List.nodup_cons.mp h
    rw [List.findSome?_cons, totalEntry]
    by_cases ht : p.name = totalName
    · have hrest : ps.filter (fun p => decide (p.name = totalName)) = [] := by
        rw [List.filter_eq_nil_iff]
        intro q hq hqt
        exact hp (List.mem_map.mpr ⟨q, hq, (of_decide_eq_true hqt).trans ht.symm⟩)
      rw [if_pos ht, List.filter_cons_of_pos (by simpa using ht), hrest, measureProject_os]
      simp only [List.map_cons, List.map_nil, List.sum_cons, List.sum_nil, Nat.add_zero]
      by_cases hb : bytes cc p = 0
      · rw [if_pos hb]
        dsimp only
        rw [ih hps, hrest]
        rfl
      · rw [if_neg hb]
    · rw [if_neg ht, List.filter_cons_of_neg (by simpa using ht)]
      exact ih hps

lemma lookup_runCsibe (arch : Arch) (cc : Compiler) (corpus : Corpus) :
    (runCsibe arch cc corpus).lookup (entryName arch totalName .os) = some (summedBytes corpus cc) := by
  obtain ⟨hos, hlookup⟩ := foldl_addProject arch cc corpus.projects ⟨[], 0, 0⟩
  rw [runCsibe, runs, List.lookup_append, hlookup, findSome_totalEntry cc corpus.distinct, List.lookup_nil,
    Option.none_or, List.lookup_cons_self, hos, Nat.zero_add, summedBytes, counted]
  by_cases hn : ((named corpus).map (bytes cc)).sum = 0
  · have hn' := hn
    rw [named] at hn'
    rw [if_pos hn]
    dsimp only
    rw [if_pos hn', Option.none_or]
  · have hn' := hn
    rw [named] at hn'
    rw [if_neg hn]
    dsimp only
    rw [if_neg hn', Option.some_or, named]

def Fewer (corpus : Corpus) (first second : Compiler) : Prop :=
  ∀ p ∈ corpus.projects, ∀ path obj, object second p .os path = some obj → object first p .os path = some obj

def missing (first second : Compiler) (p : Project) : ℕ :=
  ((objectPaths p).map
    (fun path => if (object second p .os path).isSome then 0 else sizeAt first p .os path)).sum

def lost (corpus : Corpus) (first second : Compiler) : ℕ :=
  ((counted corpus first).map (missing first second)).sum

def gained (corpus : Corpus) (first second : Compiler) : ℕ :=
  ((counted corpus second).map (fun p => if p ∈ counted corpus first then 0 else bytes second p)).sum

lemma bytes_add_missing {corpus : Corpus} {first second : Compiler} (h : Fewer corpus first second)
    {p : Project}
    (hp : p ∈ corpus.projects) : bytes first p = bytes second p + missing first second p := by
  rw [bytes_eq, bytes_eq]
  by_cases hs : p.sources = []
  · rw [if_pos hs, if_pos hs, Nat.zero_add, missing, List.sum_eq_zero]
    intro n hn
    obtain ⟨path, -, rfl⟩ := List.mem_map.mp hn
    have hsame (cc : Compiler) : object cc p .os path = p.shipped.lookup path := by
      rw [object, compiled, hs]
      rfl
    rw [sizeAt, hsame, hsame]
    cases p.shipped.lookup path <;> rfl
  · rw [if_neg hs, if_neg hs, sizeOfObjects, sizeOfObjects, missing, ← List.sum_map_add]
    congr 1
    apply List.map_congr_left
    intro path _
    cases hobj : object second p .os path with
    | none => simp [sizeAt, hobj]
    | some obj => simp [sizeAt, hobj, h p hp path obj hobj]

lemma sum_bytes {corpus : Corpus} {first second : Compiler} (h : Fewer corpus first second) {ps : List Project}
    (hps : ∀ p ∈ ps, p ∈ corpus.projects) :
    (ps.map (bytes first)).sum = (ps.map (bytes second)).sum + (ps.map (missing first second)).sum := by
  rw [← List.sum_map_add]
  congr 1
  exact List.map_congr_left (fun p hp => bytes_add_missing h (hps p hp))

lemma named_subset (corpus : Corpus) : ∀ p ∈ named corpus, p ∈ corpus.projects :=
  fun _ hp => List.mem_of_mem_filter hp

lemma gained_same {corpus : Corpus} {first second : Compiler}
    (h : counted corpus first = counted corpus second) :
    gained corpus first second = 0 := by
  rw [gained, List.sum_eq_zero]
  intro n hn
  obtain ⟨p, hp, rfl⟩ := List.mem_map.mp hn
  exact if_pos (h ▸ hp)

lemma published_balance {corpus : Corpus} {first second : Compiler} (h : Fewer corpus first second) :
    summedBytes corpus first + gained corpus first second =
      summedBytes corpus second + lost corpus first second := by
  have hnamed := sum_bytes h (named_subset corpus)
  have hall := sum_bytes h (fun p (hp : p ∈ corpus.projects) => hp)
  rw [summedBytes, summedBytes, lost]
  by_cases hfirst : ((named corpus).map (bytes first)).sum = 0
  · have hsecond : ((named corpus).map (bytes second)).sum = 0 := by omega
    have hc : counted corpus first = corpus.projects := if_pos hfirst
    have hc' : counted corpus second = corpus.projects := if_pos hsecond
    rw [gained_same (hc.trans hc'.symm), hc, hc']
    exact hall
  · have hc : counted corpus first = named corpus := if_neg hfirst
    by_cases hsecond : ((named corpus).map (bytes second)).sum = 0
    · have hc' : counted corpus second = corpus.projects := if_pos hsecond
      have hgained : gained corpus first second = (corpus.projects.map (bytes second)).sum := by
        rw [gained, hc, hc']
        congr 1
        apply List.map_congr_left
        intro p _
        split
        · rename_i hp
          exact (List.sum_eq_zero_iff.mp hsecond _ (List.mem_map_of_mem hp)).symm
        · rfl
      rw [hgained, hc, hc', hnamed, hsecond]
      omega
    · have hc' : counted corpus second = named corpus := if_neg hsecond
      rw [gained_same (hc.trans hc'.symm), hc, hc']
      exact hnamed

lemma field_name [NatCast α] (entry : Text × ℕ) :
    (jsonEntry entry : Json α).field nameField = some (.str entry.1) := by
  rw [jsonEntry, Json.field, List.lookup_cons_self]
  rfl

lemma field_value [NatCast α] (entry : Text × ℕ) :
    (jsonEntry entry : Json α).field valueField = some (.num (entry.2 : α)) := by
  have hname : (valueField == nameField) = false := by decide +kernel
  have hunit : (valueField == "unit".toList) = false := by decide +kernel
  rw [jsonEntry, Json.field, List.lookup_cons, hname]
  dsimp only
  rw [List.lookup_cons, hunit]
  dsimp only
  rw [List.lookup_cons_self]
  rfl

lemma selectField_entries [NatCast α] (key : Text) (entries : List (Text × ℕ)) :
    ∃ selected, Json.selectField nameField key (entries.map (jsonEntry (α := α))) = some selected ∧
      selected.head?.bind (Json.field valueField) = (entries.lookup key).map (fun n => .num (n : α)) := by
  induction entries with
  | nil => exact ⟨[], rfl, rfl⟩
  | cons entry entries ih =>
    obtain ⟨selected, hselected, hhead⟩ := ih
    rw [List.map_cons, Json.selectField, field_name, Option.bind_some, hselected, Option.map_some, Json.isText]
    obtain ⟨name, n⟩ := entry
    by_cases hname : name = key
    · refine ⟨jsonEntry (name, n) :: selected, by simp [hname], ?_⟩
      rw [List.head?_cons, Option.bind_some, field_value, ← hname, List.lookup_cons_self]
      rfl
    · refine ⟨selected, by simp [hname], ?_⟩
      rw [hhead, List.lookup_cons, beq_false_of_ne (Ne.symm hname)]

lemma selected_runCsibe [NatCast α] (arch : Arch) (cc : Compiler) (corpus : Corpus) :
    ∃ selected, Json.selectField nameField (entryName arch totalName .os)
      ((runCsibe arch cc corpus).map (jsonEntry (α := α))) =
        some selected ∧ selected.head?.bind (Json.field valueField) =
          some (.num (summedBytes corpus cc : α)) := by
  obtain ⟨selected, hselected, hhead⟩ :=
    selectField_entries (α := α) (entryName arch totalName .os) (runCsibe arch cc corpus)
  rw [lookup_runCsibe, Option.map_some] at hhead
  exact ⟨selected, hselected, hhead⟩

lemma select_toJson [NatCast α] (arch : Arch) (cc : Compiler) (corpus : Corpus) :
    select (entryName arch totalName .os)
      (toJson (runCsibe arch cc corpus)) = some (.num (summedBytes corpus cc : α)) := by
  obtain ⟨selected, hselected, hhead⟩ := selected_runCsibe (α := α) arch cc corpus
  rw [select, toJson, Json.elements, Option.bind_some, hselected, Option.bind_some]
  cases selected with
  | nil => cases hhead
  | cons entry selected => exact hhead

lemma namedValue_toJson [NatCast α] (arch : Arch) (cc : Compiler) (corpus : Corpus) :
    namedValue (entryName arch totalName .os)
      (toJson (runCsibe arch cc corpus)) = some (.num (summedBytes corpus cc : α)) := by
  obtain ⟨selected, hselected, hhead⟩ := selected_runCsibe (α := α) arch cc corpus
  rw [toJson, namedValue, ← head_selectField hselected]
  exact hhead

def csibeWorld [NatCast α] (w : World Tree Archive) (emit : Json α → Text) (cc : Tree → Compiler) (arch : Arch)
    (corpus : Corpus) : World Tree Archive :=
  { w with measure := fun _ tree =>
      match tree with
      | none => (false, none)
      | some tree => (true, some (emit (toJson (runCsibe arch (cc tree) corpus)))) }

lemma published_eq_zero {corpus : Corpus} {cc : Compiler} :
    summedBytes corpus cc = 0 ↔ ∀ p ∈ counted corpus cc, bytes cc p = 0 := by
  rw [summedBytes, List.sum_eq_zero_iff]
  simp

lemma beyond_below [LinearOrder α] {m : MetricArgs} (hdirection : m.direction = below) (v t : α) :
    Beyond m v t ↔ v < t := by
  have hbelow : below ≠ above := by decide +kernel
  simp [Beyond, hdirection, hbelow]

variable [Semiring α] [LinearOrder α] [IsStrictOrderedRing α]

lemma compared_print {tools : Tools α} {m : MetricArgs} {file : Text} {n : ℕ}
    (hjq : jq tools m.key file = tools.print (n : α)) : Compared tools m file ↔ n ≠ 0 := by
  constructor
  · rintro hc rfl
    have hz := hc.not_zero
    rw [hjq, (Tools.awkZero_print _).mpr Nat.cast_zero] at hz
    cases hz
  · intro hn
    constructor
    · rw [hjq]
      exact Tools.print_ne_nil _
    · rw [hjq]
      exact Tools.print_ne_null _
    · rw [hjq, ← Bool.not_eq_true, Tools.awkZero_print]
      exact Nat.cast_ne_zero.mpr hn

lemma margin_iff {corpus : Corpus} {first second : Compiler} (h : Fewer corpus first second) (t : α) :
    t + (lost corpus first second : α) ≤ (summedBytes corpus first : α) + (gained corpus first second : α) ↔
      t ≤ (summedBytes corpus second : α) := by
  have hbalance := congrArg (Nat.cast (R := α)) (published_balance h)
  rw [Nat.cast_add, Nat.cast_add] at hbalance
  rw [hbalance]
  exact add_le_add_iff_right _

theorem sizeDrop_iff (corpus : Corpus) (arch : Arch) (first : Compiler) (w : World Tree Archive)
    (tools : Tools α)
    (emit : Json α → Text) (cc : Tree → Compiler) (o : Outcomes Tree Archive) (id : ℕ) (cacheDir : Bool)
    (sha : Commit) (d d' : Disk Tree Archive) (tree : Tree) (args : List Text) (m : MetricArgs) (t : α)
    (hemit : tools.parse (emit (toJson (runCsibe arch (cc tree) corpus))) =
      some (toJson (runCsibe arch (cc tree) corpus)))
    (hfewer : Fewer corpus first (cc tree)) (hargs : Given args m) (hkey : m.key = entryName arch totalName .os)
    (hdirection : m.direction = below) (hthreshold : tools.number m.threshold = some t)
    (hbuilt : built (csibeWorld w emit cc arch corpus) tools o id cacheDir sha d = (some 0, d'))
    (htree : d'.installed = some tree) :
    ((predicate (withTools (csibeWorld w emit cc arch corpus) tools) cacheDir (.metric args) (some sha)).exec
        (host (withTools (csibeWorld w emit cc arch corpus) tools) o id) none d).1 ≠ some .bad ↔
      t + (lost corpus first (cc tree) : α) ≤ (summedBytes corpus first : α) +
        (gained corpus first (cc tree) : α) ∨
        ∀ p ∈ counted corpus (cc tree), bytes (cc tree) p = 0 := by
  let file := emit (toJson (runCsibe arch (cc tree) corpus))
  have hmeasure : (csibeWorld w emit cc arch corpus).measure m.script d'.installed = (true, some file) := by
    rw [htree]
    rfl
  have hjq : jq tools m.key file = tools.print (summedBytes corpus (cc tree) : α) := by
    rw [jq, hemit, Option.bind_some, hkey, select_toJson, Tools.output_num]
  have hn : Numbers tools m file (summedBytes corpus (cc tree) : α) t := by
    refine ⟨?_, hthreshold⟩
    rw [hemit, Option.bind_some, hkey, namedValue_toJson]
  rw [exec_metric args hbuilt, metricArgs_iff.mpr hargs, Option.elim_some, hmeasure, if_pos ⟨rfl, rfl⟩,
    margin_iff hfewer, ← published_eq_zero]
  by_cases hzero : summedBytes corpus (cc tree) = 0
  · rw [judge_skip (mt (compared_print hjq).mp (not_not_intro hzero))]
    simp [hzero]
  · obtain ⟨-, hbad, -⟩ := judge_numbers ((compared_print hjq).mpr hzero) hn
    rw [ne_eq, Option.some.injEq, hbad, beyond_below hdirection, not_lt]
    simp [hzero]

def twoSources : Project where
  name := ['p']
  sources := [['a', '.', 'c'], ['b', '.', 'c']]
  shipped := []

def oneProject : Corpus := ⟨[twoSources], List.pairwise_singleton _ _⟩

def textOf (n : ℕ) : Object := [(".text".toList, n), (".bss".toList, 8)]

def shrinking (tree : Text) : Compiler := fun _ _ src =>
  if src = ['a', '.', 'c'] then some (textOf 60) else if tree = ['a'] then some (textOf 40) else none

def renderField (field : Text × Json ℕ) : Text :=
  "\"".toList ++ field.1 ++ "\":".toList ++
    match field.2 with
    | .str t => "\"".toList ++ t ++ "\"".toList
    | .num n => Nat.toDigits 10 n
    | _ => []

def renderEntry : Json ℕ → Text
  | .obj fields => "\x7b".toList ++ [','].intercalate (fields.map renderField) ++ "\x7d".toList
  | _ => []

def render : Json ℕ → Text
  | .arr entries => ['['] ++ [','].intercalate (entries.map renderEntry) ++ [']']
  | _ => []

def written (tree : Text) : Json ℕ := toJson (runCsibe .sh4 (shrinking tree) oneProject)

def shrinkingTools : Tools ℕ := plainTools (fun file =>
  if file = render (written ['a']) then some (written ['a'])
  else if file = render (written ['b']) then some (written ['b']) else none)

def shrinkingWorld : World Text Text := csibeWorld plainWorld render shrinking .sh4 oneProject

def sizeArgs : MetricArgs := ⟨['s'], entryName .sh4 totalName .os, ['9', '0'], below⟩

def sizeOptions : List Text :=
  [scriptOption, sizeArgs.script, keyOption, sizeArgs.key, thresholdOption, sizeArgs.threshold, directionOption,
    sizeArgs.direction]

def verdictAt (sha : Commit) : Option Verdict :=
  ((predicate (withTools shrinkingWorld shrinkingTools) false (.metric sizeOptions) (some sha)).exec
    (host (withTools shrinkingWorld shrinkingTools) plainOutcomes 0) none cleanDisk).1

lemma shrinking_fewer : Fewer oneProject (shrinking ['a']) (shrinking ['b']) := by
  intro p hp path obj h
  obtain rfl := List.mem_singleton.mp hp
  have hfirst : object (shrinking ['a']) twoSources .os = Function.update (Function.update (fun _ => none)
      ['a', '.', 'o'] (some (textOf 60))) ['b', '.', 'o'] (some (textOf 40)) := rfl
  have hsecond : object (shrinking ['b']) twoSources .os =
      Function.update (fun _ => none) ['a', '.', 'o'] (some (textOf 60)) := rfl
  rw [hsecond, Function.update_apply] at h
  split at h
  · obtain rfl : path = ['a', '.', 'o'] := ‹_›
    rw [hfirst, Function.update_of_ne (by decide), Function.update_self]
    exact h
  · cases h

theorem sizeDrop_counterexample : Fewer oneProject (shrinking ['a']) (shrinking ['b']) ∧
    90 ≤ summedBytes oneProject (shrinking ['a']) ∧ verdictAt commitA = some .good ∧
      verdictAt commitB = some .bad :=
  ⟨shrinking_fewer, by decide +kernel, by decide +kernel, by decide +kernel⟩

lemma parse_shrinkingTools (file : Text) : shrinkingTools.parse file =
    if file = render (written ['a']) then some (written ['a'])
    else if file = render (written ['b']) then some (written ['b']) else none := rfl

lemma parse_written : shrinkingTools.parse (render (written ['b'])) = some (written ['b']) := by
  have hne : ¬ render (written ['b']) = render (written ['a']) := by decide +kernel
  rw [parse_shrinkingTools, if_neg hne, if_pos rfl]

theorem sizeDrop_iff_example :
    verdictAt commitB ≠ some .bad ↔ 90 + lost oneProject (shrinking ['a']) (shrinking ['b']) ≤
      summedBytes oneProject (shrinking ['a']) + gained oneProject (shrinking ['a']) (shrinking ['b']) ∨
        ∀ p ∈ counted oneProject (shrinking ['b']), bytes (shrinking ['b']) p = 0 :=
  sizeDrop_iff oneProject .sh4 (shrinking ['a']) plainWorld shrinkingTools render shrinking plainOutcomes
    0 false commitB cleanDisk
    (built shrinkingWorld shrinkingTools plainOutcomes 0 false commitB cleanDisk).2 ['b'] sizeOptions
    sizeArgs 90 parse_written shrinking_fewer (metricArgs_iff.mp rfl) rfl rfl (by decide +kernel)
    (Prod.ext (by decide +kernel) rfl) (by decide +kernel)

end ShMonitor.Bisect.Csibe
