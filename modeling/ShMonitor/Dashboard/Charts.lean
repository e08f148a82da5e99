import ShMonitor.Dashboard.Migrate
import ShMonitor.Dashboard.Trend

/-! No series of the trend page overwrites another: names go to distinct cells, and the table of
charts holds one series for each metric with a point in the range. -/

namespace ShMonitor.Dashboard.Charts

open Texts Trend
open Migrate (sh4)

variable {ν : Type}

/-- What the page assumes of a name: the FDPIC variants exist for one arch. -/
def Fits (name : Text) : Prop := fdpic <:+: name → occurrences fdpic name = 1 ∧ sh4 <:+ name

instance (name : Text) : Decidable (Fits name) :=
  inferInstanceAs (Decidable (fdpic <:+: name → occurrences fdpic name = 1 ∧ sh4 <:+ name))

def suffixKeys : List Text := isas ++ arches

lemma arches_plain : ∀ a ∈ arches, '_' ∉ a := by decide

lemma isas_plain : ∀ a ∈ isas, '_' ∉ a := by decide

lemma plainKey_ne_ltoKey : plainKey ≠ ltoKey := by decide

lemma bareKey_ne_ltoKey : bareKey ≠ ltoKey := by decide

lemma splitArch_cases (name : Text) : splitArch name = (name, none) ∨
    ∃ base, ∃ arch ∈ arches, name = base ++ '_' :: arch ∧ splitArch name = (base, some arch) := by
  rw [splitArch]
  cases h : ending arches name with
  | none => exact Or.inl rfl
  | some found =>
    obtain ⟨base, arch⟩ := found
    obtain ⟨harch, hname⟩ := (ending_eq_some arches_plain).mp h
    exact Or.inr ⟨base, arch, harch, hname, rfl⟩

lemma cell_other {name : Text} (h : ¬ fdpic <:+: (splitArch name).1) :
    (∃ base, ∃ key ∈ suffixKeys, name = base ++ '_' :: key ∧ cell name = (base, key)) ∨
      cell name = (name, bareKey) := by
  rw [cell, resolve]
  simp only [if_neg h]
  cases hisa : ending isas name with
  | some found =>
    obtain ⟨base, isa⟩ := found
    obtain ⟨hmem, hname⟩ := (ending_eq_some isas_plain).mp hisa
    exact Or.inl ⟨base, isa, List.mem_append_left _ hmem, hname, rfl⟩
  | none =>
    obtain hbare | ⟨base, arch, hmem, hname, hsplit⟩ := splitArch_cases name
    · rw [hbare]
      exact Or.inr rfl
    · rw [hsplit]
      exact Or.inl ⟨base, arch, List.mem_append_right _ hmem, hname, rfl⟩

lemma cell_fdpic {name : Text} (hfits : Fits name) (h : fdpic <:+: (splitArch name).1) :
    (∃ u v, name = u ++ fdpic ++ (lto ++ v ++ sh4) ∧ cell name = (u ++ fdpic ++ v, ltoKey)) ∨
      ∃ base, name = base ++ sh4 ∧ cell name = (base, plainKey) := by
  obtain ⟨base, hname, hsplit⟩ : ∃ base, name = base ++ sh4 ∧ (splitArch name).1 = base := by
    have hprefix : (splitArch name).1 <+: name := by
      obtain hbare | ⟨base, arch, -, hname, hsplit⟩ := splitArch_cases name
      · rw [hbare]
      · rw [hsplit]
        exact ⟨'_' :: arch, hname.symm⟩
    obtain ⟨base, hbase⟩ := (hfits (h.trans hprefix.isInfix)).2
    have hending : ending arches name = some (base, "sh4".toList) :=
      (ending_eq_some arches_plain).mpr ⟨List.mem_cons_self, hbase.symm⟩
    exact ⟨base, hbase.symm, by rw [splitArch, hending]⟩
  rw [hsplit] at h
  rw [cell, resolve]
  simp only [hsplit, if_pos h]
  by_cases hlto : fdpicLto <:+: base
  · obtain ⟨u, v, hbase, hreplaced⟩ := replaceFirst_of_infix fdpic hlto
    refine Or.inl ⟨u, v, ?_, ?_⟩
    · rw [hname, hbase, fdpicLto]
      simp only [List.append_assoc]
    · rw [if_pos hlto, if_pos hlto, hreplaced]
  · refine Or.inr ⟨base, hname, ?_⟩
    rw [if_neg hlto, if_neg hlto]

def nameOf (chartBase key : Text) : Text :=
  if key = bareKey then chartBase else if key = plainKey then chartBase ++ sh4 else chartBase ++ '_' :: key

lemma nameOf_suffixKey {key : Text} (h : key ∈ suffixKeys) (base : Text) :
    key ≠ ltoKey ∧ nameOf base key = base ++ '_' :: key := by
  obtain ⟨hbare, hplain, hlto⟩ : key ≠ bareKey ∧ key ≠ plainKey ∧ key ≠ ltoKey :=
    (by decide : ∀ key ∈ suffixKeys, key ≠ bareKey ∧ key ≠ plainKey ∧ key ≠ ltoKey) key h
  exact ⟨hlto, by rw [nameOf, if_neg hbare, if_neg hplain]⟩

lemma cell_cases {name : Text} (hfits : Fits name) :
    (∃ u v, name = u ++ fdpic ++ (lto ++ v ++ sh4) ∧ cell name = (u ++ fdpic ++ v, ltoKey)) ∨
      (cell name).2 ≠ ltoKey ∧ name = nameOf (cell name).1 (cell name).2 := by
  by_cases h : fdpic <:+: (splitArch name).1
  · obtain hlto | ⟨base, hname, hcell⟩ := cell_fdpic hfits h
    · exact Or.inl hlto
    · rw [hcell]
      exact Or.inr ⟨plainKey_ne_ltoKey, hname⟩
  · obtain ⟨base, key, hkey, hname, hcell⟩ | hcell := cell_other h
    · obtain ⟨hlto, hof⟩ := nameOf_suffixKey hkey base
      rw [hcell]
      exact Or.inr ⟨hlto, hname.trans hof.symm⟩
    · rw [hcell]
      exact Or.inr ⟨bareKey_ne_ltoKey, rfl⟩

lemma lto_split {name u v : Text} (hfits : Fits name) (hname : name = u ++ fdpic ++ (lto ++ v ++ sh4)) :
    ¬ fdpic <:+: u := by
  rintro ⟨x, y, rfl⟩
  have hone : occurrences fdpic name = 1 := (hfits ⟨_, _, hname.symm⟩).1
  have hagain : name = x ++ fdpic ++ (y ++ fdpic ++ (lto ++ v ++ sh4)) := by
    rw [hname]
    simp only [List.append_assoc]
  have hplace : x ++ fdpic ++ y = x := same_place hone hname hagain
  have hlength := congrArg List.length hplace
  have hfdpic : fdpic.length = 6 := rfl
  rw [List.length_append, List.length_append] at hlength
  omega

lemma cell_injective {name name' : Text} (hfits : Fits name) (hfits' : Fits name')
    (h : cell name = cell name') :
    name = name' := by
  obtain ⟨u, v, hname, hcell⟩ | ⟨hkey, hname⟩ := cell_cases hfits
  · obtain ⟨u', v', hname', hcell'⟩ | ⟨hkey', -⟩ := cell_cases hfits'
    · have hbase : u ++ fdpic ++ v = u' ++ fdpic ++ v' := by
        rw [hcell, hcell', Prod.mk.injEq] at h
        exact h.1
      have hu : u = u' := by
        obtain hu | hu | hu := apart_of_head (c := '_') (w := "fdpic".toList) (by decide) hbase
        · exact hu
        · exact (lto_split hfits hname hu).elim
        · exact (lto_split hfits' hname' hu).elim
      subst hu
      rw [hname, hname', List.append_cancel_left hbase]
    · rw [← h, hcell] at hkey'
      exact (hkey' rfl).elim
  · obtain ⟨u', v', -, hcell'⟩ | ⟨-, hname'⟩ := cell_cases hfits'
    · rw [h, hcell'] at hkey
      exact (hkey rfl).elim
    · rw [hname, hname', h]

lemma not_builtIn {name : Text} (h : name ∉ objectPrototype) : ¬ builtIn name = true := by
  rwa [builtIn, List.contains_iff_mem]

def samples (data : Data ν) : List (Run ν × Bench ν) :=
  (runs data).flatMap (fun run => (run.benches.getD []).map (fun bench => (run, bench)))

def pointsOf (seen : List (Run ν × Bench ν)) (name : Text) : List (Point ν) :=
  (seen.filter (fun s => s.2.name == name)).map (fun s => point s.1 s.2)

def Collected (table : Table (List (Point ν))) (seen : List (Run ν × Bench ν)) : Prop :=
  ∀ name points, table.get name = some points ↔ ignored name = false ∧ points = pointsOf seen name ∧ points ≠ []

lemma pointsOf_append (seen later : List (Run ν × Bench ν)) (name : Text) :
    pointsOf (seen ++ later) name = pointsOf seen name ++ pointsOf later name := by
  rw [pointsOf, List.filter_append, List.map_append]
  rfl

lemma pointsOf_other {run : Run ν} {bench : Bench ν} {name : Text} (h : bench.name ≠ name) :
    pointsOf [(run, bench)] name = [] := by
  simp [pointsOf, h]

lemma pointsOf_self (run : Run ν) (bench : Bench ν) :
    pointsOf [(run, bench)] bench.name = [point run bench] := by
  simp [pointsOf]

lemma Collected.getD {table : Table (List (Point ν))} {seen : List (Run ν × Bench ν)} (h : Collected table seen)
    {name : Text} (hshown : ignored name = false) : (table.get name).getD [] = pointsOf seen name := by
  cases hget : table.get name with
  | some points => exact ((h name points).mp hget).2.1
  | none =>
    by_contra hne
    have hsome := (h name (pointsOf seen name)).mpr ⟨hshown, rfl, fun hnil => hne hnil.symm⟩
    rw [hget] at hsome
    cases hsome

lemma Collected.addBench {table : Table (List (Point ν))} {seen : List (Run ν × Bench ν)}
    (h : Collected table seen)
    (run : Run ν) {bench : Bench ν} (hproto : ignored bench.name = false → bench.name ∉ objectPrototype) :
    ∃ table', addBench run (some table) bench = some table' ∧ Collected table' (seen ++ [(run, bench)]) := by
  rw [Trend.addBench, Option.bind_some]
  by_cases hignored : ignored bench.name = true
  · refine ⟨table, if_pos hignored, fun name points => ?_⟩
    rw [h name points, pointsOf_append]
    by_cases hname : bench.name = name
    · subst hname
      simp [hignored]
    · rw [pointsOf_other hname, List.append_nil]
  · have hshown : ignored bench.name = false := Bool.eq_false_of_not_eq_true hignored
    rw [if_neg hignored, if_neg (not_builtIn (hproto hshown)), h.getD hshown]
    refine ⟨_, rfl, fun name points => ?_⟩
    rw [Table.get_put, pointsOf_append]
    by_cases hname : name = bench.name
    · subst hname
      rw [if_pos rfl, pointsOf_self, Option.some.injEq]
      constructor
      · rintro rfl
        exact ⟨hshown, rfl, by simp⟩
      · rintro ⟨-, hpoints, -⟩
        exact hpoints.symm
    · rw [if_neg hname, h name points, pointsOf_other (Ne.symm hname), List.append_nil]

lemma Collected.benches (run : Run ν) (benches : List (Bench ν)) {table : Table (List (Point ν))}
    {seen : List (Run ν × Bench ν)} (h : Collected table seen)
    (hproto : ∀ bench ∈ benches, ignored bench.name = false → bench.name ∉ objectPrototype) :
    ∃ table', benches.foldl (Trend.addBench run) (some table) = some table' ∧
      Collected table' (seen ++ benches.map (fun bench => (run, bench))) := by
  induction benches generalizing table seen with
  | nil => exact ⟨table, rfl, by rwa [List.map_nil, List.append_nil]⟩
  | cons bench benches ih =>
    obtain ⟨next, hnext, hcollected⟩ := h.addBench run (hproto bench List.mem_cons_self)
    obtain ⟨last, hlast, hall⟩ := ih hcollected (fun b hb => hproto b (List.mem_cons_of_mem _ hb))
    refine ⟨last, by rw [List.foldl_cons, hnext, hlast], ?_⟩
    rwa [List.append_assoc] at hall

lemma foldl_addRun_none (rs : List (Run ν)) : rs.foldl addRun none = none := by
  induction rs with
  | nil => rfl
  | cons run rs ih =>
    have hnone : ∀ benches : List (Bench ν), benches.foldl (Trend.addBench run) none = none := by
      intro benches
      induction benches with
      | nil => rfl
      | cons bench benches ih => exact ih
    rw [List.foldl_cons, addRun]
    cases run.benches with
    | none => exact ih
    | some benches =>
      rw [Option.bind_some, hnone]
      exact ih

lemma Collected.runs (rs : List (Run ν)) {table : Table (List (Point ν))} {seen : List (Run ν × Bench ν)}
    (h : Collected table seen)
    (hproto : ∀ run ∈ rs, ∀ bench ∈ run.benches.getD [], ignored bench.name = false →
      bench.name ∉ objectPrototype) :
    (rs.foldl addRun (some table) = none ↔ ∃ run ∈ rs, run.benches = none) ∧
      ∀ table', rs.foldl addRun (some table) = some table' →
        Collected table' (seen ++ rs.flatMap
          (fun run => (run.benches.getD []).map (fun bench => (run, bench)))) := by
  induction rs generalizing table seen with
  | nil =>
    refine ⟨by simp, ?_⟩
    rintro table' ⟨⟩
    rwa [List.flatMap_nil, List.append_nil]
  | cons run rs ih =>
    rw [List.foldl_cons, addRun]
    cases hbenches : run.benches with
    | none =>
      rw [Option.bind_none, foldl_addRun_none]
      exact ⟨by simp [hbenches], fun table' htable => by cases htable⟩
    | some benches =>
      have hfirst := hproto run List.mem_cons_self
      rw [hbenches, Option.getD_some] at hfirst
      obtain ⟨next, hnext, hcollected⟩ := h.benches run benches hfirst
      obtain ⟨hnone, hall⟩ := ih hcollected (fun r hr => hproto r (List.mem_cons_of_mem _ hr))
      rw [Option.bind_some, hnext]
      refine ⟨by simpa [hbenches] using hnone, fun table' htable => ?_⟩
      rw [List.flatMap_cons, hbenches, Option.getD_some, ← List.append_assoc]
      exact hall table' htable

lemma byMetric_collected (data : Data ν)
    (hproto : ∀ s ∈ samples data, ignored s.2.name = false → s.2.name ∉ objectPrototype) :
    (byMetric data = none ↔ ∃ run ∈ runs data, run.benches = none) ∧
      ∀ table, byMetric data = some table → Collected table (samples data) := by
  have hempty : Collected (Table.empty : Table (List (Point ν))) [] := by
    intro name points
    refine iff_of_false (by simp) ?_
    rintro ⟨-, hpoints, hne⟩
    exact hne hpoints
  exact hempty.runs (runs data) (fun run hrun bench hbench =>
    hproto (run, bench) (List.mem_flatMap.mpr ⟨run, hrun, List.mem_map_of_mem hbench⟩))

section

variable {dayStart : ℤ → ℤ} {range : Range}

lemma pointsIn_perm (points : List (Point ν)) :
    (pointsIn dayStart range points).Perm (points.filter (fun p => inRange dayStart range p.x)) :=
  List.mergeSort_perm _ _

def seriesAt (table : Table (Table (Series ν))) (base key : Text) : Option (Series ν) :=
  (table.get base).bind (fun row => row.get key)

def Charted (dayStart : ℤ → ℤ) (range : Range) (table : Table (Table (Series ν)))
    (done : List (Text × List (Point ν))) : Prop :=
  ∀ base key series, seriesAt table base key = some series ↔ ∃ metric ∈ done, cell metric.1 = (base, key) ∧
    pointsIn dayStart range metric.2 ≠ [] ∧
    series = ⟨pointsIn dayStart range metric.2, (resolve metric.1).variant⟩

lemma seriesAt_put (table : Table (Table (Series ν))) (base key : Text) (series : Series ν)
    (base' key' : Text) :
    seriesAt (table.put base (((table.get base).getD Table.empty).put key series)) base' key' =
      if (base', key') = (base, key) then some series else seriesAt table base' key' := by
  rw [seriesAt, Table.get_put]
  by_cases hbase : base' = base
  · subst hbase
    rw [if_pos rfl, Option.bind_some, Table.get_put]
    by_cases hkey : key' = key
    · rw [if_pos hkey, if_pos (by rw [hkey])]
    · rw [if_neg hkey, if_neg (by simpa using hkey), seriesAt]
      cases table.get base' with
      | none => rfl
      | some row => rfl
  · rw [if_neg hbase, if_neg (by simp [hbase]), seriesAt]

lemma Charted.addSeries {table : Table (Table (Series ν))} {done : List (Text × List (Point ν))}
    (h : Charted dayStart range table done) {metric : Text × List (Point ν)}
    (hnew : ∀ other ∈ done, cell other.1 ≠ cell metric.1) (hproto : (cell metric.1).1 ∉ objectPrototype) :
    ∃ table', addSeries dayStart range (some table) metric = some table' ∧
      Charted dayStart range table' (done ++ [metric]) := by
  rw [Trend.addSeries, Option.bind_some]
  by_cases hpoints : pointsIn dayStart range metric.2 = []
  · refine ⟨table, if_pos (List.isEmpty_iff.mpr hpoints), fun base key series => ?_⟩
    rw [h base key series]
    simp [or_and_right, exists_or, hpoints]
  · rw [if_neg (by rwa [List.isEmpty_iff])]
    refine ⟨_, if_neg (not_builtIn hproto), fun base key series => ?_⟩
    rw [seriesAt_put]
    by_cases hcell : (base, key) = cell metric.1
    · have hcell' : (base, key) = ((resolve metric.1).chartBase, (resolve metric.1).seriesKey) := hcell
      rw [if_pos hcell', Option.some.injEq]
      constructor
      · rintro rfl
        exact ⟨metric, List.mem_append_right _ List.mem_cons_self, hcell.symm, hpoints, rfl⟩
      · rintro ⟨other, hother, hsame, -, rfl⟩
        obtain hother | hother := List.mem_append.mp hother
        · exact (hnew other hother (hsame.trans hcell)).elim
        · rw [List.mem_singleton.mp hother]
    · have hcell' : ¬ (base, key) = ((resolve metric.1).chartBase, (resolve metric.1).seriesKey) := hcell
      rw [if_neg hcell', h base key series]
      simp [or_and_right, exists_or, Ne.symm hcell]

lemma Charted.all (metrics : List (Text × List (Point ν))) {table : Table (Table (Series ν))}
    {done : List (Text × List (Point ν))} (h : Charted dayStart range table done)
    (hdistinct : ((done ++ metrics).map (fun metric => cell metric.1)).Nodup)
    (hproto : ∀ metric ∈ metrics, (cell metric.1).1 ∉ objectPrototype) :
    ∃ table', metrics.foldl (Trend.addSeries dayStart range) (some table) = some table' ∧
      Charted dayStart range table' (done ++ metrics) := by
  induction metrics generalizing table done with
  | nil => exact ⟨table, rfl, by rwa [List.append_nil]⟩
  | cons metric metrics ih =>
    have hnew : ∀ other ∈ done, cell other.1 ≠ cell metric.1 := by
      intro other hother
      rw [List.map_append, List.map_cons, List.nodup_append] at hdistinct
      have hin : cell other.1 ∈ done.map (fun metric => cell metric.1) := List.mem_map.mpr ⟨other, hother, rfl⟩
      exact hdistinct.2.2 _ hin _ List.mem_cons_self
    obtain ⟨next, hnext, hcharted⟩ := h.addSeries hnew (hproto metric List.mem_cons_self)
    rw [List.append_cons] at hdistinct
    obtain ⟨last, hlast, hall⟩ := ih hcharted hdistinct (fun m hm => hproto m (List.mem_cons_of_mem _ hm))
    refine ⟨last, by rw [List.foldl_cons, hnext, hlast], ?_⟩
    rwa [← List.append_cons] at hall

lemma Collected.sampled {metrics : Table (List (Point ν))} {seen : List (Run ν × Bench ν)}
    (h : Collected metrics seen) {metric : Text × List (Point ν)} (hmetric : metric ∈ metrics.inOrder) :
    ∃ s ∈ seen, ignored s.2.name = false ∧ s.2.name = metric.1 := by
  obtain ⟨name, points⟩ := metric
  obtain ⟨hshown, hpoints, hne⟩ := (h name points).mp (Table.mem_inOrder.mp hmetric)
  obtain ⟨p, hp⟩ := List.exists_mem_of_ne_nil _ hne
  rw [hpoints] at hp
  obtain ⟨s, hs, -⟩ := List.mem_map.mp hp
  obtain ⟨hseen, hname⟩ := List.mem_filter.mp hs
  obtain rfl : s.2.name = name := by simpa using hname
  exact ⟨s, hseen, hshown, rfl⟩

lemma charted_inOrder {names : Set Text} (hinj : Set.InjOn cell names)
    (hproto : ∀ name ∈ names, (cell name).1 ∉ objectPrototype) {metrics : Table (List (Point ν))}
    (hin : ∀ metric ∈ metrics.inOrder, metric.1 ∈ names) :
    ∃ table, metrics.inOrder.foldl (Trend.addSeries dayStart range) (some Table.empty) = some table ∧
      Charted dayStart range table metrics.inOrder := by
  have hempty : Charted dayStart range (Table.empty : Table (Table (Series ν))) [] :=
    fun base key series => iff_of_false (by simp [seriesAt]) (by simp)
  have hdistinct : (metrics.inOrder.map (fun metric => cell metric.1)).Nodup := by
    have hmap : metrics.inOrder.map (fun metric => cell metric.1) =
      (metrics.inOrder.map Prod.fst).map cell := by
      rw [List.map_map]
      rfl
    rw [hmap]
    refine List.Nodup.map_on ?_ metrics.inOrder_nodup
    intro name hname name' hname' hcell
    obtain ⟨metric, hmetric, rfl⟩ := List.mem_map.mp hname
    obtain ⟨metric', hmetric', rfl⟩ := List.mem_map.mp hname'
    exact hinj (hin metric hmetric) (hin metric' hmetric') hcell
  exact hempty.all metrics.inOrder hdistinct (fun metric hmetric => hproto _ (hin metric hmetric))

end

def plainName : Text := "busybox_musl_fdpic_text_bytes_sh4".toList

def ltoName : Text := "busybox_musl_fdpic_lto_text_bytes_sh4".toList

def fdpicChart : Text := "busybox_musl_fdpic_text_bytes".toList

def fdpicRun : Run ℕ := ⟨⟨"c0ffee".toList, []⟩, 5,
    some [⟨plainName, "bytes".toList, 90⟩, ⟨ltoName, "bytes".toList, 80⟩]⟩

def fdpicData : Data ℕ := ⟨some ⟨[("Benchmark".toList, [fdpicRun])], List.nodup_singleton _⟩⟩

lemma samples_fdpicData : samples fdpicData =
    [(fdpicRun, ⟨plainName, "bytes".toList, 90⟩), (fdpicRun, ⟨ltoName, "bytes".toList, 80⟩)] := by
  have hplain : ∀ row ∈ fdpicData.suites.rows, Table.index row.1 = none := by
    intro row hrow
    obtain rfl := List.mem_singleton.mp hrow
    decide +kernel
  rw [samples, runs, Table.inOrder_of_plain hplain]
  rfl

end ShMonitor.Dashboard.Charts
