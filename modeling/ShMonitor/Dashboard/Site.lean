import ShMonitor.Dashboard.Badges
import ShMonitor.Dashboard.Publish

/-! The publish job of `ci-full.yml` over a history of rounds. Each starts from the benchmark data
that the site shows, if it can fetch them, and the site changes only where a round gets to its end.
The action that stores a run is a parameter. -/

namespace ShMonitor.Dashboard.Site

open Texts Migrate Trend Charts Publish Lanes Badges
open Bisect.Csibe (Corpus)

variable {π : Type}

-- The metrics of a lane are absent where its jobs have failed or their artifact is not fetched;
-- `steps` is whether the steps besides the badges succeed.
structure Round (π : Type) where
  sh4 : Option Sh4Run
  multi : Option MultiRun
  commit : Commit
  date : ℤ
  fetched : Bool
  steps : Bool
  deployed : Bool

def Round.ended (r : Round π) : Bool := r.steps && r.deployed

def suite : Text := "Benchmark".toList

abbrev Stored (π : Type) := Option (Data (Value π))

def dataOf (site : Stored π) : Data (Value π) := site.getD ⟨none⟩

-- `benchmark-action`, which is handed the data as they were seeded, puts a run at the end of its suite.
structure Appends (append : Stored π → Run (Value π) → Data (Value π)) : Prop where
  log : ∀ site run, runsOf (append site run) suite = runsOf (dataOf site) suite ++ [run]
  others : ∀ site run name, name ≠ suite → (append site run).suites.get name = (dataOf site).suites.get name

section

variable (isWord : Char → Bool) (pct : ℕ → ℕ → π) (corpus : Corpus)
    (append : Stored π → Run (Value π) → Data (Value π))

def sh4Json (r : Round π) : Option (Metrics π) := r.sh4.bind (allJson isWord pct corpus)

def multiJson (r : Round π) : Option (Metrics π) := r.multi.bind (allMultiJson corpus)

def combined (r : Round π) : Option (Metrics π) :=
  mergeMetrics true [left (sh4Json isWord pct corpus r) id, left (multiJson corpus r) id]

def seed (site : Stored π) (r : Round π) : Stored π :=
  if r.fetched then site.filter (fun data => data.entries.isSome) else none

def runOf (r : Round π) (metrics : Metrics π) : Run (Value π) := ⟨r.commit, r.date, some metrics⟩

-- The action is not handed an empty list.
def storeResult (seeded : Stored π) (r : Round π) (metrics : Metrics π) : Stored π :=
  if metrics.length = 0 then seeded else some (append seeded (runOf r metrics))

def publishRound (site : Stored π) (r : Round π) : Stored π :=
  match combined isWord pct corpus r, badges (sh4Json isWord pct corpus r) with
  | some metrics, some _ =>
    if r.ended then storeResult append ((seed site r).map migrate) r metrics else site
  | _, _ => site

def siteAfter (site : Stored π) (rounds : List (Round π)) : Stored π :=
  rounds.foldl (publishRound isWord pct corpus append) site

def laneMetrics (r : Round π) : Metrics π :=
  (sh4Json isWord pct corpus r).getD [] ++ (multiJson corpus r).getD []

def laneRun (r : Round π) : Option (Run (Value π)) :=
  if laneMetrics isWord pct corpus r = [] then none else some (runOf r (laneMetrics isWord pct corpus r))

def logRound (log : List (Run (Value π))) (r : Round π) : List (Run (Value π)) :=
  (if r.fetched then log.map migrateRun else []) ++ (laneRun isWord pct corpus r).toList

variable {isWord pct corpus append}

lemma combined_eq (r : Round π) : combined isWord pct corpus r = some (laneMetrics isWord pct corpus r) := by
  rw [combined, laneMetrics]
  cases sh4Json isWord pct corpus r <;> cases multiJson corpus r <;> simp [mergeMetrics, left]

lemma badges_eq (r : Round π) :
    badges (sh4Json isWord pct corpus r) = some ((r.sh4.map (runBadges isWord corpus)).getD failingBadges) := by
  rw [sh4Json]
  cases r.sh4 with
  | none => rfl
  | some run =>
    rw [Option.bind_some, allJson_split, badges, Option.elim_some, valueBadges_run]
    rfl

lemma publishRound_eq (site : Stored π) (r : Round π) :
    publishRound isWord pct corpus append site r =
      if r.ended then storeResult append ((seed site r).map migrate) r (laneMetrics isWord pct corpus r)
      else site := by
  rw [publishRound, combined_eq, badges_eq]

lemma names_laneMetrics (r : Round π) :
    (names (laneMetrics isWord pct corpus r)).Sublist (roundNames corpus) := by
  rw [laneMetrics, names_append, roundNames]
  apply List.Sublist.append
  · rw [sh4Json]
    cases r.sh4 with
    | none => exact List.nil_sublist _
    | some run =>
      obtain ⟨metrics, hmetrics, hnames⟩ := names_allJson isWord pct corpus run
      rw [Option.bind_some, hmetrics]
      exact hnames
  · rw [multiJson]
    cases r.multi with
    | none => exact List.nil_sublist _
    | some run =>
      obtain ⟨metrics, hmetrics, hnames⟩ := names_allMultiJson corpus run
      rw [Option.bind_some, hmetrics]
      exact hnames

lemma laneMetrics_stable {r : Round π} {b : Bench (Value π)} (h : b ∈ laneMetrics isWord pct corpus r) :
    Stable b.name :=
  roundNames_stable corpus b.name ((names_laneMetrics r).mem (List.mem_map_of_mem h))

lemma mem_laneRun {r : Round π} {run : Run (Value π)} (h : run ∈ laneRun isWord pct corpus r) :
    run = runOf r (laneMetrics isWord pct corpus r) := by
  rw [laneRun] at h
  split at h
  · cases h
  · exact (Option.some.inj h).symm

-- What the page needs of a run to read it.
def Readable (run : Run (Value π)) : Prop :=
  ∃ benches, run.benches = some benches ∧ ∀ b ∈ benches, b.name ∉ objectPrototype

lemma maybeRename_proto {name : Text} (h : name ∉ objectPrototype) : maybeRename name ∉ objectPrototype := by
  have hriscv : ∀ shown ∈ objectPrototype, ¬ "_riscv32".toList <:+ shown := by decide
  have hsh4 : ∀ shown ∈ objectPrototype, ¬ sh4 <:+ shown := by decide
  intro hshown
  obtain ⟨base, -, hname⟩ | hname | ⟨-, -, hname⟩ := rename_cases name
  · rw [hname] at hshown
    exact hriscv _ hshown (List.suffix_append base _)
  · rw [hname] at hshown
    exact h hshown
  · rw [hname] at hshown
    exact hsh4 _ hshown (List.suffix_append name _)

lemma Readable.migrated {run : Run (Value π)} (h : Readable run) : Readable (migrateRun run) := by
  obtain ⟨benches, hbenches, hnames⟩ := h
  refine ⟨benches.map renamed, by rw [migrateRun, hbenches]; rfl, ?_⟩
  intro b hb
  obtain ⟨earlier, hearlier, rfl⟩ := List.mem_map.mp hb
  exact maybeRename_proto (hnames earlier hearlier)

lemma laneRun_readable {r : Round π} {run : Run (Value π)} (h : run ∈ laneRun isWord pct corpus r) :
    Readable run := by
  rw [mem_laneRun h]
  exact ⟨_, rfl, fun b hb => (laneMetrics_stable hb).2.2⟩

lemma migrateRun_idem (run : Run (Value π)) : migrateRun (migrateRun run) = migrateRun run := by
  have htwice : renamed ∘ renamed = (renamed : Bench (Value π) → Bench (Value π)) := funext renamed_idem
  rw [migrateRun, migrateRun, Option.map_map, List.map_comp_map, htwice]

lemma migrateRun_laneRun {r : Round π} {run : Run (Value π)} (h : run ∈ laneRun isWord pct corpus r) :
    migrateRun run = run := by
  have hbenches : (laneMetrics isWord pct corpus r).map renamed = laneMetrics isWord pct corpus r := by
    refine (List.map_congr_left (fun b hb => ?_)).trans (List.map_id _)
    rw [renamed, (laneMetrics_stable hb).1]
    rfl
  rw [mem_laneRun h, migrateRun, runOf, Option.map_some, hbenches]

lemma logRound_readable {log : List (Run (Value π))} (h : ∀ run ∈ log, Readable run) (r : Round π) :
    ∀ run ∈ logRound isWord pct corpus log r, Readable run := by
  intro run hrun
  obtain hrun | hrun := List.mem_append.mp hrun
  · split at hrun
    · obtain ⟨earlier, hearlier, rfl⟩ := List.mem_map.mp hrun
      exact (h earlier hearlier).migrated
    · cases hrun
  · exact laneRun_readable (Option.mem_toList.mp hrun)

-- The second migration of a log finds nothing to rename in what the first has left, nor in the runs
-- since.
lemma log_fetched {rounds : List (Round π)} (h : ∀ r ∈ rounds, r.fetched = true) (log : List (Run (Value π))) :
    rounds.foldl (logRound isWord pct corpus) log =
      (if rounds = [] then log else log.map migrateRun) ++ rounds.filterMap (laneRun isWord pct corpus) := by
  induction rounds generalizing log with
  | nil => exact (List.append_nil log).symm
  | cons r rounds ih =>
    have hround : logRound isWord pct corpus log r = log.map migrateRun ++
      (laneRun isWord pct corpus r).toList := by
      rw [logRound, if_pos (h r List.mem_cons_self)]
    have hkept : (log.map migrateRun ++ (laneRun isWord pct corpus r).toList).map migrateRun =
        log.map migrateRun ++ (laneRun isWord pct corpus r).toList := by
      refine (List.map_congr_left (fun run hrun => ?_)).trans (List.map_id _)
      obtain hrun | hrun := List.mem_append.mp hrun
      · obtain ⟨earlier, -, rfl⟩ := List.mem_map.mp hrun
        exact migrateRun_idem earlier
      · exact migrateRun_laneRun (Option.mem_toList.mp hrun)
    rw [List.foldl_cons, hround, ih (fun later hlater => h later (List.mem_cons_of_mem r hlater)), hkept,
      ite_self, if_neg (List.cons_ne_nil r rounds), List.append_assoc]
    cases hrun : laneRun isWord pct corpus r with
    | none => rw [List.filterMap_cons_none hrun, Option.toList_none, List.nil_append]
    | some run => rw [List.filterMap_cons_some hrun, Option.toList_some, List.singleton_append]

lemma log_lost {before : List (Round π)} {r : Round π} {after : List (Round π)} (hlost : r.fetched = false)
    (h : ∀ later ∈ after, later.fetched = true) (log : List (Run (Value π))) :
    (before ++ r :: after).foldl (logRound isWord pct corpus) log =
      (r :: after).filterMap (laneRun isWord pct corpus) := by
  have hround (log : List (Run (Value π))) :
    logRound isWord pct corpus log r = (laneRun isWord pct corpus r).toList := by
    rw [logRound, hlost]
    rfl
  have hkept : ((laneRun isWord pct corpus r).toList).map migrateRun = (laneRun isWord pct corpus r).toList :=
    (List.map_congr_left (fun run hrun => migrateRun_laneRun (Option.mem_toList.mp hrun))).trans (List.map_id _)
  rw [List.foldl_append, List.foldl_cons, hround, log_fetched h, hkept, ite_self]
  cases hrun : laneRun isWord pct corpus r with
  | none => rw [List.filterMap_cons_none hrun, Option.toList_none, List.nil_append]
  | some run => rw [List.filterMap_cons_some hrun, Option.toList_some, List.singleton_append]

-- The data of the site are one suite with the runs of the log.
structure Holds (site : Stored π) (log : List (Run (Value π))) : Prop where
  log : runsOf (dataOf site) suite = log
  only : ∀ name, name ≠ suite → (dataOf site).suites.get name = none

variable {site : Stored π} {log : List (Run (Value π))}

lemma holds_none : Holds (none : Stored π) [] := ⟨rfl, fun _ _ => rfl⟩

lemma Holds.seed (h : Holds site log) (r : Round π) : Holds (seed site r) (if r.fetched then log else []) := by
  rw [Site.seed]
  split
  · have hdata : (dataOf (site.filter (fun data => data.entries.isSome))).suites = (dataOf site).suites := by
      cases site with
      | none => rfl
      | some data =>
        obtain ⟨_ | suites⟩ := data
        · rfl
        · rfl
    exact ⟨by rw [runsOf, hdata]; exact h.log, by rw [hdata]; exact h.only⟩
  · exact holds_none

lemma suites_migrate (site : Stored π) :
    (dataOf (site.map migrate)).suites = (dataOf site).suites.map (List.map migrateRun) := by
  cases site with
  | none => rfl
  | some data =>
    obtain ⟨_ | suites⟩ := data
    · rfl
    · rfl

lemma Holds.migrated (h : Holds site log) : Holds (site.map migrate) (log.map migrateRun) := by
  constructor
  · rw [← h.log, runsOf, suites_migrate, Table.get_map, runsOf]
    cases (dataOf site).suites.get suite <;> rfl
  · intro name hname
    rw [suites_migrate, Table.get_map, h.only name hname, Option.map_none]

lemma Holds.stored (happend : Appends append) (h : Holds site log) (run : Run (Value π)) :
    Holds (some (append site run)) (log ++ [run]) := by
  constructor
  · rw [← h.log]
    exact happend.log site run
  · intro name hname
    exact (happend.others site run name hname).trans (h.only name hname)

lemma publishRound_holds (happend : Appends append) (h : Holds site log) (r : Round π) :
    Holds (publishRound isWord pct corpus append site r)
      (if r.ended then logRound isWord pct corpus log r else log) := by
  rw [publishRound_eq]
  split
  · have hseeded := (h.seed r).migrated
    have hlog : (if r.fetched then log else []).map migrateRun =
        if r.fetched then log.map migrateRun else [] := by
      split <;> rfl
    rw [hlog] at hseeded
    rw [storeResult, logRound, laneRun]
    by_cases hempty : laneMetrics isWord pct corpus r = []
    · rw [if_pos hempty, if_pos (by rw [hempty]; rfl), Option.toList_none, List.append_nil]
      exact hseeded
    · rw [if_neg hempty, if_neg (fun h => hempty (List.eq_nil_of_length_eq_zero h)), Option.toList_some]
      exact hseeded.stored happend _
  · exact h

lemma siteAfter_holds (happend : Appends append) (h : Holds site log) (rounds : List (Round π)) :
    Holds (siteAfter isWord pct corpus append site rounds)
      ((rounds.filter Round.ended).foldl (logRound isWord pct corpus) log) := by
  induction rounds generalizing site log with
  | nil => exact h
  | cons r rounds ih =>
    have hround : Holds (publishRound isWord pct corpus append site r) _ := publishRound_holds happend h r
    rw [List.filter_cons]
    split at hround
    · rw [if_pos ‹_›]
      exact ih hround
    · rw [if_neg ‹_›]
      exact ih hround

lemma log_readable (h : ∀ run ∈ log, Readable run) (rounds : List (Round π)) :
    ∀ run ∈ rounds.foldl (logRound isWord pct corpus) log, Readable run := by
  induction rounds generalizing log with
  | nil => exact h
  | cons r rounds ih => exact ih (logRound_readable h r)

-- The page reads `\x7b\x7d` where no data are stored.
def page (site : Stored π) : Option (Table (List (Point (Value π)))) := byMetric (dataOf site)

def pointsAt (run : Run (Value π)) (name : Text) : List (Point (Value π)) :=
  ((run.benches.getD []).filter (fun b => b.name == name)).map (point run)

def Shows (table : Table (List (Point (Value π)))) (log : List (Run (Value π))) : Prop :=
  ∀ name, (table.get name).getD [] = if ignored name then [] else log.flatMap (pointsAt · name)

lemma runs_holds (h : Holds site log) : Trend.runs (dataOf site) = log := by
  rw [Trend.runs, Table.inOrder_of_one h.only, ← h.log, runsOf]
  cases (dataOf site).suites.get suite with
  | none => rfl
  | some runs => exact List.append_nil runs

lemma pointsOf_runs (log : List (Run (Value π))) (name : Text) :
    pointsOf (log.flatMap (fun run => (run.benches.getD []).map (fun b => (run, b)))) name =
      log.flatMap (pointsAt · name) := by
  induction log with
  | nil => rfl
  | cons run log ih =>
    rw [List.flatMap_cons, List.flatMap_cons, pointsOf_append, ih, pointsAt, pointsOf, List.filter_map,
      List.map_map]
    rfl

lemma page_shows (h : Holds site log) (hreadable : ∀ run ∈ log, Readable run) :
    ∃ table, page site = some table ∧ Shows table log := by
  have hruns := runs_holds h
  have hsamples : samples (dataOf site) =
    log.flatMap (fun run => (run.benches.getD []).map (fun b => (run, b))) := by
    rw [samples, hruns]
  have hproto : ∀ s ∈ samples (dataOf site), ignored s.2.name = false → s.2.name ∉ objectPrototype := by
    intro s hs _
    rw [hsamples] at hs
    obtain ⟨run, hrun, hs⟩ := List.mem_flatMap.mp hs
    obtain ⟨b, hb, rfl⟩ := List.mem_map.mp hs
    obtain ⟨benches, hbenches, hnames⟩ := hreadable run hrun
    rw [hbenches] at hb
    exact hnames b hb
  obtain ⟨hnone, hcollected⟩ := byMetric_collected (dataOf site) hproto
  rw [page]
  cases htable : byMetric (dataOf site) with
  | none =>
    obtain ⟨run, hrun, hbenches⟩ := hnone.mp htable
    rw [hruns] at hrun
    obtain ⟨benches, hsome, -⟩ := hreadable run hrun
    rw [hbenches] at hsome
    cases hsome
  | some table =>
    refine ⟨table, rfl, fun name => ?_⟩
    cases hignored : ignored name with
    | false =>
      rw [← pointsOf_runs, ← hsamples]
      exact (hcollected table htable).getD hignored
    | true =>
      cases hget : table.get name with
      | none => rfl
      | some points =>
        have hshown := ((hcollected table htable name points).mp hget).1
        rw [hignored] at hshown
        cases hshown

end

theorem published_series (isWord : Char → Bool) (pct : ℕ → ℕ → π) (corpus : Corpus)
    {append : Stored π → Run (Value π) → Data (Value π)} (happend : Appends append) {site : Stored π}
    {log : List (Run (Value π))} (hsite : Holds site log) (hreadable : ∀ run ∈ log, Readable run)
    (rounds : List (Round π)) :
    ∃ table, page (siteAfter isWord pct corpus append site rounds) = some table ∧
      ((∀ r ∈ rounds.filter Round.ended, r.fetched = true) → Shows table
        ((if rounds.filter Round.ended = [] then log else log.map migrateRun) ++
          (rounds.filter Round.ended).filterMap (laneRun isWord pct corpus))) ∧
      ∀ before r after, rounds.filter Round.ended = before ++ r :: after → r.fetched = false →
        (∀ later ∈ after, later.fetched = true) →
          Shows table ((r :: after).filterMap (laneRun isWord pct corpus)) := by
  have hheld : Holds (siteAfter isWord pct corpus append site rounds) _ := siteAfter_holds happend hsite rounds
  obtain ⟨table, hpage, hshows⟩ := page_shows hheld (log_readable hreadable _)
  refine ⟨table, hpage, ?_, ?_⟩
  · intro hfetched
    rwa [log_fetched hfetched] at hshows
  · intro before r after hrounds hlost hfetched
    rwa [hrounds, log_lost hlost hfetched] at hshows

def olderRun : Run (Value Unit) :=
  ⟨⟨"c0ffee".toList, []⟩, 5, some [⟨"musl_smoke_pass".toList, "runs".toList, .count 0⟩]⟩

def olderSite : Stored Unit := some ⟨some ⟨[(suite, [olderRun])], List.nodup_singleton suite⟩⟩

def noArch : ArchRun := ⟨none, none, none, none, none, none⟩

def armRound : Round Unit :=
  ⟨none, some ⟨{ noArch with musl := some ⟨512000, 600000, 1⟩ }, noArch, none, none⟩,
    ⟨"decade".toList, []⟩, 7, true, true, true⟩

def storeOne (site : Stored Unit) (run : Run (Value Unit)) : Data (Value Unit) :=
  store (dataOf site) ⟨suite, run⟩

lemma storeOne_appends : Appends storeOne where
  log _ _ := (runsOf_store _ _ suite).trans (if_pos rfl)
  others _ _ name hname := (Table.get_put _ suite name _).trans (if_neg hname)

lemma olderSite_holds : Holds olderSite [olderRun] where
  log := rfl
  only _ hname := Table.get_eq_none.mpr (fun h => hname (List.mem_singleton.mp h))

theorem published_series_older : ∃ table,
    page (siteAfter (fun _ => true) (fun _ _ => ()) Bisect.Csibe.oneProject storeOne olderSite
      [armRound]) = some table ∧
      ((table.get "musl_smoke_pass_sh4".toList).getD []).map Point.y = [.count 0] ∧
      ((table.get "musl_smoke_pass_arm".toList).getD []).map Point.y = [.count 1] := by
  have hreadable : ∀ run ∈ [olderRun], Readable run := by
    intro run hrun
    rw [List.mem_singleton.mp hrun]
    refine ⟨_, rfl, ?_⟩
    decide
  obtain ⟨table, hpage, hshows, -⟩ := published_series (fun _ => true) (fun _ _ => ()) Bisect.Csibe.oneProject
    storeOne_appends olderSite_holds hreadable [armRound]
  have hfetched : ∀ r ∈ [armRound].filter Round.ended, r.fetched = true := by
    intro r hr
    rw [List.mem_singleton.mp (List.mem_of_mem_filter hr)]
    rfl
  refine ⟨table, hpage, ?_, ?_⟩
  · rw [hshows hfetched]
    rfl
  · rw [hshows hfetched]
    rfl

theorem measured_names (isWord : Char → Bool) (pct : ℕ → ℕ → π) {corpus : Corpus}
    (h : ∀ p ∈ corpus.projects, p.name ∈ vendored) (r : Round π) :
    (names (laneMetrics isWord pct corpus r)).Nodup ∧ ∀ b ∈ laneMetrics isWord pct corpus r,
      maybeRename b.name = b.name ∧ ignored b.name = false ∧ builtIn b.name = false := by
  refine ⟨(names_laneMetrics r).nodup (roundNames_nodup (apart_of_vendored h)), fun b hb => ?_⟩
  obtain ⟨hfixed, hshown, hproto⟩ := laneMetrics_stable hb
  exact ⟨hfixed, hshown, Bool.eq_false_of_not_eq_true (not_builtIn hproto)⟩

def bzip2 : Bisect.Csibe.Project := ⟨"bzip2-1.0.2".toList, ["bzip2.c".toList], []⟩

def zlib : Bisect.Csibe.Project := ⟨"zlib-1.1.4".toList, ["adler32.c".toList, "crc32.c".toList], []⟩

def twoProjects : Corpus := ⟨[bzip2, zlib], by decide⟩

def textOnly : Bisect.Csibe.Compiler := fun _ _ _ => some [(".text".toList, 40)]

def sh4Run : Sh4Run where
  gccSum := "FAIL: gcc.dg/a.c".toList
  compiler := textOnly
  coremark := ⟨307884, 1024, 700076⟩
  tally := ⟨fun _ => 0, 0⟩
  busybox := ⟨⟨901120, 2048, 1048576⟩, 10⟩
  busyboxMusl _ _ := noImage
  musl := ⟨512000, 600000, 1⟩
  csibeDensity := ⟨0, 0, 0, 0⟩
  coremarkDensity := ⟨0, 0, 0, 0⟩
  busyboxDensity := ⟨0, 0, 0⟩
  simSums _ _ := none

def bothLanes : Round Unit :=
  ⟨some sh4Run, some ⟨{ noArch with csibe := some textOnly }, { noArch with csibe := some textOnly },
    none, some noImage⟩, ⟨[], []⟩, 0, true, true, true⟩

theorem measured_names_both :
    (names (laneMetrics (fun _ => true) (fun _ _ => ()) twoProjects bothLanes)).Nodup :=
  (measured_names (fun _ => true) (fun _ _ => ())
    (by decide : ∀ p ∈ twoProjects.projects, p.name ∈ vendored) bothLanes).1

end ShMonitor.Dashboard.Site
