import Mathlib.Data.Char
import Mathlib.Data.List.Dedup
import Mathlib.Data.List.Lex
import ShMonitor.Dashboard.Trend
import ShMonitor.Lists
import ShMonitor.Lra.Corpus
import ShMonitor.Ranking

/-! The results file of `run-lra-corpus.sh` and the page of the LRA differential that shows it. The
script writes names and levels into the file as they are. -/

namespace ShMonitor.Lra.Published

open Texts Corpus Ranking

def outcomeName : Outcome → Text
  | .bothOk => ['B', 'O', 'T', 'H', '_', 'O', 'K']
  | .diverged => ['D', 'I', 'V', 'E', 'R', 'G', 'E', 'D']
  | .currentIce => ['C', 'U', 'R', 'R', 'E', 'N', 'T', '_', 'I', 'C', 'E']
  | .refIce => ['R', 'E', 'F', '_', 'I', 'C', 'E']
  | .bothIce => ['B', 'O', 'T', 'H', '_', 'I', 'C', 'E']
  | .timeout => ['T', 'I', 'M', 'E', 'O', 'U', 'T']

structure Entry where
  opt : Text
  outcome : Text
  detail : Text

structure CaseEntry where
  name : Text
  expected : Text
  results : List Entry

structure Totals where
  diverged : ℕ
  currentIce : ℕ
  total : ℕ

structure Results where
  commit : Text
  date : Text
  totals : Totals
  cases : List CaseEntry

def entryOf (result : Result) : Entry := ⟨result.opt, outcomeName result.outcome, result.detail⟩

def caseEntryOf (run : Case × List Result) : CaseEntry := ⟨run.1.name, run.1.expected, run.2.map entryOf⟩

def isLiteral (t : Text) : Bool := t.all (fun c => decide (32 ≤ c.toNat ∧ c ≠ '"' ∧ c.toNat ≠ 0x5c))

def Case.texts (c : Case) : List Text := c.name :: c.expected :: c.opts

/-- What jq makes of the text of the file; a name that needs an escape is not followed any further. -/
def resultsFile (commit date : Text) (cases : List (Case × List Result)) : Option Results :=
  if (commit :: date :: cases.flatMap (fun run => Case.texts run.1)).all isLiteral then
    some
      { commit := commit
        date := date
        totals := ⟨divergedCount (tallyOf cases), (tallyOf cases).counts .currentIce, (tallyOf cases).total⟩
        cases := cases.map caseEntryOf }
  else none

structure Cell where
  className : Text
  text : Text
  title : Option Text

structure Row where
  href : Text
  name : Text
  cells : List Cell

structure Summary where
  href : Text
  commit : Text
  date : Text
  diverged : ℕ
  total : ℕ
  currentIce : ℕ

structure Page where
  summary : Summary
  head : List Text
  rows : List Row

def Page.cells (page : Page) : List Cell := page.rows.flatMap Row.cells

def repoBlob : Text := "https://github.com/mountain-reverie/gcc-sh-monitor/blob/main/lra-corpus/".toList

def commitBaseUrl : Text := "https://github.com/gcc-mirror/gcc/commit/".toList

def labels : List (Text × Text) :=
  [(outcomeName .bothOk, ['✓']), (outcomeName .diverged, ['≠']), (outcomeName .currentIce, "ICE".toList),
    (outcomeName .refIce, "ref-ICE".toList), (outcomeName .bothIce, "both-ICE".toList),
    (outcomeName .timeout, ['⏱']), ("SKIPPED".toList, ['—'])]

def shortLabel (outcome : Text) : Text := (labels.lookup outcome).getD outcome

def classOf (outcome : Text) : Text := ['o', 'u', 't', 'c', 'o', 'm', 'e', ' '] ++ outcome.map Char.toLower

def skipped : Cell := ⟨classOf ['s', 'k', 'i', 'p', 'p', 'e', 'd'], ['—'], none⟩

def entryCell (entry : Entry) : Cell :=
  ⟨classOf entry.outcome, shortLabel entry.outcome, if entry.detail = [] then none else some entry.detail⟩

/-- Of several results of one level the table keeps the last. An inherited name ends the rendering. -/
def cell (results : List Entry) (opt : Text) : Option Cell :=
  match results.reverse.find? (fun r => r.opt = opt) with
  | some r => some (entryCell r)
  | none => if Dashboard.Trend.builtIn opt then none else some skipped

def opts (data : Results) : List Text := rank id ((data.cases.flatMap CaseEntry.results).map Entry.opt).dedup

def row (columns : List Text) (c : CaseEntry) : Option Row :=
  (columns.mapM (cell c.results)).map (fun cells => ⟨repoBlob ++ c.name, c.name, cells⟩)

def summary (data : Results) : Summary :=
  ⟨commitBaseUrl ++ data.commit, data.commit.take 12, data.date, data.totals.diverged, data.totals.total,
    data.totals.currentIce⟩

def render (data : Results) : Option Page :=
  (data.cases.mapM (row (opts data))).map (fun rows => ⟨summary data, (opts data).map ('-' :: ·), rows⟩)

def resultCell (result : Result) : Cell := entryCell (entryOf result)

def shownCell (sha : Sha256) (tools : Toolchain) (c : Case) (opt : Text) : Cell :=
  if c.opts.contains opt then resultCell (record sha tools c opt) else skipped

def shownRow (sha : Sha256) (tools : Toolchain) (columns : List Text) (c : Case) : Row :=
  ⟨repoBlob ++ c.name, c.name, columns.map (shownCell sha tools c)⟩

structure Columns (cases : List Case) (columns : List Text) : Prop where
  sorted : columns.Pairwise (· < ·)
  mem_iff : ∀ opt, opt ∈ columns ↔ ∃ c ∈ cases, opt ∈ c.opts

def worse : List Outcome := [.diverged, .currentIce, .timeout]

def outcomeClass (o : Outcome) : Text := classOf (outcomeName o)

structure Tallied (page : Page) : Prop where
  diverged : page.summary.diverged = page.cells.countP (fun c => decide (c.className ∈ worse.map outcomeClass))
  currentIce : page.summary.currentIce =
    page.cells.countP (fun c => decide (c.className = outcomeClass .currentIce))
  total : page.summary.total = page.cells.countP (fun c => decide (c.className ≠ skipped.className))

lemma outcomeClass_injective : ∀ {o o' : Outcome}, outcomeClass o = outcomeClass o' → o = o' := by
  intro o o' h
  cases o <;> cases o' <;> first | rfl | exact absurd h (by decide)

lemma outcomeClass_ne_skipped (o : Outcome) : outcomeClass o ≠ skipped.className := by
  cases o <;> decide

variable {sha : Sha256} {tools : Toolchain}

lemma record_opt (c : Case) (opt : Text) : (record sha tools c opt).opt = opt := by
  unfold record compareRuns
  split
  · split_ifs <;> rfl
  · rfl
  · rfl
  · rfl

lemma cell_record (c : Case) {opt : Text} (hopt : Dashboard.Trend.builtIn opt = false) :
    cell ((c.opts.map (record sha tools c)).map entryOf) opt = some (shownCell sha tools c opt) := by
  have hentry (o : Text) : (entryOf (record sha tools c o)).opt = o := record_opt c o
  rw [cell.eq_def, shownCell, List.map_map]
  cases hfind : (c.opts.map (entryOf ∘ record sha tools c)).reverse.find? (fun r => decide (r.opt = opt)) with
  | none =>
    have hmem : opt ∉ c.opts := by
      intro hmem
      have hnone := List.find?_eq_none.mp hfind (entryOf (record sha tools c opt))
        (List.mem_reverse.mpr (List.mem_map_of_mem hmem))
      exact hnone (decide_eq_true (hentry opt))
    rw [if_neg (fun h => hmem (List.contains_iff_mem.mp h))]
    simp only [hopt, Bool.false_eq_true, if_false]
  | some r =>
    obtain ⟨o, ho, rfl⟩ := List.mem_map.mp (List.mem_reverse.mp (List.mem_of_find?_eq_some hfind))
    have hfound := List.find?_some hfind
    rw [decide_eq_true_eq] at hfound
    obtain rfl : o = opt := (hentry o).symm.trans hfound
    rw [if_pos (List.contains_iff_mem.mpr ho)]
    rfl

variable {cases : List Case} {columns : List Text}

lemma countP_row {c : Case} (hcolumns : columns.Nodup) (hlevels : c.opts.Nodup) (hsub : c.opts ⊆ columns)
    {p : Cell → Bool} (hp : p skipped = false) :
    (shownRow sha tools columns c).cells.countP p =
      (c.opts.map (record sha tools c)).countP (fun r => p (resultCell r)) := by
  rw [shownRow, List.countP_map, List.countP_map, ← Lists.countP_cover hcolumns hlevels hsub]
  apply List.countP_congr
  intro opt _
  rw [Function.comp_apply, shownCell]
  by_cases hmem : opt ∈ c.opts
  · simp [hmem]
  · simp [hmem, hp]

lemma countP_table (hcolumns : Columns cases columns) (hlevels : ∀ c ∈ cases, c.opts.Nodup) {p : Cell → Bool}
    (hp : p skipped = false) :
    ((cases.map (shownRow sha tools columns)).flatMap Row.cells).countP p =
      ((cases.map (fun c => (c, c.opts.map (record sha tools c)))).flatMap Prod.snd).countP
        (fun r => p (resultCell r)) := by
  have hnodup : columns.Nodup := hcolumns.sorted.imp (fun h => ne_of_lt h)
  rw [List.countP_flatMap, List.countP_flatMap, List.map_map, List.map_map]
  congr 1
  apply List.map_congr_left
  intro c hc
  exact countP_row hnodup (hlevels c hc) (fun opt hopt => (hcolumns.mem_iff opt).mpr ⟨c, hc, hopt⟩) hp

lemma countP_worse (results : List Result) : results.countP (fun r => decide (r.outcome ∈ worse)) =
    results.countP (fun r => decide (r.outcome = .diverged)) + results.countP
      (fun r => decide (r.outcome = .currentIce)) +
      results.countP (fun r => decide (r.outcome = .timeout)) := by
  induction results with
  | nil => rfl
  | cons r results ih =>
    simp only [List.countP_cons, ih]
    cases r.outcome <;> simp [worse] <;> omega

lemma tallied_of_counts {page : Page} (hcolumns : Columns cases columns) (hlevels : ∀ c ∈ cases, c.opts.Nodup)
    (hrows : page.rows = cases.map (shownRow sha tools columns))
    (hsummary : let tally := tallyOf (cases.map (fun c => (c, c.opts.map (record sha tools c))))
      page.summary.diverged = divergedCount tally ∧ page.summary.currentIce = tally.counts .currentIce ∧
        page.summary.total = tally.total) : Tallied page := by
  obtain ⟨hdiverged, hice, htotal⟩ := hsummary
  have hclass (o : Outcome) (r : Result) : (resultCell r).className = outcomeClass o ↔ r.outcome = o :=
    ⟨fun h => outcomeClass_injective h, fun h => h ▸ rfl⟩
  have hskip (o : Outcome) : skipped.className ≠ outcomeClass o := (outcomeClass_ne_skipped o).symm
  constructor
  · have hnone : decide (skipped.className ∈ worse.map outcomeClass) = false := by
      apply decide_eq_false
      intro hmem
      obtain ⟨o, -, ho⟩ := List.mem_map.mp hmem
      exact hskip o ho.symm
    have hworse (r : Result) : (resultCell r).className ∈ worse.map outcomeClass ↔ r.outcome ∈ worse := by
      rw [List.mem_map]
      constructor
      · rintro ⟨o, ho, heq⟩
        exact (hclass o r).mp heq.symm ▸ ho
      · exact fun h => ⟨r.outcome, h, rfl⟩
    rw [hdiverged, Page.cells, hrows, countP_table hcolumns hlevels hnone, divergedCount]
    simp only [counts_tallyOf]
    rw [← countP_worse]
    exact List.countP_congr (fun r _ => by rw [decide_eq_true_eq, decide_eq_true_eq, hworse])
  · rw [hice, Page.cells, hrows, countP_table hcolumns hlevels (decide_eq_false (hskip _)),
      (counts_tallyOf _ _).1]
    exact List.countP_congr (fun r _ => by rw [decide_eq_true_eq, decide_eq_true_eq, hclass])
  · rw [htotal, Page.cells, hrows, countP_table hcolumns hlevels (by simp), (counts_tallyOf _ .bothOk).2]
    symm
    apply List.countP_eq_length.mpr
    intro r _
    exact decide_eq_true (outcomeClass_ne_skipped r.outcome)

def written (sha : Sha256) (tools : Toolchain) (commit date : Text) (cases : List Case) : Results where
  commit := commit
  date := date
  totals :=
    let tally := tallyOf (cases.map (fun c => (c, c.opts.map (record sha tools c))))
    ⟨divergedCount tally, tally.counts .currentIce, tally.total⟩
  cases := (cases.map (fun c => (c, c.opts.map (record sha tools c)))).map caseEntryOf

lemma resultsFile_eq (present : Text → Bool) (manifest : List Case) {commit date : Text}
    (hliteral : ∀ t ∈ commit :: date :: manifest.flatMap Case.texts, isLiteral t = true) :
    resultsFile commit date (runCorpus sha tools present manifest) =
      some (written sha tools commit date (manifest.filter (fun c => present c.name))) := by
  apply if_pos
  rw [List.all_eq_true]
  intro t ht
  apply hliteral t
  simp only [List.mem_cons, List.mem_flatMap, runCorpus, List.mem_map, List.mem_filter] at ht ⊢
  rcases ht with rfl | rfl | ⟨run, ⟨c, ⟨hc, -⟩, rfl⟩, ht⟩
  · exact Or.inl rfl
  · exact Or.inr (Or.inl rfl)
  · exact Or.inr (Or.inr ⟨c, hc, ht⟩)

lemma columns_opts (commit date : Text) (cases : List Case) :
    Columns cases (opts (written sha tools commit date cases)) := by
  have hnodup : (((written sha tools commit date cases).cases.flatMap CaseEntry.results).map
    Entry.opt).dedup.Nodup :=
    List.nodup_dedup _
  refine ⟨rank_strict (by simpa using hnodup), fun opt => ?_⟩
  rw [opts, (rank_perm id _).mem_iff, List.mem_dedup]
  simp only [written, List.mem_map, List.mem_flatMap, caseEntryOf]
  constructor
  · rintro ⟨r, ⟨e, ⟨run, ⟨c, hc, rfl⟩, rfl⟩, hr⟩, rfl⟩
    obtain ⟨r', hr', rfl⟩ := List.mem_map.mp hr
    obtain ⟨o, ho, rfl⟩ := List.mem_map.mp hr'
    have hopt : (entryOf (record sha tools c o)).opt = o := record_opt c o
    exact ⟨c, hc, hopt.symm ▸ ho⟩
  · rintro ⟨c, hc, ho⟩
    refine ⟨entryOf (record sha tools c opt), ⟨_, ⟨_, ⟨c, hc, rfl⟩, rfl⟩, ?_⟩, record_opt c opt⟩
    exact List.mem_map_of_mem (List.mem_map_of_mem ho)

lemma row_written (c : Case) (hplain : ∀ opt ∈ columns, Dashboard.Trend.builtIn opt = false) :
    row columns (caseEntryOf (c, c.opts.map (record sha tools c))) = some (shownRow sha tools columns c) := by
  have hcells : columns.mapM (cell ((c.opts.map (record sha tools c)).map entryOf)) =
      some (columns.map (shownCell sha tools c)) :=
    Lists.mapM_eq_map (fun opt hopt => cell_record c (hplain opt hopt))
  rw [row, caseEntryOf, hcells]
  rfl

lemma render_written (commit date : Text)
    (hplain : ∀ c ∈ cases, ∀ opt ∈ c.opts, Dashboard.Trend.builtIn opt = false) :
    render (written sha tools commit date cases) = some
      { summary := summary (written sha tools commit date cases)
        head := (opts (written sha tools commit date cases)).map ('-' :: ·)
        rows := cases.map (shownRow sha tools (opts (written sha tools commit date cases))) } := by
  have hnames : ∀ opt ∈ opts (written sha tools commit date cases), Dashboard.Trend.builtIn opt = false := by
    intro opt hopt
    obtain ⟨c, hc, ho⟩ := ((columns_opts commit date cases).mem_iff opt).mp hopt
    exact hplain c hc opt ho
  have hrows : (written sha tools commit date cases).cases.mapM
    (row (opts (written sha tools commit date cases))) =
      some (cases.map (shownRow sha tools (opts (written sha tools commit date cases)))) := by
    have hcases : (written sha tools commit date cases).cases =
        cases.map (fun c => caseEntryOf (c, c.opts.map (record sha tools c))) := List.map_map
    rw [hcases, List.mapM_map]
    exact Lists.mapM_eq_map (fun c _ => row_written c hnames)
  rw [render, hrows]
  rfl

theorem page_agrees (sha : Sha256) (tools : Toolchain) (present : Text → Bool) (manifest : List Case)
    (commit date : Text) (hlevels : ∀ c ∈ manifest, c.opts.Nodup)
    (hplain : ∀ c ∈ manifest, ∀ opt ∈ c.opts, Dashboard.Trend.builtIn opt = false)
    (hliteral : ∀ t ∈ commit :: date :: manifest.flatMap Case.texts, isLiteral t = true) :
    ∃ data page columns, resultsFile commit date (runCorpus sha tools present manifest) = some data ∧
      render data = some page ∧ page.head = columns.map ('-' :: ·) ∧
      Columns (manifest.filter (fun c => present c.name)) columns ∧
      page.rows = (manifest.filter (fun c => present c.name)).map (shownRow sha tools columns) ∧
        Tallied page := by
  have hpresent : ∀ c ∈ manifest.filter (fun c => present c.name), c ∈ manifest :=
    fun c hc => (List.mem_filter.mp hc).1
  have hcolumns : Columns (manifest.filter (fun c => present c.name)) (opts (written sha tools commit date
      (manifest.filter (fun c => present c.name)))) := columns_opts commit date _
  refine ⟨_, _, _, resultsFile_eq present manifest hliteral,
    render_written commit date (fun c hc => hplain c (hpresent c hc)), rfl, hcolumns, rfl, ?_⟩
  exact tallied_of_counts hcolumns (fun c hc => hlevels c (hpresent c hc)) rfl ⟨rfl, rfl, rfl⟩

def sizeCase : Case := ⟨"a.c".toList, [], [['O', '0'], ['O', '2']]⟩

def absentCase : Case := ⟨"b.c".toList, [], [['O', 's']]⟩

def failing : Toolchain where
  current name opt := if name = sizeCase.name ∧ opt = ['O', '0'] then none else some ⟨okBytes, .exited 0⟩
  reference _ _ := some ⟨koBytes, .exited 0⟩

def isThere (name : Text) : Bool := decide (name ≠ absentCase.name)

theorem page_agrees_failing :
    ∃ data page columns, resultsFile ['c'] ['d']
      (runCorpus shortSha failing isThere [sizeCase, absentCase, runCase]) =
        some data ∧ render data = some page ∧ page.head = columns.map ('-' :: ·) ∧
      Columns ([sizeCase, absentCase, runCase].filter (fun c => isThere c.name)) columns ∧
      page.rows = ([sizeCase, absentCase, runCase].filter (fun c => isThere c.name)).map
        (shownRow shortSha failing columns) ∧ Tallied page :=
  page_agrees shortSha failing isThere [sizeCase, absentCase, runCase] ['c'] ['d'] (by decide +kernel)
    (by decide +kernel) (by decide +kernel)

end ShMonitor.Lra.Published
