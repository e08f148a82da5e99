import ShMonitor.Detection.ExtractFailures

/-! `extract-sh-sim-failures.py`: the execution FAILs of the simulator's sum files, one file for each
suite and ISA. What `\w` matches is the parameter `isWord`. -/

namespace ShMonitor.Detection.ExtractShSimFailures

open ShMonitor.Texts ShMonitor.Texts.Regex
open ExtractFailures (Entry failTag toEntry done takeWhile_consumed FailLine WellFormed failEntry failLines
  failEntry_eq ends_dropWhile)

inductive Suite where
  | execute
  | ieee
deriving DecidableEq, Repr

def isas : List Text := [['m', '2'], ['m', '2', 'a'], ['m', '4']]

def suites : List Suite := [.execute, .ieee]

def knownFpXfail : List Text := ["compare-fp-1.c".toList, "compare-fp-4.c".toList]

def failLineRe : Re :=
  .cat [.bol, .lit (failTag ++ [' ']), .group (.plus nonSpace), .star isSpace,
    .group (.lazyStar notNewline), .star isSpace, .eol]

def execRe (isWord : Char → Bool) : Re :=
  .cat [.wordBoundary isWord, .lit "execution".toList, .wordBoundary isWord]

def isAsciiWord (c : Char) : Bool := c.isAlphanum || c == '_'

def isKnownFpXfail (testPath : Text) : Bool := knownFpXfail.any (fun n => decide (n <:+ testPath))

abbrev SumDir := Suite → Text → Option Text

structure Extracted where
  fail : List Entry
  failXfail : List Entry
deriving DecidableEq, Repr

def fileMatches (sum : Text) : List Entry := (failLineRe.findall (readText sum)).filterMap toEntry

def withIsa (isa : Text) (e : Entry) : Entry := ⟨isa ++ ':' :: e.path, e.detail⟩

def extractFile (isWord : Char → Bool) (isa sum : Text) : Extracted :=
  let execs := (fileMatches sum).filter (fun e => (execRe isWord).search e.detail)
  let split := execs.partition (fun e => isKnownFpXfail e.path)
  ⟨split.2.map (withIsa isa), split.1.map (withIsa isa)⟩

def extract (isWord : Char → Bool) (sumsDir : SumDir) : Extracted :=
  let files := isas.flatMap fun isa => suites.map fun suite =>
    match sumsDir suite isa with
    | none => ⟨[], []⟩
    | some sum => extractFile isWord isa sum
  ⟨files.flatMap Extracted.fail, files.flatMap Extracted.failXfail⟩

lemma run_trailing (gs : List Text) (b u tail : Text) (hu : ∀ c ∈ u, isSpace c = true) (hn : '\n' ∉ u)
    (ht : Ends tail) :
    ∃ ws rest, tail = ws ++ rest ∧ (∀ c ∈ ws, isSpace c = true) ∧
      (Re.cat [.star isSpace, .eol]).run done gs ⟨b, u ++ tail⟩ = some (gs, rest) := by
  have hend : Cursor.atLineEnd ⟨u.reverse ++ b, tail⟩ = true := by
    rcases ht with rfl | ⟨t, rfl⟩ <;> rfl
  have hs := greedy_isSome (p := isSpace) (k := fun cur => if cur.atLineEnd then done gs cur else none)
    (b := b) u tail hu (by simp [hend, done])
  obtain ⟨f, hf⟩ := Option.isSome_iff_exists.mp hs
  obtain ⟨v, rest, hv, hsp, hk⟩ := greedy_sound hf
  have hl : Cursor.atLineEnd ⟨v.reverse ++ b, rest⟩ = true := by
    by_contra hl
    simp [hl] at hk
  have hrun : (Re.cat [.star isSpace, .eol]).run done gs ⟨b, u ++ tail⟩ = some (gs, rest) := by
    simp only [hl, if_true, done] at hk
    exact hf.trans hk.symm
  rcases List.append_eq_append_iff.mp hv with ⟨ws, hws, htail⟩ | ⟨w, hw, hrest⟩
  · exact ⟨ws, rest, htail, fun c hc => hsp c (by simp [hws, hc]), hrun⟩
  · -- A line end inside the blanks of one line is impossible, so nothing of them is left.
    cases w with
    | nil => exact ⟨[], rest, by simpa using hrest.symm, by simp, hrun⟩
    | cons c w =>
      subst hrest
      simp only [Cursor.atLineEnd, List.cons_append, beq_iff_eq] at hl
      exact absurd (by simp [hw, hl]) hn

lemma run_trailing_none (gs : List Text) (b y a : Text) (c : Char) (hc : isSpace c = false)
    (hn : '\n' ∉ y) : (Re.cat [.star isSpace, .eol]).run done gs ⟨b, y ++ c :: a⟩ = none := by
  by_contra hne
  obtain ⟨f, hf⟩ := Option.ne_none_iff_exists'.mp hne
  obtain ⟨u, v, huv, hu, hk⟩ := greedy_sound hf
  have hl : Cursor.atLineEnd ⟨u.reverse ++ b, v⟩ = true := by
    by_contra hl
    simp [Re.run, hl] at hk
  have hsplit : (y ++ [c]) ++ a = u ++ v := by simpa using huv
  rcases List.append_eq_append_iff.mp hsplit with ⟨w, hw, -⟩ | ⟨w, hw, hv⟩
  · have := hu c (by simp [hw])
    simp [hc] at this
  · cases w with
    | nil =>
      have := hu c (by simp at hw; simp [← hw])
      simp [hc] at this
    | cons d w =>
      have hd : d ∈ y ++ [c] := by simp [hw]
      simp only [hv, Cursor.atLineEnd, List.cons_append, beq_iff_eq] at hl
      subst hl
      rcases List.mem_append.mp hd with hy | hy
      · exact hn hy
      · obtain rfl := List.mem_singleton.mp hy
        simp at hc

lemma exists_last_nonSpace {x y l : Text} (h : rstrip l = x ++ y) (hy : y ≠ []) :
    ∃ z c, y = z ++ [c] ∧ isSpace c = false := by
  refine ⟨y.dropLast, y.getLast hy, (List.dropLast_append_getLast hy).symm, ?_⟩
  have hne : l.rdropWhile isSpace ≠ [] := by
    intro hn
    rw [rstrip, hn] at h
    simp_all
  have hlast := List.rdropWhile_last_not isSpace l hne
  have hx : (l.rdropWhile isSpace).getLast hne = y.getLast hy := by
    simp only [rstrip] at h
    simp [h, hy]
  rw [hx] at hlast
  simpa using hlast

lemma run_detail (gs : List Text) (b l tail : Text) (hl : '\n' ∉ l) (ht : Ends tail) :
    ∃ ws rest, tail = ws ++ rest ∧ (∀ c ∈ ws, isSpace c = true) ∧
      (Re.cat [.group (.lazyStar notNewline), .star isSpace, .eol]).run done gs ⟨b, l ++ tail⟩ =
        some (gs ++ [rstrip l], rest) := by
  obtain ⟨u, hu, hsp⟩ := exists_rstrip_append l
  have hnl : '\n' ∉ rstrip l ∧ '\n' ∉ u := by
    rw [hu, List.mem_append, not_or] at hl
    exact hl
  obtain ⟨ws, rest, htail, hws, hrun⟩ :=
    run_trailing (gs ++ [rstrip l]) ((rstrip l).reverse ++ b) u tail hsp hnl.2 ht
  refine ⟨ws, rest, htail, hws, ?_⟩
  have ha : l ++ tail = rstrip l ++ (u ++ tail) := by rw [← List.append_assoc, ← hu]
  rw [ha, run_cat_cons, Re.run]
  refine reluctant_some b (rstrip l) (u ++ tail) ?_ ?_ ?_
  · intro c hc
    rw [notNewline_iff]
    rintro rfl
    exact hnl.1 hc
  · intro x y hxy hy
    obtain ⟨z, c, rfl, hc⟩ := exists_last_nonSpace hxy hy
    have hz : '\n' ∉ z := fun hm => hnl.1 (by simp [hxy, hm])
    have hnone := run_trailing_none (gs ++ [x]) (x.reverse ++ b) z (u ++ tail) c hc hz
    rw [hxy]
    simpa using hnone
  · simpa using hrun

def restRe : Re := .cat [.star isSpace, .group (.lazyStar notNewline), .star isSpace, .eol]

lemma run_restRe (gs : List Text) (b t : Text) :
    ∃ ws rest, (t.dropWhile isSpace).dropWhile notNewline = ws ++ rest ∧ (∀ c ∈ ws, isSpace c = true) ∧
      restRe.run done gs ⟨b, t⟩ = some (gs ++ [rstrip ((t.dropWhile isSpace).takeWhile notNewline)], rest) := by
  have hl : '\n' ∉ (t.dropWhile isSpace).takeWhile notNewline := by
    intro hm
    simpa [notNewline] using List.mem_takeWhile_imp hm
  obtain ⟨ws, rest, hw, hs, hrun⟩ := run_detail gs ((t.takeWhile isSpace).reverse ++ b) _ _ hl
    (ends_dropWhile (t.dropWhile isSpace))
  refine ⟨ws, rest, hw, hs, ?_⟩
  rw [restRe, run_cat_cons, run_star]
  apply greedy_some
  simpa using hrun

lemma matchAt_failLineRe_eq (b a : Text) :
    failLineRe.matchAt b a = if Cursor.atLineStart ⟨b, a⟩ then
      (Re.cat [.lit (failTag ++ [' ']), .group (.plus nonSpace), restRe]).run done [] ⟨b, a⟩ else none := rfl

lemma matchAt_failLineRe {b a : Text} {f : Found} (h : failLineRe.matchAt b a = some f) :
    Cursor.atLineStart ⟨b, a⟩ = true ∧ ∃ path t, a = failTag ++ ' ' :: (path ++ t) ∧ path ≠ [] ∧
      (∀ c ∈ path, nonSpace c = true) ∧
      f.1 = [path, rstrip ((t.dropWhile isSpace).takeWhile notNewline)] := by
  rw [matchAt_failLineRe_eq] at h
  split at h
  · refine ⟨‹_›, ?_⟩
    rw [run_cat_cons] at h
    by_cases hp : failTag ++ [' '] <+: a
    · obtain ⟨s, rfl⟩ := hp
      rw [run_lit, run_cat_cons, run_group] at h
      by_cases hw : s.takeWhile nonSpace = []
      · rw [run_plus_none hw] at h
        cases h
      · obtain ⟨ws, rest, -, -, hrun⟩ := run_restRe [s.takeWhile nonSpace]
          ((s.takeWhile nonSpace).reverse ++ ((failTag ++ [' ']).reverse ++ b)) (s.dropWhile nonSpace)
        rw [run_plus_some hw (by simp only [takeWhile_consumed]; exact hrun)] at h
        obtain rfl := Option.some.inj h
        refine ⟨s.takeWhile nonSpace, s.dropWhile nonSpace, by simp, hw, ?_, rfl⟩
        exact fun c hc => List.mem_takeWhile_imp hc
    · rw [run_lit_none hp] at h
      cases h
  · cases h

lemma matchAt_failLineRe_some {b path t : Text} (hb : Cursor.atLineStart ⟨b, []⟩ = true) (hne : path ≠ [])
    (hw : ∀ c ∈ path, nonSpace c = true) (ht : ∀ c u, t = c :: u → nonSpace c = false) :
    ∃ ws rest, (t.dropWhile isSpace).dropWhile notNewline = ws ++ rest ∧ (∀ c ∈ ws, isSpace c = true) ∧
      failLineRe.matchAt b (failTag ++ ' ' :: (path ++ t)) =
        some ([path, rstrip ((t.dropWhile isSpace).takeWhile notNewline)], rest) := by
  have hpath := takeWhile_word hw ht
  obtain ⟨ws, rest, hws, hsp, hrun⟩ := run_restRe [path]
    (path.reverse ++ ((failTag ++ [' ']).reverse ++ b)) t
  refine ⟨ws, rest, hws, hsp, ?_⟩
  have hstart (a : Text) : Cursor.atLineStart ⟨b, a⟩ = true := hb
  have ha : failTag ++ ' ' :: (path ++ t) = (failTag ++ [' ']) ++ (path ++ t) := by simp
  rw [matchAt_failLineRe_eq, if_pos (hstart _), ha, run_cat_cons, run_lit, run_cat_cons, run_group]
  apply run_plus_some
  · rw [hpath.1]
    exact hne
  · simp only [hpath, take_consumed path t]
    exact hrun

lemma anchored_failLineRe : Anchored failLineRe := by
  constructor
  case start =>
    intro b a hb
    rw [matchAt_failLineRe_eq, hb]
    rfl
  case blank =>
    intro b c a hc
    by_contra hne
    obtain ⟨f, hf⟩ := Option.ne_none_iff_exists'.mp hne
    obtain ⟨-, path, t, ha, -⟩ := matchAt_failLineRe hf
    obtain ⟨rfl, -⟩ := List.cons.inj ha
    exact absurd hc (by decide)
  case stop =>
    intro b
    by_contra hne
    obtain ⟨f, hf⟩ := Option.ne_none_iff_exists'.mp hne
    obtain ⟨-, path, t, ha, -⟩ := matchAt_failLineRe hf
    cases ha

lemma failLineRe_passes {l : Text} (h : ¬ failTag <+: l) : PassesLine failLineRe l := by
  intro b tail ht
  by_contra hne
  obtain ⟨f, hf⟩ := Option.ne_none_iff_exists'.mp hne
  obtain ⟨-, path, t, ha, -⟩ := matchAt_failLineRe hf
  exact h (prefix_of_ends (by decide) ht (ha ▸ List.prefix_append _ _))

lemma failLineRe_reads {l : Text} {e : Entry} (hl : '\n' ∉ l) (h : FailLine l e) :
    ReadsLine failLineRe l [e.path, e.detail] := by
  intro b tail hstart htail
  obtain ⟨blanks, ha, hr⟩ := h.exists_runs hl htail
  obtain ⟨ws, rest, hws, hsp, hm⟩ := matchAt_failLineRe_some (b := b) hstart h.path_ne h.path_word hr.path
  rw [hr.blanks, hr.detail, rstrip_of_last h.detail_trimmed.2] at hm
  rw [hr.blanks, hr.tail] at hws
  exact ⟨ws, rest, hws, hsp, ha ▸ hm⟩

lemma fileMatches_eq {sum : Text} (h : WellFormed (readText sum)) :
    fileMatches sum = failLines (readText sum) :=
  ExtractFailures.findall_failLines anchored_failLineRe (fun _ => failLineRe_passes)
    (fun _ _ => failLineRe_reads) h

lemma mem_fileMatches {sum : Text} {e : Entry} (h : e ∈ fileMatches sum) :
    e.path ≠ [] ∧ (∀ c ∈ e.path, nonSpace c = true) ∧ failTag ++ ' ' :: e.path <:+: readText sum := by
  obtain ⟨gs, hg, he⟩ := List.mem_filterMap.mp h
  obtain ⟨u, v, rest, huv, hm⟩ := mem_findall hg
  obtain ⟨-, path, t, rfl, hne, hw, rfl⟩ := matchAt_failLineRe hm
  obtain rfl := Option.some.inj he
  exact ⟨hne, hw, u, t, by simp [huv]⟩

lemma mem_extract_fail {isWord : Char → Bool} {sumsDir : SumDir} {e : Entry} :
    e ∈ (extract isWord sumsDir).fail ↔ ∃ isa ∈ isas, ∃ suite ∈ suites, ∃ sum, sumsDir suite isa = some sum ∧
      ∃ f ∈ fileMatches sum, isKnownFpXfail f.path = false ∧ (execRe isWord).search f.detail = true ∧
        withIsa isa f = e := by
  have hfile (isa : Text) (suite : Suite) : e ∈ (match sumsDir suite isa with
      | none => (⟨[], []⟩ : Extracted)
      | some sum => extractFile isWord isa sum).fail ↔ ∃ sum, sumsDir suite isa = some sum ∧
      ∃ f ∈ fileMatches sum, isKnownFpXfail f.path = false ∧ (execRe isWord).search f.detail = true ∧
        withIsa isa f = e := by
    cases sumsDir suite isa with
    | none => simp
    | some sum => simp [extractFile, and_assoc]
  simp only [extract, List.mem_flatMap, List.mem_map]
  constructor
  · rintro ⟨_, ⟨isa, hisa, suite, hsuite, rfl⟩, he⟩
    exact ⟨isa, hisa, suite, hsuite, (hfile isa suite).mp he⟩
  · rintro ⟨isa, hisa, suite, hsuite, he⟩
    exact ⟨_, ⟨isa, hisa, suite, hsuite, rfl⟩, (hfile isa suite).mpr he⟩

lemma isas_all {p : Char → Bool} (h : isas.all (fun isa => isa.all p) = true) {isa : Text} (hisa : isa ∈ isas) :
    ∀ c ∈ isa, p c = true :=
  List.all_eq_true.mp (List.all_eq_true.mp h isa hisa)

lemma isas_word {isa : Text} (hisa : isa ∈ isas) : ∀ c ∈ isa, nonSpace c = true := isas_all (by decide) hisa

lemma isas_colon {isa : Text} (hisa : isa ∈ isas) : ∀ c ∈ isa, decide (c ≠ ':') = true :=
  isas_all (by decide) hisa

lemma withIsa_word {isa : Text} (hisa : isa ∈ isas) {e : Entry} (h : ∀ c ∈ e.path, nonSpace c = true) :
    ∀ c ∈ (withIsa isa e).path, nonSpace c = true := by
  intro c hc
  simp only [withIsa, List.mem_append, List.mem_cons] at hc
  obtain hc | rfl | hc := hc
  · exact isas_word hisa c hc
  · rfl
  · exact h c hc

lemma withIsa_inj {isa isa' : Text} (h : isa ∈ isas) (h' : isa' ∈ isas) {e e' : Entry}
    (he : withIsa isa e = withIsa isa' e') : isa = isa' ∧ e = e' := by
  have hsplit (isa : Text) (h : isa ∈ isas) (p : Text) :=
    takeWhile_word (a := ':' :: p) (isas_colon h) (by
      intro c t hc
      obtain ⟨rfl, -⟩ := List.cons.inj hc
      rfl)
  have hpath := congrArg Entry.path he
  have hdetail := congrArg Entry.detail he
  have hisa : isa = isa' := by
    rw [← (hsplit isa h e.path).1, ← (hsplit isa' h' e'.path).1]
    exact congrArg (List.takeWhile fun c => decide (c ≠ ':')) hpath
  subst hisa
  refine ⟨rfl, ?_⟩
  cases e
  cases e'
  simp_all [withIsa]

end ShMonitor.Detection.ExtractShSimFailures
