import ShMonitor.Texts.Heads
import ShMonitor.Detection.ExtractFailures

/-! `parse-dejagnu.py`: the counts of a dejagnu sum file, and when they agree with the lists that
`extract-failures.py` reads from the same text. -/

namespace ShMonitor.Detection.ParseDejagnu

open ShMonitor.Texts ShMonitor.Texts.Regex ExtractFailures

structure Metric where
  name : Text
  unit : Text
  value : ℕ
deriving DecidableEq, Repr

def statusRe (status : Text) : Re := .cat [.bol, .lit status]

def failCount : Text := "dejagnu_fail_count".toList
def unresolvedCount : Text := "dejagnu_unresolved_count".toList
def tests : Text := "tests".toList

def patterns : List (Text × Re) := [(failCount, statusRe failTag), (unresolvedCount, statusRe unresolvedTag)]

def parse (sum : Text) : List Metric :=
  let text := readText sum
  patterns.map (fun pat => ⟨pat.1, tests, (pat.2.findall text).length⟩)

/-- The path and the detail of a match stand on one line: no line end is among the blanks between them. -/
def OneLine (status : Text) (hit : Text × Found) : Prop :=
  ∃ e gap blanks, toEntry hit.2.1 = some e ∧ Reads status hit.1 e gap blanks hit.2.2 ∧
    ('\n' ∉ blanks ∨ e.detail = [])

structure Agree (sum : Text) (stale : List Text) : Prop where
  counts : parse sum =
    [⟨failCount, tests, (extract sum stale).fail.length + (extract sum stale).failStale.length⟩,
      ⟨unresolvedCount, tests,
        (extract sum stale).unresolved.length + (extract sum stale).unresolvedStale.length⟩]
  fail : ∀ hit ∈ failRe.finditer (readText sum), OneLine failTag hit
  unresolved : ∀ hit ∈ unresolvedRe.finditer (readText sum), OneLine unresolvedTag hit

/-- A word follows the status, itself no status line, and what stands behind the word on its line is not
blank, unless nothing but blanks is left of the text. -/
structure Readable (status v : Text) : Prop where
  gap : (v.drop status.length).takeWhile isSpace ≠ []
  path : ((v.drop status.length).dropWhile isSpace).takeWhile nonSpace ≠ []
  free : ((v.drop status.length).takeWhile isSpace).getLast? = some '\n' →
    ¬ status <+: (v.drop status.length).dropWhile isSpace
  detail : let t := ((v.drop status.length).dropWhile isSpace).dropWhile nonSpace
    '\n' ∉ t.takeWhile isSpace ∨ t.dropWhile isSpace = []

def Clean (status text : Text) : Prop := ∀ v ∈ heads text, status <+: v → Readable status v

lemma entries_eq_finditer (re : Re) (text : Text) :
    entries re text = (re.finditer text).filterMap (fun hit => toEntry hit.2.1) := by
  rw [entries, findall_eq_finditer, List.filterMap_map]
  rfl

lemma matchAt_statusRe (status b a : Text) :
    (statusRe status).matchAt b a =
      if Cursor.atLineStart ⟨b, a⟩ then (if status <+: a then some ([], a.drop status.length) else none)
      else none := by
  change (if Cursor.atLineStart ⟨b, a⟩ then (Re.lit status).run done [] ⟨b, a⟩ else none) = _
  congr 1
  split
  · obtain ⟨t, rfl⟩ := ‹status <+: a›
    rw [run_lit, List.drop_left]
    rfl
  · exact run_lit_none ‹_› _ _ _

section

variable {status : Text} (hne : status ≠ []) (hline : '\n' ∉ status)

include hne in
lemma count_statusRe_walk (text : Text) : (statusRe status).finditer text =
    walk (fun v => if status <+: v then some ([], v.drop status.length) else none) text.length (heads text) :=
  finditer_walk (matchAt_statusRe status) (if_neg (fun h => hne (List.prefix_nil.mp h))) text

lemma length_le_of_mem_heads {v text : Text} (h : v ∈ heads text) : v.length ≤ text.length := by
  obtain rfl | h := List.mem_cons.mp h
  · exact le_rfl
  · obtain ⟨x, rfl⟩ := mem_laterHeads.mp h
    simp only [List.length_append, List.length_cons]
    omega

include hne hline in
lemma count_statusRe (text : Text) :
    ((statusRe status).findall text).length = (heads text).countP (fun v => decide (status <+: v)) := by
  rw [findall_eq_finditer, List.length_map, count_statusRe_walk hne, walk_eq]
  · rw [List.length_filterMap_eq_countP]
    congr 1
    funext v
    by_cases hv : status <+: v <;> simp [hv]
  · exact fun v hv _ => length_le_of_mem_heads hv
  · refine (heads_pairwise text).imp ?_
    rintro _ w ⟨x, rfl⟩ - f hf
    obtain ⟨hv, rfl⟩ : status <+: x ++ '\n' :: w ∧ ([], (x ++ '\n' :: w).drop status.length) = f := by
      simpa [Option.mem_def] using hf
    have hx := (prefix_of_ends hline (.inr ⟨w, rfl⟩) hv).length_le
    simp only [List.length_drop, List.length_append, List.length_cons]
    omega

end

lemma newline_split {a b x w : Text} (h : a ++ b = x ++ '\n' :: w) :
    (∃ y, a = x ++ '\n' :: y ∧ w = y ++ b) ∨ ∃ z, b = z ++ '\n' :: w := by
  obtain ⟨z, hx, hb⟩ | ⟨y, ha, hy⟩ := List.append_eq_append_iff.mp h
  · exact .inr ⟨z, hb⟩
  · cases y with
    | nil => exact .inr ⟨[], hy.symm⟩
    | cons c y =>
      obtain ⟨rfl, rfl⟩ := List.cons.inj hy
      exact .inl ⟨y, ha, rfl⟩

lemma newline_split_run (p : Char → Bool) {a x w : Text} (h : a = x ++ '\n' :: w) :
    (∃ y, a.takeWhile p = x ++ '\n' :: y ∧ w = y ++ a.dropWhile p ∧ p '\n' = true ∧ ∀ c ∈ y, p c = true) ∨
      ∃ z, a.dropWhile p = z ++ '\n' :: w := by
  obtain ⟨y, hy, hw⟩ | hz := newline_split (a := a.takeWhile p) (b := a.dropWhile p)
    (by rwa [List.takeWhile_append_dropWhile])
  · have hp {c : Char} (hc : c ∈ x ++ '\n' :: y) : p c = true := List.mem_takeWhile_imp (hy ▸ hc)
    exact .inl ⟨y, hy, hw, hp (by simp), fun c hc => hp (by simp [hc])⟩
  · exact .inr hz

lemma length_of_fields {status v : Text} {f : Found} (h : fields status v = some f) :
    f.2.length ≤ v.length := by
  obtain ⟨e, gap, blanks, -, hr⟩ := exists_reads h
  rw [hr.text]
  simp only [List.length_append]
  omega

lemma fields_eq {status r : Text} (hgap : r.takeWhile isSpace ≠ [])
    (hpath : (r.dropWhile isSpace).takeWhile nonSpace ≠ []) :
    fields status (status ++ r) = some
      ([(r.dropWhile isSpace).takeWhile nonSpace,
        (((r.dropWhile isSpace).dropWhile nonSpace).dropWhile isSpace).takeWhile notNewline],
        (((r.dropWhile isSpace).dropWhile nonSpace).dropWhile isSpace).dropWhile notNewline) := by
  rw [fields, if_pos (List.prefix_append _ _), List.drop_left, if_neg (not_or.mpr ⟨hgap, hpath⟩)]

section

variable {status : Text} (hhead : ∃ d, status.head? = some d ∧ isSpace d = false) (hline : '\n' ∉ status)

include hhead in
lemma not_prefix_of_blank {w : Text} (hw : ∀ c ∈ w, isSpace c = true) : ¬ status <+: w := by
  obtain ⟨d, hd, hs⟩ := hhead
  rintro ⟨u, rfl⟩
  have hmem : d ∈ status := List.mem_of_head? hd
  simp [hw d (List.mem_append_left u hmem)] at hs

include hhead in
lemma eq_nil_of_prefix {y u : Text} (hy : ∀ c ∈ y, isSpace c = true) (h : status <+: y ++ u) : y = [] := by
  obtain ⟨d, hd, hs⟩ := hhead
  cases status with
  | nil => cases hd
  | cons e status =>
    obtain rfl := Option.some.inj hd
    cases y with
    | nil => rfl
    | cons c y =>
      obtain ⟨rfl, -⟩ := List.cons_prefix_cons.mp h
      simp [hy e List.mem_cons_self] at hs

include hhead hline

lemma Readable.apart {v x w : Text} {f : Found} (h : Readable status v) (hf : fields status v = some f)
    (hv : v = x ++ '\n' :: w) (hw : status <+: w) : w.length ≤ f.2.length := by
  obtain ⟨hgap, hpath, hfree, hdetail⟩ := h
  have hs : status <+: v := by
    by_contra hs
    simp [fields, hs] at hf
  obtain ⟨r, rfl⟩ := hs
  rw [List.drop_left] at hgap hpath hfree hdetail
  rw [fields_eq hgap hpath] at hf
  obtain rfl := Option.some.inj hf
  obtain ⟨y, hy, -⟩ | ⟨z, hr⟩ := newline_split hv
  · exact absurd (by simp [hy]) hline
  obtain ⟨y, hy, rfl, -, hblank⟩ | ⟨z', hr'⟩ := newline_split_run isSpace hr
  · obtain rfl := eq_nil_of_prefix hhead hblank hw
    exact absurd hw (hfree (by simp [hy]))
  obtain ⟨y, -, -, hword, -⟩ | ⟨z'', ht⟩ := newline_split_run nonSpace hr'
  · exact absurd hword (by decide)
  obtain ⟨y, hy, rfl, -, hblank⟩ | ⟨z₃, hu⟩ := newline_split_run isSpace ht
  · obtain hn | hn := hdetail
    · exact absurd (by simp [hy]) hn
    · rw [hn, List.append_nil] at hw
      exact absurd hw (not_prefix_of_blank hhead hblank)
  obtain ⟨y, -, -, hn, -⟩ | ⟨z₄, hrest⟩ := newline_split_run notNewline hu
  · exact absurd hn (by decide)
  rw [hrest, List.length_append, List.length_cons]
  omega

end

lemma exists_fields {status v : Text} {f : Found} (h : fields status v = some f) :
    ∃ r, v = status ++ r ∧ r.takeWhile isSpace ≠ [] ∧ (r.dropWhile isSpace).takeWhile nonSpace ≠ [] ∧
      fields status v = some
        ([(r.dropWhile isSpace).takeWhile nonSpace,
          (((r.dropWhile isSpace).dropWhile nonSpace).dropWhile isSpace).takeWhile notNewline],
          (((r.dropWhile isSpace).dropWhile nonSpace).dropWhile isSpace).dropWhile notNewline) := by
  have hs : status <+: v := by
    by_contra hs
    simp [fields, hs] at h
  obtain ⟨r, rfl⟩ := hs
  have hne : ¬ (r.takeWhile isSpace = [] ∨ (r.dropWhile isSpace).takeWhile nonSpace = []) := by
    intro hn
    simp only [fields, if_pos (List.prefix_append _ _), List.drop_left, if_pos hn] at h
    cases h
  rw [not_or] at hne
  exact ⟨r, rfl, hne.1, hne.2, fields_eq hne.1 hne.2⟩

lemma Reads.blanks_eq {status r : Text} {e : Entry} {gap blanks rest : Text}
    (h : Reads status (status ++ r) e gap blanks rest) :
    (r.dropWhile isSpace).dropWhile nonSpace = blanks ++ (e.detail ++ rest) := by
  have htext := List.append_cancel_left h.text
  have hgap := takeWhile_word (a := e.path ++ (blanks ++ (e.detail ++ rest))) h.gap_space (by
    intro c t hc
    cases hp : e.path with
    | nil => exact absurd hp h.path_ne
    | cons d u =>
      rw [hp] at hc
      obtain ⟨rfl, -⟩ := List.cons.inj hc
      exact nonSpace_iff.mp (h.path_word d (by simp [hp])))
  rw [htext, hgap.2, (takeWhile_word h.path_word _).2]
  intro c t hc
  simp [nonSpace, h.path_ends c t hc]

lemma readable_of_fields {status v : Text} {f : Found} (hf : fields status v = some f)
    (hone : OneLine status (v, f))
    (hfree : ((v.drop status.length).takeWhile isSpace).getLast? = some '\n' →
      ¬ status <+: (v.drop status.length).dropWhile isSpace) : Readable status v := by
  obtain ⟨e, gap, blanks, he, hr, hdetail⟩ := hone
  obtain ⟨r, rfl, hgap, hpath, hfields⟩ := exists_fields hf
  obtain rfl := Option.some.inj (hf.symm.trans hfields)
  have ht := Reads.blanks_eq hr
  rw [List.drop_left] at hfree
  constructor <;> rw [List.drop_left]
  case gap => exact hgap
  case path => exact hpath
  case free => exact hfree
  case detail =>
    by_cases hnil : e.detail = []
    · right
      have hu : (((r.dropWhile isSpace).dropWhile nonSpace).dropWhile isSpace).takeWhile notNewline = [] := by
        obtain rfl := Option.some.inj he
        exact hnil
      cases hd : ((r.dropWhile isSpace).dropWhile nonSpace).dropWhile isSpace with
      | nil => rfl
      | cons c u =>
        have hc := dropWhile_head _ hd
        have hn : notNewline c = true := notNewline_iff.mpr (by rintro rfl; simp at hc)
        rw [hd, List.takeWhile_cons_of_pos hn] at hu
        cases hu
    · left
      rw [ht, (takeWhile_word hr.blanks_space _).1]
      · exact hdetail.resolve_right hnil
      · intro c t hc
        cases hx : e.detail with
        | nil => exact absurd hx hnil
        | cons d u =>
          rw [hx] at hc
          obtain ⟨rfl, -⟩ := List.cons.inj hc
          exact hr.detail_head d u hx

lemma Readable.oneLine {status v : Text} {f : Found} (h : Readable status v) (hf : fields status v = some f) :
    OneLine status (v, f) := by
  obtain ⟨e, gap, blanks, he, hr⟩ := exists_reads hf
  refine ⟨e, gap, blanks, he, hr, ?_⟩
  have hdetail := h.detail
  obtain ⟨r, rfl, -, -, -⟩ := exists_fields hf
  rw [List.drop_left, Reads.blanks_eq hr] at hdetail
  obtain hn | hn := hdetail
  · left
    rw [List.takeWhile_append_of_pos hr.blanks_space] at hn
    exact fun hm => hn (List.mem_append_left _ hm)
  · right
    cases hx : e.detail with
    | nil => rfl
    | cons c u =>
      have hc := List.dropWhile_eq_nil_iff.mp hn c (by simp [hx])
      simp [hr.detail_head c u hx] at hc

section

variable {status : Text} (hhead : ∃ d, status.head? = some d ∧ isSpace d = false) (hline : '\n' ∉ status)

include hhead in
lemma finditer_lineRe (text : Text) :
    (lineRe status).finditer text = walk (fields status) text.length (heads text) := by
  apply finditer_walk (matchAt_lineRe status)
  exact if_neg (not_prefix_of_blank hhead (by simp))

include hhead in
lemma length_entries (text : Text) :
    (entries (lineRe status) text).length = ((lineRe status).finditer text).length := by
  rw [entries_eq_finditer, List.length_filterMap_eq_countP, List.countP_eq_length]
  rintro ⟨v, f⟩ hf
  rw [finditer_lineRe hhead] at hf
  obtain ⟨e, -, -, he, -⟩ := exists_reads (mem_walk hf).2
  exact Option.isSome_iff_exists.mpr ⟨e, he⟩

lemma prefix_of_fields {v : Text} (h : (fields status v).isSome) : status <+: v := by
  by_contra hs
  simp [fields, hs] at h

lemma Clean.isSome_fields {text v : Text} (h : Clean status text) (hv : v ∈ heads text) :
    (fields status v).isSome = decide (status <+: v) := by
  by_cases hs : status <+: v
  · obtain ⟨r, rfl⟩ := hs
    obtain ⟨hgap, hpath, -, -⟩ := h _ hv (List.prefix_append _ _)
    rw [List.drop_left] at hgap hpath
    simp [fields_eq hgap hpath]
  · simp [fields, hs]

lemma length_lt_of_gap {text v : Text} {f : Found} (hv : v ∈ heads text) (hf : fields status v = some f)
    (hgap : ((v.drop status.length).takeWhile isSpace).getLast? = some '\n') :
    (v.drop status.length).dropWhile isSpace ∈ heads text ∧
      ((v.drop status.length).dropWhile isSpace).length < v.length ∧
        f.2.length < ((v.drop status.length).dropWhile isSpace).length := by
  obtain ⟨r, rfl, -, hpath, hfields⟩ := exists_fields hf
  obtain rfl := Option.some.inj (hf.symm.trans hfields)
  rw [List.drop_left] at hgap ⊢
  obtain ⟨y, hy⟩ : ∃ y, r.takeWhile isSpace = y ++ ['\n'] := List.getLast?_eq_some_iff.mp hgap
  have hr : status ++ r = status ++ y ++ '\n' :: r.dropWhile isSpace := by
    conv_lhs => rw [← List.takeWhile_append_dropWhile (p := isSpace) (l := r), hy]
    simp
  rw [hr] at hv ⊢
  refine ⟨mem_heads_rest hv, ?_, ?_⟩
  · simp only [List.length_append, List.length_cons]
    omega
  · have hlen := congrArg List.length
      (List.takeWhile_append_dropWhile (p := nonSpace) (l := r.dropWhile isSpace))
    have hpos := List.length_pos_of_ne_nil hpath
    have hle (p : Char → Bool) (t : Text) : (t.dropWhile p).length ≤ t.length :=
      (List.dropWhile_suffix p).length_le
    have h1 := hle notNewline (((r.dropWhile isSpace).dropWhile nonSpace).dropWhile isSpace)
    have h2 := hle isSpace ((r.dropWhile isSpace).dropWhile nonSpace)
    rw [List.length_append] at hlen
    simp only
    omega

include hhead hline

lemma Clean.length_walk {text : Text} (h : Clean status text) :
    (walk (fields status) text.length (heads text)).length =
      (heads text).countP (fun v => decide (status <+: v)) := by
  have hwalk : walk (fields status) text.length (heads text) =
      (heads text).filterMap (fun v => (fields status v).map (v, ·)) := by
    apply walk_eq (fun v hv _ => length_le_of_mem_heads hv)
    apply (heads_pairwise text).imp_of_mem
    rintro v w hv - ⟨x, hx⟩ hs f hf
    have hstart := prefix_of_fields (Option.isSome_iff_exists.mpr ⟨f, hf⟩)
    exact (h v hv hstart).apart hhead hline hf hx (prefix_of_fields hs)
  rw [hwalk, List.length_filterMap_eq_countP]
  apply List.countP_congr
  intro v hv
  simp [← h.isSome_fields hv]

lemma clean_iff (text : Text) : Clean status text ↔
    ((lineRe status).finditer text).length = ((statusRe status).findall text).length ∧
      ∀ hit ∈ (lineRe status).finditer text, OneLine status hit := by
  have hne : status ≠ [] := by
    rintro rfl
    obtain ⟨d, hd, -⟩ := hhead
    cases hd
  rw [count_statusRe hne hline, finditer_lineRe hhead]
  constructor
  · intro h
    refine ⟨h.length_walk hhead hline, ?_⟩
    rintro ⟨v, f⟩ hf
    obtain ⟨hv, hf⟩ := mem_walk hf
    exact (h v hv (prefix_of_fields (Option.isSome_iff_exists.mpr ⟨f, hf⟩))).oneLine hf
  · rintro ⟨hcount, hone⟩ v hv hs
    have visited {w : Text} (hw : w ∈ heads text) (hs : status <+: w) :
        ∃ f, (w, f) ∈ walk (fields status) text.length (heads text) :=
      exists_mem_walk (fun v hv => by simpa using prefix_of_fields hv) hcount hw (by simpa using hs)
    obtain ⟨f, hf⟩ := visited hv hs
    refine readable_of_fields (mem_walk hf).2 (hone _ hf) ?_
    intro hgap hs'
    obtain ⟨hmem, hlt, hpast⟩ := length_lt_of_gap hv (mem_walk hf).2 hgap
    obtain ⟨g, hg⟩ := visited hmem hs'
    have hapart := walk_apart (fun _ _ => length_of_fields) (heads_lengths text) hf hg hlt
    exact absurd hapart (not_le.mpr hpast)

end

lemma length_partition (es : List Entry) (stale : List Text) :
    (partition es stale).1.length + (partition es stale).2.length = es.length := by
  rw [partition, List.partition_eq_filter_filter]
  exact List.length_eq_length_filter_add _ |>.symm

theorem agree_iff (sum : Text) (stale : List Text) :
    Agree sum stale ↔ Clean failTag (readText sum) ∧ Clean unresolvedTag (readText sum) := by
  have hF : ∃ d, failTag.head? = some d ∧ isSpace d = false := ⟨'F', rfl, by decide⟩
  have hU : ∃ d, unresolvedTag.head? = some d ∧ isSpace d = false := ⟨'U', rfl, by decide⟩
  rw [clean_iff hF (by decide), clean_iff hU (by decide), ← length_entries hF, ← length_entries hU]
  have hparse : parse sum =
      [⟨failCount, tests, ((statusRe failTag).findall (readText sum)).length⟩,
        ⟨unresolvedCount, tests, ((statusRe unresolvedTag).findall (readText sum)).length⟩] := rfl
  have hfail : (extract sum stale).fail.length + (extract sum stale).failStale.length =
      (entries failRe (readText sum)).length := length_partition _ _
  have hunresolved : (extract sum stale).unresolved.length + (extract sum stale).unresolvedStale.length =
      (entries unresolvedRe (readText sum)).length := length_partition _ _
  constructor
  · rintro ⟨hcounts, hf, hu⟩
    rw [hparse, hfail, hunresolved] at hcounts
    obtain ⟨h1, h2⟩ := List.cons.inj hcounts
    exact ⟨⟨(congrArg Metric.value h1).symm, hf⟩, (congrArg Metric.value (List.cons.inj h2).1).symm, hu⟩
  · rintro ⟨⟨h1, hf⟩, h2, hu⟩
    refine ⟨?_, hf, hu⟩
    rw [hparse, hfail, hunresolved, failRe, unresolvedRe, h1, h2]

def bareFail : Text := "FAIL: a.c\nFAIL: b.c x\n".toList

theorem agree_counterexample : ¬ Agree bareFail [] := by
  intro h
  exact absurd h.counts (by decide +kernel)

end ShMonitor.Detection.ParseDejagnu
