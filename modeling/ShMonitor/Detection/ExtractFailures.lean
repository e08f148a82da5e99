import Mathlib.Data.List.Forall2
import ShMonitor.Texts.Regex

/-! `extract-failures.py`: the FAIL and UNRESOLVED lines of a dejagnu sum file. -/

namespace ShMonitor.Detection.ExtractFailures

open ShMonitor.Texts ShMonitor.Texts.Regex

structure Entry where
  path : Text
  detail : Text
deriving DecidableEq, Repr

def lineRe (status : Text) : Re :=
  .cat [.bol, .lit status, .plus isSpace, .group (.plus nonSpace), .star isSpace,
    .group (.star notNewline), .eol]

def failTag : Text := ['F', 'A', 'I', 'L', ':']
def unresolvedTag : Text := ['U', 'N', 'R', 'E', 'S', 'O', 'L', 'V', 'E', 'D', ':']

def failRe : Re := lineRe failTag
def unresolvedRe : Re := lineRe unresolvedTag

def toEntry : List Text → Option Entry
  | [p, d] => some ⟨p, d⟩
  | _ => none

def entries (re : Re) (text : Text) : List Entry := (re.findall text).filterMap toEntry

def signature (e : Entry) : Text := e.path ++ ' ' :: e.detail

def partition (es : List Entry) (stale : List Text) : List Entry × List Entry :=
  es.partition (fun e => decide (signature e ∉ stale))

structure Extracted where
  fail : List Entry
  failStale : List Entry
  unresolved : List Entry
  unresolvedStale : List Entry
deriving DecidableEq, Repr

def extract (sum : Text) (stale : List Text) : Extracted :=
  let text := readText sum
  let fail := partition (entries failRe text) stale
  let unresolved := partition (entries unresolvedRe text) stale
  ⟨fail.1, fail.2, unresolved.1, unresolved.2⟩

def fields (status a : Text) : Option Found :=
  if status <+: a then
    let r := a.drop status.length
    let s := r.dropWhile isSpace
    let u := (s.dropWhile nonSpace).dropWhile isSpace
    if r.takeWhile isSpace = [] ∨ s.takeWhile nonSpace = [] then none
    else some ([s.takeWhile nonSpace, u.takeWhile notNewline], u.dropWhile notNewline)
  else none

def done : Cont := fun gs cur => some (gs, cur.after)

lemma takeWhile_consumed (p : Char → Bool) (a : Text) :
    a.take (a.length - (a.dropWhile p).length) = a.takeWhile p := by
  have h := take_consumed (a.takeWhile p) (a.dropWhile p)
  rwa [List.takeWhile_append_dropWhile] at h

lemma atLineEnd_dropWhile (b a : Text) : Cursor.atLineEnd ⟨b, a.dropWhile notNewline⟩ = true := by
  rw [Cursor.atLineEnd]
  cases hd : a.dropWhile notNewline with
  | nil => rfl
  | cons c t => simpa [notNewline] using dropWhile_head a hd

lemma run_detail (gs : List Text) (b t : Text) :
    (Re.cat [.star isSpace, .group (.star notNewline), .eol]).run done gs ⟨b, t⟩ =
      some (gs ++ [(t.dropWhile isSpace).takeWhile notNewline],
        (t.dropWhile isSpace).dropWhile notNewline) := by
  simp only [run_cat_cons, run_cat_nil, Re.run]
  apply greedy_some
  apply greedy_some
  rw [if_pos (atLineEnd_dropWhile _ _), takeWhile_consumed]
  rfl

lemma run_path (gs : List Text) (b s : Text) :
    (Re.cat [.group (.plus nonSpace), .star isSpace, .group (.star notNewline), .eol]).run done gs ⟨b, s⟩ =
      if s.takeWhile nonSpace = [] then none
      else some (gs ++ [s.takeWhile nonSpace, ((s.dropWhile nonSpace).dropWhile isSpace).takeWhile notNewline],
        ((s.dropWhile nonSpace).dropWhile isSpace).dropWhile notNewline) := by
  rw [run_cat_cons, Re.run]
  split
  · exact run_plus_none ‹_› _ _ _
  · apply run_plus_some ‹_›
    rw [run_detail, takeWhile_consumed]
    simp

lemma matchAt_lineRe (status b a : Text) :
    (lineRe status).matchAt b a = if Cursor.atLineStart ⟨b, a⟩ then fields status a else none := by
  change (if Cursor.atLineStart ⟨b, a⟩ then (Re.cat [.lit status, .plus isSpace, .group (.plus nonSpace),
    .star isSpace, .group (.star notNewline), .eol]).run done [] ⟨b, a⟩ else none) = _
  congr 1
  rw [run_cat_cons, fields]
  by_cases hp : status <+: a
  · obtain ⟨r, rfl⟩ := hp
    rw [run_lit, run_cat_cons, if_pos (List.prefix_append _ _), List.drop_left]
    by_cases hg : r.takeWhile isSpace = []
    · simp [run_plus_none hg, hg]
    · rw [run_plus_possessive ?_ hg, run_path]
      · simp [hg]
      · intro b c a hc
        rw [run_path, if_pos]
        simp [nonSpace, hc]
  · rw [run_lit_none hp, if_neg hp]

structure Reads (status a : Text) (e : Entry) (gap blanks rest : Text) : Prop where
  text : a = status ++ (gap ++ (e.path ++ (blanks ++ (e.detail ++ rest))))
  gap_ne : gap ≠ []
  gap_space : ∀ c ∈ gap, isSpace c = true
  path_ne : e.path ≠ []
  path_word : ∀ c ∈ e.path, nonSpace c = true
  path_ends : ∀ c t, blanks ++ (e.detail ++ rest) = c :: t → isSpace c = true
  blanks_space : ∀ c ∈ blanks, isSpace c = true
  detail_line : '\n' ∉ e.detail
  detail_head : ∀ c t, e.detail = c :: t → isSpace c = false
  rest_ends : Ends rest

lemma ends_dropWhile (a : Text) : Ends (a.dropWhile notNewline) := by
  cases hd : a.dropWhile notNewline with
  | nil => exact Or.inl rfl
  | cons c t =>
    have hc := dropWhile_head a hd
    exact Or.inr ⟨t, by simpa [notNewline] using hc⟩

lemma exists_reads {status a : Text} {f : Found} (h : fields status a = some f) :
    ∃ e gap blanks, toEntry f.1 = some e ∧ Reads status a e gap blanks f.2 := by
  rw [fields] at h
  split at h
  · obtain ⟨r, rfl⟩ := ‹status <+: a›
    simp only [List.drop_left] at h
    split at h
    · cases h
    · rename_i hne
      rw [not_or] at hne
      obtain rfl := Option.some.inj h
      let s := r.dropWhile isSpace
      let t := s.dropWhile nonSpace
      refine ⟨⟨s.takeWhile nonSpace, (t.dropWhile isSpace).takeWhile notNewline⟩, r.takeWhile isSpace,
        t.takeWhile isSpace, rfl, ?_⟩
      constructor
      case text => simp [s, t]
      case gap_ne => exact hne.1
      case path_ne => exact hne.2
      case rest_ends => exact ends_dropWhile _
      case path_ends =>
        intro c u hu
        rw [← List.append_assoc, List.append_assoc, List.takeWhile_append_dropWhile,
          List.takeWhile_append_dropWhile] at hu
        simpa [nonSpace] using dropWhile_head s hu
      case gap_space | path_word | blanks_space => exact fun c hc => List.mem_takeWhile_imp hc
      case detail_line =>
        intro hm
        simpa [notNewline] using List.mem_takeWhile_imp hm
      case detail_head =>
        intro c u hu
        obtain ⟨v, hv⟩ := takeWhile_head hu
        exact dropWhile_head t hv
  · cases h

lemma mem_entries {status text : Text} {e : Entry} (h : e ∈ entries (lineRe status) text) :
    ∃ u v gap blanks rest, text = u ++ v ∧ Cursor.atLineStart ⟨u.reverse, v⟩ = true ∧
      Reads status v e gap blanks rest := by
  obtain ⟨gs, hg, he⟩ := List.mem_filterMap.mp h
  obtain ⟨u, v, rest, rfl, hm⟩ := mem_findall hg
  rw [matchAt_lineRe] at hm
  split at hm
  · obtain ⟨e', gap, blanks, he', hr⟩ := exists_reads hm
    obtain rfl := Option.some.inj (he'.symm.trans he)
    exact ⟨u, v, gap, blanks, rest, rfl, ‹_›, hr⟩
  · cases hm

lemma mem_entries_line {status l : Text} (hl : '\n' ∉ l) {e : Entry} (h : e ∈ entries (lineRe status) l) :
    ∃ gap blanks, Reads status l e gap blanks [] := by
  obtain ⟨u, v, gap, blanks, rest, rfl, hstart, hr⟩ := mem_entries h
  have hu : u = [] := by
    cases u using List.reverseRecOn with
    | nil => rfl
    | append_singleton u c =>
      simp only [Cursor.atLineStart, List.reverse_append, List.reverse_singleton, List.singleton_append,
        beq_iff_eq] at hstart
      simp [hstart] at hl
  subst hu
  have hrest : rest = [] := by
    obtain hn | ⟨t, rfl⟩ := hr.rest_ends
    · exact hn
    · rw [List.nil_append, hr.text] at hl
      simp at hl
  subst hrest
  exact ⟨gap, blanks, hr⟩

def Trimmed (t : Text) : Prop :=
  (∀ c ∈ t.head?, isSpace c = false) ∧ ∀ c ∈ t.getLast?, isSpace c = false

structure FailLine (l : Text) (e : Entry) : Prop where
  text : ∃ blanks, blanks ≠ [] ∧ (∀ c ∈ blanks, isSpace c = true) ∧
    l = failTag ++ ' ' :: (e.path ++ (blanks ++ e.detail))
  path_ne : e.path ≠ []
  path_word : ∀ c ∈ e.path, nonSpace c = true
  detail_ne : e.detail ≠ []
  detail_trimmed : Trimmed e.detail

def WellFormed (text : Text) : Prop :=
  ∀ l ∈ lines text, failTag <+: l → ∃ e, FailLine l e

def failEntry (l : Text) : Option Entry :=
  if failTag <+: l then
    let r := l.drop (failTag.length + 1)
    some ⟨r.takeWhile nonSpace, (r.dropWhile nonSpace).dropWhile isSpace⟩
  else none

def failLines (text : Text) : List Entry := (lines text).filterMap failEntry

lemma failEntry_eq {l : Text} {e : Entry} (h : FailLine l e) : failEntry l = some e := by
  obtain ⟨⟨blanks, hne, hb, rfl⟩, -, hw, hd, ht⟩ := h
  have h1 := takeWhile_word (p := nonSpace) (w := e.path) (a := blanks ++ e.detail) hw (by
    rintro c t h
    cases blanks with
    | nil => exact absurd rfl hne
    | cons d u =>
      obtain ⟨rfl, -⟩ := List.cons.inj h
      simp [nonSpace, hb])
  have h2 := takeWhile_word (p := isSpace) (w := blanks) (a := e.detail) hb (by
    rintro c t h
    exact ht.1 c (by simp [h]))
  have hdrop : (failTag ++ ' ' :: (e.path ++ (blanks ++ e.detail))).drop (failTag.length + 1) =
      e.path ++ (blanks ++ e.detail) := rfl
  rw [failEntry, if_pos (List.prefix_append _ _)]
  simp only [hdrop, h1, h2]

def HasFailForm (l : Text) : Prop :=
  let r := l.drop (failTag.length + 1)
  let t := r.dropWhile nonSpace
  failTag ++ [' '] <+: l ∧ r.takeWhile nonSpace ≠ [] ∧ t.takeWhile isSpace ≠ [] ∧
    t.dropWhile isSpace ≠ [] ∧ Trimmed (t.dropWhile isSpace)

instance (t : Text) : Decidable (Trimmed t) :=
  @instDecidableAnd _ _ (Option.decidableForallMem _) (Option.decidableForallMem _)

instance (l : Text) : Decidable (HasFailForm l) := inferInstanceAs (Decidable (_ ∧ _ ∧ _ ∧ _ ∧ _))

lemma exists_failLine_iff (l : Text) : (∃ e, FailLine l e) ↔ HasFailForm l := by
  constructor
  · rintro ⟨e, h⟩
    obtain ⟨⟨blanks, hne, hb, rfl⟩, hp, hw, hd, ht⟩ := h
    have hpath := takeWhile_word (a := blanks ++ e.detail) hw (by
      intro c t hc
      cases blanks with
      | nil => exact absurd rfl hne
      | cons d u =>
        obtain ⟨rfl, -⟩ := List.cons.inj hc
        simp [nonSpace, hb])
    have hblank := takeWhile_word (a := e.detail) hb (fun c t hc => ht.1 c (by simp [hc]))
    have hdrop : (failTag ++ ' ' :: (e.path ++ (blanks ++ e.detail))).drop (failTag.length + 1) =
        e.path ++ (blanks ++ e.detail) := rfl
    simp only [HasFailForm, hdrop, hpath, hblank]
    exact ⟨⟨e.path ++ (blanks ++ e.detail), by simp⟩, hp, hne, hd, ht⟩
  · rintro ⟨⟨r, rfl⟩, hp, hb, hd, ht⟩
    have hdrop : (failTag ++ [' '] ++ r).drop (failTag.length + 1) = r := rfl
    simp only [hdrop] at hp hb hd ht
    refine ⟨⟨_, _⟩, ⟨_, hb, fun c hc => List.mem_takeWhile_imp hc, ?_⟩, hp,
      fun c hc => List.mem_takeWhile_imp hc, hd, ht⟩
    simp

instance (text : Text) : Decidable (WellFormed text) :=
  decidable_of_iff (∀ l ∈ lines text, failTag <+: l → HasFailForm l)
    (forall₂_congr (fun l _ => imp_congr_right (fun _ => (exists_failLine_iff l).symm)))

lemma anchored_lineRe {d : Char} (hd : isSpace d = false) (status : Text) :
    Anchored (lineRe (d :: status)) := by
  constructor
  case start =>
    intro b a hb
    rw [matchAt_lineRe, hb]
    rfl
  case blank =>
    intro b c a hc
    have hne : ¬ d :: status <+: c :: a := by
      intro h
      obtain ⟨rfl, -⟩ := List.cons_prefix_cons.mp h
      simp [hc] at hd
    rw [matchAt_lineRe, fields, if_neg hne, ite_self]
  case stop =>
    intro b
    have hne : ¬ d :: status <+: ([] : Text) := by simp
    rw [matchAt_lineRe, fields, if_neg hne, ite_self]

lemma failRe_passes {l : Text} (h : ¬ failTag <+: l) : PassesLine failRe l := by
  intro b tail ht
  have hne : ¬ failTag <+: l ++ tail := fun hp => h (prefix_of_ends (by decide) ht hp)
  rw [failRe, matchAt_lineRe, fields, if_neg hne, ite_self]

lemma FailLine.newline_not_mem_detail {l : Text} {e : Entry} (h : FailLine l e) (hl : '\n' ∉ l) :
    '\n' ∉ e.detail := by
  obtain ⟨blanks, -, -, rfl⟩ := h.text
  simp only [List.mem_append, List.mem_cons, not_or] at hl
  exact hl.2.2.2.2

structure Runs (e : Entry) (blanks tail : Text) : Prop where
  path : ∀ c t, blanks ++ (e.detail ++ tail) = c :: t → nonSpace c = false
  blanks : (blanks ++ (e.detail ++ tail)).dropWhile isSpace = e.detail ++ tail
  detail : (e.detail ++ tail).takeWhile notNewline = e.detail
  tail : (e.detail ++ tail).dropWhile notNewline = tail

lemma FailLine.exists_runs {l : Text} {e : Entry} (h : FailLine l e) (hl : '\n' ∉ l) {tail : Text}
    (ht : Ends tail) :
    ∃ blanks, l ++ tail = failTag ++ ' ' :: (e.path ++ (blanks ++ (e.detail ++ tail))) ∧
      Runs e blanks tail := by
  have hn := h.newline_not_mem_detail hl
  obtain ⟨⟨blanks, hne, hb, rfl⟩, -, -, hd, htrim⟩ := h
  have hdetail := takeWhile_word (p := notNewline) (w := e.detail) (a := tail)
    (fun c hc => notNewline_iff.mpr (fun h => hn (h ▸ hc)))
    (by
      rintro c t rfl
      rcases ht with h | ⟨u, h⟩
      · cases h
      · obtain ⟨rfl, -⟩ := List.cons.inj h
        rfl)
  refine ⟨blanks, by simp, ?_, ?_, hdetail.1, hdetail.2⟩
  · intro c t hc
    cases blanks with
    | nil => exact absurd rfl hne
    | cons d u =>
      obtain ⟨rfl, -⟩ := List.cons.inj hc
      simp [nonSpace, hb d (by simp)]
  · refine (takeWhile_word hb ?_).2
    intro c t hc
    cases hx : e.detail with
    | nil => exact absurd hx hd
    | cons d u =>
      rw [hx] at hc
      obtain ⟨rfl, -⟩ := List.cons.inj hc
      exact htrim.1 d (by simp [hx])

lemma FailLine.path_head {l : Text} {e : Entry} (h : FailLine l e) {a : Text} {c : Char} {t : Text}
    (hc : e.path ++ a = c :: t) : isSpace c = false := by
  cases hx : e.path with
  | nil => exact absurd hx h.path_ne
  | cons d u =>
    rw [hx] at hc
    obtain ⟨rfl, -⟩ := List.cons.inj hc
    exact nonSpace_iff.mp (h.path_word d (by simp [hx]))

lemma failRe_reads {l : Text} {e : Entry} (hl : '\n' ∉ l) (h : FailLine l e) :
    ReadsLine failRe l [e.path, e.detail] := by
  intro b tail hstart htail
  obtain ⟨blanks, ha, hr⟩ := h.exists_runs hl htail
  refine ⟨[], tail, rfl, by simp, ?_⟩
  have hgap := takeWhile_word (p := isSpace) (w := [' ']) (by simp)
    (fun c t hc => h.path_head (a := blanks ++ (e.detail ++ tail)) hc)
  have hpath := takeWhile_word h.path_word hr.path
  have hstart' (a : Text) : Cursor.atLineStart ⟨b, a⟩ = true := hstart
  rw [failRe, matchAt_lineRe, if_pos (hstart' _), ha, fields, if_pos (List.prefix_append _ _), List.drop_left]
  simp only [List.singleton_append] at hgap
  simp only [hgap, hpath, hr.blanks, hr.detail, hr.tail]
  rw [if_neg]
  simp [h.path_ne]

lemma findall_failLines {r : Re} (hr : Anchored r) (hp : ∀ l, ¬ failTag <+: l → PassesLine r l)
    (hs : ∀ l e, '\n' ∉ l → FailLine l e → ReadsLine r l [e.path, e.detail])
    {text : Text} (h : WellFormed text) : (r.findall text).filterMap toEntry = failLines text := by
  have hf : r.findall text =
    (lines text).filterMap (fun l => (failEntry l).map (fun e => [e.path, e.detail])) := by
    apply findall_lines hr
    intro l hl
    by_cases ht : failTag <+: l
    · obtain ⟨e, he⟩ := h l hl ht
      simp only [failEntry_eq he, Option.map_some]
      refine ⟨?_, hs l e (newline_not_mem hl) he⟩
      rintro rfl
      exact absurd ht (by decide)
    · rw [failEntry, if_neg ht]
      exact hp l ht
  rw [hf, List.filterMap_filterMap, failLines]
  congr 1
  funext l
  cases failEntry l <;> rfl

lemma entries_failRe {text : Text} (h : WellFormed text) : entries failRe text = failLines text :=
  findall_failLines (anchored_lineRe rfl _) (fun _ => failRe_passes) (fun _ _ => failRe_reads) h

lemma forall₂_failLines {text : Text} (h : WellFormed text) :
    List.Forall₂ FailLine ((lines text).filter (fun l => decide (failTag <+: l))) (failLines text) := by
  rw [WellFormed] at h
  rw [failLines]
  generalize lines text = ls at h ⊢
  induction ls with
  | nil => exact .nil
  | cons l ls ih =>
    have hr := ih (fun m hm => h m (List.mem_cons_of_mem _ hm))
    by_cases ht : failTag <+: l
    · obtain ⟨e, he⟩ := h l (by simp) ht
      rw [List.filter_cons_of_pos (by simpa using ht), List.filterMap_cons_some (failEntry_eq he)]
      exact .cons he hr
    · rw [List.filter_cons_of_neg (by simpa using ht), List.filterMap_cons_none (by simp [failEntry, ht])]
      exact hr

lemma mem_failLines {text : Text} (h : WellFormed text) {e : Entry} (he : e ∈ failLines text) :
    ∃ l ∈ lines text, FailLine l e := by
  have hread := forall₂_failLines h
  obtain ⟨i, rfl⟩ := List.get_of_mem he
  have hi : i < ((lines text).filter (fun l => decide (failTag <+: l))).length := by
    rw [hread.length_eq]
    exact i.isLt
  exact ⟨_, (List.mem_filter.mp (List.get_mem _ ⟨i, hi⟩)).1, hread.get hi i.isLt⟩

lemma signature_inj {e e' : Entry} (h : ∀ c ∈ e.path, nonSpace c = true) (h' : ∀ c ∈ e'.path, nonSpace c = true)
    (hs : signature e = signature e') : e = e' := by
  have hsplit (e : Entry) (h : ∀ c ∈ e.path, nonSpace c = true) := takeWhile_word (a := ' ' :: e.detail) h (by
    intro c t hc
    obtain ⟨rfl, -⟩ := List.cons.inj hc
    rfl)
  have hpath : e.path = e'.path := by
    rw [← (hsplit e h).1, ← (hsplit e' h').1]
    exact congrArg (List.takeWhile nonSpace) hs
  have hdetail : ' ' :: e.detail = ' ' :: e'.detail := by
    rw [← (hsplit e h).2, ← (hsplit e' h').2]
    exact congrArg (List.dropWhile nonSpace) hs
  cases e
  cases e'
  simp_all

end ShMonitor.Detection.ExtractFailures
