import Mathlib.Algebra.BigOperators.Group.Finset.Basic
import Mathlib.Data.Char
import Mathlib.Data.List.Lex
import ShMonitor.Dashboard.Lanes
import ShMonitor.Lra.Corpus
import ShMonitor.Merging
import ShMonitor.Ranking
import ShMonitor.Texts.Fields

/-! `measure-sh-density.sh`: the bytes of .text that a corpus takes on each ISA, over the objects
that all of them have. A directory holds its files by their paths, each with what `size` prints of
it. The shell adds up in 64 bits; the sums here are those of corpora whose bytes stay below 2^63. -/

namespace ShMonitor.Sizes.Density

open Texts Merging Ranking Dashboard.Lanes
open Lra.Corpus (substitutedText)

abbrev Directory := Table Text

def isAwkBlank (c : Char) : Bool := c == ' ' || c == '\t'

def awkNumber (field : Text) : ℕ := Nat.ofDigitChars 10 (field.takeWhile Char.isDigit) 0

def dotText : Text := ['.', 't', 'e', 'x', 't']

def textRow (line : Text) : ℕ :=
  match words isAwkBlank line with
  | name :: size :: _ => if dotText <+: name then awkNumber size else 0
  | _ => 0

/-- `text_of`; of an object that is not there `size` prints nothing. -/
def textOf (printed : Option Text) : ℕ := ((readLines (printed.getD [])).map textRow).sum

def dotO : Text := ['.', 'o']

def objects (dir : Directory) : List Text := (dir.rows.map Prod.fst).filter (fun path => decide (dotO <:+ path))

def relObjects (dir : Directory) : Text := unlines (rank id (objects dir))

def comm (first second : Text) : Text := unlines (shared (readLines first) (readLines second))

def hereLines (text : Text) : List Text := readLines (text ++ ['\n'])

structure ThreeWay where
  m2 : Directory
  m2a : Directory
  m4 : Directory

structure Pair where
  m2 : Directory
  m4 : Directory

def addObject (dirs : ThreeWay) (sums : Density) (rel : Text) : Density :=
  if rel = [] then sums
  else
    { m2 := sums.m2 + textOf (dirs.m2.get rel)
      m2a := sums.m2a + textOf (dirs.m2a.get rel)
      m4 := sums.m4 + textOf (dirs.m4.get rel)
      common := sums.common + 1 }

def commonNames (dirs : ThreeWay) : Text :=
  substitutedText (comm (relObjects dirs.m2) (comm (relObjects dirs.m2a) (relObjects dirs.m4)))

def measureCommon (dirs : ThreeWay) : Density :=
  (hereLines (commonNames dirs)).foldl (addObject dirs) ⟨0, 0, 0, 0⟩

def addObject2 (dirs : Pair) (sums : TwoWay) (rel : Text) : TwoWay :=
  if rel = [] then sums
  else
    { m2 := sums.m2 + textOf (dirs.m2.get rel)
      m4 := sums.m4 + textOf (dirs.m4.get rel)
      common := sums.common + 1 }

def commonNames2 (dirs : Pair) : Text := substitutedText (comm (relObjects dirs.m2) (relObjects dirs.m4))

def measureCommon2 (dirs : Pair) : TwoWay := (hereLines (commonNames2 dirs)).foldl (addObject2 dirs) ⟨0, 0, 0⟩

variable {π : Type}

/-- The file that the script writes; a corpus that is not there counts as empty. -/
def measure (pct : ℕ → ℕ → π) (csibe coremark : Option ThreeWay) (busybox : Option Pair) : Metrics π :=
  buildMetrics pct
    [("csibe".toList, csibe.elim ⟨0, 0, 0, 0⟩ measureCommon),
      ("coremark".toList, coremark.elim ⟨0, 0, 0, 0⟩ measureCommon)]
    (busybox.elim ⟨0, 0, 0⟩ measureCommon2)

def LinePaths (dir : Directory) : Prop := ∀ path ∈ dir.rows.map Prod.fst, '\n' ∉ path

def Names (ls : List Text) : Prop := ls.Pairwise (· < ·) ∧ ∀ l ∈ ls, '\n' ∉ l ∧ l ≠ []

lemma names_objects {dir : Directory} (h : LinePaths dir) : Names (rank id (objects dir)) := by
  have hdistinct : ((objects dir).map id).Nodup := by
    rw [List.map_id]
    exact dir.distinct.sublist List.filter_sublist
  refine ⟨rank_strict hdistinct, ?_⟩
  intro l hl
  obtain ⟨hpath, ho⟩ := List.mem_filter.mp ((rank_perm id _).mem_iff.mp hl)
  refine ⟨h l hpath, ?_⟩
  rintro rfl
  exact absurd ho (by decide)

lemma Names.shared {l m : List Text} (h : Names l) : Names (shared l m) :=
  ⟨shared_sorted h.1 m, fun x hx => h.2 x ((shared_sublist l m).subset hx)⟩

lemma Names.readLines {l : List Text} (h : Names l) : readLines (unlines l) = l :=
  readLines_unlines (fun x hx => (h.2 x hx).1)

lemma comm_unlines {l m : List Text} (hl : Names l) (hm : Names m) :
    comm (unlines l) (unlines m) = unlines (shared l m) := by
  rw [comm, hl.readLines, hm.readLines]

lemma hereLines_names {l : List Text} (h : Names l) :
    hereLines (substitutedText (unlines l)) = if l = [] then [[]] else l := by
  rcases List.eq_nil_or_concat l with rfl | ⟨init, last, rfl⟩
  · rfl
  · obtain ⟨hline, hne⟩ := h.2 last (by simp)
    have hcut : substitutedText (unlines (init ++ [last])) = unlines init ++ last := by
      have hsplit : unlines (init ++ [last]) = (unlines init ++ last) ++ ['\n'] := by simp [unlines]
      rw [hsplit, substitutedText, List.rdropWhile_concat_pos _ _ _ rfl, List.rdropWhile_eq_self_iff]
      intro hne'
      rw [List.getLast_append_of_ne_nil hne' hne, beq_iff_eq]
      intro heq
      exact hline (heq ▸ List.getLast_mem hne)
    have hback : unlines init ++ last ++ ['\n'] = unlines (init ++ [last]) := by simp [unlines]
    rw [List.concat_eq_append] at h ⊢
    rw [hereLines, hcut, hback, h.readLines, if_neg (by simp)]

lemma foldl_names {σ : Type} {step : σ → Text → σ} (hskip : ∀ s, step s [] = s) {l : List Text}
    (h : Names l) (s : σ) :
    (hereLines (substitutedText (unlines l))).foldl step s = l.foldl step s := by
  rw [hereLines_names h]
  split
  · rename_i hnil
    rw [hnil]
    exact hskip s
  · rfl

def everywhere (dirs : ThreeWay) : Finset Text :=
  (objects dirs.m2).toFinset ∩ ((objects dirs.m2a).toFinset ∩ (objects dirs.m4).toFinset)

def everywhere2 (dirs : Pair) : Finset Text := (objects dirs.m2).toFinset ∩ (objects dirs.m4).toFinset

-- A sorted list of names and the set of its members.
structure Lists (l : List Text) (s : Finset Text) : Prop where
  names : Names l
  mem : ∀ x, x ∈ l ↔ x ∈ s

variable {l m : List Text} {s t : Finset Text}

lemma lists_objects {dir : Directory} (h : LinePaths dir) :
    Lists (rank id (objects dir)) (objects dir).toFinset where
  names := names_objects h
  mem _ := by rw [(rank_perm id (objects dir)).mem_iff, List.mem_toFinset]

lemma Lists.shared (h : Lists l s) (h' : Lists m t) : Lists (shared l m) (s ∩ t) where
  names := h.names.shared
  mem x := by rw [mem_shared h.names.1 h'.names.1, h.mem, h'.mem, Finset.mem_inter]

lemma Lists.unique (h : Lists l s) (h' : Lists m s) : l = m := by
  have hperm : l.Perm m :=
    (List.perm_ext_iff_of_nodup (h.names.1.imp ne_of_lt) (h'.names.1.imp ne_of_lt)).mpr
      (fun x => (h.mem x).trans (h'.mem x).symm)
  exact hperm.eq_of_pairwise (fun x y _ _ hxy hyx => absurd hxy (lt_asymm hyx)) h.names.1 h'.names.1

lemma Lists.sum (h : Lists l s) (f : Text → ℕ) : (l.map f).sum = ∑ rel ∈ s, f rel := by
  have heq : l.toFinset = s := by
    ext x
    rw [List.mem_toFinset, h.mem]
  rw [← heq, List.sum_toFinset f (h.names.1.imp ne_of_lt)]

-- One figure of the loop over the names, which passes over an empty line.
lemma Lists.figure {σ : Type} (h : Lists l s) {step : σ → Text → σ} (part : σ → ℕ) {f : Text → ℕ}
    (hstep : ∀ sums rel, part (step sums rel) = if rel = [] then part sums else part sums + f rel)
    (hskip : ∀ sums, step sums [] = sums) (start : σ) :
    part ((hereLines (substitutedText (unlines l))).foldl step start) = part start + ∑ rel ∈ s, f rel := by
  rw [foldl_names hskip h.names, ← h.sum f]
  have hne : ∀ x ∈ l, x ≠ [] := fun x hx => (h.names.2 x hx).2
  clear h
  induction l generalizing start with
  | nil => rfl
  | cons rel l ih =>
    rw [List.foldl_cons, ih (step start rel) (fun x hx => hne x (List.mem_cons_of_mem rel hx)), hstep,
      if_neg (hne rel List.mem_cons_self), List.map_cons, List.sum_cons, Nat.add_assoc]

lemma Lists.same_loop {σ : Type} (h : Lists l s) (h' : Lists m s) {step step' : σ → Text → σ}
    (hstep : ∀ sums, ∀ rel ∈ s, step sums rel = step' sums rel) (hskip : ∀ sums, step sums [] = sums)
    (hskip' : ∀ sums, step' sums [] = sums) (start : σ) :
    (hereLines (substitutedText (unlines l))).foldl step start =
      (hereLines (substitutedText (unlines m))).foldl step' start := by
  rw [foldl_names hskip h.names, foldl_names hskip' h'.names, h.unique h']
  exact List.foldl_ext step step' start (fun sums rel hrel => hstep sums rel ((h'.mem rel).mp hrel))

structure ThreeWay.Lines (dirs : ThreeWay) : Prop where
  m2 : LinePaths dirs.m2
  m2a : LinePaths dirs.m2a
  m4 : LinePaths dirs.m4

structure Pair.Lines (dirs : Pair) : Prop where
  m2 : LinePaths dirs.m2
  m4 : LinePaths dirs.m4

structure ThreeWay.Agree (dirs dirs' : ThreeWay) : Prop where
  objects : everywhere dirs = everywhere dirs'
  m2 : ∀ rel ∈ everywhere dirs, textOf (dirs.m2.get rel) = textOf (dirs'.m2.get rel)
  m2a : ∀ rel ∈ everywhere dirs, textOf (dirs.m2a.get rel) = textOf (dirs'.m2a.get rel)
  m4 : ∀ rel ∈ everywhere dirs, textOf (dirs.m4.get rel) = textOf (dirs'.m4.get rel)

structure Pair.Agree (dirs dirs' : Pair) : Prop where
  objects : everywhere2 dirs = everywhere2 dirs'
  m2 : ∀ rel ∈ everywhere2 dirs, textOf (dirs.m2.get rel) = textOf (dirs'.m2.get rel)
  m4 : ∀ rel ∈ everywhere2 dirs, textOf (dirs.m4.get rel) = textOf (dirs'.m4.get rel)

lemma commonNames_lists {dirs : ThreeWay} (h : dirs.Lines) :
    ∃ l, commonNames dirs = substitutedText (unlines l) ∧ Lists l (everywhere dirs) := by
  have h2a := lists_objects h.m2a
  have h4 := lists_objects h.m4
  have hboth := (lists_objects h.m2).shared (h2a.shared h4)
  refine ⟨_, ?_, hboth⟩
  rw [commonNames, relObjects, relObjects, relObjects, comm_unlines h2a.names h4.names,
    comm_unlines (names_objects h.m2) h2a.names.shared]

lemma commonNames2_lists {dirs : Pair} (h : dirs.Lines) :
    ∃ l, commonNames2 dirs = substitutedText (unlines l) ∧ Lists l (everywhere2 dirs) := by
  have h2 := lists_objects h.m2
  have h4 := lists_objects h.m4
  refine ⟨_, ?_, h2.shared h4⟩
  rw [commonNames2, relObjects, relObjects, comm_unlines h2.names h4.names]

lemma measureCommon_part {dirs : ThreeWay} (h : dirs.Lines) (part : Density → ℕ) (isa : ThreeWay → Directory)
    (hzero : part ⟨0, 0, 0, 0⟩ = 0)
    (hpart : ∀ sums rel, part (addObject dirs sums rel) =
      if rel = [] then part sums else part sums + textOf ((isa dirs).get rel)) :
    part (measureCommon dirs) = ∑ rel ∈ everywhere dirs, textOf ((isa dirs).get rel) := by
  obtain ⟨l, hnames, hlists⟩ := commonNames_lists h
  rw [measureCommon, hnames, hlists.figure part hpart (fun _ => rfl), hzero, Nat.zero_add]

lemma measureCommon_agree {dirs dirs' : ThreeWay} (hl : dirs.Lines) (hl' : dirs'.Lines) (h : dirs.Agree dirs') :
    measureCommon dirs = measureCommon dirs' := by
  obtain ⟨l, hnames, hlists⟩ := commonNames_lists hl
  obtain ⟨l', hnames', hlists'⟩ := commonNames_lists hl'
  rw [measureCommon, measureCommon, hnames, hnames']
  refine hlists.same_loop (h.objects ▸ hlists') (fun sums rel hrel => ?_) (fun _ => rfl) (fun _ => rfl) _
  rw [addObject, addObject, h.m2 rel hrel, h.m2a rel hrel, h.m4 rel hrel]

lemma measureCommon2_agree {dirs dirs' : Pair} (hl : dirs.Lines) (hl' : dirs'.Lines) (h : dirs.Agree dirs') :
    measureCommon2 dirs = measureCommon2 dirs' := by
  obtain ⟨l, hnames, hlists⟩ := commonNames2_lists hl
  obtain ⟨l', hnames', hlists'⟩ := commonNames2_lists hl'
  rw [measureCommon2, measureCommon2, hnames, hnames']
  refine hlists.same_loop (h.objects ▸ hlists') (fun sums rel hrel => ?_) (fun _ => rfl) (fun _ => rfl) _
  rw [addObject2, addObject2, h.m2 rel hrel, h.m4 rel hrel]

theorem measure_unskewed (pct : ℕ → ℕ → π) {csibe csibe' coremark coremark' : ThreeWay}
    {busybox busybox' : Pair}
    (hlines : csibe.Lines ∧ coremark.Lines ∧ busybox.Lines)
    (hlines' : csibe'.Lines ∧ coremark'.Lines ∧ busybox'.Lines)
    (hcsibe : csibe.Agree csibe') (hcoremark : coremark.Agree coremark') (hbusybox : busybox.Agree busybox') :
    measure pct (some csibe) (some coremark) (some busybox) = measure pct (some csibe') (some coremark')
      (some busybox') := by
  obtain ⟨h1, h2, h3⟩ := hlines
  obtain ⟨h1', h2', h3'⟩ := hlines'
  rw [measure, measure, Option.elim_some, Option.elim_some, Option.elim_some, measureCommon_agree h1 h1' hcsibe,
    measureCommon_agree h2 h2' hcoremark, measureCommon2_agree h3 h3' hbusybox]
  rfl

def aObject : Text := ['.', '/', 'a', '.', 'o']

def bObject : Text := ['.', '/', 'b', '.', 'o']

def printed : Text := ['.', 't', 'e', 'x', 't', ' ', '8', ' ', '0', '\n']

def oneObject : Directory := ⟨[(aObject, printed)], by decide⟩

def twoObjects : Directory := ⟨[(aObject, printed), (bObject, printed)], by decide⟩

lemma linePaths_one : LinePaths oneObject := by
  unfold LinePaths
  decide

lemma linePaths_two : LinePaths twoObjects := by
  unfold LinePaths
  decide

theorem measure_unskewed_two :
    measure (fun a b => a + b) (some ⟨twoObjects, oneObject, oneObject⟩)
      (some ⟨oneObject, oneObject, oneObject⟩) (some ⟨oneObject, oneObject⟩) =
      measure (fun a b => a + b) (some ⟨oneObject, oneObject, twoObjects⟩)
        (some ⟨oneObject, oneObject, oneObject⟩) (some ⟨oneObject, twoObjects⟩) :=
  have h1 := linePaths_one
  have h2 := linePaths_two
  measure_unskewed (fun a b => a + b) ⟨⟨h2, h1, h1⟩, ⟨h1, h1, h1⟩, ⟨h1, h1⟩⟩
    ⟨⟨h1, h1, h2⟩, ⟨h1, h1, h1⟩, ⟨h1, h2⟩⟩
    ⟨by decide, by decide, by decide, by decide⟩ ⟨rfl, fun _ _ => rfl, fun _ _ => rfl, fun _ _ => rfl⟩
    ⟨by decide, by decide, by decide⟩

def commonText (isa : ThreeWay → Directory) (corpora : List ThreeWay) : ℕ :=
  (corpora.map (fun dirs => ∑ rel ∈ everywhere dirs, textOf ((isa dirs).get rel))).sum

lemma total_corpora (part : Density → ℕ) (isa : ThreeWay → Directory) (hzero : part ⟨0, 0, 0, 0⟩ = 0)
    (hpart : ∀ dirs sums rel, part (addObject dirs sums rel) =
      if rel = [] then part sums else part sums + textOf ((isa dirs).get rel))
    (name name' : Text) {csibe coremark : Option ThreeWay} (hcsibe : ∀ dirs ∈ csibe, dirs.Lines)
    (hcoremark : ∀ dirs ∈ coremark, dirs.Lines) :
    densityTotal part [(name, csibe.elim ⟨0, 0, 0, 0⟩ measureCommon),
      (name', coremark.elim ⟨0, 0, 0, 0⟩ measureCommon)] =
      commonText isa (csibe.toList ++ coremark.toList) := by
  have hone : ∀ corpus : Option ThreeWay, (∀ dirs ∈ corpus, dirs.Lines) →
      part (corpus.elim ⟨0, 0, 0, 0⟩ measureCommon) = commonText isa corpus.toList := by
    intro corpus h
    cases corpus with
    | none => exact hzero
    | some dirs =>
      rw [Option.elim_some, measureCommon_part (h dirs rfl) part isa hzero (hpart dirs),
        Option.toList_some, commonText, List.map_singleton, List.sum_singleton]
  have happend : commonText isa (csibe.toList ++ coremark.toList) =
      commonText isa csibe.toList + commonText isa coremark.toList := by
    rw [commonText, List.map_append, List.sum_append]
    rfl
  rw [happend, ← hone csibe hcsibe, ← hone coremark hcoremark, densityTotal]
  simp

theorem totals_common (pct : ℕ → ℕ → π) {csibe coremark : Option ThreeWay} (busybox : Option Pair)
    (hcsibe : ∀ dirs ∈ csibe, dirs.Lines) (hcoremark : ∀ dirs ∈ coremark, dirs.Lines) :
    totalMetrics pct (commonText ThreeWay.m2 (csibe.toList ++ coremark.toList))
      (commonText ThreeWay.m2a (csibe.toList ++ coremark.toList))
      (commonText ThreeWay.m4 (csibe.toList ++ coremark.toList)) <:+: measure pct csibe coremark busybox := by
  have h2 := total_corpora Density.m2 ThreeWay.m2 rfl (fun dirs sums rel => by rw [addObject]; split <;> rfl)
    "csibe".toList "coremark".toList hcsibe hcoremark
  have h2a := total_corpora Density.m2a ThreeWay.m2a rfl (fun dirs sums rel => by rw [addObject]; split <;> rfl)
    "csibe".toList "coremark".toList hcsibe hcoremark
  have h4 := total_corpora Density.m4 ThreeWay.m4 rfl (fun dirs sums rel => by rw [addObject]; split <;> rfl)
    "csibe".toList "coremark".toList hcsibe hcoremark
  rw [measure, buildMetrics, h2, h2a, h4, ← List.append_assoc]
  exact List.infix_append _ _ _

theorem totals_common_two :
    totalMetrics (fun a b => a + b)
      (commonText ThreeWay.m2 ((some ⟨twoObjects, oneObject, oneObject⟩ : Option ThreeWay).toList ++
        Option.toList none))
      (commonText ThreeWay.m2a ((some ⟨twoObjects, oneObject, oneObject⟩ : Option ThreeWay).toList ++
        Option.toList none))
      (commonText ThreeWay.m4 ((some ⟨twoObjects, oneObject, oneObject⟩ : Option ThreeWay).toList ++
        Option.toList none)) <:+:
        measure (fun a b => a + b) (some ⟨twoObjects, oneObject, oneObject⟩) none none :=
  totals_common (fun a b => a + b) none
    (fun _ h => Option.some.inj h ▸ ⟨linePaths_two, linePaths_one, linePaths_one⟩)
      (fun _ h => absurd h (Option.not_mem_none _))

end ShMonitor.Sizes.Density
