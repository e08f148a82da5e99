import Mathlib.Algebra.BigOperators.Group.List.Basic
import Mathlib.Algebra.Ring.Nat
import ShMonitor.Detection.Execution
import ShMonitor.Detection.ParseDejagnu

/-! `parse-sh-sim.py`: the counts of the simulator's sum files, and when they agree with the lists that
`extract-sh-sim-failures.py` reads from the same directory. The two scripts have the same `ISAS`, `SUITES`
and `KNOWN_FP_XFAIL`. -/

namespace ShMonitor.Detection.ParseShSim

open ShMonitor.Texts ShMonitor.Texts.Regex
open ExtractFailures (Entry done)
open ExtractShSimFailures
open Readings Execution
open ParseDejagnu (Metric tests)

variable (isWord : Char → Bool)

def passWord : Text := ['P', 'A', 'S', 'S']

def lineRe : Re :=
  .cat [.bol, .group (.alt (.lit passWord) (.lit failWord)), .lit [':', ' '], .group (.plus nonSpace),
    .star notNewline, .wordBoundary isWord, .lit word, .wordBoundary isWord]

structure Counts where
  npass : ℕ
  nfail : ℕ
  nxfail : ℕ
deriving DecidableEq, Repr

def tally (counts : Counts) : List Text → Counts
  | [result, path] =>
    if result = passWord then { counts with npass := counts.npass + 1 }
    else if isKnownFpXfail path then { counts with nxfail := counts.nxfail + 1 }
    else { counts with nfail := counts.nfail + 1 }
  | _ => counts

def count (sum : Option Text) : Counts :=
  match sum with
  | none => ⟨0, 0, 0⟩
  | some sum => ((lineRe isWord).findall (readText sum)).foldl tally ⟨0, 0, 0⟩

def failCount : Text := "sh_sim_fail_count".toList
def passCount : Text := "sh_sim_pass_count".toList
def xfailCount : Text := "sh_sim_known_fp_xfail_count".toList

def parse (outDir : SumDir) : List Metric :=
  let ints := isas.map (fun isa => count isWord (outDir .execute isa))
  let fps := isas.map (fun isa => count isWord (outDir .ieee isa))
  [⟨failCount, tests, ((ints ++ fps).map Counts.nfail).sum⟩,
    ⟨passCount, tests, ((ints ++ fps).map Counts.npass).sum⟩,
    ⟨xfailCount, tests, (fps.map Counts.nxfail).sum⟩] ++
  isas.flatMap (fun isa =>
    [⟨"sh_sim_int_pass_".toList ++ isa, tests, (count isWord (outDir .execute isa)).npass⟩,
      ⟨"sh_sim_int_fail_".toList ++ isa, tests, (count isWord (outDir .execute isa)).nfail⟩])

def valueOf (name : Text) (metrics : List Metric) : Option ℕ :=
  (metrics.find? (fun metric => decide (metric.name = name))).map Metric.value

structure Agree (dir : SumDir) : Prop where
  fail : valueOf failCount (parse isWord dir) = some (extract isWord dir).fail.length
  xfail : valueOf xfailCount (parse isWord dir) = some (extract isWord dir).failXfail.length

def reported (l : Text) : Option Text :=
  if failStart <+: l then captured isWord (l.drop failStart.length) else none

def readingsOf (sum : Option Text) : List Reading :=
  match sum with
  | none => []
  | some sum => readings none (lines (readText sum))

def listed (x : Reading) : List Text := if (execRe isWord).search x.entry.detail then [x.entry.path] else []

def gained : Reading → List Text
  | .own _ => []
  | .borrowed head line => if (execRe isWord).search (strip line) then [head.path] else []

def lost : Reading → List Text
  | .own head => (captured isWord head.text).toList.filter (fun path => decide (path ≠ head.path))
  | .borrowed head line => (captured isWord head.text).toList ++ (reported isWord line).toList

def overIsas (dir : SumDir) (f : Reading → List Text) (known : Bool) (suite : Suite) : ℕ :=
  (isas.map (fun isa =>
    ((readingsOf (dir suite isa)).flatMap f).countP (fun path => isKnownFpXfail path == known))).sum

structure Balanced (dir : SumDir) : Prop where
  fail : overIsas dir (gained isWord) false .execute + overIsas dir (gained isWord) false .ieee =
    overIsas dir (lost isWord) false .execute + overIsas dir (lost isWord) false .ieee
  xfail : overIsas dir (listed isWord) true .execute + overIsas dir (gained isWord) true .ieee =
    overIsas dir (lost isWord) true .ieee

variable {isWord}

lemma captured_of_blank {r : Text} (h : r.takeWhile nonSpace = []) : captured isWord r = none := by
  have hrun : (pathRe isWord).run done [failWord] ⟨failStart.reverse, r⟩ = none := run_plus_none h _ _ _
  rw [captured, hrun]
  rfl

lemma reported_of_failHead_none {l : Text} (h : failHead l = none) : reported isWord l = none := by
  rw [reported]
  split
  · exact captured_of_blank (failHead_none h ‹_›)
  · rfl

lemma reported_head (head : FailHead) :
    reported isWord (failStart ++ head.text) = captured isWord head.text := by
  rw [reported, if_pos (List.prefix_append _ _), List.drop_left]

lemma reported_of_blank {l : Text} (h : isBlank l = true) : reported isWord l = none := by
  rw [reported, if_neg]
  rintro ⟨r, rfl⟩
  exact absurd (isBlank_iff.mp h 'F' (by simp [failStart, ExtractFailures.failTag])) (by decide)

section

variable (hspace : ∀ c, isSpace c = true → isWord c = false)

include hspace

lemma captured_head (head : FailHead) (hl : '\n' ∉ head.rest) :
    captured isWord head.text = some head.path ↔ (execRe isWord).search (strip head.rest) = true := by
  have hblank : ∀ c u, head.rest = c :: u → isSpace c = true := by
    intro c u hc
    simpa [nonSpace] using head.rest_head c u hc
  rw [FailHead.text, captured_eq_path head.path_ne head.path_word head.rest_head hl, occurs_strip hspace hblank,
    search_iff_occurs]

lemma balance_own (head : FailHead) (hl : '\n' ∉ head.rest) :
    (captured isWord head.text).toList = listed isWord (.own head) ++ lost isWord (.own head) := by
  have hc := captured_head hspace head hl
  rw [listed, lost, Reading.entry]
  by_cases hs : (execRe isWord).search (strip head.rest) = true
  · rw [if_pos hs, hc.mpr hs]
    simp
  · rw [if_neg hs]
    cases hcap : captured isWord head.text with
    | none => rfl
    | some path =>
      have hne : path ≠ head.path := by
        rintro rfl
        exact hs (hc.mp hcap)
      simp [hne]

lemma balance (p : Text → Bool) {ls : List Text} (hls : ∀ l ∈ ls, '\n' ∉ l) :
    (ls.filterMap (reported isWord)).countP p + ((readings none ls).flatMap (gained isWord)).countP p =
        ((readings none ls).flatMap (listed isWord)).countP p +
          ((readings none ls).flatMap (lost isWord)).countP p ∧
      ∀ head, (captured isWord head.text).toList.countP p + (ls.filterMap (reported isWord)).countP p +
          ((readings (some head) ls).flatMap (gained isWord)).countP p =
        ((readings (some head) ls).flatMap (listed isWord)).countP p +
          ((readings (some head) ls).flatMap (lost isWord)).countP p := by
  have hborrowed (head : FailHead) (line : Text) (xs : List Reading) :
      (((Reading.borrowed head line :: xs).flatMap (gained isWord)).countP p =
        (listed isWord (.borrowed head line)).countP p + (xs.flatMap (gained isWord)).countP p) ∧
      ((Reading.borrowed head line :: xs).flatMap (lost isWord)).countP p =
        (captured isWord head.text).toList.countP p + (reported isWord line).toList.countP p +
          (xs.flatMap (lost isWord)).countP p := by
    constructor
    · rw [List.flatMap_cons, List.countP_append]
      rfl
    · rw [List.flatMap_cons, List.countP_append, lost, List.countP_append]
  induction ls with
  | nil =>
    refine ⟨rfl, ?_⟩
    intro head
    obtain ⟨hgained, hlost⟩ := hborrowed head [] []
    rw [readings, hgained, hlost, reported_of_blank rfl]
    simp only [List.flatMap_cons, List.countP_append, List.flatMap_nil, List.filterMap_nil, List.countP_nil,
      Option.toList_none]
    omega
  | cons l ls ih =>
    obtain ⟨ih, ih'⟩ := ih (fun m hm => hls m (List.mem_cons_of_mem l hm))
    constructor
    · rw [filterMap_cons_toList, readings]
      cases hh : failHead l with
      | none =>
        rw [reported_of_failHead_none hh]
        exact ih
      | some head =>
        obtain rfl := failHead_some hh
        rw [reported_head]
        dsimp only
        split
        · rw [List.countP_append]
          exact ih' head
        · have hrest : '\n' ∉ head.rest := fun hm => hls _ List.mem_cons_self (by simp [FailHead.text, hm])
          have hown := congrArg (List.countP p) (balance_own hspace head hrest)
          simp only [List.flatMap_cons, List.countP_append, gained, List.countP_nil] at hown ⊢
          omega
    · intro head
      rw [filterMap_cons_toList, readings]
      split
      · rw [reported_of_blank ‹_›]
        exact ih' head
      · obtain ⟨hgained, hlost⟩ := hborrowed head l (readings none ls)
        rw [hgained, hlost]
        simp only [List.flatMap_cons, List.countP_append]
        omega

end

def resultRe : Re := .alt (.lit passWord) (.lit failWord)

lemma run_resultRe_fail (k : Cont) (b r : Text) :
    resultRe.run k [] ⟨b, failWord ++ r⟩ = k [] ⟨failWord.reverse ++ b, r⟩ := by
  change ((Re.lit passWord).run k [] ⟨b, failWord ++ r⟩).or ((Re.lit failWord).run k [] ⟨b, failWord ++ r⟩) = _
  rw [run_lit_none (by simp [failWord, passWord]), run_lit, Option.none_or]

lemma run_resultRe (b a : Text) : (∀ k : Cont, resultRe.run k [] ⟨b, a⟩ = none) ∨
    ∃ result r, (result = passWord ∨ result = failWord) ∧ a = result ++ r ∧
      ∀ k : Cont, resultRe.run k [] ⟨b, a⟩ = k [] ⟨result.reverse ++ b, r⟩ := by
  have hrun (k : Cont) : resultRe.run k [] ⟨b, a⟩ =
      ((Re.lit passWord).run k [] ⟨b, a⟩).or ((Re.lit failWord).run k [] ⟨b, a⟩) := rfl
  by_cases hpass : passWord <+: a
  · obtain ⟨r, rfl⟩ := hpass
    have hfail : ¬ failWord <+: passWord ++ r := by simp [failWord, passWord]
    refine .inr ⟨passWord, r, .inl rfl, rfl, ?_⟩
    intro k
    rw [hrun, run_lit, run_lit_none hfail, Option.or_none]
  · by_cases hfail : failWord <+: a
    · obtain ⟨r, rfl⟩ := hfail
      exact .inr ⟨failWord, r, .inr rfl, rfl, fun k => run_resultRe_fail k b r⟩
    · refine .inl ?_
      intro k
      rw [hrun, run_lit_none hpass, run_lit_none hfail, Option.none_or]

lemma matchAt_lineRe_eq (b a : Text) : (lineRe isWord).matchAt b a = if Cursor.atLineStart ⟨b, a⟩ then
    (Re.group resultRe).run ((Re.seq (.lit [':', ' ']) (pathRe isWord)).run done) [] ⟨b, a⟩ else none := rfl

lemma matchAt_lineRe_none {b a : Text} (h : ∀ k : Cont, resultRe.run k [] ⟨b, a⟩ = none) :
    (lineRe isWord).matchAt b a = none := by
  rw [matchAt_lineRe_eq, run_group, h, ite_self]

variable (isWord) in
lemma matchAt_lineRe {b a result r : Text} (hb : Cursor.atLineStart ⟨b, a⟩ = true) (ha : a = result ++ r)
    (hresult : ∀ k : Cont, resultRe.run k [] ⟨b, a⟩ = k [] ⟨result.reverse ++ b, r⟩) :
    (lineRe isWord).matchAt b a =
      (Re.lit [':', ' ']).run ((pathRe isWord).run done) [result] ⟨result.reverse ++ b, r⟩ := by
  rw [matchAt_lineRe_eq, if_pos hb, run_group, hresult]
  simp only [ha, take_consumed, List.nil_append]
  rfl

lemma anchored_lineRe : Anchored (lineRe isWord) := by
  constructor
  case start =>
    intro b a hb
    rw [matchAt_lineRe_eq, hb]
    rfl
  case blank =>
    intro b c a hc
    apply matchAt_lineRe_none
    obtain h | ⟨result, r, rfl | rfl, ha, -⟩ := run_resultRe b (c :: a)
    · exact h
    · obtain ⟨rfl, -⟩ := List.cons.inj ha
      exact absurd hc (by decide)
    · obtain ⟨rfl, -⟩ := List.cons.inj ha
      exact absurd hc (by decide)
  case stop =>
    intro b
    apply matchAt_lineRe_none
    obtain h | ⟨result, r, rfl | rfl, ha, -⟩ := run_resultRe b []
    · exact h
    · cases ha
    · cases ha

lemma within_lineRe (h : isWord '\n' = false) : (lineRe isWord).Within :=
  ⟨trivial, ⟨within_lit (by decide), within_lit (by decide)⟩, within_lit (by decide), ⟨rfl, rfl⟩, rfl, h,
    within_lit (by decide), h, trivial⟩

def lineMatch (isWord : Char → Bool) (l : Text) : Option (List Text) :=
  ((lineRe isWord).matchAt [] l).map Prod.fst

variable (isWord) in
lemma lineMatch_cases (l : Text) :
    (reported isWord l = none ∧
      (lineMatch isWord l = none ∨ ∃ path, lineMatch isWord l = some [passWord, path])) ∨
      ∃ path, reported isWord l = some path ∧ lineMatch isWord l = some [failWord, path] := by
  rw [lineMatch]
  by_cases hstart : failStart <+: l
  · obtain ⟨r, rfl⟩ := hstart
    have hline : failStart ++ r = failWord ++ ([':', ' '] ++ r) := rfl
    have hmatch := captured_eq_map isWord r
    rw [reported, if_pos (List.prefix_append _ _), List.drop_left, hline,
      matchAt_lineRe isWord rfl rfl (fun k => run_resultRe_fail k _ _), run_lit]
    rw [show failStart.reverse = [':', ' '].reverse ++ (failWord.reverse ++ []) from rfl] at hmatch
    rw [hmatch]
    cases captured isWord r with
    | none => exact .inl ⟨rfl, .inl rfl⟩
    | some path => exact .inr ⟨path, rfl, rfl⟩
  · left
    rw [reported, if_neg hstart]
    refine ⟨rfl, ?_⟩
    obtain h | ⟨result, r, hresult, rfl, hrun⟩ := run_resultRe [] l
    · rw [matchAt_lineRe_none h]
      exact .inl rfl
    · rw [matchAt_lineRe isWord rfl rfl hrun]
      by_cases hcolon : [':', ' '] <+: r
      · obtain ⟨r, rfl⟩ := hcolon
        obtain rfl := hresult.resolve_right
          (by rintro rfl; exact hstart ⟨r, by simp [failStart, failWord, ExtractFailures.failTag]⟩)
        rw [run_lit]
        cases hf : (pathRe isWord).run done [passWord] ⟨[':', ' '].reverse ++ (passWord.reverse ++ []), r⟩ with
        | none => exact .inl rfl
        | some f =>
          obtain ⟨path, -, -, hgroups, -⟩ := run_pathRe hf
          exact .inr ⟨path, congrArg some hgroups⟩
      · rw [run_lit_none hcolon]
        exact .inl rfl

def Counts.fails (counts : Counts) (known : Bool) : ℕ := if known then counts.nxfail else counts.nfail

lemma fails_tally_pass (counts : Counts) (path : Text) (known : Bool) :
    (tally counts [passWord, path]).fails known = counts.fails known := by
  cases known <;> rfl

lemma fails_tally_fail (counts : Counts) (path : Text) (known : Bool) :
    (tally counts [failWord, path]).fails known =
      counts.fails known + [path].countP (fun path => isKnownFpXfail path == known) := by
  have hne : ¬ failWord = passWord := by decide
  rw [tally, if_neg hne, List.countP_singleton]
  cases known <;> cases isKnownFpXfail path <;> rfl

lemma fails_foldl (ls : List Text) (counts : Counts) (known : Bool) :
    ((ls.filterMap (lineMatch isWord)).foldl tally counts).fails known =
      counts.fails known + (ls.filterMap (reported isWord)).countP
        (fun path => isKnownFpXfail path == known) := by
  induction ls generalizing counts with
  | nil => rfl
  | cons l ls ih =>
    obtain ⟨hr, hm | ⟨path, hm⟩⟩ | ⟨path, hr, hm⟩ := lineMatch_cases isWord l
    · rw [List.filterMap_cons_none hm, List.filterMap_cons_none hr]
      exact ih counts
    · rw [List.filterMap_cons_some hm, List.filterMap_cons_none hr, List.foldl_cons, ih, fails_tally_pass]
    · rw [List.filterMap_cons_some hm, List.filterMap_cons_some hr, List.foldl_cons, ih, fails_tally_fail,
        Nat.add_assoc, ← List.countP_append, List.singleton_append]

lemma count_balance (hspace : ∀ c, isSpace c = true → isWord c = false) (sum : Option Text) (known : Bool) :
    (count isWord sum).fails known +
        ((readingsOf sum).flatMap (gained isWord)).countP (fun path => isKnownFpXfail path == known) =
      ((readingsOf sum).flatMap (listed isWord)).countP (fun path => isKnownFpXfail path == known) +
        ((readingsOf sum).flatMap (lost isWord)).countP (fun path => isKnownFpXfail path == known) := by
  cases sum with
  | none => cases known <;> rfl
  | some sum =>
    have hfails : (count isWord (some sum)).fails known =
        ((lines (readText sum)).filterMap (reported isWord)).countP
          (fun path => isKnownFpXfail path == known) := by
      have hfindall : (lineRe isWord).findall (readText sum) =
        (lines (readText sum)).filterMap (lineMatch isWord) :=
        findall_within anchored_lineRe (within_lineRe (hspace '\n' rfl)) _
      rw [count, hfindall, fails_foldl]
      cases known <;> exact Nat.zero_add _
    rw [hfails]
    exact (balance hspace _ (fun l hl => newline_not_mem hl)).1

variable (isWord) in
def extracted (sum : Option Text) (isa : Text) : Extracted :=
  match sum with
  | none => ⟨[], []⟩
  | some sum => extractFile isWord isa sum

lemma length_extracted (sum : Option Text) (isa : Text) :
    (extracted isWord sum isa).fail.length =
        ((readingsOf sum).flatMap (listed isWord)).countP (fun path => isKnownFpXfail path == false) ∧
      (extracted isWord sum isa).failXfail.length =
        ((readingsOf sum).flatMap (listed isWord)).countP (fun path => isKnownFpXfail path == true) := by
  cases sum with
  | none => exact ⟨rfl, rfl⟩
  | some sum =>
    have hcount (q : Text → Bool) :
      (((fileMatches sum).filter (fun e => (execRe isWord).search e.detail)).countP
        (fun e => q e.path)) = ((readings none (lines (readText sum))).flatMap (listed isWord)).countP q := by
      rw [fileMatches_eq_readings]
      induction readings none (lines (readText sum)) with
      | nil => rfl
      | cons x xs ih =>
        rw [List.flatMap_cons, List.countP_append, List.map_cons, listed, List.filter_cons]
        split
        · rw [List.countP_cons, ih, List.countP_singleton, Nat.add_comm]
        · rw [ih]
          simp
    simp only [extracted, extractFile, List.partition_eq_filter_filter, List.length_map, readingsOf, ← hcount,
      List.countP_eq_length_filter]
    constructor <;> congr 2 <;> funext e <;> simp

lemma total_balance (hspace : ∀ c, isSpace c = true → isWord c = false) (dir : SumDir) (known : Bool)
    (suite : Suite) :
    (isas.map (fun isa => (count isWord (dir suite isa)).fails known)).sum + overIsas dir (gained isWord)
    known suite =
      overIsas dir (listed isWord) known suite + overIsas dir (lost isWord) known suite := by
  rw [overIsas, overIsas, overIsas, ← List.sum_map_add, ← List.sum_map_add]
  congr 2
  funext isa
  exact count_balance hspace (dir suite isa) known

variable (isWord) in
lemma length_extract (dir : SumDir) :
    (extract isWord dir).fail.length = overIsas dir (listed isWord) false .execute + overIsas dir
      (listed isWord) false .ieee ∧
      (extract isWord dir).failXfail.length =
        overIsas dir (listed isWord) true .execute + overIsas dir (listed isWord) true .ieee := by
  have hextract : extract isWord dir =
      let files := isas.flatMap (fun isa => [extracted isWord (dir .execute isa) isa,
        extracted isWord (dir .ieee isa) isa])
      ⟨files.flatMap Extracted.fail, files.flatMap Extracted.failXfail⟩ := rfl
  rw [hextract]
  simp only [isas, overIsas, List.flatMap_cons, List.flatMap_nil, List.map_cons, List.map_nil,
    List.length_append,
    List.cons_append, List.nil_append, List.append_nil, List.sum_cons, List.sum_nil, length_extracted]
  omega

lemma valueOf_head (metric : Metric) (metrics : List Metric) :
    valueOf metric.name (metric :: metrics) = some metric.value := by
  rw [valueOf, List.find?_cons_of_pos (by exact decide_eq_true rfl)]
  rfl

lemma valueOf_tail {name : Text} (metric : Metric) (h : metric.name ≠ name) (metrics : List Metric) :
    valueOf name (metric :: metrics) = valueOf name metrics := by
  rw [valueOf, List.find?_cons_of_neg (by simpa using h)]
  rfl

lemma valueOf_fail (dir : SumDir) : valueOf failCount (parse isWord dir) =
    some ((isas.map (fun isa => (count isWord (dir .execute isa)).fails false)).sum +
      (isas.map (fun isa => (count isWord (dir .ieee isa)).fails false)).sum) := by
  refine (valueOf_head ⟨failCount, tests, _⟩ _).trans ?_
  rw [List.map_append, List.sum_append, List.map_map, List.map_map]
  rfl

lemma valueOf_xfail (dir : SumDir) : valueOf xfailCount (parse isWord dir) =
    some (isas.map (fun isa => (count isWord (dir .ieee isa)).fails true)).sum := by
  have hfail : failCount ≠ xfailCount := by decide +kernel
  have hpass : passCount ≠ xfailCount := by decide +kernel
  refine (valueOf_tail ⟨failCount, tests, _⟩ hfail _).trans ?_
  refine (valueOf_tail ⟨passCount, tests, _⟩ hpass _).trans ?_
  refine (valueOf_head ⟨xfailCount, tests, _⟩ _).trans ?_
  rw [List.map_map]
  rfl

theorem simCounts_agree_iff (isWord : Char → Bool) (hspace : ∀ c, isSpace c = true → isWord c = false)
    (dir : SumDir) :
    Agree isWord dir ↔ Balanced isWord dir := by
  have hfail := (length_extract isWord dir).1
  have hxfail := (length_extract isWord dir).2
  have hexecute := total_balance hspace dir false .execute
  have hieee := total_balance hspace dir false .ieee
  have hknown := total_balance hspace dir true .ieee
  constructor
  · rintro ⟨h, h'⟩
    rw [valueOf_fail, hfail] at h
    rw [valueOf_xfail, hxfail] at h'
    have h := Option.some.inj h
    have h' := Option.some.inj h'
    constructor <;> omega
  · rintro ⟨h, h'⟩
    constructor
    · rw [valueOf_fail, hfail]
      congr 1
      omega
    · rw [valueOf_xfail, hxfail]
      congr 1
      omega

lemma isAsciiWord_of_isSpace (c : Char) (h : isSpace c = true) : isAsciiWord c = false := by
  by_contra hw
  rw [Bool.not_eq_false] at hw
  have hrange : c.toNat < 123 ∧ 47 < c.toNat := by
    rw [isAsciiWord, Char.isAlphanum] at hw
    delta Char.isAlpha Char.isUpper Char.isLower at hw
    simp only [Char.isDigit, Bool.or_eq_true, Bool.and_eq_true, decide_eq_true_eq, ge_iff_le,
      UInt32.le_iff_toNat_le, beq_iff_eq] at hw
    obtain ((hw | hw) | hw) | rfl := hw
    · exact ⟨Nat.lt_of_le_of_lt hw.2 (by decide), Nat.lt_of_lt_of_le (by decide) hw.1⟩
    · exact ⟨Nat.lt_of_le_of_lt hw.2 (by decide), Nat.lt_of_lt_of_le (by decide) hw.1⟩
    · exact ⟨Nat.lt_of_le_of_lt hw.2 (by decide), Nat.lt_of_lt_of_le (by decide) hw.1⟩
    · decide
  simp only [isSpace, Bool.or_eq_true, Bool.and_eq_true, decide_eq_true_eq, beq_iff_eq] at h
  omega

def bareFail : SumDir := fun suite isa =>
  if suite = .execute ∧ isa = ['m', '2'] then some "FAIL: a.c\nPASS: b.c execution test\n".toList else none

theorem simCounts_agree_iff_bareFail : Agree isAsciiWord bareFail ↔ Balanced isAsciiWord bareFail :=
  simCounts_agree_iff isAsciiWord isAsciiWord_of_isSpace bareFail

theorem simCounts_agree_counterexample : ¬ Agree isAsciiWord bareFail := by
  intro h
  exact absurd h.fail (by decide +kernel)

end ShMonitor.Detection.ParseShSim
