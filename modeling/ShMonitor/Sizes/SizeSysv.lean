import ShMonitor.Bisect.Csibe
import ShMonitor.Bisect.ShSim
import ShMonitor.Texts.Fields
import ShMonitor.Texts.Table

/-! The bytes of one object, from the text of `size --format=sysv`: as the size analyser reads them into a
dictionary, and as `size_of_objects` adds them to its total. The shell's numbers have 64 bits. -/

namespace ShMonitor.Sizes.SizeSysv

open Texts
open Bisect.Csibe (Object codeSections objectSize)
open Bisect.ShSim (isIfs)

def sectionOn (line : Text) : Option (Text × ℕ) :=
  let parts := words isSpace line
  if 2 ≤ parts.length ∧ (parts.getD 0 []).head? = some '.' then
    (decimal (parts.getD 1 [])).map (fun n => (parts.getD 0 [], n))
  else none

def readSection (out : Table ℕ) (line : Text) : Table ℕ :=
  match sectionOn line with
  | some (name, n) => out.put name n
  | none => out

def parseSizeSysv (text : Text) : Table ℕ := (splitLines text).foldl readSection Table.empty

def codeBytes (sections : Table ℕ) : ℕ := (codeSections.map (fun s => (sections.get s).getD 0)).sum

/-- The lines that `tail` and `head` count, with a last one that no newline ends. -/
def countedLines (t : Text) : List Text := if (lines t).getLast? = some [] then (lines t).dropLast else lines t

def trimmed (t : Text) : List Text := ((countedLines t).drop 2).dropLast.dropLast

def addLine (total : BitVec 64) (line : Text) : BitVec 64 :=
  let fields := words isIfs line
  if codeSections.contains (fields.getD 0 []) then total + BitVec.ofNat 64
    ((decimal (fields.getD 1 [])).getD 0) else total

def addObject (total : BitVec 64) (text : Text) : BitVec 64 := (trimmed text).foldl addLine total

structure Row where
  name : Text
  size : ℕ
  address : ℕ
  pad : ℕ
  pad' : ℕ
  name_word : ∀ c ∈ name, isSpace c = false

def Row.line (row : Row) : Text :=
  row.name ++ (blanks row.pad ++ (Nat.toDigits 10 row.size ++ (blanks row.pad' ++ Nat.toDigits 10 row.address)))

structure Output where
  path : Text
  pad : ℕ
  pad' : ℕ
  rows : List Row
  padTotal : ℕ
  total : ℕ
  twoBlankLines : Bool
  path_ne : path ≠ []
  path_word : ∀ c ∈ path, isSpace c = false

namespace Output

def fileLine (out : Output) : Text := out.path ++ (blanks 1 ++ [':'])

def headerLine (out : Output) : Text :=
  "section".toList ++ (blanks out.pad ++ ("size".toList ++ (blanks out.pad' ++ "addr".toList)))

def totalLine (out : Output) : Text := "Total".toList ++ (blanks out.padTotal ++ Nat.toDigits 10 out.total)

def blankLines (out : Output) : List Text := if out.twoBlankLines then [[], []] else [[]]

def text (out : Output) : Text :=
  unlines ([out.fileLine, out.headerLine] ++ (out.rows.map Row.line ++ (out.totalLine :: out.blankLines)))

def object (out : Output) : Object := out.rows.map (fun row => (row.name, row.size))

end Output

def shadowedIn (s : Text) : Object → ℕ
  | [] => 0
  | row :: rows => (if row.1 = s ∧ (rows.map Prod.fst).contains s then row.2 else 0) + shadowedIn s rows

def shadowed (obj : Object) : ℕ := (codeSections.map (fun s => shadowedIn s obj)).sum

def Agree (out : Output) : Prop :=
  ∀ total, addObject total out.text = total + BitVec.ofNat 64 (codeBytes (parseSizeSysv out.text))

lemma isIfs_blank : isIfs ' ' = true := rfl

lemma isSpace_of_isIfs {c : Char} (h : isIfs c = true) : isSpace c = true := by
  rw [isIfs, Bool.or_eq_true, Bool.or_eq_true, beq_iff_eq, beq_iff_eq, beq_iff_eq] at h
  obtain (rfl | rfl) | rfl := h <;> rfl

lemma isIfs_of_word {w : Text} (hw : ∀ c ∈ w, isSpace c = false) : ∀ c ∈ w, isIfs c = false :=
  free_of_imp (fun _ => isSpace_of_isIfs) hw

lemma digits_word (n : ℕ) : ∀ c ∈ Nat.toDigits 10 n, isSpace c = false := by
  intro c hc
  have hdigit := isDigit_of_mem_toDigits hc
  rw [Char.isDigit, Bool.and_eq_true, decide_eq_true_iff, decide_eq_true_iff] at hdigit
  obtain ⟨h1, h2⟩ := hdigit
  have h1' : 48 ≤ c.toNat := h1
  have h2' : c.toNat ≤ 57 := h2
  by_contra hspace
  rw [Bool.not_eq_false] at hspace
  simp only [isSpace, Bool.or_eq_true, Bool.and_eq_true, decide_eq_true_eq, beq_iff_eq] at hspace
  omega

lemma decimal_toDigits (n : ℕ) : decimal (Nat.toDigits 10 n) = some n := by
  rw [decimal, if_pos ⟨Nat.toDigits_ne_nil, List.all_eq_true.mpr (fun c hc => isDigit_of_mem_toDigits hc)⟩,
    Nat.ofDigitChars_ten_toDigits]

lemma words_row {sep : Char → Bool} (hs : sep ' ' = true)
    (hword : ∀ w : Text, (∀ c ∈ w, isSpace c = false) → ∀ c ∈ w, sep c = false)
    (row : Row) : words sep row.line =
      (if row.name = [] then [] else [row.name]) ++
        [Nat.toDigits 10 row.size, Nat.toDigits 10 row.address] := by
  have hrest : words sep (Nat.toDigits 10 row.size ++ (blanks row.pad' ++ Nat.toDigits 10 row.address)) =
      [Nat.toDigits 10 row.size, Nat.toDigits 10 row.address] := by
    rw [words_field hs Nat.toDigits_ne_nil (hword _ (digits_word row.size)),
      words_word Nat.toDigits_ne_nil (hword _ (digits_word row.address))]
  rw [Row.line]
  by_cases hname : row.name = []
  · rw [if_pos hname, hname, List.nil_append, words_blanks hs, hrest, List.nil_append]
  · rw [if_neg hname, words_field hs hname (hword _ row.name_word), hrest]
    rfl

lemma isLineBreak_row (row : Row) : ∀ c ∈ row.line, isLineBreak c = false := by
  have hsize := isLineBreak_of_word (digits_word row.size)
  have haddress :=
    List.forall_mem_append.mpr ⟨isLineBreak_blanks row.pad', isLineBreak_of_word (digits_word row.address)⟩
  have hrest := List.forall_mem_append.mpr ⟨isLineBreak_blanks row.pad,
    List.forall_mem_append.mpr ⟨hsize, haddress⟩⟩
  exact List.forall_mem_append.mpr ⟨isLineBreak_of_word row.name_word, hrest⟩

namespace Output

variable (out : Output)

def allLines : List Text :=
  [out.fileLine, out.headerLine] ++ (out.rows.map Row.line ++ (out.totalLine :: out.blankLines))

lemma isLineBreak_allLines : ∀ l ∈ out.allLines, ∀ c ∈ l, isLineBreak c = false := by
  have hfile : ∀ c ∈ out.fileLine, isLineBreak c = false :=
    List.forall_mem_append.mpr ⟨isLineBreak_of_word out.path_word, none_of_any rfl⟩
  have hheader : ∀ c ∈ out.headerLine, isLineBreak c = false := by
    have hrest := List.forall_mem_append.mpr ⟨isLineBreak_blanks out.pad',
      (none_of_any rfl : ∀ c ∈ "addr".toList, isLineBreak c = false)⟩
    have hsize := List.forall_mem_append.mpr
      ⟨(none_of_any rfl : ∀ c ∈ "size".toList, isLineBreak c = false), hrest⟩
    exact List.forall_mem_append.mpr ⟨none_of_any rfl,
      List.forall_mem_append.mpr ⟨isLineBreak_blanks out.pad, hsize⟩⟩
  have htotal : ∀ c ∈ out.totalLine, isLineBreak c = false := by
    have hnumber :=
      List.forall_mem_append.mpr ⟨isLineBreak_blanks out.padTotal, isLineBreak_of_word (digits_word out.total)⟩
    exact List.forall_mem_append.mpr ⟨none_of_any rfl, hnumber⟩
  intro l hl
  simp only [allLines, List.mem_append, List.mem_cons, List.mem_map, List.not_mem_nil, or_false] at hl
  obtain (rfl | rfl) | ⟨row, -, rfl⟩ | rfl | h := hl
  · exact hfile
  · exact hheader
  · exact isLineBreak_row row
  · exact htotal
  · have hnil : l = [] := by
      rw [blankLines] at h
      split at h <;> simpa using h
    rw [hnil]
    simp

lemma splitLines_text : splitLines out.text = out.allLines := splitLines_unlines out.isLineBreak_allLines

lemma countedLines_text : countedLines out.text = out.allLines := by
  have hlines : lines out.text = out.allLines ++ [[]] := by
    apply lines_unlines
    intro l hl hn
    cases out.isLineBreak_allLines l hl _ hn
  rw [countedLines, hlines, List.getLast?_concat, if_pos rfl, List.dropLast_concat]

lemma trimmed_text :
    trimmed out.text = out.rows.map Row.line ++ if out.twoBlankLines then [out.totalLine] else [] := by
  have hrows : (out.allLines).drop 2 = out.rows.map Row.line ++ (out.totalLine :: out.blankLines) := rfl
  rw [trimmed, countedLines_text, hrows, blankLines]
  cases out.twoBlankLines with
  | true =>
    have hsplit : out.rows.map Row.line ++ [out.totalLine, [], []] =
        out.rows.map Row.line ++ [out.totalLine] ++ [[]] ++ [[]] := by
      simp
    rw [if_pos rfl, hsplit, List.dropLast_concat, List.dropLast_concat, if_pos rfl]
  | false =>
    have hsplit : out.rows.map Row.line ++ [out.totalLine, []] = out.rows.map Row.line ++
      [out.totalLine] ++ [[]] := by
      simp
    rw [if_neg Bool.false_ne_true, hsplit, List.dropLast_concat, List.dropLast_concat,
      if_neg Bool.false_ne_true, List.append_nil]

end Output

lemma toDigits_ne_dot (n : ℕ) : (Nat.toDigits 10 n).head? ≠ some '.' := by
  intro h
  exact absurd (isDigit_of_mem_toDigits (List.mem_of_head? h)) (by decide)

lemma sectionOn_row (row : Row) :
    sectionOn row.line = if row.name.head? = some '.' then some (row.name, row.size) else none := by
  have hwords := words_row isSpace_blank (fun _ hw => hw) row
  rw [sectionOn, hwords]
  by_cases hname : row.name = []
  · simp [hname, toDigits_ne_dot]
  · simp [hname, decimal_toDigits]

lemma dot_of_codeSections {s : Text} (h : codeSections.contains s = true) : s.head? = some '.' := by
  have hdot : ∀ s ∈ codeSections, s.head? = some '.' := by decide
  exact hdot s (List.contains_iff_mem.mp h)

lemma addLine_row (total : BitVec 64) (row : Row) : addLine total row.line =
    if codeSections.contains row.name then total + BitVec.ofNat 64 row.size else total := by
  have hwords := words_row isIfs_blank (fun _ => isIfs_of_word) row
  rw [addLine, hwords]
  by_cases hname : row.name = []
  · have hdigits : codeSections.contains (Nat.toDigits 10 row.size) = false :=
      Bool.eq_false_iff.mpr (fun h => toDigits_ne_dot row.size (dot_of_codeSections h))
    have hnil : codeSections.contains ([] : Text) = false := by decide
    simp only [hname, if_true, List.nil_append, List.getD_cons_zero, hdigits, hnil]
    rfl
  · simp [hname, decimal_toDigits]

def readRow (sections : Table ℕ) (row : Text × ℕ) : Table ℕ :=
  if row.1.head? = some '.' then sections.put row.1 row.2 else sections

def addRow (total : BitVec 64) (row : Text × ℕ) : BitVec 64 :=
  if codeSections.contains row.1 then total + BitVec.ofNat 64 row.2 else total

lemma readSection_of_none {line : Text} (h : sectionOn line = none) (sections : Table ℕ) :
    readSection sections line = sections := by
  rw [readSection, h]

lemma readSection_row (sections : Table ℕ) (row : Row) :
    readSection sections row.line = readRow sections (row.name, row.size) := by
  rw [readSection, sectionOn_row, readRow]
  by_cases hdot : row.name.head? = some '.'
  · rw [if_pos hdot, if_pos hdot]
  · rw [if_neg hdot, if_neg hdot]

lemma sectionOn_of_word {w t : Text} (hw : ∀ c ∈ w, isSpace c = false) (hne : w ≠ [])
    (hdot : w.head? ≠ some '.') (n : ℕ) : sectionOn (w ++ (blanks n ++ t)) = none := by
  rw [sectionOn, words_field isSpace_blank hne hw]
  exact if_neg (fun h => hdot h.2)

lemma sectionOn_fileLine (out : Output) : sectionOn out.fileLine = none := by
  have hwords : words isSpace out.fileLine = [out.path, [':']] := by
    rw [Output.fileLine, words_field isSpace_blank out.path_ne out.path_word]
    rfl
  have hcolon : decimal [':'] = none := rfl
  simp [sectionOn, hwords, hcolon]

lemma parse_text (out : Output) : parseSizeSysv out.text = out.object.foldl readRow Table.empty := by
  have hheader : sectionOn out.headerLine = none :=
    sectionOn_of_word (none_of_any rfl) (by decide) (by decide) out.pad
  have htotal : sectionOn out.totalLine = none :=
    sectionOn_of_word (none_of_any rfl) (by decide) (by decide) out.padTotal
  have hfirst : [out.fileLine, out.headerLine].foldl readSection Table.empty = Table.empty := by
    rw [List.foldl_cons, readSection_of_none (sectionOn_fileLine out), List.foldl_cons,
      readSection_of_none hheader, List.foldl_nil]
  have hblank (sections : Table ℕ) : out.blankLines.foldl readSection sections = sections := by
    rw [Output.blankLines]
    split <;> rfl
  rw [parseSizeSysv, out.splitLines_text, Output.allLines, List.foldl_append, List.foldl_append, hfirst,
    List.foldl_cons, readSection_of_none htotal, hblank, Output.object, List.foldl_map, List.foldl_map]
  congr 1
  funext sections row
  exact readSection_row sections row

lemma addLine_of_word {w t : Text} (hw : ∀ c ∈ w, isIfs c = false) (hne : w ≠ [])
    (hmeasured : codeSections.contains w = false) (n : ℕ) (total : BitVec 64) :
    addLine total (w ++ (blanks n ++ t)) = total := by
  rw [addLine, words_field isIfs_blank hne hw]
  exact if_neg (by rw [List.getD_cons_zero, hmeasured]; exact Bool.false_ne_true)

lemma addLine_totalLine (out : Output) (total : BitVec 64) : addLine total out.totalLine = total :=
  addLine_of_word (none_of_any rfl) (by decide) (by decide) out.padTotal total

lemma addObject_text (out : Output) (total : BitVec 64) :
    addObject total out.text = out.object.foldl addRow total := by
  rw [addObject, out.trimmed_text, List.foldl_append, List.foldl_map, Output.object, List.foldl_map]
  have hrows : out.rows.foldl (fun total row => addLine total row.line) total =
      out.rows.foldl (fun total row => addRow total (row.name, row.size)) total := by
    congr 1
    funext total row
    exact addLine_row total row
  rw [hrows]
  cases out.twoBlankLines with
  | true => exact addLine_totalLine out _
  | false => rfl

lemma addRow_object (obj : Object) (total : BitVec 64) :
    obj.foldl addRow total = total + BitVec.ofNat 64 (objectSize obj) := by
  induction obj generalizing total with
  | nil => simp [objectSize]
  | cons row obj ih =>
    rw [List.foldl_cons, ih, addRow, objectSize, objectSize, List.filter_cons]
    split
    · rw [List.map_cons, List.sum_cons, BitVec.ofNat_add, BitVec.add_assoc]
    · rfl

def bytesIn (s : Text) (obj : Object) : ℕ := ((obj.filter (fun row => decide (row.1 = s))).map Prod.snd).sum

lemma bytesIn_cons (s : Text) (row : Text × ℕ) (obj : Object) :
    bytesIn s (row :: obj) = (if row.1 = s then row.2 else 0) + bytesIn s obj := by
  rw [bytesIn, bytesIn, List.filter_cons]
  by_cases h : row.1 = s <;> simp [h]

lemma sum_single {l : List Text} (hl : l.Nodup) (k : Text) (n : ℕ) :
    (l.map (fun s => if k = s then n else 0)).sum = if l.contains k then n else 0 := by
  induction l with
  | nil => rfl
  | cons s l ih =>
    obtain ⟨hs, hl⟩ := List.nodup_cons.mp hl
    rw [List.map_cons, List.sum_cons, ih hl, List.contains_cons]
    by_cases hk : k = s
    · subst hk
      have habsent : l.contains k = false := by simpa using hs
      rw [if_pos rfl, habsent, if_neg Bool.false_ne_true, beq_self_eq_true, Bool.true_or, if_pos rfl,
        Nat.add_zero]
    · rw [if_neg hk, beq_false_of_ne hk, Bool.false_or, Nat.zero_add]

lemma objectSize_cons (row : Text × ℕ) (obj : Object) :
    objectSize (row :: obj) = (if codeSections.contains row.1 then row.2 else 0) + objectSize obj := by
  rw [objectSize, objectSize, List.filter_cons]
  split <;> simp

lemma objectSize_eq (obj : Object) : objectSize obj = (codeSections.map (fun s => bytesIn s obj)).sum := by
  induction obj with
  | nil => rfl
  | cons row obj ih =>
    have hone := sum_single (by decide : codeSections.Nodup) row.1 row.2
    simp only [bytesIn_cons, List.sum_map_add]
    rw [objectSize_cons, ih, hone]

lemma get_readRow {s : Text} (hs : s.head? = some '.') (sections : Table ℕ) (row : Text × ℕ) :
    (readRow sections row).get s = if row.1 = s then some row.2 else sections.get s := by
  rw [readRow]
  by_cases h : row.1 = s
  · rw [if_pos (h ▸ hs), Table.get_put, if_pos h.symm, if_pos h]
  · rw [if_neg h]
    split
    · rw [Table.get_put, if_neg (Ne.symm h)]
    · rfl

lemma value_readRow {s : Text} (hs : s.head? = some '.') (obj : Object) (sections : Table ℕ) :
    ((obj.foldl readRow sections).get s).getD 0 + shadowedIn s obj =
      bytesIn s obj + if s ∈ obj.map Prod.fst then 0 else (sections.get s).getD 0 := by
  induction obj generalizing sections with
  | nil => simp [shadowedIn, bytesIn]
  | cons row obj ih =>
    have hrest := ih (readRow sections row)
    rw [get_readRow hs] at hrest
    rw [List.foldl_cons, shadowedIn, bytesIn_cons, List.map_cons]
    by_cases hrow : row.1 = s
    · have hhere : s ∈ row.1 :: obj.map Prod.fst := by simp [hrow]
      rw [if_pos hrow, Option.getD_some] at hrest
      rw [if_pos hrow, if_pos hhere]
      by_cases hlater : s ∈ obj.map Prod.fst
      · rw [if_pos hlater] at hrest
        rw [if_pos ⟨hrow, List.contains_iff_mem.mpr hlater⟩]
        omega
      · rw [if_neg hlater] at hrest
        rw [if_neg (fun h => hlater (List.contains_iff_mem.mp h.2))]
        omega
    · have hsame : s ∈ row.1 :: obj.map Prod.fst ↔ s ∈ obj.map Prod.fst := by simp [Ne.symm hrow]
      rw [if_neg hrow] at hrest
      rw [if_neg hrow, if_neg (fun h => hrow h.1), zero_add, zero_add, if_congr hsame rfl rfl]
      exact hrest

lemma codeBytes_add_shadowed (obj : Object) :
    codeBytes (obj.foldl readRow Table.empty) + shadowed obj = objectSize obj := by
  rw [codeBytes, shadowed, objectSize_eq, ← List.sum_map_add]
  congr 1
  apply List.map_congr_left
  intro s hs
  have hdot : ∀ s ∈ codeSections, s.head? = some '.' := by decide
  rw [value_readRow (hdot s hs), Table.get_empty, Option.getD_none, ite_self, add_zero]

lemma ofNat_add_eq_iff (m n : ℕ) : BitVec.ofNat 64 (m + n) = BitVec.ofNat 64 m ↔ 18446744073709551616 ∣ n := by
  rw [← BitVec.toNat_inj, BitVec.toNat_ofNat, BitVec.toNat_ofNat]
  omega

theorem sysvAgrees_iff (out : Output) : Agree out ↔ 18446744073709551616 ∣ shadowed out.object := by
  have hsplit := codeBytes_add_shadowed out.object
  rw [Agree, parse_text]
  simp only [addObject_text, addRow_object, BitVec.add_right_inj, ← hsplit, ofNat_add_eq_iff, forall_const]

def twoTexts : Output where
  path := "a.o".toList
  pad := 0
  pad' := 0
  rows := [⟨".text".toList, 4, 0, 0, 0, none_of_any rfl⟩, ⟨".text".toList, 6, 0, 0, 0, none_of_any rfl⟩]
  padTotal := 0
  total := 10
  twoBlankLines := false
  path_ne := by decide
  path_word := none_of_any rfl

theorem sysvAgrees_counterexample :
    codeBytes (parseSizeSysv twoTexts.text) = 6 ∧ addObject 0 twoTexts.text = 10 ∧
    ¬ Agree twoTexts := by
  have hparse : codeBytes (parseSizeSysv twoTexts.text) = 6 := by decide +kernel
  have hadd : addObject 0 twoTexts.text = 10 := by decide +kernel
  refine ⟨hparse, hadd, ?_⟩
  intro h
  have hzero := h 0
  rw [hparse, hadd] at hzero
  exact absurd hzero (by decide)

end ShMonitor.Sizes.SizeSysv
