import ShMonitor.Texts.Fields
import ShMonitor.Texts.Table

/-! The symbol sizes that the size analyser reads from `nm --print-size --size-sort`. -/

namespace ShMonitor.Sizes.NmSizes

open Texts

def hexDigit (c : Char) : Option ℕ :=
  if '0'.toNat ≤ c.toNat ∧ c.toNat ≤ '9'.toNat then some (c.toNat - '0'.toNat)
  else if 'a'.toNat ≤ c.toNat ∧ c.toNat ≤ 'f'.toNat then some (c.toNat - 'a'.toNat + 10)
  else if 'A'.toNat ≤ c.toNat ∧ c.toNat ≤ 'F'.toNat then some (c.toNat - 'A'.toNat + 10)
  else none

def hexTail (n : ℕ) : Text → Option ℕ
  | [] => some n
  | '_' :: c :: t => (hexDigit c).bind (fun d => hexTail (16 * n + d) t)
  | c :: t => (hexDigit c).bind (fun d => hexTail (16 * n + d) t)

def hexNumber : Text → Option ℕ
  | [] => none
  | c :: t => (hexDigit c).bind (fun d => hexTail d t)

def magnitude : Text → Option ℕ
  | '0' :: 'x' :: '_' :: t => hexNumber t
  | '0' :: 'X' :: '_' :: t => hexNumber t
  | '0' :: 'x' :: t => hexNumber t
  | '0' :: 'X' :: t => hexNumber t
  | t => hexNumber t

/-- `int(t, 16)` for a text of ASCII characters without blanks, `none` where it raises ValueError. -/
def intHex : Text → Option ℤ
  | '-' :: t => (magnitude t).map (fun n => -(n : ℤ))
  | '+' :: t => (magnitude t).map Nat.cast
  | t => (magnitude t).map Nat.cast

def sizeOn (line : Text) : Option (Text × ℤ) :=
  let parts := words isSpace line
  let typeCode := parts.getD (parts.length - 2) []
  let name := parts.getD (parts.length - 1) []
  if parts.length < 3 then none
  else if typeCode.length ≠ 1 then none
  else if 4 ≤ parts.length then (intHex (parts.getD 1 [])).map (fun size => (name, size))
  -- Three words are a size with a blank address column, or an address without a size.
  else if (line.take 1).any isSpace then (intHex (parts.getD 0 [])).map (fun size => (name, size))
  else none

def setSize (out : Table ℤ) (name : Text) (size : ℤ) : Table ℤ :=
  if 0 < size ∨ out.get name = none then out.put name size else out

def readLine (out : Table ℤ) (line : Text) : Table ℤ :=
  match sizeOn line with
  | some (name, size) => setSize out name size
  | none => out

def parseNmSizes (text : Text) : Table ℤ := (splitLines text).foldl readLine Table.empty

structure Column where
  text : Text
  pad : ℕ
  ne : text ≠ []
  hex : ∀ c ∈ text, (hexDigit c).isSome

def Column.shown (col : Column) : Text := col.text ++ blanks col.pad

def Column.value (col : Column) : ℕ := col.text.foldl (fun n c => 16 * n + (hexDigit c).getD 0) 0

structure Symbol where
  typeCode : Char
  pad : ℕ
  name : Text
  typeCode_word : isSpace typeCode = false
  name_ne : name ≠ []
  name_word : ∀ c ∈ name, isSpace c = false

def Symbol.shown (sym : Symbol) : Text := [sym.typeCode] ++ (blanks sym.pad ++ sym.name)

inductive Record where
  | sized (address size : Column) (sym : Symbol)
  | unaddressed (indent : ℕ) (size : Column) (sym : Symbol)
  | sizeless (address : Column) (sym : Symbol)
  | undefined (indent : ℕ) (sym : Symbol)

namespace Record

def line : Record → Text
  | sized address size sym => address.shown ++ (size.shown ++ sym.shown)
  | unaddressed indent size sym => blanks indent ++ (size.shown ++ sym.shown)
  | sizeless address sym => address.shown ++ sym.shown
  | undefined indent sym => blanks indent ++ sym.shown

def name : Record → Text
  | sized _ _ sym => sym.name
  | unaddressed _ _ sym => sym.name
  | sizeless _ sym => sym.name
  | undefined _ sym => sym.name

def size : Record → Option ℕ
  | sized _ size _ => some size.value
  | unaddressed _ size _ => some size.value
  | sizeless _ _ => none
  | undefined _ _ => none

end Record

def render (records : List Record) : Text := unlines (records.map Record.line)

/-- A positive size is the symbol's, a zero size only where the symbol has none. -/
def record (sizes : Table ℤ) (r : Record) : Table ℤ :=
  match r.size with
  | none => sizes
  | some 0 => if (sizes.get r.name).isSome then sizes else sizes.put r.name 0
  | some n => sizes.put r.name n

def entry (r : Record) : Option (Text × ℤ) := r.size.map (fun n : ℕ => (r.name, (n : ℤ)))

lemma hexDigit_range {c : Char} (h : (hexDigit c).isSome) :
    48 ≤ c.toNat ∧ c.toNat ≤ 57 ∨ 97 ≤ c.toNat ∧ c.toNat ≤ 102 ∨ 65 ≤ c.toNat ∧ c.toNat ≤ 70 := by
  rw [hexDigit] at h
  split at h
  · exact Or.inl ‹_›
  · split at h
    · exact Or.inr (Or.inl ‹_›)
    · split at h
      · exact Or.inr (Or.inr ‹_›)
      · cases h

lemma hexDigit_word {c : Char} (h : (hexDigit c).isSome) : isSpace c = false := by
  have hrange := hexDigit_range h
  by_contra hspace
  rw [Bool.not_eq_false] at hspace
  simp only [isSpace, Bool.or_eq_true, Bool.and_eq_true, decide_eq_true_eq, beq_iff_eq] at hspace
  omega

lemma hexTail_eq (t : Text) (n : ℕ) (ht : ∀ c ∈ t, (hexDigit c).isSome) :
    hexTail n t = some (t.foldl (fun n c => 16 * n + (hexDigit c).getD 0) n) := by
  induction t generalizing n with
  | nil => rfl
  | cons c t ih =>
    have hc := ht c List.mem_cons_self
    have hstep : hexTail n (c :: t) = (hexDigit c).bind (fun d => hexTail (16 * n + d) t) := by
      cases t with
      | nil => rw [hexTail.eq_3 _ _ _ (fun _ _ _ h => by cases h)]
      | cons d t =>
        have hunder : c ≠ '_' := by
          rintro rfl
          cases hc
        rw [hexTail.eq_3 _ _ _ (fun _ _ h _ => hunder h)]
    obtain ⟨d, hd⟩ := Option.isSome_iff_exists.mp hc
    rw [hstep, hd, Option.bind_some, ih _ (fun e he => ht e (List.mem_cons_of_mem c he)), List.foldl_cons, hd,
      Option.getD_some]

lemma magnitude_eq {t : Text} (hne : t ≠ []) (ht : ∀ c ∈ t, (hexDigit c).isSome) :
    magnitude t = some (t.foldl (fun n c => 16 * n + (hexDigit c).getD 0) 0) := by
  have hplain : magnitude t = hexNumber t := by
    cases t with
    | nil => exact absurd rfl hne
    | cons c t =>
      cases t with
      | nil => rw [magnitude.eq_5] <;> simp
      | cons d t =>
        have hd := ht d (by simp)
        have hx : d ≠ 'x' ∧ d ≠ 'X' := by
          constructor
          all_goals
            rintro rfl
            cases hd
        rw [magnitude.eq_5] <;> simp [hx]
  rw [hplain]
  cases t with
  | nil => exact absurd rfl hne
  | cons c t =>
    obtain ⟨d, hd⟩ := Option.isSome_iff_exists.mp (ht c List.mem_cons_self)
    rw [hexNumber, hd, Option.bind_some, hexTail_eq t d (fun e he => ht e (List.mem_cons_of_mem c he)),
      List.foldl_cons, hd, Option.getD_some, Nat.mul_zero, Nat.zero_add]

lemma intHex_column (col : Column) : intHex col.text = some (col.value : ℤ) := by
  have hplain : intHex col.text = (magnitude col.text).map Nat.cast := by
    have hhex := col.hex
    cases htext : col.text with
    | nil => exact absurd htext col.ne
    | cons c t =>
      have hc := hhex c (by simp [htext])
      have hsign : c ≠ '-' ∧ c ≠ '+' := by
        constructor
        all_goals
          rintro rfl
          cases hc
      rw [intHex.eq_3] <;> simp [hsign]
  rw [hplain, magnitude_eq col.ne col.hex, Option.map_some]
  rfl

lemma Column.text_word (col : Column) : ∀ c ∈ col.text, isSpace c = false :=
  fun c hc => hexDigit_word (col.hex c hc)

lemma words_column (col : Column) (t : Text) :
    words isSpace (col.shown ++ t) = col.text :: words isSpace t := by
  rw [Column.shown, List.append_assoc]
  exact words_field isSpace_blank col.ne col.text_word col.pad t

lemma words_symbol (sym : Symbol) : words isSpace sym.shown = [[sym.typeCode], sym.name] := by
  rw [Symbol.shown, words_field isSpace_blank (List.cons_ne_nil _ _) (by simpa using sym.typeCode_word),
    words_word sym.name_ne sym.name_word]

lemma first_column (col : Column) (t : Text) : ((col.shown ++ t).take 1).any isSpace = false := by
  obtain ⟨c, u, hu⟩ := List.exists_cons_of_ne_nil col.ne
  have hc := col.text_word c (by simp [hu])
  simp [Column.shown, hu, hc]

lemma sizeOn_line (r : Record) : sizeOn r.line = entry r := by
  cases r with
  | sized address size sym =>
    have hwords : words isSpace (Record.sized address size sym).line =
        [address.text, size.text, [sym.typeCode], sym.name] := by
      rw [Record.line, words_column, words_column, words_symbol]
    simp [sizeOn, hwords, intHex_column, entry, Record.size, Record.name]
  | unaddressed indent size sym =>
    have hwords : words isSpace (Record.unaddressed indent size sym).line =
      [size.text, [sym.typeCode], sym.name] := by
      rw [Record.line, words_blanks isSpace_blank, words_column, words_symbol]
    have hfirst : ((Record.unaddressed indent size sym).line.take 1).any isSpace = true := rfl
    rw [sizeOn, hwords]
    simp [hfirst, intHex_column, entry, Record.size, Record.name]
  | sizeless address sym =>
    have hwords : words isSpace (Record.sizeless address sym).line =
      [address.text, [sym.typeCode], sym.name] := by
      rw [Record.line, words_column, words_symbol]
    have hfirst : ((Record.sizeless address sym).line.take 1).any isSpace = false := first_column address _
    rw [sizeOn, hwords]
    simp [hfirst, entry, Record.size]
  | undefined indent sym =>
    have hwords : words isSpace (Record.undefined indent sym).line = [[sym.typeCode], sym.name] := by
      rw [Record.line, words_blanks isSpace_blank, words_symbol]
    simp [sizeOn, hwords, entry, Record.size]

lemma readLine_line (sizes : Table ℤ) (r : Record) : readLine sizes r.line = record sizes r := by
  rw [readLine, sizeOn_line, entry, record]
  cases r.size with
  | none => rfl
  | some n =>
    show setSize sizes r.name n = _
    rw [setSize]
    cases n with
    | zero => cases hget : sizes.get r.name <;> simp
    | succ n =>
      have hpositive : 0 < ((n + 1 : ℕ) : ℤ) := Int.natCast_pos.mpr n.succ_pos
      exact if_pos (Or.inl hpositive)

lemma isLineBreak_column (col : Column) : ∀ c ∈ col.shown, isLineBreak c = false :=
  List.forall_mem_append.mpr ⟨isLineBreak_of_word col.text_word, isLineBreak_blanks col.pad⟩

lemma isLineBreak_symbol (sym : Symbol) : ∀ c ∈ sym.shown, isLineBreak c = false := by
  have hcode := isLineBreak_of_word (w := [sym.typeCode]) (by simpa using sym.typeCode_word)
  have hname := isLineBreak_of_word sym.name_word
  exact List.forall_mem_append.mpr ⟨hcode, List.forall_mem_append.mpr ⟨isLineBreak_blanks sym.pad, hname⟩⟩

lemma isLineBreak_line (r : Record) : ∀ c ∈ r.line, isLineBreak c = false := by
  cases r with
  | sized address size sym =>
    have hrest := List.forall_mem_append.mpr ⟨isLineBreak_column size, isLineBreak_symbol sym⟩
    exact List.forall_mem_append.mpr ⟨isLineBreak_column address, hrest⟩
  | unaddressed indent size sym =>
    have hrest := List.forall_mem_append.mpr ⟨isLineBreak_column size, isLineBreak_symbol sym⟩
    exact List.forall_mem_append.mpr ⟨isLineBreak_blanks indent, hrest⟩
  | sizeless address sym =>
      exact List.forall_mem_append.mpr ⟨isLineBreak_column address, isLineBreak_symbol sym⟩
  | undefined indent sym => exact List.forall_mem_append.mpr ⟨isLineBreak_blanks indent, isLineBreak_symbol sym⟩

lemma parseNmSizes_render (records : List Record) :
    parseNmSizes (render records) = records.foldl record Table.empty := by
  have hlines : splitLines (render records) = records.map Record.line := by
    apply splitLines_unlines
    rintro _ hl
    obtain ⟨r, -, rfl⟩ := List.mem_map.mp hl
    exact isLineBreak_line r
  rw [parseNmSizes, hlines, List.foldl_map]
  congr 1
  funext sizes r
  exact readLine_line sizes r

lemma record_fresh {sizes : Table ℤ} {r : Record} (h : r.name ∉ sizes.rows.map Prod.fst) :
    (record sizes r).rows = sizes.rows ++ (entry r).toList := by
  have hget : sizes.get r.name = none := Table.get_eq_none.mpr h
  have hput (v : ℤ) : (sizes.put r.name v).rows = sizes.rows ++ [(r.name, v)] := Table.putRow_of_not_mem h v
  rw [record, entry]
  cases r.size with
  | none => exact (List.append_nil _).symm
  | some n =>
    cases n with
    | zero =>
      show (if (sizes.get r.name).isSome then sizes else sizes.put r.name 0).rows = _
      rw [hget, if_neg (by simp), hput]
      rfl
    | succ n => exact hput _

lemma rows_distinct {records : List Record} {sizes : Table ℤ} (h : (records.map Record.name).Nodup)
    (hfresh : ∀ r ∈ records, r.name ∉ sizes.rows.map Prod.fst) :
    (records.foldl record sizes).rows = sizes.rows ++ records.filterMap entry := by
  induction records generalizing sizes with
  | nil => exact (List.append_nil _).symm
  | cons r records ih =>
    rw [List.map_cons, List.nodup_cons] at h
    have hr := record_fresh (hfresh r List.mem_cons_self)
    rw [List.foldl_cons, ih h.2, hr, List.append_assoc, filterMap_cons_toList]
    intro r' hr' hmem
    rw [hr, List.map_append, List.mem_append] at hmem
    obtain hmem | hmem := hmem
    · exact hfresh r' (List.mem_cons_of_mem r hr') hmem
    · rw [entry, Option.toList_map] at hmem
      obtain ⟨n, -, hn⟩ := List.mem_map.mp (List.map_map ▸ hmem)
      have hname : r.name = r'.name := hn
      exact h.1 (hname ▸ List.mem_map_of_mem hr')

end ShMonitor.Sizes.NmSizes
