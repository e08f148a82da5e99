import Mathlib.Tactic.NormNum.Pow
import ShMonitor.Calendar
import ShMonitor.Dashboard.Days
import ShMonitor.Runs
import ShMonitor.Texts.Json

/-! The date range of the trend page, `dashboard/benchmark/index.html`: what the page reads from its
URL and from the browser's storage, and what it writes there when a range is chosen. A browser's
zone and the days of its clock and of the first run are those of the page load. -/

namespace ShMonitor.Dashboard.RangeChoice

open Texts Runs
open Days (Zone)

inductive Range where
  | all
  | days (first last : Text)
  deriving DecidableEq

def hasDigits (n : ℕ) (field : Text) : Bool := field.length == n && field.all Char.isDigit

def isDay (t : Text) : Bool :=
  match t.splitOn '-' with
  | [y, m, d] => hasDigits 4 y && hasDigits 2 m && hasDigits 2 d
  | _ => false

def number (field : Text) : ℤ := Nat.ofDigitChars 10 field 0

/-- The day of `new Date(year, month, day)`, where `month` counts from 0; the years before 100 are
those after 1900. -/
def makeDay (year month day : ℤ) : ℤ :=
  let year := if 0 ≤ year ∧ year ≤ 99 then 1900 + year else year
  Calendar.dayNumber ⟨year + month / 12, month % 12 + 1, day⟩

def dayDate (t : Text) : ℤ :=
  match t.splitOn '-' with
  | [y, m, d] => makeDay (number y) (number m - 1) (number d)
  | _ => 0

def pad2 (n : ℕ) : Text := List.replicate (2 - (Nat.toDigits 10 n).length) '0' ++ Nat.toDigits 10 n

def dayString (n : ℤ) : Text :=
  let date := Calendar.date n
  Nat.toDigits 10 date.year.toNat ++ '-' :: (pad2 date.month.toNat ++ '-' :: pad2 date.day.toNat)

/-- The days of the years 1000 to 9999. -/
abbrev Day := {n : ℤ // Calendar.dayNumber ⟨1000, 1, 1⟩ ≤ n ∧ n < Calendar.dayNumber ⟨10000, 1, 1⟩}

structure Visit where
  zone : Zone
  today : Day
  first : Day

def quickRanges : List (Option ℕ) := [some 7, some 30, some 90, some 365, none]

def clampStart (v : Visit) (d : ℤ) : ℤ := if d < v.first.1 then v.first.1 else d

def lastNDays (v : Visit) (n : ℕ) : Range :=
  .days (dayString (clampStart v (v.today.1 + (1 - n)))) (dayString v.today.1)

def matchesQuick (v : Visit) (range : Range) : Option ℕ → Bool
  | none => decide (range = .all)
  | some n => decide (range = lastNDays v n)

def parseRange (zone : Zone) (first last : Option Text) : Option Range :=
  let first := first.getD []
  let last := last.getD []
  if isDay first ∧ isDay last then
    some (if zone.dayStart (dayDate first) ≤ zone.dayStart (dayDate last) then .days first last
      else .days last first)
  else none

abbrev Query := List (Text × Text)

def setParam (name value : Text) : Query → Query
  | [] => [(name, value)]
  | row :: rows =>
    if row.1 = name then (name, value) :: rows.filter (fun r => r.1 ≠ name)
    else row :: setParam name value rows

def deleteParam (name : Text) (query : Query) : Query := query.filter (fun r => r.1 ≠ name)

def rangeName : Text := ['r', 'a', 'n', 'g', 'e']

def fromName : Text := ['f', 'r', 'o', 'm']

def toName : Text := ['t', 'o']

def allText : Text := ['a', 'l', 'l']

def rangeFromUrl (zone : Zone) (query : Query) : Option Range :=
  if query.lookup rangeName = some allText then some .all
  else parseRange zone (query.lookup fromName) (query.lookup toName)

def splitDots : Text → List Text
  | '.' :: '.' :: t => [] :: splitDots t
  | c :: t =>
    match splitDots t with
    | [] => [[c]]
    | w :: ws => (c :: w) :: ws
  | [] => [[]]

/-- What `localStorage` holds under `benchmarkRange`, where the browser has one. -/
abbrev Storage := Option (Option Text)

def rangeFromStorage (zone : Zone) (storage : Storage) : Option Range :=
  match storage.join with
  | none => none
  | some v =>
    if v = allText then some .all
    else if v = [] then none
    else parseRange zone (splitDots v)[0]? (splitDots v)[1]?

def stored : Range → Text
  | .all => allText
  | .days first last => first ++ '.' :: '.' :: last

def persistQuery (query : Query) : Range → Query
  | .all => deleteParam toName (deleteParam fromName (setParam rangeName allText query))
  | .days first last => setParam toName last (setParam fromName first (deleteParam rangeName query))

structure Page where
  visit : Visit
  storage : Storage
  query : Query
  shown : Range

def normalized (v : Visit) : Range → Range
  | .all => .all
  | .days first last => (parseRange v.zone (some first) (some last)).getD (.days first last)

def applyRange (page : Page) (range : Range) : Page :=
  let range := normalized page.visit range
  { page with
    storage := page.storage.map (fun _ => some (stored range))
    query := persistQuery page.query range
    shown := range }

def load (v : Visit) (storage : Storage) (query : Query) : Page where
  visit := v
  storage := storage
  query := query
  shown := normalized v (((rangeFromUrl v.zone query).or (rangeFromStorage v.zone storage)).getD
    (lastNDays v 7))

inductive Choice where
  | quick (days : Option ℕ) (listed : days ∈ quickRanges)
  | pick (first last : Day)

def Choice.range (v : Visit) : Choice → Range
  | .quick days _ => days.elim .all (lastNDays v)
  | .pick first last => .days (dayString first.1) (dayString last.1)

inductive Event where
  | choose (choice : Choice)
  | reload (v : Visit)
  | follow (v : Visit) (query : Query)

def next (page : Page) : Event → Page
  | .choose choice => applyRange page (choice.range page.visit)
  | .reload v => load v page.storage page.query
  | .follow v query => load v page.storage query

def Range.drawn : Range → Trend.Range
  | .all => .all
  | .days first last => .days (dayDate first) (dayDate last)

def Choice.meant (v : Visit) : Choice → Trend.Range
  | .quick none _ => .all
  | .quick (some n) _ => .days (max v.first.1 (v.today.1 + (1 - n))) v.today.1
  | .pick first last => .days (min first.1 last.1) (max first.1 last.1)

def Valid : Range → Prop
  | .all => True
  | .days first last => isDay first = true ∧ isDay last = true

def Formed : Range → Prop
  | .all => True
  | .days first last => (isDay first = true ∧ isDay last = true) ∧ dayDate first ≤ dayDate last

lemma hasDigits_ne {n : ℕ} {field : Text} (h : hasDigits n field = true) {c : Char}
    (hc : c.isDigit = false) : c ∉ field := by
  intro hmem
  rw [hasDigits, Bool.and_eq_true] at h
  rw [List.all_eq_true.mp h.2 c hmem] at hc
  exact Bool.noConfusion hc

lemma fields_of_isDay {t : Text} (h : isDay t = true) :
    ∃ y m d, t.splitOn '-' = [y, m, d] ∧ hasDigits 4 y = true ∧ hasDigits 2 m = true ∧
      hasDigits 2 d = true := by
  rw [isDay] at h
  split at h
  · rename_i y m d hfields
    rw [Bool.and_eq_true, Bool.and_eq_true] at h
    exact ⟨y, m, d, hfields, h.1.1, h.1.2, h.2⟩
  · cases h

lemma isDay_not_mem {t : Text} (h : isDay t = true) {c : Char} (hc : c.isDigit = false)
    (hdash : c ≠ '-') : c ∉ t := by
  obtain ⟨y, m, d, hfields, hy, hm, hd⟩ := fields_of_isDay h
  have ht : List.intercalate ['-'] (t.splitOn '-') = t := List.intercalate_splitOn '-'
  rw [← ht, hfields]
  simp [List.intercalate, List.intersperse, hasDigits_ne hy hc, hasDigits_ne hm hc, hasDigits_ne hd hc, hdash]

lemma splitOn_fields {y m d : Text} (hy : hasDigits 4 y = true) (hm : hasDigits 2 m = true)
    (hd : hasDigits 2 d = true) :
    (y ++ '-' :: (m ++ '-' :: d)).splitOn '-' = [y, m, d] := by
  rw [List.splitOn_append_cons_self_of_not_mem (hasDigits_ne hy rfl),
    List.splitOn_append_cons_self_of_not_mem (hasDigits_ne hm rfl),
    List.splitOn_eq_singleton (hasDigits_ne hd rfl)]

lemma hasDigits_toDigits {k n : ℕ} (hk : 0 < k) (hfirst : 10 ^ (k - 1) ≤ n) (hlast : n < 10 ^ k) (h : 1 < k) :
    hasDigits k (Nat.toDigits 10 n) = true := by
  have hle : (Nat.toDigits 10 n).length ≤ k := (Nat.length_toDigits_le_iff (by decide) hk).mpr hlast
  have hlt : ¬ (Nat.toDigits 10 n).length ≤ k - 1 := by
    rw [Nat.length_toDigits_le_iff (by decide) (by omega)]
    omega
  rw [hasDigits, Bool.and_eq_true, beq_iff_eq, List.all_eq_true]
  exact ⟨by omega, fun c hc => Nat.isDigit_of_mem_toDigits (by decide) (by decide) hc⟩

lemma hasDigits_pad2 {n : ℕ} (h : n < 100) : hasDigits 2 (pad2 n) = true := by
  have hle : (Nat.toDigits 10 n).length ≤ 2 := (Nat.length_toDigits_le_iff (by decide) (by decide)).mpr h
  rw [hasDigits, pad2, Bool.and_eq_true, beq_iff_eq, List.all_eq_true]
  refine ⟨by rw [List.length_append, List.length_replicate]; omega, fun c hc => ?_⟩
  rcases List.mem_append.mp hc with hc | hc
  · rw [List.eq_of_mem_replicate hc]
    rfl
  · exact Nat.isDigit_of_mem_toDigits (by decide) (by decide) hc

lemma number_toDigits (n : ℕ) : number (Nat.toDigits 10 n) = n := by
  rw [number, Nat.ofDigitChars_ten_toDigits]

lemma number_pad2 (n : ℕ) : number (pad2 n) = n := by
  rw [number, pad2, Nat.ofDigitChars_append, Nat.ofDigitChars_replicate_zero, Nat.mul_zero,
    Nat.ofDigitChars_ten_toDigits]

lemma year_bounds (n : Day) : 1000 ≤ (Calendar.date n.1).year ∧ (Calendar.date n.1).year < 10000 := by
  refine ⟨(Calendar.le_year_iff 1000 n.1).mpr n.2.1, lt_of_not_ge (fun h => ?_)⟩
  exact absurd n.2.2 (not_lt.mpr ((Calendar.le_year_iff 10000 n.1).mp h))

lemma dayString_fields (n : Day) : ∃ y m d, hasDigits 4 y = true ∧ hasDigits 2 m = true ∧ hasDigits 2 d = true ∧
    dayString n.1 = y ++ '-' :: (m ++ '-' :: d) ∧
    Calendar.date n.1 = ⟨number y, number m, number d⟩ := by
  obtain ⟨hfirst, hlast⟩ := year_bounds n
  obtain ⟨hm, hm', hd, hd'⟩ := Calendar.date_bounds n.1
  refine ⟨_, _, _, hasDigits_toDigits (by decide) (by norm_num; omega) (by norm_num; omega) (by decide),
    hasDigits_pad2 (by omega), hasDigits_pad2 (by omega), rfl, ?_⟩
  rw [number_toDigits, number_pad2, number_pad2, Int.toNat_of_nonneg (by omega), Int.toNat_of_nonneg (by omega),
    Int.toNat_of_nonneg (by omega)]

lemma isDay_dayString (n : Day) : isDay (dayString n.1) = true := by
  obtain ⟨y, m, d, hy, hm, hd, htext, -⟩ := dayString_fields n
  rw [isDay, htext, splitOn_fields hy hm hd]
  simp only [hy, hm, hd, Bool.and_self]

lemma dayDate_dayString (n : Day) : dayDate (dayString n.1) = n.1 := by
  obtain ⟨y, m, d, hy, hm, hd, htext, hdate⟩ := dayString_fields n
  obtain ⟨hfirst, hlast⟩ := year_bounds n
  obtain ⟨hmonth, hmonth', -, -⟩ := Calendar.date_bounds n.1
  rw [hdate] at hfirst hmonth hmonth'
  dsimp only at hfirst hmonth hmonth'
  rw [dayDate, htext, splitOn_fields hy hm hd]
  dsimp only
  rw [makeDay, if_neg (by omega),
    show (number m - 1) / 12 = 0 by omega, show (number m - 1) % 12 + 1 = number m by omega,
    Int.add_zero, ← hdate]
  exact Calendar.dayNumber_date n.1

lemma parseRange_some (zone : Zone) (first last : Text) : parseRange zone (some first) (some last) =
    if isDay first ∧ isDay last then
      some (if dayDate first ≤ dayDate last then .days first last else .days last first)
    else none := by
  simp only [parseRange, Option.getD_some, zone.increasing.le_iff_le]

lemma parseRange_formed (zone : Zone) {first last : Text} (h : Formed (.days first last)) :
    parseRange zone (some first) (some last) = some (.days first last) := by
  rw [parseRange_some, if_pos h.1, if_pos h.2]

lemma formed_parse {zone : Zone} {first last : Option Text} {range : Range}
    (h : parseRange zone first last = some range) :
    Formed range := by
  have hsome : parseRange zone first last = parseRange zone (some (first.getD [])) (some (last.getD [])) := rfl
  rw [hsome, parseRange_some] at h
  split at h
  · rename_i hdays
    split at h
    · rename_i hle
      obtain rfl := Option.some.inj h
      exact ⟨hdays, hle⟩
    · rename_i hle
      obtain rfl := Option.some.inj h
      exact ⟨hdays.symm, le_of_not_ge hle⟩
  · cases h

lemma normalized_formed (v : Visit) {range : Range} (h : Formed range) : normalized v range = range := by
  cases range with
  | all => rfl
  | days first last => rw [normalized, parseRange_formed v.zone h, Option.getD_some]

lemma formed_normalized (v : Visit) {range : Range} (h : Valid range) : Formed (normalized v range) := by
  cases range with
  | all => trivial
  | days first last =>
    have hdays : isDay first = true ∧ isDay last = true := h
    rw [normalized, parseRange_some, if_pos hdays, Option.getD_some]
    split
    · rename_i hle
      exact ⟨h, hle⟩
    · rename_i hle
      exact ⟨h.symm, le_of_not_ge hle⟩

lemma Formed.valid {range : Range} (h : Formed range) : Valid range := by
  cases range with
  | all => trivial
  | days first last => exact h.1

lemma lookup_deleteParam (name other : Text) (query : Query) :
    (deleteParam name query).lookup other = if other = name then none else query.lookup other := by
  induction query with
  | nil => simp [deleteParam]
  | cons row rows ih =>
    obtain ⟨key, value⟩ := row
    rw [deleteParam] at ih ⊢
    by_cases hkey : key = name
    · rw [List.filter_cons_of_neg (by simpa using hkey), ih, List.lookup_cons]
      by_cases hother : other = name
      · rw [if_pos hother, if_pos hother]
      · rw [if_neg hother, if_neg hother, beq_false_of_ne (fun h => hother (h.trans hkey))]
    · rw [List.filter_cons_of_pos (by simpa using hkey), List.lookup_cons, List.lookup_cons, ih]
      by_cases hother : other = name
      · rw [if_pos hother, if_pos hother, beq_false_of_ne (fun h => hkey (h.symm.trans hother))]
      · rw [if_neg hother, if_neg hother]

lemma lookup_setParam (name value other : Text) (query : Query) :
    (setParam name value query).lookup other = if other = name then some value else query.lookup other := by
  induction query with
  | nil =>
    rw [setParam, List.lookup_cons]
    by_cases hother : other = name
    · rw [if_pos hother, beq_iff_eq.mpr hother]
    · rw [if_neg hother, beq_false_of_ne hother]
  | cons row rows ih =>
    obtain ⟨key, old⟩ := row
    rw [setParam]
    by_cases hkey : key = name
    · rw [if_pos hkey, List.lookup_cons, List.lookup_cons]
      by_cases hother : other = name
      · rw [if_pos hother, beq_iff_eq.mpr hother]
      · have hrest := lookup_deleteParam name other rows
        rw [deleteParam, if_neg hother] at hrest
        rw [if_neg hother, beq_false_of_ne hother, beq_false_of_ne (fun h => hother (h.trans hkey)), hrest]
    · rw [if_neg hkey, List.lookup_cons, List.lookup_cons, ih]
      by_cases hother : other = name
      · rw [if_pos hother, if_pos hother, beq_false_of_ne (fun h => hkey (h.symm.trans hother))]
      · rw [if_neg hother, if_neg hother]

def ownNames : List Text := [rangeName, fromName, toName]

def others (query : Query) : Query := query.filter (fun row => !ownNames.contains row.1)

lemma others_deleteParam {name : Text} (h : name ∈ ownNames) (query : Query) :
    others (deleteParam name query) = others query := by
  rw [others, deleteParam, List.filter_filter, others]
  refine List.filter_congr (fun row _ => ?_)
  have hne : row.1 ∉ ownNames → row.1 ≠ name := fun hrow heq => hrow (heq ▸ h)
  by_cases hrow : row.1 ∈ ownNames
  · simp [hrow]
  · simp [hrow, hne hrow]

lemma others_setParam {name : Text} (h : name ∈ ownNames) (value : Text) (query : Query) :
    others (setParam name value query) = others query := by
  induction query with
  | nil =>
    rw [setParam, others, List.filter_cons_of_neg (by simpa using h)]
    rfl
  | cons row rows ih =>
    rw [setParam]
    by_cases hrow : row.1 = name
    · have hrest : others (rows.filter (fun r => r.1 ≠ name)) = others rows := others_deleteParam h rows
      rw [if_pos hrow, others, List.filter_cons_of_neg (by simpa using h), others,
        List.filter_cons_of_neg (by simpa [hrow] using h)]
      exact hrest
    · rw [if_neg hrow, others, List.filter_cons, others, List.filter_cons]
      split
      · exact congrArg (row :: ·) ih
      · exact ih

lemma others_persistQuery (query : Query) (range : Range) :
    others (persistQuery query range) = others query := by
  have hrange : rangeName ∈ ownNames := by decide
  have hfrom : fromName ∈ ownNames := by decide
  have hto : toName ∈ ownNames := by decide
  cases range with
  | all => rw [persistQuery, others_deleteParam hto, others_deleteParam hfrom, others_setParam hrange]
  | days first last => rw [persistQuery, others_setParam hto, others_setParam hfrom, others_deleteParam hrange]

lemma rangeFromUrl_persist (zone : Zone) (query : Query) {range : Range} (h : Formed range) :
    rangeFromUrl zone (persistQuery query range) = some range := by
  have hfrom : rangeName ≠ fromName := by decide
  have hto : rangeName ≠ toName := by decide
  have hends : fromName ≠ toName := by decide
  cases range with
  | all => simp [rangeFromUrl, persistQuery, lookup_deleteParam, lookup_setParam, hfrom, hto]
  | days first last =>
    have hrange : (persistQuery query (.days first last)).lookup rangeName = none := by
      simp [persistQuery, lookup_deleteParam, lookup_setParam, hfrom, hto]
    have hfirst : (persistQuery query (.days first last)).lookup fromName = some first := by
      simp [persistQuery, lookup_setParam, hends]
    have hlast : (persistQuery query (.days first last)).lookup toName = some last := by
      simp [persistQuery, lookup_setParam]
    rw [rangeFromUrl, hrange, if_neg (by simp), hfirst, hlast, parseRange_formed zone h]

lemma splitDots_single {t : Text} (h : '.' ∉ t) : splitDots t = [t] := by
  induction t with
  | nil => rfl
  | cons c t ih =>
    rw [List.mem_cons, not_or] at h
    rw [splitDots, ih h.2]
    rintro rest rfl -
    exact h.1 rfl

lemma splitDots_append {t : Text} (h : '.' ∉ t) (u : Text) :
    splitDots (t ++ '.' :: '.' :: u) = t :: splitDots u := by
  induction t with
  | nil => rw [List.nil_append, splitDots]
  | cons c t ih =>
    rw [List.mem_cons, not_or] at h
    rw [List.cons_append, splitDots, ih h.2]
    rintro rest rfl -
    exact h.1 rfl

lemma rangeFromStorage_stored (zone : Zone) {range : Range} (h : Formed range) :
    rangeFromStorage zone (some (some (stored range))) = some range := by
  cases range with
  | all => rfl
  | days first last =>
    have hdot {t : Text} (ht : isDay t = true) : '.' ∉ t := isDay_not_mem ht rfl (by decide)
    have hall : stored (.days first last) ≠ allText := by
      intro heq
      have hmem : '.' ∈ stored (.days first last) := by simp [stored]
      rw [heq] at hmem
      exact absurd hmem (by decide)
    have hsome : stored (.days first last) ≠ [] := by simp [stored]
    have hsplit : splitDots (stored (.days first last)) = [first, last] := by
      rw [stored, splitDots_append (hdot h.1.1), splitDots_single (hdot h.1.2)]
    simp only [rangeFromStorage, Option.join_some, if_neg hall, if_neg hsome, hsplit]
    exact parseRange_formed zone h

lemma quick_pos {n : ℕ} (h : some n ∈ quickRanges) : 1 ≤ n := by
  simp [quickRanges] at h
  omega

lemma lastNDays_eq (v : Visit) {n : ℕ} (h : 1 ≤ n) : ∃ first :
    Day, first.1 = max v.first.1 (v.today.1 + (1 - n)) ∧
    lastNDays v n = .days (dayString first.1) (dayString v.today.1) := by
  have hfirst := v.first.2
  have htoday := v.today.2
  have hclamp : clampStart v (v.today.1 + (1 - n)) = max v.first.1 (v.today.1 + (1 - n)) := by
    rw [clampStart]
    split <;> omega
  refine ⟨⟨max v.first.1 (v.today.1 + (1 - n)), le_max_of_le_left hfirst.1, max_lt hfirst.2 (by omega)⟩,
    rfl, ?_⟩
  rw [lastNDays, hclamp]

lemma valid_lastNDays (v : Visit) {n : ℕ} (h : 1 ≤ n) : Valid (lastNDays v n) := by
  obtain ⟨first, -, heq⟩ := lastNDays_eq v h
  rw [heq]
  exact ⟨isDay_dayString first, isDay_dayString v.today⟩

lemma formed_lastNDays (v : Visit) (hfirst : v.first.1 ≤ v.today.1) {n : ℕ} (h : 1 ≤ n) :
    Formed (lastNDays v n) := by
  obtain ⟨first, hmax, heq⟩ := lastNDays_eq v h
  rw [heq]
  refine ⟨⟨isDay_dayString first, isDay_dayString v.today⟩, ?_⟩
  rw [dayDate_dayString, dayDate_dayString]
  omega

lemma valid_choice (v : Visit) (choice : Choice) : Valid (choice.range v) := by
  cases choice with
  | quick days hlisted =>
    cases days with
    | none => trivial
    | some n => exact valid_lastNDays v (quick_pos hlisted)
  | pick first last => exact ⟨isDay_dayString first, isDay_dayString last⟩

lemma load_url (v : Visit) (storage : Storage) {query : Query} {range : Range} (h : Formed range)
    (hurl : rangeFromUrl v.zone query = some range) : (load v storage query).shown = range := by
  rw [load, hurl, Option.some_or, Option.getD_some]
  exact normalized_formed v h

lemma load_storage (v : Visit) {storage : Storage} {query : Query} {range : Range} (h : Formed range)
    (hurl : rangeFromUrl v.zone query = none) (hstorage : rangeFromStorage v.zone storage = some range) :
    (load v storage query).shown = range := by
  rw [load, hurl, hstorage, Option.none_or, Option.getD_some]
  exact normalized_formed v h

lemma formed_load (v : Visit) (storage : Storage) (query : Query) : Formed (load v storage query).shown := by
  have hurl : ∀ range, rangeFromUrl v.zone query = some range → Formed range := by
    intro range h
    rw [rangeFromUrl] at h
    split at h
    · obtain rfl := Option.some.inj h
      trivial
    · exact formed_parse h
  have hstorage : ∀ range, rangeFromStorage v.zone storage = some range → Formed range := by
    intro range h
    rw [rangeFromStorage] at h
    split at h
    · cases h
    · split at h
      · obtain rfl := Option.some.inj h
        trivial
      · split at h
        · cases h
        · exact formed_parse h
  apply formed_normalized
  cases hu : rangeFromUrl v.zone query with
  | some range => exact (hurl range hu).valid
  | none =>
    cases hs : rangeFromStorage v.zone storage with
    | some range => exact (hstorage range hs).valid
    | none => exact valid_lastNDays v (by decide)

lemma formed_choose (page : Page) (choice : Choice) : Formed (next page (.choose choice)).shown :=
  formed_normalized page.visit (valid_choice page.visit choice)

lemma formed_next (page : Page) (event : Event) : Formed (next page event).shown := by
  cases event with
  | choose choice => exact formed_choose page choice
  | reload v => exact formed_load v page.storage page.query
  | follow v query => exact formed_load v page.storage query

lemma drawn_days (v : Visit) (first last : Day) :
    (normalized v (.days (dayString first.1) (dayString last.1))).drawn = .days (min first.1 last.1)
    (max first.1 last.1) := by
  rw [normalized, parseRange_some, if_pos ⟨isDay_dayString first, isDay_dayString last⟩, Option.getD_some]
  simp only [dayDate_dayString]
  split
  · rename_i hle
    rw [Range.drawn, dayDate_dayString, dayDate_dayString, min_eq_left hle, max_eq_right hle]
  · rename_i hle
    rw [Range.drawn, dayDate_dayString, dayDate_dayString, min_eq_right (le_of_not_ge hle),
      max_eq_left (le_of_not_ge hle)]

lemma drawn_choice (v : Visit) (hfirst : v.first.1 ≤ v.today.1) (choice : Choice) :
    (normalized v (choice.range v)).drawn = choice.meant v := by
  cases choice with
  | quick days hlisted =>
    cases days with
    | none => rfl
    | some n =>
      obtain ⟨first, hmax, heq⟩ := lastNDays_eq v (quick_pos hlisted)
      rw [Choice.range, Option.elim_some,
        normalized_formed v (formed_lastNDays v hfirst (quick_pos hlisted)), heq,
        Range.drawn, dayDate_dayString, dayDate_dayString, Choice.meant, hmax]
  | pick first last => exact drawn_days v first last

lemma quick_pressed (v : Visit) (hfirst : v.first.1 ≤ v.today.1) {days : Option ℕ}
    (hlisted : days ∈ quickRanges) :
    matchesQuick v (normalized v ((Choice.quick days hlisted).range v)) days = true := by
  cases days with
  | none => rfl
  | some n =>
    rw [Choice.range, Option.elim_some, normalized_formed v (formed_lastNDays v hfirst (quick_pos hlisted))]
    exact decide_eq_true rfl

lemma reloads_same {page : Page} (h : Formed page.shown)
    (hurl : ∀ zone, rangeFromUrl zone page.query = some page.shown)
    (visits : List Visit) : (after next page (visits.map .reload)).shown = page.shown := by
  induction visits generalizing page with
  | nil => rfl
  | cons v visits ih =>
    have hload : (load v page.storage page.query).shown = page.shown := load_url v page.storage h (hurl v.zone)
    have hagain (zone : Zone) : rangeFromUrl zone (load v page.storage page.query).query =
        some (load v page.storage page.query).shown := hload ▸ hurl zone
    exact (ih (hload ▸ h) hagain).trans hload

theorem selection_survives (v : Visit) (storage : Storage) (query : Query) (past : List Event)
    (choice : Choice) :
    let page := after next (load v storage query) past
    let chosen := next page (.choose choice)
    (page.visit.first.1 ≤ page.visit.today.1 → chosen.shown.drawn = choice.meant page.visit ∧
        ∀ days listed, choice = .quick days listed → matchesQuick page.visit chosen.shown days = true) ∧
      (∀ visits : List Visit, (after next chosen (visits.map .reload)).shown = chosen.shown) ∧
      (∀ other elsewhere, (load other elsewhere chosen.query).shown = chosen.shown) ∧
      (page.storage.isSome → ∀ later link, rangeFromUrl later.zone link = none →
        (next chosen (.follow later link)).shown = chosen.shown) ∧
      others chosen.query = others page.query := by
  intro page chosen
  have hformed : Formed chosen.shown := formed_choose page choice
  have hurl (zone : Zone) : rangeFromUrl zone chosen.query = some chosen.shown :=
    rangeFromUrl_persist zone page.query hformed
  refine ⟨fun hfirst => ⟨drawn_choice page.visit hfirst choice, ?_⟩, reloads_same hformed hurl,
    fun other elsewhere => load_url other elsewhere hformed (hurl other.zone), ?_,
    others_persistQuery page.query chosen.shown⟩
  · rintro days hlisted rfl
    exact quick_pressed page.visit hfirst hlisted
  intro hstorage later link hlink
  obtain ⟨old, hold⟩ := Option.isSome_iff_exists.mp hstorage
  have hkept : chosen.storage = some (some (stored chosen.shown)) := by
    change page.storage.map _ = _
    rw [hold]
    rfl
  exact load_storage later hformed hlink (hkept ▸ rangeFromStorage_stored later.zone hformed)

def afterEpoch (n : ℤ) (h : 0 ≤ n ∧ n < 40000) : Day := ⟨n, by
  have hfirst : Calendar.dayNumber ⟨1000, 1, 1⟩ ≤ 0 := by decide
  have hlast : 40000 ≤ Calendar.dayNumber ⟨10000, 1, 1⟩ := by decide
  omega⟩

def visitOn (n : ℤ) (h : 0 ≤ n ∧ n < 40000) : Visit :=
  ⟨Days.autumn, afterEpoch n h, afterEpoch 20000 (by decide)⟩

def openedAt : Page := load (visitOn 20400 (by decide)) (some none)
    [("utm".toList, ['a']), ("utm".toList, ['b'])]

theorem selection_survives_month :
    (next openedAt (.choose (.quick (some 30) (by decide)))).shown.drawn = .days 20371 20400 ∧
      (next (next openedAt (.choose (.quick (some 30) (by decide))))
        (.follow (visitOn 20410 (by decide)) [])).shown.drawn =
        .days 20371 20400 := by
  obtain ⟨hdrawn, -, -, hlater, -⟩ := selection_survives (visitOn 20400 (by decide)) (some none)
    [("utm".toList, ['a']), ("utm".toList, ['b'])] [] (.quick (some 30) (by decide))
  have hmonth := (hdrawn (by decide)).1
  exact ⟨hmonth, (congrArg Range.drawn (hlater rfl (visitOn 20410 (by decide)) [] (by decide))).trans hmonth⟩

theorem shown_formed (v : Visit) (storage : Storage) (query : Query) (events : List Event) :
    Formed (after next (load v storage query) events).shown := by
  obtain rfl | ⟨past, event, rfl⟩ := events.eq_nil_or_concat
  · exact formed_load v storage query
  · rw [List.concat_eq_append, after, List.foldl_concat]
    exact formed_next _ event

end ShMonitor.Dashboard.RangeChoice
