import ShMonitor.Texts.Within
import ShMonitor.Detection.Readings

/-! The word `execution` as the two readers of the simulator's sums look for it: one behind the path of a
line, where the path may be cut short, the other in the detail alone. -/

namespace ShMonitor.Detection.Execution

open ShMonitor.Texts ShMonitor.Texts.Regex
open ExtractFailures (done)
open ExtractShSimFailures (execRe)
open Readings (failStart)

variable (isWord : Char → Bool)

def word : Text := "execution".toList

/-- `(\S+).*\bexecution\b`, what `parse-sh-sim.py` reads behind the result of a line. -/
def pathRe : Re :=
  .cat [.group (.plus nonSpace), .star notNewline, .wordBoundary isWord, .lit word, .wordBoundary isWord]

def failWord : Text := ['F', 'A', 'I', 'L']

def captured (r : Text) : Option Text :=
  ((pathRe isWord).run done [failWord] ⟨failStart.reverse, r⟩).bind (fun f => f.1.getLast?)

def Occurs (b t : Text) : Prop :=
  ∃ u v, t = u ++ (word ++ v) ∧ Cursor.atBoundary isWord ⟨u.reverse ++ b, word ++ v⟩ = true ∧
    Cursor.atBoundary isWord ⟨word.reverse ++ (u.reverse ++ b), v⟩ = true

variable {isWord}

lemma run_execRe (gs : List Text) (b a : Text) : (execRe isWord).run done gs ⟨b, a⟩ =
    if word <+: a ∧ Cursor.atBoundary isWord ⟨b, a⟩ = true ∧
        Cursor.atBoundary isWord ⟨word.reverse ++ b, a.drop word.length⟩ = true
      then some (gs, a.drop word.length) else none := by
  have hrun : (execRe isWord).run done gs ⟨b, a⟩ = if Cursor.atBoundary isWord ⟨b, a⟩ then
      (Re.lit word).run ((Re.cat [.wordBoundary isWord]).run done) gs ⟨b, a⟩ else none := rfl
  rw [hrun]
  by_cases hw : word <+: a
  · obtain ⟨v, rfl⟩ := hw
    have hlast : (Re.cat [.wordBoundary isWord]).run done gs ⟨word.reverse ++ b, v⟩ =
        if Cursor.atBoundary isWord ⟨word.reverse ++ b, v⟩ then some (gs, v) else none := rfl
    rw [run_lit, hlast, List.drop_left]
    by_cases hb : Cursor.atBoundary isWord ⟨b, word ++ v⟩ = true
    · by_cases hb' : Cursor.atBoundary isWord ⟨word.reverse ++ b, v⟩ = true <;> simp [hb, hb']
    · simp [hb]
  · rw [run_lit_none hw, ite_self, if_neg (fun h => hw h.1)]

lemma occurs_iff {b t : Text} :
    Occurs isWord b t ↔ ∃ u v, t = u ++ v ∧ ((execRe isWord).run done [] ⟨u.reverse ++ b, v⟩).isSome =
      true := by
  constructor
  · rintro ⟨u, v, rfl, hb, hb'⟩
    refine ⟨u, word ++ v, rfl, ?_⟩
    rw [run_execRe, if_pos ⟨List.prefix_append _ _, hb, by rwa [List.drop_left]⟩]
    rfl
  · rintro ⟨u, v, rfl, h⟩
    rw [run_execRe] at h
    split at h
    · rename_i hall
      obtain ⟨⟨v, rfl⟩, hb, hb'⟩ := hall
      rw [List.drop_left] at hb'
      exact ⟨u, v, rfl, hb, hb'⟩
    · cases h

lemma search_iff_occurs {d : Text} : (execRe isWord).search d = true ↔ Occurs isWord [] d := by
  rw [search_iff, occurs_iff]
  simp only [List.append_nil]
  rfl

section

variable (hspace : ∀ c, isSpace c = true → isWord c = false)

lemma atBoundary_congr {b b' a a' : Text}
    (hb : (b.head?.map isWord).getD false = (b'.head?.map isWord).getD false)
    (ha : (a.head?.map isWord).getD false = (a'.head?.map isWord).getD false) :
    Cursor.atBoundary isWord ⟨b, a⟩ = Cursor.atBoundary isWord ⟨b', a'⟩ := by
  simp only [Cursor.atBoundary, hb, ha]

include hspace

lemma isWord_blanks {bs : Text} (hbs : ∀ c ∈ bs, isSpace c = true) :
    (bs.head?.map isWord).getD false = false := by
  cases bs with
  | nil => rfl
  | cons c bs => exact hspace c (hbs c List.mem_cons_self)

lemma occurs_blanks_left {b blanks : Text} (d : Text) (hb : ∀ c ∈ blanks, isSpace c = true)
    (hne : blanks ≠ []) :
    Occurs isWord b (blanks ++ d) ↔ Occurs isWord [] d := by
  have hprev (u : Text) : ((((blanks ++ u).reverse ++ b).head?).map isWord).getD false =
      ((u.reverse ++ []).head?.map isWord).getD false := by
    cases u using List.reverseRecOn with
    | nil =>
      obtain ⟨bs, c, rfl⟩ := (List.eq_nil_or_concat' blanks).resolve_left hne
      simpa using hspace c (hb c (by simp))
    | append_singleton u c => simp
  constructor
  · rintro ⟨u, v, h, h1, h2⟩
    obtain ⟨x, rfl, hd⟩ : ∃ x, u = blanks ++ x ∧ d = x ++ (word ++ v) := by
      obtain ⟨x, hu, hd⟩ | ⟨x, hbl, hx⟩ := List.append_eq_append_iff.mp h
      · exact ⟨x, hu, hd⟩
      · cases x with
        | nil => exact ⟨[], by simpa using hbl.symm, by simpa using hx.symm⟩
        | cons c x =>
          have hc : 'e' = c := (List.cons.inj hx).1
          exact absurd (hb c (by simp [hbl])) (by subst hc; decide)
    refine ⟨x, v, hd, ?_, ?_⟩
    · rwa [atBoundary_congr (hprev x).symm rfl]
    · exact h2
  · rintro ⟨u, v, rfl, h1, h2⟩
    refine ⟨blanks ++ u, v, by simp, ?_, ?_⟩
    · rwa [atBoundary_congr (hprev u) rfl]
    · exact h2

lemma occurs_blanks_right {b blanks : Text} (d : Text) (hb : ∀ c ∈ blanks, isSpace c = true) :
    Occurs isWord b (d ++ blanks) ↔ Occurs isWord b d := by
  have hnext (x : Text) : ((x ++ blanks).head?.map isWord).getD false = (x.head?.map isWord).getD false := by
    cases x with
    | nil => exact isWord_blanks hspace hb
    | cons c x => rfl
  constructor
  · rintro ⟨u, v, h, h1, h2⟩
    obtain ⟨x, rfl, rfl⟩ : ∃ x, d = u ++ (word ++ x) ∧ v = x ++ blanks := by
      rw [← List.append_assoc u] at h
      obtain ⟨x, hx, hbl⟩ | ⟨x, hd, hv⟩ := List.append_eq_append_iff.mp h
      · cases x using List.reverseRecOn with
        | nil => exact ⟨[], by simpa using hx.symm, by simpa using hbl.symm⟩
        | append_singleton x c =>
          have hlast := congrArg List.getLast? hx
          have hc : 'n' = c := by
            rw [← List.append_assoc, List.getLast?_concat,
              List.getLast?_append_of_ne_nil _ (by decide)] at hlast
            exact Option.some.inj hlast
          exact absurd (hb c (by simp [hbl])) (by subst hc; decide)
      · exact ⟨x, by simpa using hd, hv⟩
    refine ⟨u, x, rfl, h1, ?_⟩
    rwa [atBoundary_congr rfl (hnext x).symm]
  · rintro ⟨u, v, rfl, h1, h2⟩
    refine ⟨u, v ++ blanks, by simp, h1, ?_⟩
    rwa [atBoundary_congr rfl (hnext v)]

lemma occurs_strip {b t : Text} (ht : ∀ c u, t = c :: u → isSpace c = true) :
    Occurs isWord b t ↔ Occurs isWord [] (strip t) := by
  cases t with
  | nil =>
    have hno (b : Text) : ¬ Occurs isWord b [] := by
      rintro ⟨u, v, h, -⟩
      exact absurd (List.append_eq_nil_iff.mp (List.append_eq_nil_iff.mp h.symm).2).1 (by decide)
    exact iff_of_false (hno b) (hno [])
  | cons c u =>
    have hc := ht c u rfl
    obtain ⟨blanks, hd, hb⟩ := exists_rstrip_append ((c :: u).dropWhile isSpace)
    have hne : (c :: u).takeWhile isSpace ≠ [] := by simp [hc]
    have hsplit : c :: u = (c :: u).takeWhile isSpace ++ (strip (c :: u) ++ blanks) := by
      rw [strip, ← hd, List.takeWhile_append_dropWhile]
    rw [hsplit, occurs_blanks_left hspace _ (fun c hc => List.mem_takeWhile_imp hc) hne,
      occurs_blanks_right hspace _ hb, ← hsplit]

end

lemma run_rest (gs : List Text) (b t : Text) {f : Found}
    (h : (Re.seq (.star notNewline) (execRe isWord)).run done gs ⟨b, t⟩ = some f) :
    f.1 = gs ∧ Occurs isWord b t := by
  obtain ⟨u, v, rfl, -, hk⟩ := greedy_sound h
  rw [run_execRe] at hk
  split at hk
  · rename_i hall
    obtain rfl := Option.some.inj hk
    obtain ⟨⟨v, rfl⟩, hb, hb'⟩ := hall
    rw [List.drop_left] at hb'
    exact ⟨rfl, u, v, rfl, hb, hb'⟩
  · cases hk

lemma run_rest_isSome (gs : List Text) {b t : Text} (ht : '\n' ∉ t) (h : Occurs isWord b t) :
    ((Re.seq (.star notNewline) (execRe isWord)).run done gs ⟨b, t⟩).isSome = true := by
  obtain ⟨u, v, rfl, hb, hb'⟩ := h
  apply greedy_isSome
  · intro c hc
    rw [notNewline_iff]
    rintro rfl
    exact ht (List.mem_append_left _ hc)
  · rw [run_execRe, if_pos ⟨List.prefix_append _ _, hb, by rwa [List.drop_left]⟩]
    rfl

lemma run_pathRe {gs : List Text} {b r : Text} {f : Found} (h : (pathRe isWord).run done gs ⟨b, r⟩ = some f) :
    ∃ path t, r = path ++ t ∧ f.1 = gs ++ [path] ∧ Occurs isWord (path.reverse ++ b) t := by
  have hrun : (pathRe isWord).run done gs ⟨b, r⟩ = (Re.group (.plus nonSpace)).run
      ((Re.seq (.star notNewline) (execRe isWord)).run done) gs ⟨b, r⟩ := rfl
  rw [hrun, run_group] at h
  cases r with
  | nil => cases h
  | cons c r =>
    by_cases hc : nonSpace c = true
    · simp only [run_plus_cons, hc, if_true] at h
      obtain ⟨u, v, rfl, -, hk⟩ := greedy_sound h
      obtain ⟨hgroups, hoccurs⟩ := run_rest _ _ _ hk
      rw [← List.cons_append, take_consumed] at hgroups
      exact ⟨c :: u, v, rfl, hgroups, by simpa using hoccurs⟩
    · simp [run_plus_cons, hc] at h

variable (isWord) in
lemma captured_eq_map (r : Text) : ((pathRe isWord).run done [failWord] ⟨failStart.reverse, r⟩).map Prod.fst =
    (captured isWord r).map (fun path => [failWord, path]) := by
  rw [captured]
  cases hf : (pathRe isWord).run done [failWord] ⟨failStart.reverse, r⟩ with
  | none => rfl
  | some f =>
    obtain ⟨path, t, -, hgroups, -⟩ := run_pathRe hf
    simp [hgroups]

lemma captured_eq_path {path t : Text} (hne : path ≠ []) (hpath : ∀ c ∈ path, nonSpace c = true)
    (ht : ∀ c u, t = c :: u → nonSpace c = false) (hline : '\n' ∉ t) :
    captured isWord (path ++ t) = some path ↔ Occurs isWord (path.reverse ++ failStart.reverse) t := by
  rw [captured]
  constructor
  · intro h
    obtain ⟨f, hf, hlast⟩ := Option.bind_eq_some_iff.mp h
    obtain ⟨path', t', htext, hgroups, hoccurs⟩ := run_pathRe hf
    rw [hgroups, List.getLast?_concat] at hlast
    obtain rfl := Option.some.inj hlast
    obtain rfl := List.append_cancel_left htext
    exact hoccurs
  · intro h
    obtain ⟨hword, hrest⟩ := takeWhile_word hpath ht
    obtain ⟨f, hf⟩ := Option.isSome_iff_exists.mp (run_rest_isSome [failWord, path] hline h)
    have hrun : (pathRe isWord).run done [failWord] ⟨failStart.reverse, path ++ t⟩ = some f := by
      change (Re.group (.plus nonSpace)).run ((Re.seq (.star notNewline) (execRe isWord)).run done) [failWord]
        ⟨failStart.reverse, path ++ t⟩ = some f
      rw [run_group]
      apply run_plus_some
      · rwa [hword]
      · rw [hword, hrest, take_consumed]
        exact hf
    rw [hrun, Option.bind_some, (run_rest _ _ _ hf).1]
    rfl

end ShMonitor.Detection.Execution
