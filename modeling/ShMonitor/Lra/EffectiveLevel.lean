import ShMonitor.Lra.LevelPass

/-! The level that a command line of `compile_one` compiles at. -/

namespace ShMonitor.Lra.DgOptions

open Texts Texts.Regex
open Bisect.ShSim (isIfs isWildcard)

lemma isLevel_char {w : Text} (h : isLevel w = true) : ∀ c ∈ w, c = '-' ∨ c.isAlphanum = true := by
  obtain ⟨level, rfl, halnum⟩ := exists_of_isLevel h
  intro c hc
  obtain rfl | hc := List.mem_cons.mp hc
  · exact Or.inl rfl
  · obtain rfl | hc := List.mem_cons.mp hc
    · exact Or.inr rfl
    · exact Or.inr (halnum c hc)

lemma isLevel_free {w : Text} (h : isLevel w = true) : ∀ c ∈ w, isIfs c = false := by
  intro c hc
  by_contra hgap
  obtain ⟨g, rfl⟩ := exists_gap (by simpa using hgap)
  obtain hdash | halnum := isLevel_char h _ hc
  · cases g <;> cases hdash
  · cases g <;> cases halnum

lemma isLevel_path {w : Text} (h : '/' ∈ w) : isLevel w = false := by
  rw [← Bool.not_eq_true]
  intro hlevel
  obtain hdash | halnum := isLevel_char hlevel _ h
  · cases hdash
  · cases halnum

lemma not_isLevel_of_any {w : Text} (h : w.any isWildcard = true) : isLevel w = false := by
  obtain ⟨c, hc, hwild⟩ := List.any_eq_true.mp h
  rw [← Bool.not_eq_true]
  intro hlevel
  simp only [isWildcard, Bool.or_eq_true, beq_iff_eq] at hwild
  obtain rfl | halnum := isLevel_char hlevel c hc
  · simp at hwild
  · obtain (rfl | rfl) | rfl := hwild <;> cases halnum

def unmatched : Pathnames where
  expand w := [w]
  noLevel w hw file hfile := by
    rw [List.mem_singleton.mp hfile]
    exact not_isLevel_of_any hw

lemma filter_splitWords (names : Pathnames) (t : Text) :
    (splitWords names t).filter isLevel = (words isIfs t).filter isLevel := by
  rw [splitWords]
  induction words isIfs t with
  | nil => rfl
  | cons w ws ih =>
    rw [List.flatMap_cons, List.filter_append, ih, List.filter_cons]
    by_cases hw : w.any isWildcard = true
    · have hnone : (names.expand w).filter isLevel = [] := by
        apply List.filter_eq_nil_iff.mpr
        intro file hfile
        rw [names.noLevel w hw file hfile]
        exact Bool.false_ne_true
      rw [if_pos hw, hnone, not_isLevel_of_any hw]
      rfl
    · rw [if_neg hw, List.filter_singleton]
      cases isLevel w <;> rfl

lemma filter_flags {text pre tail suf : Text} (htext : text = pre ++ " -".toList) (htail : tail = ' ' :: suf)
    (hpre : (words isIfs pre).filter isLevel = []) (hsuf : (words isIfs suf).filter isLevel = []) (opt : Opt) :
    (words isIfs (text ++ (opt.name ++ tail))).filter isLevel = ['-' :: opt.name] := by
  have hsplit : text ++ (opt.name ++ tail) = pre ++ ' ' :: (('-' :: opt.name) ++ ' ' :: suf) := by
    rw [htext, htail, List.append_assoc]
    rfl
  rw [hsplit, words_append rfl, words_cons (List.cons_ne_nil _ _) (isLevel_free opt.isLevel_dash) rfl,
    List.filter_append, hpre, List.filter_cons_of_pos opt.isLevel_dash, hsuf, List.nil_append]

lemma filter_baseFlags (mode : Text) (opt : Opt) :
    (words isIfs (baseFlags mode opt.name)).filter isLevel = ['-' :: opt.name] := by
  have hrun : "-B/usr/bin/sh4-linux-gnu- --sysroot=/usr/sh4-linux-gnu -".toList =
      "-B/usr/bin/sh4-linux-gnu- --sysroot=/usr/sh4-linux-gnu".toList ++ " -".toList := by decide +kernel
  have hcompile : "-c -B/usr/bin/sh4-linux-gnu- --sysroot=/usr/sh4-linux-gnu -".toList =
      "-c -B/usr/bin/sh4-linux-gnu- --sysroot=/usr/sh4-linux-gnu".toList ++ " -".toList := by decide +kernel
  have hstatic : " -w -static".toList = ' ' :: "-w -static".toList := by decide
  have hquiet : " -w".toList = ' ' :: "-w".toList := by decide
  rw [baseFlags]
  split
  · exact filter_flags hrun hstatic (by decide +kernel) (by decide +kernel) opt
  · exact filter_flags hcompile hquiet (by decide +kernel) (by decide +kernel) opt

lemma filter_compileOne (names : Pathnames) {src out mode extra : Text} (hsrc : '/' ∈ src) (hout : '/' ∈ out)
    (opt : Opt) :
    (compileOne names src opt.name out mode extra).filter isLevel =
      ('-' :: opt.name) :: (words isIfs extra).filter isLevel := by
  have hpaths : [src, "-o".toList, out].filter isLevel = [] := by
    rw [List.filter_cons_of_neg (by simp [isLevel_path hsrc]), List.filter_cons_of_neg (by decide),
      List.filter_cons_of_neg (by simp [isLevel_path hout]), List.filter_nil]
  rw [compileOne, List.filter_append, List.filter_append, hpaths, filter_splitWords, filter_splitWords,
    filter_baseFlags, List.append_nil]
  rfl

lemma effectiveLevel_iff (extra : Text) (opt : Opt) :
    (∀ names src out mode, '/' ∈ src → '/' ∈ out →
      effectiveLevel (compileOne names src opt.name out mode extra) = some ('-' :: opt.name)) ↔
      ∀ w ∈ ((words isIfs extra).filter isLevel).getLast?, w = '-' :: opt.name := by
  have hlast : ∀ l : List Text, ((('-' :: opt.name) :: l).getLast? = some ('-' :: opt.name)) ↔
      ∀ w ∈ l.getLast?, w = '-' :: opt.name := by
    intro l
    rw [List.getLast?_cons]
    cases l.getLast? <;> simp
  constructor
  · intro h
    have hargs := h unmatched ['/'] ['/'] [] List.mem_cons_self List.mem_cons_self
    rwa [effectiveLevel, filter_compileOne _ List.mem_cons_self List.mem_cons_self, hlast] at hargs
  · intro h names src out mode hsrc hout
    rwa [effectiveLevel, filter_compileOne names hsrc hout, hlast]

end ShMonitor.Lra.DgOptions
