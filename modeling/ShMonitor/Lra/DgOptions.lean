import ShMonitor.Bisect.ShSim
import ShMonitor.Lra.Corpus
import ShMonitor.Texts.Fields
import ShMonitor.Texts.Substitute

/-! `extract_dg_options` and `compile_one` of `run-lra-corpus.sh`: the flags of a case file's
`dg-options` directive, with the levels and `-m4` edited out, are put behind the level of the
manifest. The compiler takes the last level on its command line. -/

namespace ShMonitor.Lra.DgOptions

open Texts Texts.Regex
open Bisect.ShSim (isIfs isWildcard)

def isPosixSpace (c : Char) : Bool := (9 ≤ c.toNat && c.toNat ≤ 13) || c == ' '

def isLevelChar (c : Char) : Bool := c.isDigit || c == 's' || c == 'g'

/-- What `\b` takes for a word character. -/
structure Locale where
  isWord : Char → Bool
  level : ∀ c, isLevelChar c = true → isWord c = true
  gap : ∀ c, isIfs c = true → isWord c = false

def headLines : ℕ → Text → Text
  | 0, _ => []
  | _ + 1, [] => []
  | n + 1, c :: t => c :: headLines (if c = '\n' then n else n + 1) t

def flattened (t : Text) : Text := t.map (fun c => if c = '\n' then ' ' else c)

lemma flattened_append (t u : Text) : flattened (t ++ u) = flattened t ++ flattened u := List.map_append

lemma flattened_cons {c : Char} (hc : c ≠ '\n') (t : Text) : flattened (c :: t) = c :: flattened t :=
  congrArg (· :: flattened t) (if_neg hc)

def directiveRe : Re :=
  .group (.cat [.lit "dg-options".toList, .star isPosixSpace, .chr (· == '"'), .star (· != '"'),
    .chr (· == '"')])

def unquoted (d : Text) : Text := (((d.drop 10).dropWhile isPosixSpace).drop 1).dropLast

def m4 : Text := "-m4".toList

variable (loc : Locale)

def levelRe : Re := .cat [.lit "-O".toList, .plus isLevelChar, .wordBoundary loc.isWord]

def spacedLevelRe : Re := .cat [.lit "-O".toList, .plus (· == ' '), .plus isLevelChar, .wordBoundary loc.isWord]

def m4Re : Re := .cat [.group (.alt .bol (.chr (· == ' '))), .lit m4, .group (.alt (.chr (· == ' ')) .eol)]

def strippedFlags (flags : Text) : Text :=
  m4Re.sub List.flatten ((spacedLevelRe loc).delete ((levelRe loc).delete flags))

def extractDgOptions (src : Text) : Text :=
  match (directiveRe.findall (flattened (headLines 50 src))).head? with
  | none => []
  | some found => strippedFlags loc (unquoted found.flatten)

def baseFlags (mode opt : Text) : Text :=
  if mode = Corpus.compilesAndRuns then
    "-B/usr/bin/sh4-linux-gnu- --sysroot=/usr/sh4-linux-gnu -".toList ++ (opt ++ " -w -static".toList)
  else "-c -B/usr/bin/sh4-linux-gnu- --sysroot=/usr/sh4-linux-gnu -".toList ++ (opt ++ " -w".toList)

def isLevel : Text → Bool
  | '-' :: 'O' :: level =>
    level.all Char.isDigit || level == ['s'] || level == ['g'] || level == ['z'] || level == "fast".toList
  | _ => false

def effectiveLevel (args : List Text) : Option Text := (args.filter isLevel).getLast?

/-- What the shell makes of a word with wildcards. No file that it finds is named like a level. -/
structure Pathnames where
  expand : Text → List Text
  noLevel : ∀ w, w.any isWildcard = true → ∀ file ∈ expand w, isLevel file = false

def splitWords (names : Pathnames) (t : Text) : List Text :=
  (words isIfs t).flatMap fun w => if w.any isWildcard then names.expand w else [w]

def compileOne (names : Pathnames) (src opt out mode extra : Text) : List Text :=
  splitWords names (baseFlags mode opt) ++ (splitWords names extra ++ [src, "-o".toList, out])

structure Opt where
  name : Text
  isLevel_dash : isLevel ('-' :: name) = true

inductive Gap where
  | blank
  | tab
  | newline
  deriving DecidableEq

def Gap.char : Gap → Char
  | .blank => ' '
  | .tab => '\t'
  | .newline => '\n'

structure Slot where
  gap : Gap
  option : Text
  free : ∀ c ∈ option, isIfs c = false ∧ c ≠ '"'

def Slot.text (s : Slot) : Text := s.gap.char :: s.option

structure Options where
  first : Text
  first_free : ∀ c ∈ first, isIfs c = false ∧ c ≠ '"'
  rest : List Slot

def Options.text (o : Options) : Text := o.first ++ o.rest.flatMap Slot.text

def Options.slots (o : Options) : List Slot := ⟨.blank, o.first, o.first_free⟩ :: o.rest

def Options.tokens (o : Options) : List Text := words isIfs o.text

/-- What `grep` looks for begins here. -/
def Opens (t : Text) : Prop :=
  ∃ gap body rest, t = "dg-options".toList ++ (gap ++ '"' :: (body ++ '"' :: rest)) ∧
    (∀ c ∈ gap, isPosixSpace c = true) ∧ '"' ∉ body

structure CaseFile where
  lead : Text
  gap : Text
  options : Options
  rest : Text
  gap_space : ∀ c ∈ gap, isPosixSpace c = true
  first : ∀ x y, lead = x ++ y → y ≠ [] →
    ¬ Opens (flattened (y ++ ("dg-options".toList ++ (gap ++ '"' :: (options.text ++ '"' :: rest)))))

def CaseFile.opening (file : CaseFile) : Text :=
  file.lead ++ ("dg-options".toList ++ (file.gap ++ '"' :: file.options.text))

def CaseFile.text (file : CaseFile) : Text := file.opening ++ '"' :: file.rest

def isOther (w : Text) : Bool := !isLevel w && w != m4

structure LevelCompiled (file : CaseFile) (opt : Opt) : Prop where
  level : ∀ names src out mode, '/' ∈ src → '/' ∈ out →
    effectiveLevel (compileOne names src opt.name out mode (extractDgOptions loc file.text)) =
      some ('-' :: opt.name)
  kept : (file.options.tokens.filter isOther).Sublist (words isIfs (extractDgOptions loc file.text))
  removed : m4 ∉ words isIfs (extractDgOptions loc file.text)

def startsRun (w : Text) : Bool :=
  w.takeWhile isLevelChar != [] && !((w.dropWhile isLevelChar).head?.map loc.isWord).getD false

def isStripped : Text → Bool
  | '-' :: 'O' :: level => level != [] && level.all isLevelChar
  | _ => false

def HoldsRun (w : Text) : Prop := ∃ x a, w = x ++ '-' :: 'O' :: a ∧ startsRun loc a = true

def RunFollows : List Slot → Prop
  | [] => False
  | s :: ss => s.gap ≠ .tab ∧
    if s.option = [] ∨ isStripped s.option = true then RunFollows ss else startsRun loc s.option = true

def NoSplitLevel : List Slot → Prop
  | [] => True
  | s :: ss => ¬ ("-O".toList <:+ s.option ∧ RunFollows loc ss) ∧ NoSplitLevel ss

def M4Apart : List Slot → Prop
  | [] => True
  | s :: ss =>
      (s.option = m4 → s.gap ≠ .tab ∧ ∀ next ∈ ss.head?, next.gap ≠ .tab ∧ next.option ≠ m4) ∧ M4Apart ss

/-- No other option holds a level, no `-O` stands apart from its level, each `-m4` has blanks of its
own, and the last level of another form is the one of the manifest. -/
structure Separable (o : Options) (opt : Opt) : Prop where
  whole : ∀ w ∈ o.tokens, isOther w = true → ¬ HoldsRun loc w
  unsplit : NoSplitLevel loc o.slots
  m4 : M4Apart o.slots
  level : ∀ w ∈ (o.tokens.filter (fun w => isLevel w && !isStripped w)).getLast?, w = '-' :: opt.name

end ShMonitor.Lra.DgOptions
