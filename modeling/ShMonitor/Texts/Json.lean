import ShMonitor.Texts.Lines

/-! JSON values as `jq -r` reads and prints them, and texts as awk compares them. The fields of an object
have distinct names. -/

namespace ShMonitor.Texts

inductive Json (α : Type) where
  | null
  | bool (b : Bool)
  | num (a : α)
  | str (t : Text)
  | arr (elements : List (Json α))
  | obj (fields : List (Text × Json α))

namespace Json

variable {α : Type}

def field (name : Text) : Json α → Option (Json α)
  | .obj fields => some ((fields.lookup name).getD .null)
  | .null => some .null
  | _ => none

def elements : Json α → Option (List (Json α))
  | .arr elements => some elements
  | .obj fields => some (fields.map Prod.snd)
  | _ => none

def isText (t : Text) : Json α → Bool
  | .str u => decide (u = t)
  | _ => false

def selectField (name value : Text) : List (Json α) → Option (List (Json α))
  | [] => some []
  | x :: xs =>
    (x.field name).bind fun found =>
      (selectField name value xs).map fun selected => if found.isText value then x :: selected else selected

end Json

/-- What jq prints for a number or a structure, and what awk makes of a text given with `-v`. Two numbers
are compared as such, anything else as texts. -/
structure Tools (α : Type) where
  parse : Text → Option (Json α)
  print : α → Text
  dump : Json α → Text
  number : Text → Option α
  before : Text → Text → Bool
  print_line : ∀ a, '\n' ∉ print a
  number_print : ∀ a, number (print a) = some a
  number_nil : number [] = none
  number_null : number "null".toList = none

namespace Tools

variable {α : Type} (tools : Tools α)

def raw : Json α → Text
  | .null => "null".toList
  | .bool b => if b then "true".toList else "false".toList
  | .num a => tools.print a
  | .str t => t
  | j => tools.dump j

/-- `$(jq -r filter file)`: nothing where jq stops, and no line ends behind the text. -/
def output (result : Option (Json α)) : Text :=
  (result.map tools.raw).elim [] (fun t => t.rdropWhile (· == '\n'))

def awkZero [Zero α] [DecidableEq α] (t : Text) : Bool := decide (tools.number t = some 0)

def awkLess [LT α] [DecidableLT α] (t u : Text) : Bool :=
  match tools.number t, tools.number u with
  | some a, some b => decide (a < b)
  | _, _ => tools.before t u

variable {tools}

lemma output_num (a : α) : tools.output (some (.num a)) = tools.print a := by
  rw [output, Option.map_some, Option.elim_some, raw]
  apply List.rdropWhile_eq_self_iff.mpr
  intro hne
  have hlast : (tools.print a).getLast hne ≠ '\n' := fun h => tools.print_line a (h ▸ List.getLast_mem hne)
  simpa using hlast

lemma print_ne_nil (a : α) : tools.print a ≠ [] := by
  intro h
  have hp := tools.number_print a
  rw [h, tools.number_nil] at hp
  cases hp

lemma print_ne_null (a : α) : tools.print a ≠ "null".toList := by
  intro h
  have hp := tools.number_print a
  rw [h, tools.number_null] at hp
  cases hp

lemma awkZero_print [Zero α] [DecidableEq α] (a : α) : tools.awkZero (tools.print a) = true ↔ a = 0 := by
  rw [awkZero, tools.number_print, decide_eq_true_iff, Option.some.injEq]

lemma awkLess_of_number [LT α] [DecidableLT α] {t u : Text} {a b : α} (ha : tools.number t = some a)
    (hb : tools.number u = some b) : tools.awkLess t u = true ↔ a < b := by
  rw [awkLess, ha, hb]
  exact decide_eq_true_iff

end Tools

def decimal (t : Text) : Option ℕ :=
  if t ≠ [] ∧ t.all Char.isDigit = true then some (Nat.ofDigitChars 10 t 0) else none

lemma isDigit_of_mem_toDigits {n : ℕ} {c : Char} (h : c ∈ Nat.toDigits 10 n) : c.isDigit = true :=
  Nat.isDigit_of_mem_toDigits (by decide) (by decide) h

def plainTools (parse : Text → Option (Json ℕ)) : Tools ℕ where
  parse := parse
  print := Nat.toDigits 10
  dump _ := "[]".toList
  number := decimal
  before t u := decide (t < u)
  print_line a h := absurd (isDigit_of_mem_toDigits h) (by decide)
  number_print a := by
    rw [decimal, if_pos ⟨Nat.toDigits_ne_nil, List.all_eq_true.mpr (fun c hc => isDigit_of_mem_toDigits hc)⟩,
      Nat.ofDigitChars_ten_toDigits]
  number_nil := rfl
  number_null := by
    rw [decimal, if_neg]
    rintro ⟨-, h⟩
    exact absurd h (by decide)

end ShMonitor.Texts
