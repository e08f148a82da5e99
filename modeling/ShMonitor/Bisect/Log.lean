import ShMonitor.Bisect.Session

/-! What `git bisect run` prints, and the line that the scripts look for in it: a full commit name
followed by "is the first bad commit". The tests and git print other lines before and after it. -/

namespace ShMonitor.Bisect.Log

open Texts Bisection Workflow.LastGreen

variable {α : Type}

def isHex (c : Char) : Bool := ('0' ≤ c && c ≤ '9') || ('a' ≤ c && c ≤ 'f')

def phrase : Text := " is the first bad commit".toList

def shaLength : ℕ := 40

/-- `grep -oE '^[0-9a-f]\x7b40\x7d is the first bad commit'`, and of what it prints the first field. -/
def firstBad (line : Text) : Option Text :=
  if (line.take shaLength).length = shaLength ∧ (line.take shaLength).all isHex = true ∧
    phrase <+: line.drop shaLength
  then some (line.take shaLength) else none

def culprits (log : Text) : List Text := (lines log).filterMap firstBad

structure Printed where
  before : List Text
  after : List Text

def announce (sha : α → Commit) : Ending α → List Text
  | .found c => [(sha c).1 ++ phrase]
  | _ => []

def Printed.log (printed : Printed) (sha : α → Commit) (ending : Ending α) : Text :=
  unlines (printed.before ++ (announce sha ending ++ printed.after))

structure Printed.Quiet (printed : Printed) : Prop where
  lines : ∀ line ∈ printed.before ++ printed.after, '\n' ∉ line
  silent : ∀ line ∈ printed.before ++ printed.after, firstBad line = none

def Full (c : Commit) : Prop := c.1.length = shaLength ∧ c.1.all isHex = true

def named (sha : α → Commit) : Ending α → List Text
  | .found c => [(sha c).1]
  | _ => []

lemma not_hex_newline : isHex '\n' = false := by decide

lemma firstBad_announced {c : Commit} (hc : Full c) : firstBad (c.1 ++ phrase) = some c.1 := by
  have htake : (c.1 ++ phrase).take shaLength = c.1 := by
    rw [← hc.1]
    exact List.take_left
  have hdrop : (c.1 ++ phrase).drop shaLength = phrase := by
    rw [← hc.1]
    exact List.drop_left
  rw [firstBad, htake, hdrop, if_pos ⟨hc.1, hc.2, List.prefix_rfl⟩]

lemma newline_announced {c : Commit} (hc : Full c) : '\n' ∉ c.1 ++ phrase := by
  intro h
  obtain h | h := List.mem_append.mp h
  · have hhex := List.all_eq_true.mp hc.2 _ h
    rw [not_hex_newline] at hhex
    cases hhex
  · exact absurd h (by decide)

lemma culprits_log {sha : α → Commit} (hsha : ∀ c, Full (sha c)) {printed : Printed} (hquiet : printed.Quiet)
    (ending : Ending α) : culprits (printed.log sha ending) = named sha ending := by
  have hannounce : ∀ line ∈ announce sha ending, '\n' ∉ line := by
    cases ending with
    | found c => simpa [announce] using newline_announced (hsha c)
    | stuck | interrupted c => simp [announce]
  have hlines : ∀ line ∈ printed.before ++ (announce sha ending ++ printed.after), '\n' ∉ line := by
    intro line hline
    simp only [List.mem_append] at hline
    obtain h | h | h := hline
    · exact hquiet.lines line (List.mem_append_left _ h)
    · exact hannounce line h
    · exact hquiet.lines line (List.mem_append_right _ h)
  have hbefore : printed.before.filterMap firstBad = [] :=
    List.filterMap_eq_nil_iff.mpr (fun line h => hquiet.silent line (List.mem_append_left _ h))
  have hafter : printed.after.filterMap firstBad = [] :=
    List.filterMap_eq_nil_iff.mpr (fun line h => hquiet.silent line (List.mem_append_right _ h))
  have hlast : firstBad [] = none := by decide
  rw [culprits, Printed.log, lines_unlines hlines]
  simp only [List.filterMap_append, hbefore, hafter, List.filterMap_cons_none hlast, List.filterMap_nil,
    List.nil_append, List.append_nil]
  cases ending with
  | found c => exact List.filterMap_cons_some (firstBad_announced (hsha c))
  | stuck | interrupted c => rfl

end ShMonitor.Bisect.Log
