import Mathlib.Data.List.Basic

/-! Runs of a state machine over a list of inputs. -/

namespace ShMonitor.Runs

variable {S I : Type*} (next : S → I → S)

def after (s : S) (inputs : List I) : S := inputs.foldl next s

def Along (P : S → I → Prop) : S → List I → Prop
  | _, [] => True
  | s, i :: inputs => P s i ∧ Along P (next s i) inputs

instance decidableAlong (P : S → I → Prop) [∀ s i, Decidable (P s i)] :
    ∀ s inputs, Decidable (Along next P s inputs)
  | _, [] => inferInstanceAs (Decidable True)
  | s, i :: inputs =>
    have := decidableAlong P (next s i) inputs
    inferInstanceAs (Decidable (_ ∧ _))

variable {next} {P Q : S → I → Prop} {Inv : S → Prop}

@[simp] lemma along_cons {s : S} {i : I} {inputs : List I} :
    Along next P s (i :: inputs) ↔ P s i ∧ Along next P (next s i) inputs := Iff.rfl

lemma along_append {s : S} {first second : List I} :
    Along next P s (first ++ second) ↔ Along next P s first ∧ Along next P (after next s first) second := by
  induction first generalizing s with
  | nil => simp [Along, after]
  | cons i first ih => simp only [List.cons_append, along_cons, ih, and_assoc, after, List.foldl_cons]

variable (Inv) in
lemma invariant_always (hstep : ∀ s i, Inv s → Inv (next s i)) {s : S} (hs : Inv s) (inputs : List I) :
    Inv (after next s inputs) := by
  induction inputs generalizing s with
  | nil => exact hs
  | cons i inputs ih => exact ih (hstep s i hs)

variable (Inv) in
lemma invariant_inputs {inputs : List I} (hstep : ∀ s, ∀ i ∈ inputs, Inv s → Inv (next s i)) {s : S}
    (hs : Inv s) :
    Inv (after next s inputs) := by
  induction inputs generalizing s with
  | nil => exact hs
  | cons i inputs ih =>
    exact ih (fun s i' hi' => hstep s i' (List.mem_cons_of_mem i hi')) (hstep s i List.mem_cons_self hs)

lemma along_of_invariant (hstep : ∀ s i, Inv s → P s i → Inv (next s i)) (hP : ∀ s i, Inv s → P s i → Q s i)
    {s : S} {inputs : List I} (hs : Inv s) (h : Along next P s inputs) : Along next Q s inputs := by
  induction inputs generalizing s with
  | nil => trivial
  | cons i inputs ih => exact ⟨hP s i hs h.1, ih (hstep s i hs h.1) h.2⟩

lemma along_congr (hstep : ∀ s i, Inv s → Inv (next s i)) (hPQ : ∀ s i, Inv s → (P s i ↔ Q s i))
    {s : S} {inputs : List I} (hs : Inv s) : Along next P s inputs ↔ Along next Q s inputs := by
  constructor
  · apply along_of_invariant (fun s i h _ => hstep s i h) (fun s i h => (hPQ s i h).mp) hs
  · apply along_of_invariant (fun s i h _ => hstep s i h) (fun s i h => (hPQ s i h).mpr) hs

section

variable {O T : Type*} {hear : T → O → T} {seen : S → T}

def observed (next : S → I → S) (observe : S → I → List O) : S → List I → List O
  | _, [] => []
  | s, i :: inputs => observe s i ++ observed next observe (next s i) inputs

variable {observe : S → I → List O}

lemma mem_observed {s : S} {inputs : List I} {o : O} (h : o ∈ observed next observe s inputs) :
    ∃ before i later, inputs = before ++ i :: later ∧ o ∈ observe (after next s before) i := by
  induction inputs generalizing s with
  | nil => cases h
  | cons i inputs ih =>
    rcases List.mem_append.mp h with hnow | hlater
    · exact ⟨[], i, inputs, rfl, hnow⟩
    · obtain ⟨before, i', later, rfl, ho⟩ := ih hlater
      exact ⟨i :: before, i', later, rfl, ho⟩

variable (Inv seen) in
lemma seen_after (hstep : ∀ s i, Inv s → Inv (next s i))
    (hsim : ∀ s i, Inv s → seen (next s i) = (observe s i).foldl hear (seen s)) {s : S} (hs : Inv s)
    (inputs : List I) :
    seen (after next s inputs) = (observed next observe s inputs).foldl hear (seen s) := by
  induction inputs generalizing s with
  | nil => rfl
  | cons i inputs ih =>
    have hrest := ih (hstep s i hs)
    rw [hsim s i hs] at hrest
    rw [observed, List.foldl_append]
    exact hrest

end

end ShMonitor.Runs
