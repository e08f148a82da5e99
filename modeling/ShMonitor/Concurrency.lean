import Mathlib.Data.List.Basic

/-! A group of jobs of which one runs at a time. One more may wait; a later request takes its place,
and it starts when the one that runs is over. That the request that waits is the last one is an
assumption about the service: its documents promise no order among the requests of a group. -/

namespace ShMonitor.Concurrency

structure Group (ρ ω : Type*) where
  running : Option ρ
  waiting : Option ω

namespace Group

variable {ρ ω κ : Type*} {start : ω → ρ} {ofRunning : ρ → κ} {ofWaiting : ω → κ}

def idle : Group ρ ω := ⟨none, none⟩

def settle (start : ω → ρ) (g : Group ρ ω) : Group ρ ω :=
  match g.running, g.waiting with
  | none, some w => ⟨some (start w), none⟩
  | _, _ => g

def request (start : ω → ρ) (g : Group ρ ω) (w : ω) : Group ρ ω := settle start { g with waiting := some w }

def proceed (start : ω → ρ) (g : Group ρ ω) (r : Option ρ) : Group ρ ω := settle start { g with running := r }

def held (ofRunning : ρ → κ) (ofWaiting : ω → κ) (g : Group ρ ω) : List κ :=
  (g.waiting.map ofWaiting).toList ++ (g.running.map ofRunning).toList

def Settled (g : Group ρ ω) : Prop := g.running = none → g.waiting = none

lemma mem_settle {g : Group ρ ω} {r : ρ} (h : r ∈ (g.settle start).running) :
    r ∈ g.running ∨ g.running = none ∧ ∃ w ∈ g.waiting, r = start w := by
  rw [settle] at h
  split at h
  · rename_i w hr hw
    obtain rfl := Option.some.inj h
    exact Or.inr ⟨hr, w, hw, rfl⟩
  · exact Or.inl h

lemma settled_settle (start : ω → ρ) (g : Group ρ ω) : (g.settle start).Settled := by
  intro h
  rw [settle] at h ⊢
  split
  · rfl
  · rename_i hne
    cases hw : g.waiting with
    | none => rfl
    | some w =>
      split at h
      · cases h
      · exact absurd hw (hne w h)

lemma held_settle (hstart : ∀ w, ofRunning (start w) = ofWaiting w) (g : Group ρ ω) :
    (g.settle start).held ofRunning ofWaiting = g.held ofRunning ofWaiting := by
  rw [settle]
  split
  · rename_i w hr hw
    rw [held, held, hr, hw, Option.map_some, Option.map_some, hstart]
    rfl
  · rfl

lemma held_request (hstart : ∀ w, ofRunning (start w) = ofWaiting w) (g : Group ρ ω) (w : ω) :
    (g.request start w).held ofRunning ofWaiting = ofWaiting w :: (g.running.map ofRunning).toList :=
  held_settle hstart _

lemma held_proceed (hstart : ∀ w, ofRunning (start w) = ofWaiting w) (g : Group ρ ω) (r : Option ρ) :
    (g.proceed start r).held ofRunning ofWaiting = (g.waiting.map ofWaiting).toList ++
      (r.map ofRunning).toList :=
  held_settle hstart _

lemma running_sublist (g : Group ρ ω) : (g.running.map ofRunning).toList.Sublist (g.held ofRunning ofWaiting) :=
  List.sublist_append_right _ _

lemma waiting_sublist (g : Group ρ ω) : (g.waiting.map ofWaiting).toList.Sublist (g.held ofRunning ofWaiting) :=
  List.sublist_append_left _ _

end Group

end ShMonitor.Concurrency
