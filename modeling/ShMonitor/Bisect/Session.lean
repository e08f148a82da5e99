import Mathlib.Order.Fin.Basic
import ShMonitor.Bisect.Predicate
import ShMonitor.Bisection

/-! `git bisect run sh-bisect-predicate.sh` in build, script and metric mode: each commit that git
has tested is one invocation, and all of them share the prefix and the cache. The commits of the
history are `α`, ordered by ancestry. -/

namespace ShMonitor.Bisect.Session

open Texts Bisection Build Predicate Runs Shell Workflow.LastGreen

variable {Tree Archive α : Type}

def mark : Verdict → Mark
  | .good => .good
  | .bad => .bad
  | .skip => .skip

/-- What happens in one invocation; `revParse` is whether `git rev-parse HEAD` tells the commit. -/
structure Tick (Tree Archive : Type) where
  revParse : Bool
  outcomes : Outcomes Tree Archive
  kill : Option ℕ

structure Tick.Reliable (tick : Tick Tree Archive) : Prop where
  revParse : tick.revParse = true
  extract : tick.outcomes.extract = true
  kill : tick.kill = none

variable (w : World Tree Archive) (sha : α → Commit)

def invocation (mode : Mode) (c : α) (tick : Tick Tree Archive) : Invocation Tree Archive where
  head := if tick.revParse then some (sha c) else none
  mode := mode
  outcomes := tick.outcomes
  kill := tick.kill

def test (cacheDir : Bool) (mode : Mode) (c : α) (tick : Tick Tree Archive) (d : Disk Tree Archive) :
    Option Mark × Disk Tree Archive :=
  let result := invoke w cacheDir (invocation sha mode c tick) d
  (result.1.map mark, result.2)

def markOf (mode : Mode) (c : α) : Mark := mark (verdict w (sha c) mode)

section

variable {w} {cacheDir : Bool} {mode : Mode} (hw : ∀ tree, w.unpack w.empty (w.pack tree) = tree)

include hw

variable (mode) in
lemma test_sound {d : Disk Tree Archive} (hd : cacheDir = true → CacheSound w d) (c : α)
    (tick : Tick Tree Archive) :
    (cacheDir = true → CacheSound w (test w sha cacheDir mode c tick d).2) ∧
      ∀ m ∈ (test w sha cacheDir mode c tick d).1, m = markOf w sha mode c ∨ m = .skip := by
  have hs := (predicate_meets hw tick.outcomes 0 cacheDir hd mode (invocation sha mode c tick).head).sound
    tick.kill
  have htest : test w sha cacheDir mode c tick d =
      Prod.map (Option.map mark) id ((predicate w cacheDir mode (invocation sha mode c tick).head).exec
        (host w tick.outcomes 0) tick.kill d) := rfl
  rw [htest]
  rcases hx : (predicate w cacheDir mode (invocation sha mode c tick).head).exec
    (host w tick.outcomes 0) tick.kill d with ⟨result, d'⟩
  rw [hx] at hs
  obtain ⟨hret, htorn⟩ := hs
  cases result with
  | none => exact ⟨htorn rfl, by simp⟩
  | some v =>
    obtain ⟨hsound, hverdict⟩ := hret v rfl
    refine ⟨hsound, ?_⟩
    rintro m ⟨⟩
    obtain rfl | ⟨rfl, -⟩ := hverdict
    · cases ht : tick.revParse with
      | true => exact Or.inl (by simp [invocation, ht, markOf])
      | false => exact Or.inr (by simp [invocation, ht, mark])
    · exact Or.inr rfl

lemma test_reliable {d : Disk Tree Archive} (hd : cacheDir = true → CacheSound w d) (c : α)
    {tick : Tick Tree Archive}
    (ht : tick.Reliable) : (test w sha cacheDir mode c tick d).1 = some (markOf w sha mode c) := by
  have hs := (predicate_meets hw tick.outcomes 0 cacheDir hd mode (some (sha c))).sound none
  obtain ⟨v, d', hv⟩ := Script.exec_none_isSome (host w tick.outcomes 0)
    (predicate w cacheDir mode (some (sha c))) d
  simp only [test, invoke, invocation, ht.revParse, ht.kill, if_true, hv, Option.map_some]
  rw [hv] at hs
  obtain ⟨-, rfl | ⟨-, sha', -, -, -, hx⟩⟩ := hs.1 v rfl
  · rfl
  · rw [ht.extract] at hx
    cases hx

end

variable [PartialOrder α]

def bisectRun (git : Bisector α) (cacheDir : Bool) (mode : Mode) (good bad : α)
    (ticks : List (Tick Tree Archive)) (d : Disk Tree Archive) : Ending α × Disk Tree Archive :=
  drive git (test w sha cacheDir mode) ticks (.start good bad) d

def bisectLog (git : Bisector α) (cacheDir : Bool) (mode : Mode) (good bad : α)
    (ticks : List (Tick Tree Archive)) (d : Disk Tree Archive) : List (α × Mark) :=
  trail git (test w sha cacheDir mode) ticks (.start good bad) d

lemma bisectRun_sound {w : World Tree Archive} {cacheDir : Bool} (mode : Mode)
    (hw : ∀ tree, w.unpack w.empty (w.pack tree) = tree) (git : Bisector α) (good bad : α)
    (ticks : List (Tick Tree Archive)) {d : Disk Tree Archive} (hd : cacheDir = true → CacheSound w d) :
    (cacheDir = true → CacheSound w (bisectRun w sha git cacheDir mode good bad ticks d).2) ∧
      (¬ bad ≤ good → Justified (markOf w sha mode) good bad
        (bisectLog w sha git cacheDir mode good bad ticks d)
        (bisectRun w sha git cacheDir mode good bad ticks d).1) := by
  obtain ⟨hsound, htraced⟩ := drive_spec git (J := fun d => cacheDir = true → CacheSound w d)
    (fun c tick _ hd => test_sound sha mode hw hd c tick) ticks (.start good bad) hd
  exact ⟨hsound, fun hrange => htraced.justified hrange⟩

lemma bisectRun_alone {w : World Tree Archive} {cacheDir : Bool} {mode : Mode}
    (hw : ∀ tree, w.unpack w.empty (w.pack tree) = tree) (git : Bisector α) (good bad : α)
    {ticks : List (Tick Tree Archive)} (hticks : ∀ tick ∈ ticks, tick.Reliable) {d : Disk Tree Archive}
    (hd : cacheDir = true → CacheSound w d) :
    (bisectRun w sha git cacheDir mode good bad ticks d).1 =
      alone (markOf w sha mode) git ticks.length good bad :=
  drive_eq_alone git (J := fun d => cacheDir = true → CacheSound w d)
    (fun c tick ht _ hd => ⟨test_reliable sha hw hd c (hticks tick ht),
      (test_sound sha mode hw hd c tick).1⟩) hd

variable {w : World Tree Archive} (hw : ∀ tree, w.unpack w.empty (w.pack tree) = tree)
  {start : Disk Tree Archive} (hstart : ∀ s, start.cache s = none)

include hw hstart in
lemma cacheSound_after (earlier : List (Invocation Tree Archive)) :
    CacheSound w (after (next w) start earlier) :=
  invariant_always (CacheSound w) (cacheSound_next hw) (fun s _ ht => by simp [hstart s] at ht) earlier

theorem bisectRun_justified (w : World Tree Archive) (hw : ∀ tree, w.unpack w.empty (w.pack tree) = tree)
    (start : Disk Tree Archive) (hstart : ∀ s, start.cache s = none) (earlier : List (Invocation Tree Archive))
    (sha : α → Commit) (git : Bisector α) (cacheDir : Bool) (mode : Mode) (good bad : α) (hrange : ¬ bad ≤ good)
    (ticks : List (Tick Tree Archive)) :
    let d := after (next w) start earlier
    Justified (markOf w sha mode) good bad (bisectLog w sha git cacheDir mode good bad ticks d)
      (bisectRun w sha git cacheDir mode good bad ticks d).1 :=
  (bisectRun_sound sha mode hw git good bad ticks (fun _ => cacheSound_after hw hstart earlier)).2 hrange

theorem bisectRun_found (w : World Tree Archive) (hw : ∀ tree, w.unpack w.empty (w.pack tree) = tree)
    (start : Disk Tree Archive) (hstart : ∀ s, start.cache s = none) (earlier : List (Invocation Tree Archive))
    (sha : α → Commit) (git : Bisector α) (cacheDir : Bool) (mode : Mode) (good bad : α)
    (ticks : List (Tick Tree Archive)) (hticks : ∀ tick ∈ ticks, tick.Reliable) (between : Finset α)
    (hbetween : ∀ c, c ≤ bad → ¬ c ≤ good → c ≠ bad → c ∈ between) (hmany : between.card ≤ ticks.length)
    (htestable : ∀ c, c ≤ bad → ¬ c ≤ good → verdict w (sha c) mode ≠ .skip)
    (hgood : verdict w (sha good) mode ≠ .bad) (hbad : verdict w (sha bad) mode = .bad)
    (hpersists : ∀ c d, c ≤ d → verdict w (sha c) mode = .bad → verdict w (sha d) mode = .bad) :
    ∃ c, (bisectRun w sha git cacheDir mode good bad ticks (after (next w) start earlier)).1 = .found c ∧
      Minimal (fun d => verdict w (sha d) mode = .bad) c := by
  have hmark (c : α) : markOf w sha mode c = .bad ↔ verdict w (sha c) mode = .bad := by
    rw [markOf]
    cases verdict w (sha c) mode <;> simp [mark]
  have hskip (c : α) : markOf w sha mode c = .skip ↔ verdict w (sha c) mode = .skip := by
    rw [markOf]
    cases verdict w (sha c) mode <;> simp [mark]
  simp only [ne_eq, ← hmark, ← hskip] at htestable hgood hbad hpersists ⊢
  rw [bisectRun_alone sha hw git good bad hticks (fun _ => cacheSound_after hw hstart earlier)]
  exact alone_found git between hbetween hmany htestable hgood hbad hpersists

def linear (c : Fin 4) : Commit := ⟨Nat.toDigits 10 c, Nat.toDigits_ne_nil⟩

def brokenWorld : World Text Text :=
  { plainWorld with gcc := fun sha => if sha.1 < ['2'] then some sha.1 else none }

def quietTick : Tick Text Text := ⟨true, plainOutcomes, none⟩

lemma quiet_reliable : ∀ tick ∈ [quietTick, quietTick], tick.Reliable := by
  intro tick ht
  obtain rfl : tick = quietTick := by simpa using ht
  exact ⟨rfl, rfl, rfl⟩

def byMiddle : Bisector (Fin 4) := middle (List.finRange 4) List.mem_finRange

def lostTick : Tick Text Text := { quietTick with revParse := false }

def warmDisk (c : Fin 4) : Disk Text Text := after (next brokenWorld) cleanDisk [buildAt (linear c) (some 3)]

theorem bisectRun_justified_linear :
    bisectLog brokenWorld linear byMiddle true .build 0 3 [lostTick, quietTick] (warmDisk 1) =
      [(1, .skip), (2, .bad)] ∧
    (bisectRun brokenWorld linear byMiddle true .build 0 3 [lostTick, quietTick] (warmDisk 1)).1 = .stuck ∧
    Justified (markOf brokenWorld linear .build) 0 3
      (bisectLog brokenWorld linear byMiddle true .build 0 3 [lostTick, quietTick] (warmDisk 1))
      (bisectRun brokenWorld linear byMiddle true .build 0 3 [lostTick, quietTick] (warmDisk 1)).1 := by
  refine ⟨by decide +kernel, by decide +kernel, ?_⟩
  exact bisectRun_justified brokenWorld (fun _ => rfl) cleanDisk (fun _ => rfl)
    [buildAt (linear 1) (some 3)] linear byMiddle true .build 0 3 (by decide) [lostTick, quietTick]

theorem bisectRun_found_linear :
    ∃ c, (bisectRun brokenWorld linear byMiddle true .build 0 3 [quietTick, quietTick]
        (after (next brokenWorld) cleanDisk [])).1 = .found c ∧
      Minimal (fun d => verdict brokenWorld (linear d) .build = .bad) c :=
  bisectRun_found brokenWorld (fun _ => rfl) cleanDisk (fun _ => rfl) [] linear byMiddle true .build 0 3
    [quietTick, quietTick] quiet_reliable {1, 2} (by decide) (by decide)
    (by decide +kernel) (by decide +kernel) (by decide +kernel) (by decide +kernel)

end ShMonitor.Bisect.Session
