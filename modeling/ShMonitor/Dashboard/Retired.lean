import ShMonitor.Dashboard.Migrate
import ShMonitor.Dashboard.Trend

/-! What the migration does to the lane whose series the page no longer shows. -/

namespace ShMonitor.Dashboard.Retired

open Texts Migrate Trend

variable {ν : Type}

def OfLane (bench : Bench ν) : Prop :=
  ∃ entries : List (Entry ν), some bench.name ∈ (suffixMetrics lra entries).map Entry.name

lemma ofLane_iff {bench : Bench ν} : OfLane bench ↔ lra <:+ bench.name := mem_suffixMetrics

lemma ignored_iff {name : Text} : ignored name = true ↔ lra <:+ name := by
  rw [ignored, decide_eq_true_eq]

lemma not_lra_append {s : Text} (hlength : lra.length ≤ s.length) (hs : ¬ lra <:+ s) (base : Text) :
    ¬ lra <:+ base ++ s :=
  fun h => hs (List.suffix_of_suffix_length_le h (List.suffix_append base s) hlength)

lemma not_lra_sh4 (base : Text) : ¬ lra <:+ base ++ sh4 := by
  intro h
  have hshort : sh4 <:+ lra := List.suffix_of_suffix_length_le (List.suffix_append base sh4) h (by decide)
  exact absurd hshort (by decide)

lemma lra_of_maybeRename {name : Text} (h : lra <:+ maybeRename name) : lra <:+ name := by
  obtain ⟨base, -, hname⟩ | hname | ⟨-, -, hname⟩ := rename_cases name
  · rw [hname] at h
    exact (not_lra_append (by decide) (by decide) base h).elim
  · rwa [hname] at h
  · rw [hname] at h
    exact (not_lra_sh4 name h).elim

lemma lra_of_passes {name : Text} {k : ℕ} (h : lra <:+ maybeRename^[k] name) : lra <:+ name := by
  induction k with
  | zero => exact h
  | succ k ih =>
    rw [Function.iterate_succ_apply'] at h
    exact ih (lra_of_maybeRename h)

lemma not_suffixed {name : Text} (h : lra <:+ name) : ¬ Suffixed name := by
  rintro ⟨s, hs, hsuffix⟩
  have hclash : ¬ lra <:+ s ∧ ¬ s <:+ lra :=
    (by decide : ∀ s ∈ knownArchSuffixes, ¬ lra <:+ s ∧ ¬ s <:+ lra) s hs
  obtain h' | h' := List.suffix_or_suffix_of_suffix h hsuffix
  · exact hclash.1 h'
  · exact hclash.2 h'

lemma maybeRename_lra {name : Text} (h : lra <:+ name) :
    maybeRename name = if Prefixed name then name ++ sh4 else name := by
  have hd : ¬ doubled <:+ name :=
    fun hd => not_suffixed h ⟨sh4, List.mem_cons_self, (List.suffix_append "_riscv32".toList sh4).trans hd⟩
  split
  · exact rename_bare ‹_› (not_suffixed h)
  · exact rename_other hd ‹_›

lemma passes_lra {name : Text} (h : lra <:+ name) (k : ℕ) :
    lra <:+ maybeRename^[k + 1] name ↔ ¬ Prefixed name := by
  by_cases hp : Prefixed name
  · have hfirst : maybeRename name = name ++ sh4 := by rw [maybeRename_lra h, if_pos hp]
    rw [Function.iterate_succ_apply, hfirst]
    refine iff_of_false (fun hk => not_lra_sh4 name (lra_of_passes hk)) (not_not.mpr hp)
  · have hfixed : maybeRename name = name := by rw [maybeRename_lra h, if_neg hp]
    rw [Function.iterate_fixed hfixed]
    exact iff_of_true h hp

lemma at_later (data : Data ν) (place : Place) (k : ℕ) {bench : Bench ν} (h : data.at place = some bench) :
    ∃ later, (migrate^[k] data).at place = some later ∧ later.name = maybeRename^[k] bench.name :=
  ⟨renamed^[k] bench, by rw [at_passes, h, Option.map_some], name_passes bench k⟩

theorem retired_kept_iff (data : Data ν) (k : ℕ) :
    (∀ place bench, data.at place = some bench → ∃ later, (migrate^[k + 1] data).at place = some later ∧
        (OfLane bench → ignored later.name = true) ∧
          (ignored bench.name = false → ignored later.name = false)) ↔
      ∀ place bench, data.at place = some bench → OfLane bench → ¬ Prefixed bench.name := by
  constructor
  · intro h place bench hbench hlane
    obtain ⟨later, hlater, hname⟩ := at_later data place (k + 1) hbench
    obtain ⟨later', hlater', hkept, -⟩ := h place bench hbench
    obtain rfl : later' = later := Option.some.inj (hlater'.symm.trans hlater)
    have hignored := hkept hlane
    rw [ignored_iff, hname] at hignored
    exact (passes_lra (ofLane_iff.mp hlane) k).mp hignored
  · intro h place bench hbench
    obtain ⟨later, hlater, hname⟩ := at_later data place (k + 1) hbench
    refine ⟨later, hlater, ?_⟩
    rw [ignored_iff, ← Bool.not_eq_true, ← Bool.not_eq_true, ignored_iff, ignored_iff, hname]
    refine ⟨fun hlane => ?_, fun hshown hlra => hshown (lra_of_passes hlra)⟩
    exact (passes_lra (ofLane_iff.mp hlane) k).mpr (h place bench hbench hlane)

def laneTotal : Text := "csibe_total_os_bytes_sh4__lra".toList

def laneData : Data ℕ where
  entries := some ⟨[("Benchmark".toList, [⟨⟨[], []⟩, 0, some [⟨laneTotal, "bytes".toList, 10⟩]⟩])],
    List.nodup_singleton _⟩

def lanePlace : Place := ⟨"Benchmark".toList, 0, 0⟩

theorem retired_kept_counterexample :
    (laneData.at lanePlace = some ⟨laneTotal, "bytes".toList, 10⟩ ∧
      OfLane (⟨laneTotal, "bytes".toList, 10⟩ : Bench ℕ) ∧ ignored laneTotal = true) ∧
    (migrate laneData).at lanePlace = some ⟨"csibe_total_os_bytes_sh4__lra_sh4".toList, "bytes".toList, 10⟩ ∧
      ignored "csibe_total_os_bytes_sh4__lra_sh4".toList = false := by
  refine ⟨⟨rfl, ofLane_iff.mpr (by decide +kernel), by decide +kernel⟩, ?_, by decide +kernel⟩
  rw [at_migrate]
  have hname : maybeRename laneTotal = "csibe_total_os_bytes_sh4__lra_sh4".toList := by decide +kernel
  show some (renamed _) = _
  rw [renamed, hname]

end ShMonitor.Dashboard.Retired
