import Mathlib.Logic.Function.Iterate
import ShMonitor.Dashboard.Data

/-! migrate-benchmark-data.py, which gives historical names their arch suffix on every publish, and
suffix-metrics.py, which marks the metrics of a lane before they are published. -/

namespace ShMonitor.Dashboard.Migrate

open Texts

variable {ν : Type}

def suffixPrefixes : List Text := ["csibe_".toList, "coremark_".toList, "busybox_".toList, "musl_".toList]

def knownArchSuffixes : List Text := ["_sh4".toList, "_arm".toList, "_x86".toList, "_riscv32".toList]

def sh4 : Text := "_sh4".toList

def doubled : Text := "_riscv32_sh4".toList

def Prefixed (name : Text) : Prop := ∃ p ∈ suffixPrefixes, p <+: name

instance (name : Text) : Decidable (Prefixed name) :=
  inferInstanceAs (Decidable (∃ p ∈ suffixPrefixes, p <+: name))

def Suffixed (name : Text) : Prop := ∃ s ∈ knownArchSuffixes, s <:+ name

instance (name : Text) : Decidable (Suffixed name) :=
  inferInstanceAs (Decidable (∃ s ∈ knownArchSuffixes, s <:+ name))

def maybeRename (name : Text) : Text :=
  if doubled <:+ name then name.rdrop sh4.length
  else if ¬ Prefixed name then name
  else if Suffixed name then name
  else name ++ sh4

def renamed (bench : Bench ν) : Bench ν := { bench with name := maybeRename bench.name }

def migrateRun (run : Run ν) : Run ν := { run with benches := run.benches.map (List.map renamed) }

def migrate (data : Data ν) : Data ν where
  entries := data.entries.map (Table.map (List.map migrateRun))

structure Entry (ν : Type) where
  name : Option Text
  unit : Option Text
  value : Option ν

def suffixMetrics (suffix : Text) (entries : List (Entry ν)) : List (Entry ν) :=
  entries.map (fun entry => { entry with name := entry.name.map (· ++ suffix) })

@[simp] lemma at_migrate (data : Data ν) (place : Place) :
    (migrate data).at place = (data.at place).map renamed := by
  obtain ⟨_ | suites⟩ := data
  · rfl
  · rw [Data.at, Data.at]
    show ((suites.map (List.map migrateRun)).get place.suite).bind _ = _
    rw [Table.get_map]
    show ((suites.get place.suite).map (List.map migrateRun)).bind _ =
      Option.map _ ((suites.get place.suite).bind _)
    cases suites.get place.suite with
    | none => rfl
    | some runs =>
      rw [Option.map_some, Option.bind_some, Option.bind_some, List.getElem?_map]
      cases runs[place.run]? with
      | none => rfl
      | some run =>
        rw [Option.map_some, Option.bind_some, Option.bind_some, migrateRun]
        cases run.benches with
        | none => rfl
        | some benches => exact List.getElem?_map

lemma at_passes (data : Data ν) (place : Place) (k : ℕ) :
    (migrate^[k] data).at place = (data.at place).map renamed^[k] := by
  induction k generalizing data with
  | zero => exact Option.map_id'.symm
  | succ k ih =>
    rw [Function.iterate_succ_apply, ih, at_migrate, Option.map_map, Function.iterate_succ]

lemma name_passes (bench : Bench ν) (k : ℕ) : (renamed^[k] bench).name = maybeRename^[k] bench.name := by
  induction k generalizing bench with
  | zero => rfl
  | succ k ih => rw [Function.iterate_succ_apply, ih, Function.iterate_succ_apply, renamed]

lemma mem_suffixMetrics {suffix name : Text} :
    (∃ entries : List (Entry ν), some name ∈ (suffixMetrics suffix entries).map Entry.name) ↔
      suffix <:+ name := by
  constructor
  · rintro ⟨entries, h⟩
    rw [suffixMetrics, List.map_map] at h
    obtain ⟨entry, -, hname⟩ := List.mem_map.mp h
    obtain ⟨base, -, rfl⟩ := Option.map_eq_some_iff.mp hname
    exact List.suffix_append base suffix
  · rintro ⟨base, rfl⟩
    exact ⟨[⟨some base, none, none⟩], List.mem_singleton.mpr rfl⟩

lemma rename_doubled (base : Text) : maybeRename (base ++ doubled) = base ++ "_riscv32".toList := by
  have hsplit : doubled = "_riscv32".toList ++ sh4 := rfl
  rw [maybeRename, if_pos (List.suffix_append base doubled), hsplit, ← List.append_assoc]
  exact List.rdrop_append_length

lemma rename_other {name : Text} (hd : ¬ doubled <:+ name) (hp : ¬ Prefixed name) :
    maybeRename name = name := by
  rw [maybeRename, if_neg hd, if_pos hp]

lemma rename_suffixed {name : Text} (hd : ¬ doubled <:+ name) (hs : Suffixed name) :
    maybeRename name = name := by
  by_cases hp : Prefixed name
  · rw [maybeRename, if_neg hd, if_neg (not_not.mpr hp), if_pos hs]
  · exact rename_other hd hp

lemma rename_bare {name : Text} (hp : Prefixed name) (hs : ¬ Suffixed name) :
    maybeRename name = name ++ sh4 := by
  have hd : ¬ doubled <:+ name := by
    intro h
    exact hs ⟨sh4, List.mem_cons_self, (List.suffix_append "_riscv32".toList sh4).trans h⟩
  rw [maybeRename, if_neg hd, if_neg (not_not.mpr hp), if_neg hs]

lemma rename_cases (name : Text) :
    (∃ base, name = base ++ doubled ∧ maybeRename name = base ++ "_riscv32".toList) ∨ maybeRename name = name ∨
      Prefixed name ∧ ¬ Suffixed name ∧ maybeRename name = name ++ sh4 := by
  by_cases hd : doubled <:+ name
  · obtain ⟨base, rfl⟩ := hd
    exact Or.inl ⟨base, rfl, rename_doubled base⟩
  · by_cases hp : Prefixed name
    · by_cases hs : Suffixed name
      · exact Or.inr (Or.inl (rename_suffixed hd hs))
      · exact Or.inr (Or.inr ⟨hp, hs, rename_bare hp hs⟩)
    · exact Or.inr (Or.inl (rename_other hd hp))

end ShMonitor.Dashboard.Migrate
