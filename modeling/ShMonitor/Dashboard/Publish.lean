import ShMonitor.Dashboard.Migrate

/-! The publish rounds: each migrates what is stored and then stores a run at the end of its suite, whose
list it starts where there is none. -/

namespace ShMonitor.Dashboard.Publish

open Texts Migrate

variable {ν : Type}

structure Round (ν : Type) where
  suite : Text
  run : Run ν

def runsOf (data : Data ν) (suite : Text) : List (Run ν) := (data.suites.get suite).getD []

def store (data : Data ν) (round : Round ν) : Data ν where
  entries := some (data.suites.put round.suite (runsOf data round.suite ++ [round.run]))

def publish (data : Data ν) (round : Round ν) : Data ν := store (migrate data) round

def publishAll (data : Data ν) (rounds : List (Round ν)) : Data ν := rounds.foldl publish data

def Round.at (round : Round ν) (j : ℕ) : Option (Bench ν) := round.run.benches.bind (fun benches => benches[j]?)

def next (data : Data ν) (round : Round ν) (j : ℕ) : Place := ⟨round.suite, (runsOf data round.suite).length, j⟩

lemma not_doubled_riscv32 (base : Text) : ¬ doubled <:+ base ++ "_riscv32".toList := by
  intro h
  have hshort : "_riscv32".toList <:+ doubled :=
    List.suffix_of_suffix_length_le (List.suffix_append base _) h (by decide)
  exact absurd hshort (by decide)

lemma not_doubled_sh4 {name : Text} (hs : ¬ Suffixed name) : ¬ doubled <:+ name ++ sh4 := by
  have hsplit : doubled = "_riscv32".toList ++ sh4 := rfl
  rintro ⟨base, h⟩
  rw [hsplit, ← List.append_assoc] at h
  exact hs ⟨"_riscv32".toList, by decide, ⟨base, List.append_cancel_right h⟩⟩

lemma maybeRename_idem (name : Text) : maybeRename (maybeRename name) = maybeRename name := by
  obtain ⟨base, -, h⟩ | h | ⟨-, hs, h⟩ := rename_cases name
  · rw [h]
    exact rename_suffixed (not_doubled_riscv32 base) ⟨"_riscv32".toList, by decide, List.suffix_append base _⟩
  · rw [h, h]
  · rw [h]
    exact rename_suffixed (not_doubled_sh4 hs) ⟨sh4, List.mem_cons_self, List.suffix_append name sh4⟩

lemma renamed_idem (bench : Bench ν) : renamed (renamed bench) = renamed bench := by
  rw [renamed, renamed, maybeRename_idem]

lemma at_eq (data : Data ν) (place : Place) :
    data.at place = (runsOf data place.suite)[place.run]?.bind (fun run =>
      run.benches.bind (fun benches => benches[place.bench]?)) := by
  rw [Data.at, runsOf]
  cases data.suites.get place.suite <;> rfl

lemma runsOf_store (data : Data ν) (round : Round ν) (suite : Text) :
    runsOf (store data round) suite =
      if suite = round.suite then runsOf data suite ++ [round.run] else runsOf data suite := by
  show ((data.suites.put round.suite _).get suite).getD [] = _
  rw [Table.get_put]
  split
  · rename_i h
    rw [h, Option.getD_some]
  · rfl

lemma length_runsOf_migrate (data : Data ν) (suite : Text) :
    (runsOf (migrate data) suite).length = (runsOf data suite).length := by
  obtain ⟨_ | suites⟩ := data
  · rfl
  · show (((suites.map (List.map migrateRun)).get suite).getD []).length = ((suites.get suite).getD []).length
    rw [Table.get_map]
    cases suites.get suite with
    | none => rfl
    | some runs => exact List.length_map _

lemma at_store_next (data : Data ν) (round : Round ν) (j : ℕ) :
    (store data round).at (next data round j) = round.at j := by
  have hruns : runsOf (store data round) (next data round j).suite = runsOf data round.suite ++ [round.run] :=
    (runsOf_store data round round.suite).trans (if_pos rfl)
  have hlast : (runsOf data round.suite ++ [round.run])[(next data round j).run]? = some round.run :=
    List.getElem?_concat_length
  rw [at_eq, hruns, hlast]
  rfl

lemma at_store_of_some {data : Data ν} {place : Place} {bench : Bench ν} (h : data.at place = some bench)
    (round : Round ν) : (store data round).at place = some bench := by
  rw [at_eq] at h ⊢
  rw [runsOf_store]
  split
  · obtain ⟨run, hrun, -⟩ := Option.bind_eq_some_iff.mp h
    rw [List.getElem?_append_left (List.getElem?_eq_some_iff.mp hrun).1]
    exact h
  · exact h

lemma at_publish_next (data : Data ν) (round : Round ν) (j : ℕ) :
    (publish data round).at (next data round j) = round.at j := by
  have h := at_store_next (migrate data) round j
  rw [next, length_runsOf_migrate] at h
  exact h

lemma at_publish_of_some {data : Data ν} {place : Place} {bench : Bench ν} (h : data.at place = some bench)
    (round : Round ν) : (publish data round).at place = some (renamed bench) :=
  at_store_of_some (by rw [at_migrate, h, Option.map_some]) round

lemma at_publishAll {data : Data ν} {place : Place} {bench : Bench ν} (h : data.at place = some bench)
    (rounds : List (Round ν)) :
    (publishAll data rounds).at place = some (if rounds = [] then bench else renamed bench) := by
  induction rounds generalizing data bench with
  | nil => exact h
  | cons round rounds ih =>
    show (publishAll (publish data round) rounds).at place = _
    rw [ih (at_publish_of_some h round), if_neg (List.cons_ne_nil round rounds), renamed_idem, ite_self]

lemma publishAll_append (data : Data ν) (rounds later : List (Round ν)) :
    publishAll data (rounds ++ later) = publishAll (publishAll data rounds) later := List.foldl_append

theorem migration_stable (data : Data ν) :
    (∀ name, maybeRename (maybeRename name) = maybeRename name) ∧
    (∀ rounds later place bench, (publishAll data rounds).at place = some bench →
      (publishAll data (rounds ++ later)).at place = some (if later = [] then bench else renamed bench)) ∧
    ∀ rounds round later j bench, round.at j = some bench →
      (publishAll data (rounds ++ round :: later)).at (next (publishAll data rounds) round j) =
        some (if later = [] then bench else renamed bench) := by
  refine ⟨maybeRename_idem, ?_, ?_⟩
  · intro rounds later place bench h
    rw [publishAll_append]
    exact at_publishAll h later
  · intro rounds round later j bench h
    rw [publishAll_append]
    have hstored := (at_publish_next (publishAll data rounds) round j).trans h
    exact at_publishAll hstored later

end ShMonitor.Dashboard.Publish
