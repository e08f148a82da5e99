import ShMonitor.Texts.Table

/-! The stored benchmark data that the publish job keeps and the trend page reads: suites by name,
the runs of a suite in the order they were appended, the bench entries of a run. Values are of any
type, since no script computes with them. A place names an entry by suite, run and position. -/

namespace ShMonitor.Dashboard

open Texts

structure Bench (ν : Type) where
  name : Text
  unit : Text
  value : ν
  deriving DecidableEq

structure Commit where
  id : Text
  url : Text
  deriving DecidableEq

structure Run (ν : Type) where
  commit : Commit
  date : ℤ
  benches : Option (List (Bench ν))
  deriving DecidableEq

structure Data (ν : Type) where
  entries : Option (Table (List (Run ν)))

structure Place where
  suite : Text
  run : ℕ
  bench : ℕ
  deriving DecidableEq

variable {ν : Type}

def Data.suites (data : Data ν) : Table (List (Run ν)) := data.entries.getD Table.empty

def Data.at (data : Data ν) (place : Place) : Option (Bench ν) :=
  (data.suites.get place.suite).bind (fun runs => runs[place.run]?.bind (fun run =>
    run.benches.bind (fun benches => benches[place.bench]?)))

end ShMonitor.Dashboard
