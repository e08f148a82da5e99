import ShMonitor.Dashboard.Data
import ShMonitor.Texts.Places

/-! The trend page: how it collects the points of a metric, finds the chart and the series of a
metric from its name, and fills the table of charts for a range of days. A day is its number and
`dayStart` the time of its local midnight. An object of the page answers to the names in
`objectPrototype` before anything is put in it: the result is `none` where the page stops there or
writes into a built-in object. -/

namespace ShMonitor.Dashboard.Trend

open Texts

variable {ν : Type}

def arches : List Text := ["sh4".toList, "arm".toList, "x86".toList, "riscv32".toList]

def archColor (arch : Text) : Text :=
  if arch = "sh4".toList then "#3b82f6".toList
  else if arch = "arm".toList then "#10b981".toList
  else if arch = "x86".toList then "#f59e0b".toList
  else "#a855f7".toList

def isas : List Text := ["m2a".toList, "m2".toList, "m4".toList]

structure Variant where
  label : Text
  color : Text
  order : ℕ

def isaVariant (isa : Text) : Variant :=
  if isa = "m2".toList then ⟨"SH-2".toList, "#ef4444".toList, 0⟩
  else if isa = "m2a".toList then ⟨"SH-2A".toList, "#10b981".toList, 1⟩
  else ⟨"SH-4".toList, "#3b82f6".toList, 2⟩

def plainKey : Text := "fdpic".toList

def ltoKey : Text := "fdpic +LTO".toList

def fdpicVariant (key : Text) : Variant :=
  if key = plainKey then ⟨"fdpic".toList, "#3b82f6".toList, 0⟩ else ⟨"fdpic +LTO".toList, "#f59e0b".toList, 1⟩

def fdpic : Text := "_fdpic".toList

def lto : Text := "_lto".toList

def fdpicLto : Text := fdpic ++ lto

def bareKey : Text := "_".toList

def splitArch (name : Text) : Text × Option Text :=
  match ending arches name with
  | some (base, arch) => (base, some arch)
  | none => (name, none)

structure Resolved where
  chartBase : Text
  seriesKey : Text
  variant : Variant

def resolve (name : Text) : Resolved :=
  let base := (splitArch name).1
  if fdpic <:+: base then
    let chartBase := if fdpicLto <:+: base then replaceFirst fdpicLto fdpic base else base
    let key := if fdpicLto <:+: base then ltoKey else plainKey
    ⟨chartBase, key, fdpicVariant key⟩
  else match ending isas name with
    | some (chartBase, isa) => ⟨chartBase, isa, isaVariant isa⟩
    | none => match (splitArch name).2 with
      | none => ⟨base, bareKey, ⟨base, "#0066cc".toList, 0⟩⟩
      | some arch => ⟨base, arch, ⟨arch, archColor arch, arches.idxOf arch⟩⟩

def cell (name : Text) : Text × Text := ((resolve name).chartBase, (resolve name).seriesKey)

def lra : Text := "__lra".toList

def ignored (name : Text) : Bool := decide (lra <:+ name)

def objectPrototype : List Text :=
  ["constructor".toList, "__defineGetter__".toList, "__defineSetter__".toList, "hasOwnProperty".toList,
    "__lookupGetter__".toList, "__lookupSetter__".toList, "isPrototypeOf".toList, "propertyIsEnumerable".toList,
    "toString".toList, "valueOf".toList, "__proto__".toList, "toLocaleString".toList]

def builtIn (name : Text) : Bool := objectPrototype.contains name

structure Point (ν : Type) where
  x : ℤ
  y : ν
  commit : Text
  url : Text
  unit : Text

def point (run : Run ν) (bench : Bench ν) : Point ν :=
  ⟨run.date, bench.value, run.commit.id.take 7, run.commit.url, bench.unit⟩

def addBench (run : Run ν) (byMetric : Option (Table (List (Point ν)))) (bench : Bench ν) :
    Option (Table (List (Point ν))) :=
  byMetric.bind (fun table =>
    if ignored bench.name then some table
    else if builtIn bench.name then none
    else some (table.put bench.name ((table.get bench.name).getD [] ++ [point run bench])))

def addRun (byMetric : Option (Table (List (Point ν)))) (run : Run ν) : Option (Table (List (Point ν))) :=
  run.benches.bind (fun benches => benches.foldl (addBench run) byMetric)

def runs (data : Data ν) : List (Run ν) := data.suites.inOrder.flatMap Prod.snd

def byMetric (data : Data ν) : Option (Table (List (Point ν))) := (runs data).foldl addRun (some Table.empty)

inductive Range where
  | all
  | days (first last : ℤ)

def day : ℤ := 86400000

def inRange (dayStart : ℤ → ℤ) : Range → ℤ → Bool
  | .all, _ => true
  | .days first last, t => decide (dayStart first ≤ t) && decide (t ≤ dayStart last + day - 1)

structure Series (ν : Type) where
  points : List (Point ν)
  variant : Variant

def pointsIn (dayStart : ℤ → ℤ) (range : Range) (points : List (Point ν)) : List (Point ν) :=
  (points.filter (fun p => inRange dayStart range p.x)).mergeSort (fun a b => decide (a.x ≤ b.x))

def addSeries (dayStart : ℤ → ℤ) (range : Range) (byBase : Option (Table (Table (Series ν))))
    (metric : Text × List (Point ν)) : Option (Table (Table (Series ν))) :=
  byBase.bind (fun table =>
    if (pointsIn dayStart range metric.2).isEmpty then some table
    else
      let r := resolve metric.1
      if builtIn r.chartBase then none
      else some (table.put r.chartBase (((table.get r.chartBase).getD Table.empty).put r.seriesKey
        ⟨pointsIn dayStart range metric.2, r.variant⟩)))

def byBase (dayStart : ℤ → ℤ) (range : Range) (data : Data ν) : Option (Table (Table (Series ν))) :=
  (byMetric data).bind (fun table => table.inOrder.foldl (addSeries dayStart range) (some Table.empty))

end ShMonitor.Dashboard.Trend
