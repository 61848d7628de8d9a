import Mathlib.Data.List.Lex
import Mathlib.Data.Prod.Lex
import Mathlib.Data.String.Basic
import VeSmart.Lib.F64
import VeSmart.Lib.Int64

set_option autoImplicit false

/-! # Prometheus text encoding (`victron-metrics/src/encode.rs`)

One sample per line, in the order of the series; of the points with the same series and
timestamp the last one wins. `formatValue` is the shortest decimal text of a float. -/

namespace VeSmart.Metrics

open VeSmart.Lib

/-- A single sample. The constructor of the source rejects other values and timestamps. -/
structure MetricPoint where
  name : String
  labels : List (String × String)
  value : F64
  timestampMs : I64
  finite : value.isFinite = true
  positive : 0 < timestampMs.1

/-- What identifies a sample: its series and its timestamp. -/
def MetricPoint.key (p : MetricPoint) : String ×ₗ List (String ×ₗ String) ×ₗ Int :=
  toLex (p.name, toLex (p.labels.map fun l => toLex l, p.timestampMs.1))

def escapeLabelValue (value : String) : List Char :=
  value.toList.flatMap fun c =>
    if c = '\\' then ['\\', '\\']
    else if c = '"' then ['\\', '"']
    else if c = '\n' then ['\\', 'n']
    else [c]

def writeLabel (l : String × String) : List Char :=
  l.1.toList ++ ['=', '"'] ++ escapeLabelValue l.2 ++ ['"']

def writeLine (formatValue : F64 → String) (p : MetricPoint) : List Char :=
  p.name.toList ++ ['{'] ++ [','].intercalate (p.labels.map writeLabel) ++ ['}', ' '] ++
    (formatValue p.value).toList ++ [' '] ++ (toString p.timestampMs.1).toList ++ ['\n']

/-- The last point of each run with equal keys. -/
def lastOfRuns : List MetricPoint → List MetricPoint
  | [] => []
  | [p] => [p]
  | p :: q :: rest => if p.key = q.key then lastOfRuns (q :: rest) else p :: lastOfRuns (q :: rest)

/-- The text of the points. Points with a value that is not finite or a timestamp that is not
positive are skipped, although no `MetricPoint` is one. -/
def encode (formatValue : F64 → String) (points : List MetricPoint) : String :=
  let valid := points.filter fun p => p.value.isFinite && 0 < p.timestampMs.1
  let items := valid.mergeSort fun a b => a.key ≤ b.key
  String.ofList ((lastOfRuns items).flatMap (writeLine formatValue))

/-- The inner loop: the last item of the run that `first` begins, and the items behind it. -/
def runEnd (first : MetricPoint) : MetricPoint → List MetricPoint →
    MetricPoint × List MetricPoint
  | last, [] => (last, [])
  | last, next :: rest =>
      if next.name = first.name ∧ next.labels = first.labels ∧
          next.timestampMs = first.timestampMs then runEnd first next rest
      else (last, next :: rest)

theorem runEnd_length (first last : MetricPoint) (rest : List MetricPoint) :
    (runEnd first last rest).2.length ≤ rest.length := by
  induction rest generalizing last with
  | nil => exact Nat.le_refl _
  | cons next rest ih =>
      unfold runEnd
      split_ifs
      · exact Nat.le_succ_of_le (ih next)
      · exact Nat.le_refl _

/-- The outer loop: one line for each run. -/
def writeRuns (formatValue : F64 → String) : List MetricPoint → String → String
  | [], out => out
  | first :: rest, out =>
      writeRuns formatValue (runEnd first first rest).2
        (out ++ String.ofList (writeLine formatValue (runEnd first first rest).1))
  termination_by items => items.length
  decreasing_by exact Nat.lt_succ_of_le (runEnd_length first first rest)

/-- The text of the points behind what is there already. -/
def encodeInto (formatValue : F64 → String) (points : List MetricPoint) (out : String) : String :=
  let valid := points.filter fun p => p.value.isFinite && 0 < p.timestampMs.1
  let items := valid.mergeSort fun a b => a.key ≤ b.key
  writeRuns formatValue items out

theorem writeLine_ne (formatValue : F64 → String) (p : MetricPoint) :
    writeLine formatValue p ≠ [] := by
  simp [writeLine]

theorem lastOfRuns_ne {points : List MetricPoint} (h : points ≠ []) : lastOfRuns points ≠ [] := by
  induction points with
  | nil => exact absurd rfl h
  | cons p rest ih =>
      cases rest with
      | nil => simp [lastOfRuns]
      | cons q rest =>
          by_cases hkey : p.key = q.key
          · simpa [lastOfRuns, hkey] using ih (by simp)
          · simp [lastOfRuns, hkey]

/-- A batch with a point has a text: no point is lost but to a later one of the same key. -/
theorem encode_ne {formatValue : F64 → String} {points : List MetricPoint} (h : points ≠ []) :
    encode formatValue points ≠ "" := by
  have hvalid : points.filter (fun p => p.value.isFinite && 0 < p.timestampMs.1) = points := by
    rw [List.filter_eq_self]
    intro p _
    simp [p.finite, p.positive]
  have hitems : (points.mergeSort fun a b => a.key ≤ b.key) ≠ [] := by
    intro hnil
    have hlen : (points.mergeSort fun a b => a.key ≤ b.key).length = points.length :=
      List.length_mergeSort points
    rw [hnil] at hlen
    exact h (List.length_eq_zero_iff.mp hlen.symm)
  obtain ⟨p, rest, hlast⟩ := List.exists_cons_of_ne_nil (lastOfRuns_ne hitems)
  unfold encode
  dsimp only
  rw [hvalid, hlast, List.flatMap_cons]
  intro hempty
  have hnil := congrArg String.toList hempty
  simp [writeLine_ne] at hnil

end VeSmart.Metrics
