import VeSmart.Metrics.Encode

set_option autoImplicit false

/-! # Metric points and batches (`victron-metrics/src/metric.rs`)

Names, labels, values and timestamps are checked when a point is made; a batch applies its
`device` label and its timestamp to every point. -/

namespace VeSmart.Metrics

open VeSmart.Lib

inductive MetricError where
  | emptyName
  | nameTooLong (len : Nat)
  | invalidName (name : String)
  | reservedName (name : String)
  | counterNameMissingSuffix (name : String)
  | emptyLabelName
  | labelNameTooLong (len : Nat)
  | invalidLabelName (name : String)
  | reservedLabelName (name : String)
  | emptyLabelValue
  | labelValueTooLong (len : Nat)
  | invalidLabelValue (value : String)
  | invalidStateLabel (value : String)
  | tooManyLabels (count : Nat)
  | duplicateLabel (name : String)
  | nonFiniteValue
  | invalidTimestamp (timestampMs : Int)
  | timestampNotSet
  | timestampError (message : String)
  deriving DecidableEq

def maxLabelsPerSeries : Nat := 8

/-- The text of an error. `debug` is the quoting of Rust's `Debug`. -/
def MetricError.text (debug : String → String) : MetricError → String
  | .emptyName => "metric name is empty"
  | .nameTooLong len => "metric name exceeds 128 bytes (got " ++ toString len ++ ")"
  | .invalidName name => "invalid metric name " ++ debug name
  | .reservedName name => "metric name " ++ debug name ++ " uses reserved __ prefix"
  | .counterNameMissingSuffix name => "counter " ++ debug name ++ " must end in _total"
  | .emptyLabelName => "label name is empty"
  | .labelNameTooLong len => "label name exceeds 64 bytes (got " ++ toString len ++ ")"
  | .invalidLabelName name => "invalid label name " ++ debug name
  | .reservedLabelName name => "label name " ++ debug name ++ " uses reserved __ prefix"
  | .emptyLabelValue => "label value is empty"
  | .labelValueTooLong len => "label value exceeds 128 bytes (got " ++ toString len ++ ")"
  | .invalidLabelValue value => "label value contains a control byte: " ++ debug value
  | .invalidStateLabel value =>
      "state label value " ++ debug value ++ " violates bounded [a-z0-9_] rule (max 32 bytes)"
  | .tooManyLabels count => "more than " ++ toString maxLabelsPerSeries ++
      " labels on one series (got " ++ toString count ++ ")"
  | .duplicateLabel name => "duplicate label " ++ debug name ++ " on one series"
  | .nonFiniteValue => "metric value must be finite (NaN and infinities are never encoded)"
  | .invalidTimestamp timestampMs =>
      "timestamp must be strictly positive Unix milliseconds (got " ++ toString timestampMs ++ ")"
  | .timestampNotSet =>
      "batch timestamp not set: call with_timestamp_ms or now before adding points"
  | .timestampError message => "timestamp conversion failed: " ++ message

inductive MetricKind where
  | gauge
  | counter
  deriving DecidableEq

/-! ## Validation -/

def isNameStart (c : Char) : Bool := c.isAlpha || c = '_' || c = ':'

def isNameChar (c : Char) : Bool := c.isAlphanum || c = '_' || c = ':'

def isLabelStart (c : Char) : Bool := c.isAlpha || c = '_'

def isLabelChar (c : Char) : Bool := c.isAlphanum || c = '_'

/-- A name: one character to start with, and the others. -/
def wellFormed (start other : Char → Bool) : List Char → Bool
  | [] => false
  | c :: cs => start c && cs.all other

def startsWith (text start : String) : Bool := start.toList.isPrefixOf text.toList

def endsWith (text suffix : String) : Bool := suffix.toList.isSuffixOf text.toList

def validateMetricName (name : String) : Except MetricError Unit :=
  if name = "" then .error .emptyName
  else if 128 < name.utf8ByteSize then .error (.nameTooLong name.utf8ByteSize)
  else if wellFormed isNameStart isNameChar name.toList = false then .error (.invalidName name)
  else if startsWith name "__" then .error (.reservedName name)
  else .ok ()

def validateLabelName (name : String) : Except MetricError Unit :=
  if name = "" then .error .emptyLabelName
  else if 64 < name.utf8ByteSize then .error (.labelNameTooLong name.utf8ByteSize)
  else if wellFormed isLabelStart isLabelChar name.toList = false then
    .error (.invalidLabelName name)
  else if startsWith name "__" then .error (.reservedLabelName name)
  else .ok ()

/-- A control byte that the encoder cannot escape. In UTF-8 it is a character of its own. -/
def isControl (c : Char) : Bool := (c.val < 0x20 && c ≠ '\n') || c.val = 0x7f

def validateLabelValue (value : String) : Except MetricError Unit :=
  if 128 < value.utf8ByteSize then .error (.labelValueTooLong value.utf8ByteSize)
  else if value.toList.any isControl then .error (.invalidLabelValue value)
  else .ok ()

/-- Check the labels one by one, with the names seen before. -/
def checkLabels : List String → List (String × String) → Except MetricError Unit
  | _, [] => .ok ()
  | seen, (k, v) :: rest => do
      validateLabelName k
      validateLabelValue v
      if k ∈ seen then .error (.duplicateLabel k)
      else checkLabels (seen ++ [k]) rest

/-- The labels in the order of their names. -/
def validateLabels (labels : List (String × String)) :
    Except MetricError (List (String × String)) := do
  if maxLabelsPerSeries < labels.length then .error (.tooManyLabels labels.length)
  else
    checkLabels [] labels
    pure (labels.mergeSort fun a b => a.1 ≤ b.1)

def MetricPoint.new (name : String) (labels : List (String × String)) (value : F64)
    (timestampMs : I64) (kind : MetricKind) : Except MetricError MetricPoint :=
  if hfinite : value.isFinite = true then
    if hpositive : 0 < timestampMs.1 then do
      validateMetricName name
      if kind = .counter ∧ endsWith name "_total" = false then
        .error (.counterNameMissingSuffix name)
      else
        let labels ← validateLabels labels
        pure ⟨name, labels, value, timestampMs, hfinite, hpositive⟩
    else .error (.invalidTimestamp timestampMs.1)
  else .error .nonFiniteValue

theorem MetricPoint.new_ok {name : String} {labels sorted : List (String × String)} {value : F64}
    {timestampMs : I64} {kind : MetricKind} (hfinite : value.isFinite = true)
    (hpositive : 0 < timestampMs.1) (hname : validateMetricName name = .ok ())
    (hkind : ¬ (kind = .counter ∧ endsWith name "_total" = false))
    (hlabels : validateLabels labels = .ok sorted) :
    MetricPoint.new name labels value timestampMs kind =
      .ok ⟨name, sorted, value, timestampMs, hfinite, hpositive⟩ := by
  unfold MetricPoint.new
  rw [dif_pos hfinite, dif_pos hpositive, hname, if_neg hkind, hlabels]
  rfl

/-! ## Batches -/

def deviceLabel : String := "device"

def stateLabel : String := "state"

structure MetricBatchBuilder where
  device : String
  timestampMs : Option I64
  points : List MetricPoint

namespace MetricBatchBuilder

/-- The device is a label value that is not empty. -/
def new (device : String) : Except MetricError MetricBatchBuilder :=
  if device = "" then .error .emptyLabelValue
  else do
    validateLabelValue device
    pure ⟨device, none, []⟩

def withTimestampMs (b : MetricBatchBuilder) (timestampMs : I64) :
    Except MetricError MetricBatchBuilder :=
  if timestampMs.1 ≤ 0 then .error (.invalidTimestamp timestampMs.1)
  else .ok { b with timestampMs := some timestampMs }

/-- Add a point of the batch; a value that is not finite is left out. -/
def add (b : MetricBatchBuilder) (name : String) (extra : List (String × String)) (value : F64)
    (kind : MetricKind) : Except MetricError MetricBatchBuilder :=
  if value.isFinite = false then .ok b
  else
    match b.timestampMs with
    | none => .error .timestampNotSet
    | some timestampMs => do
        let point ← MetricPoint.new name ((deviceLabel, b.device) :: extra) value timestampMs kind
        pure { b with points := b.points ++ [point] }

def gauge (b : MetricBatchBuilder) (name : String) (value : F64) :
    Except MetricError MetricBatchBuilder := b.add name [] value .gauge

def counter (b : MetricBatchBuilder) (name : String) (value : F64) :
    Except MetricError MetricBatchBuilder := b.add name [] value .counter

def isValidStateValue (state : String) : Bool :=
  state ≠ "" && state.utf8ByteSize ≤ 32 &&
    state.toList.all fun c => c.isLower || c.isDigit || c = '_'

/-- A state indicator: the state as a label, with value 1. -/
def state (b : MetricBatchBuilder) (name : String) (state : String) :
    Except MetricError MetricBatchBuilder :=
  if isValidStateValue state = false then .error (.invalidStateLabel state)
  else b.add name [(stateLabel, state)] (.finite 1) .gauge

end MetricBatchBuilder

end VeSmart.Metrics
