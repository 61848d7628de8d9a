import VeSmart.Domain.Sample
import VeSmart.Metrics.SampleView

set_option autoImplicit false

/-! # From a domain sample to a batch (`victron-metrics/src/domain.rs`)

The readings of a sample are laid over a view that holds the rest. A total yield that the view has
already stays. -/

namespace VeSmart.Metrics

open VeSmart.Lib VeSmart.Domain

/-- Milliseconds since the epoch. The cast keeps the low 64 bits. -/
def systemTimeToMs (t : SystemTime) : Except MetricError I64 :=
  match t.durationSince SystemTime.unixEpoch with
  | none => .error (.timestampError "second time provided was later than self")
  | some d => .ok ⟨wrapI64 (Duration.asMillis d), inI64_wrapI64 _⟩

/-- The bounded label of a charger state. -/
def chargerStateLabel : ChargerState → String
  | .off => "off"
  | .fault => "fault"
  | .bulk => "bulk"
  | .absorption => "absorption"
  | .float => "float"
  | .storage => "storage"
  | .equalize => "equalize"
  | .startingUp => "starting_up"
  | .autoRecondition => "auto_recondition"
  | .externalControl => "external_control"
  | .unknown _ => "unknown"

def measurementValue {r : Range} (m : Reading r) : F64 := m.value

/-- The float as a 32-bit integer: towards zero, and not beyond the bounds. -/
def asI32 : F64 → Int
  | .infinite negative => if negative then -2 ^ 31 else 2 ^ 31 - 1
  | x => max (-2 ^ 31) (min (2 ^ 31 - 1) x.truncate)

/-- The readings of the sample over the view. -/
def SampleView.withSample (health : SampleView) (device : String) (observedAtMs : I64)
    (sample : Sample) : SampleView :=
  { health with
    device := device
    observedAtMs := observedAtMs
    pvVoltageVolts := sample.pvVoltageVolts.map measurementValue
    pvCurrentAmperes := sample.pvCurrentAmperes.map measurementValue
    pvPowerWatts := sample.pvPowerWatts.map measurementValue
    batteryVoltageVolts := sample.batteryVoltageVolts.map measurementValue
    batteryCurrentAmperes := sample.batteryCurrentAmperes.map measurementValue
    loadPowerWatts := sample.loadPowerWatts.map measurementValue
    loadCurrentAmperes := sample.loadCurrentAmperes.map measurementValue
    yieldTotalKwh := health.yieldTotalKwh.or (sample.yieldTotalKwh.map measurementValue)
    yieldTodayKwh := sample.yieldTodayKwh.map measurementValue
    bleRssiDbm := sample.bleRssiDbm.map fun m => asI32 m.value
    chargerState := sample.chargerState.map chargerStateLabel }

def sampleToBatch (device : String) (sample : Sample) (health : SampleView) :
    Except MetricError MetricBatchBuilder := do
  let observedAtMs ← systemTimeToMs sample.observedAt
  MetricBatchBuilder.ofView (health.withSample device observedAtMs sample)

/-! ## What is promised -/

/-- A time that fits is its milliseconds. -/
theorem systemTimeToMs_ok {t : SystemTime} (hepoch : 0 ≤ t.asMillis) (hmax : t.asMillis ≤ i64Max) :
    ∃ h, systemTimeToMs t = .ok ⟨t.asMillis, h⟩ := by
  have hrange : InI64 t.asMillis := by
    simp only [InI64, i64Min]
    omega
  have hle : SystemTime.unixEpoch ≤ t := by
    simp only [SystemTime.asMillis, nanosPerMilli] at hepoch
    simp only [SystemTime.le_iff, SystemTime.unixEpoch]
    omega
  have hms : ((Duration.asMillis (t.nanos - SystemTime.unixEpoch.nanos).toNat : Nat) : Int) =
      t.asMillis := by
    simp only [SystemTime.le_iff, SystemTime.unixEpoch] at hle
    simp only [Duration.asMillis, SystemTime.asMillis, SystemTime.unixEpoch, nanosPerMilli]
    omega
  refine ⟨hrange, ?_⟩
  rw [systemTimeToMs, SystemTime.durationSince, if_pos hle]
  simp only [hms, wrapI64_of_inI64 hrange]

theorem chargerStateLabel_valid (state : ChargerState) :
    MetricBatchBuilder.isValidStateValue (chargerStateLabel state) = true := by
  cases state <;> simp only [chargerStateLabel] <;> rfl

/-- A device id is a label value that is not empty. -/
theorem deviceId_label (d : DeviceId) :
    d.asStr ≠ "" ∧ validateLabelValue d.asStr = .ok () := by
  refine ⟨d.nonempty, ?_⟩
  have hlen := d.bounded
  simp only [maxDeviceIdLen] at hlen
  have hcontrol : d.name.toList.any isControl = false := by
    rw [List.any_eq_false]
    intro c hc
    have hchar := List.all_eq_true.mp d.charset c hc
    have halnum : c.isAlphanum = ((decide (65 ≤ c.val ∧ c.val ≤ 90) ||
        (decide (97 ≤ c.val) && decide (c.val ≤ 122))) ||
        (decide (48 ≤ c.val) && decide (c.val ≤ 57))) := rfl
    simp only [deviceIdChar, halnum, Bool.or_eq_true, Bool.and_eq_true, decide_eq_true_eq,
      UInt32.le_iff_toNat_le, UInt32.reduceToNat] at hchar
    simp only [isControl, Bool.not_eq_true, Bool.or_eq_false_iff, Bool.and_eq_false_iff,
      decide_eq_false_iff_not, UInt32.lt_iff_toNat_lt, ← UInt32.toNat_inj, UInt32.reduceToNat]
    rcases hchar with ((hchar | rfl) | rfl) | rfl
    · omega
    · decide
    · decide
    · decide
  rw [DeviceId.asStr, validateLabelValue, if_neg (by omega), if_neg (by simp [hcontrol])]

theorem abs_asI32 (x : F64) : |asI32 x| ≤ 2 ^ 31 := by
  have hclamp : ∀ n : Int, |max (-2 ^ 31) (min (2 ^ 31 - 1) n)| ≤ 2 ^ 31 := by
    intro n
    rw [abs_le]
    omega
  cases x with
  | infinite negative => cases negative <;> simp [asI32]
  | nan => exact hclamp _
  | negZero => exact hclamp _
  | finite q => exact hclamp _

/-- The view that is left for the batch is sound, if the view that it is made from is. -/
theorem withSample_sound {health : SampleView} {device : String} {observedAtMs : I64}
    (sample : Sample) (hyield : ∀ v ∈ health.yieldTotalKwh, v.isFinite = true)
    (hage : ∀ v ∈ health.sampleAgeSeconds, v.isFinite = true)
    (holdest : ∀ v ∈ health.spoolOldestAgeSeconds, v.isFinite = true) :
    (health.withSample device observedAtMs sample).Sound where
  readings := by
    have hreading : ∀ {r : Range} (value : Option (Reading r)),
        ∀ v ∈ value.map measurementValue, v.isFinite = true :=
      fun value => finite_map fun m _ => m.finite
    have htotal : ∀ v ∈ health.yieldTotalKwh.or (sample.yieldTotalKwh.map measurementValue),
        v.isFinite = true := by
      intro v hv
      rcases Option.or_eq_some_iff.mp hv with hv | ⟨-, hv⟩
      · exact hyield v hv
      · exact hreading _ v hv
    simp only [List.forall_mem_cons, List.not_mem_nil, false_implies, implies_true, and_true]
    exact ⟨hreading _, hreading _, hreading _, hreading _, hreading _, hreading _, hreading _,
      htotal, hreading _, hage, holdest⟩
  state := by
    intro s hs
    obtain ⟨state, -, rfl⟩ := Option.map_eq_some_iff.mp hs
    exact chargerStateLabel_valid state
  rssi := by
    intro dbm hdbm
    obtain ⟨m, -, rfl⟩ := Option.map_eq_some_iff.mp hdbm
    exact abs_asI32 m.value

end VeSmart.Metrics
