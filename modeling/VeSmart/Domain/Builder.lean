import VeSmart.Domain.Sample

set_option autoImplicit false

/-! # The sample builder (`victron-domain/src/builder.rs`, `state.rs`)

A setter of a measurement accepts only what its field can hold; the setters of the states accept
everything. -/

namespace VeSmart.Domain

open VeSmart.Lib

/-! ## State codes -/

def ChargerState.fromCode (code : UInt8) : ChargerState :=
  if code = 0 then .off
  else if code = 2 then .fault
  else if code = 3 then .bulk
  else if code = 4 then .absorption
  else if code = 5 then .float
  else if code = 6 then .storage
  else if code = 7 then .equalize
  else if code = 245 then .startingUp
  else if code = 247 then .autoRecondition
  else if code = 252 then .externalControl
  else .unknown code

def LoadState.fromCode (code : UInt8) : LoadState :=
  if code = 0 then .off else if code = 1 then .on else .unknown code

/-! ## The setters -/

inductive DomainError where
  | invalidDeviceId (error : InvalidDeviceId)
  | nonFinite (context : String) (value : F64)
  | outOfRange (field : String) (value : F64) (min max : ℚ)
  deriving DecidableEq

/-- A sample in the making. -/
structure SampleBuilder where
  sample : Sample

namespace SampleBuilder

def new (device : DeviceId) (observedAt : SystemTime) : SampleBuilder where
  sample := {
    device := device
    observedAt := observedAt
    pvVoltageVolts := none
    pvCurrentAmperes := none
    pvPowerWatts := none
    batteryVoltageVolts := none
    batteryCurrentAmperes := none
    loadCurrentAmperes := none
    loadPowerWatts := none
    yieldTotalKwh := none
    yieldTodayKwh := none
    bleRssiDbm := none
    chargerState := none
    loadState := none
    connectionHealth := none }

/-- The value as a reading of a field with the range `r`. -/
def check (field : String) (value : F64) (r : Range) (quality : Quality) :
    Except DomainError (Reading r) :=
  if hfinite : value.isFinite = true then
    if hrange : r.contains value = true then .ok ⟨⟨value, quality, hfinite⟩, hrange⟩
    else .error (.outOfRange field value r.min r.max)
  else .error (.nonFinite field value)

variable (b : SampleBuilder) (value : F64) (quality : Quality)

def pvVoltageVolts : Except DomainError SampleBuilder := do
  let m ← check "pv_voltage_volts" value pvVoltageV quality
  .ok ⟨{ b.sample with pvVoltageVolts := some m }⟩

def pvCurrentAmperes : Except DomainError SampleBuilder := do
  let m ← check "pv_current_amperes" value pvCurrentA quality
  .ok ⟨{ b.sample with pvCurrentAmperes := some m }⟩

def pvPowerWatts : Except DomainError SampleBuilder := do
  let m ← check "pv_power_watts" value pvPowerW quality
  .ok ⟨{ b.sample with pvPowerWatts := some m }⟩

def batteryVoltageVolts : Except DomainError SampleBuilder := do
  let m ← check "battery_voltage_volts" value batteryVoltageV quality
  .ok ⟨{ b.sample with batteryVoltageVolts := some m }⟩

def batteryCurrentAmperes : Except DomainError SampleBuilder := do
  let m ← check "battery_current_amperes" value batteryCurrentA quality
  .ok ⟨{ b.sample with batteryCurrentAmperes := some m }⟩

def loadCurrentAmperes : Except DomainError SampleBuilder := do
  let m ← check "load_current_amperes" value loadCurrentA quality
  .ok ⟨{ b.sample with loadCurrentAmperes := some m }⟩

def loadPowerWatts : Except DomainError SampleBuilder := do
  let m ← check "load_power_watts" value loadPowerW quality
  .ok ⟨{ b.sample with loadPowerWatts := some m }⟩

def chargerState (state : ChargerState) : SampleBuilder :=
  ⟨{ b.sample with chargerState := some state }⟩

def loadState (state : LoadState) : SampleBuilder :=
  ⟨{ b.sample with loadState := some state }⟩

def connectionHealth (health : ConnectionHealth) : SampleBuilder :=
  ⟨{ b.sample with connectionHealth := some health }⟩

def build : Sample := b.sample

end SampleBuilder

/-- A reading is accepted as it is, or not at all. -/
theorem SampleBuilder.check_ok {field : String} {value : F64} {r : Range} {quality : Quality}
    {m : Reading r} (h : check field value r quality = .ok m) :
    m.value = value ∧ m.quality = quality := by
  unfold check at h
  split_ifs at h with hfinite hrange
  cases h
  exact ⟨rfl, rfl⟩

end VeSmart.Domain
