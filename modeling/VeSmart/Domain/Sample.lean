import VeSmart.Lib.F64
import VeSmart.Lib.Time

set_option autoImplicit false

/-! # Samples (`victron-domain`)

A `Sample` is one timestamped observation of a device. Its readings are optional, and a
reading that is present is finite and inside the range of its field: the builder of the source
rejects every other value, so here the bound is part of the reading's type. -/

namespace VeSmart.Domain

open VeSmart.Lib

/-! ## Device identity -/

def maxDeviceIdLen : Nat := 64

/-- A character of a device id: an ASCII letter or digit, `-`, `_` or `.`. -/
def deviceIdChar (c : Char) : Bool := c.isAlphanum || c = '-' || c = '_' || c = '.'

/-- A validated, stable local device name. -/
structure DeviceId where
  name : String
  nonempty : name ≠ ""
  bounded : name.utf8ByteSize ≤ maxDeviceIdLen
  charset : name.toList.all deviceIdChar = true

/-- The Unicode `White_Space` characters. -/
def whiteSpace (c : Char) : Bool :=
  (0x09 ≤ c.val && c.val ≤ 0x0d) || c.val = 0x20 || c.val = 0x85 || c.val = 0xa0 ||
    c.val = 0x1680 || (0x2000 ≤ c.val && c.val ≤ 0x200a) || c.val = 0x2028 || c.val = 0x2029 ||
    c.val = 0x202f || c.val = 0x205f || c.val = 0x3000

/-- The string without the white space at its ends. -/
def trim (s : String) : String :=
  String.ofList (((s.toList.dropWhile whiteSpace).reverse.dropWhile whiteSpace).reverse)

structure InvalidDeviceId where
  value : String
  reason : String
  deriving DecidableEq

def DeviceId.new (name : String) : Except InvalidDeviceId DeviceId :=
  if hempty : trim name = "" then .error ⟨name, "must not be empty"⟩
  else if hlen : maxDeviceIdLen < (trim name).utf8ByteSize then
    .error ⟨name, "must be at most 64 bytes"⟩
  else if trim name ≠ name then .error ⟨name, "must not contain surrounding whitespace"⟩
  else if hchars : (trim name).toList.all deviceIdChar = true then
    .ok ⟨trim name, hempty, Nat.le_of_not_lt hlen, hchars⟩
  else .error ⟨name, "only ASCII letters, digits, '-', '_' and '.' are allowed"⟩

def DeviceId.asStr (d : DeviceId) : String := d.name

/-! ## Measurements -/

/-- Trust and provenance of a measurement, from the most trustworthy to the least. -/
inductive Quality where
  | confirmedNative
  | candidate
  | derived
  | locallyIntegrated
  deriving DecidableEq

/-- An inclusive closed interval. -/
structure Range where
  min : ℚ
  max : ℚ
  le : min ≤ max

/-- The value is finite and inside the interval. -/
def Range.contains (r : Range) (value : F64) : Bool := value.between r.min r.max

structure Measurement where
  value : F64
  quality : Quality
  finite : value.isFinite = true

/-- A measurement of a field with the range `r`. -/
structure Reading (r : Range) extends Measurement where
  inRange : r.contains value = true

def pvVoltageV : Range := ⟨0, 250, by norm_num⟩
def pvCurrentA : Range := ⟨0, 100, by norm_num⟩
def pvPowerW : Range := ⟨0, 30000, by norm_num⟩
def batteryVoltageV : Range := ⟨0, 70, by norm_num⟩
def batteryCurrentA : Range := ⟨-200, 200, by norm_num⟩
def loadCurrentA : Range := ⟨0, 100, by norm_num⟩
def loadPowerW : Range := ⟨0, 6000, by norm_num⟩
def yieldTotalKwh : Range := ⟨0, 10000000, by norm_num⟩
def yieldTodayKwh : Range := ⟨0, 2000, by norm_num⟩
def bleRssiDbm : Range := ⟨-128, 0, by norm_num⟩

/-! ## States -/

inductive ChargerState where
  | off
  | fault
  | bulk
  | absorption
  | float
  | storage
  | equalize
  | startingUp
  | autoRecondition
  | externalControl
  | unknown (code : UInt8)
  deriving DecidableEq

inductive LoadState where
  | off
  | on
  | unknown (code : UInt8)
  deriving DecidableEq

inductive ConnectionHealth where
  | up
  | down
  | unknown
  deriving DecidableEq

/-! ## Samples -/

structure Sample where
  device : DeviceId
  observedAt : SystemTime
  pvVoltageVolts : Option (Reading pvVoltageV)
  pvCurrentAmperes : Option (Reading pvCurrentA)
  pvPowerWatts : Option (Reading pvPowerW)
  batteryVoltageVolts : Option (Reading batteryVoltageV)
  batteryCurrentAmperes : Option (Reading batteryCurrentA)
  loadCurrentAmperes : Option (Reading loadCurrentA)
  loadPowerWatts : Option (Reading loadPowerW)
  yieldTotalKwh : Option (Reading yieldTotalKwh)
  yieldTodayKwh : Option (Reading yieldTodayKwh)
  bleRssiDbm : Option (Reading bleRssiDbm)
  chargerState : Option ChargerState
  loadState : Option LoadState
  connectionHealth : Option ConnectionHealth

/-- The readings that are present, in the order of the source's `iter`. -/
def Sample.measurements (s : Sample) : List Measurement :=
  [s.pvVoltageVolts.map Reading.toMeasurement, s.pvCurrentAmperes.map Reading.toMeasurement,
    s.pvPowerWatts.map Reading.toMeasurement, s.batteryVoltageVolts.map Reading.toMeasurement,
    s.batteryCurrentAmperes.map Reading.toMeasurement,
    s.loadCurrentAmperes.map Reading.toMeasurement, s.loadPowerWatts.map Reading.toMeasurement,
    s.yieldTotalKwh.map Reading.toMeasurement, s.yieldTodayKwh.map Reading.toMeasurement,
    s.bleRssiDbm.map Reading.toMeasurement].filterMap id

/-- No field at all (measurement, state, or health) is present. -/
def Sample.isEmpty (s : Sample) : Bool :=
  s.measurements.length = 0 && s.chargerState.isNone && s.loadState.isNone &&
    s.connectionHealth.isNone

/-! ## A device and two readings -/

def solarCharger : DeviceId := ⟨"solar-charger", by decide, by decide, by decide⟩

/-- 100 W of confirmed PV power. -/
def hundredWatts : Reading pvPowerW := ⟨⟨.finite 100, .confirmedNative, by decide⟩, by decide⟩

end VeSmart.Domain
