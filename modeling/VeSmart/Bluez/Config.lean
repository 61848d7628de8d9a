import VeSmart.Bluez.Open
import VeSmart.Domain.Sample
import VeSmart.Lib.Prog

set_option autoImplicit false

/-! # Transport configuration (`victron-bluez/src/session.rs`, `discovery.rs`)

`BleTransport::open` validates its configuration before any D-Bus action: the selector of the
device, the deadlines and the chunk size. -/

namespace VeSmart.Bluez

open VeSmart.Lib VeSmart.Domain

def maxAliasLen : Nat := 64

/-- A Bluetooth address, six bytes. -/
abbrev Address := BitVec 48

structure DeviceSelector where
  aliasName : Option String
  address : Option Address
  deriving DecidableEq

/-- At least one of alias and address is set; an alias is not empty and bounded. -/
def DeviceSelector.validate (selector : DeviceSelector) : Except BleError Unit :=
  let name := trim (selector.aliasName.getD "")
  if name = "" ∧ selector.address = none then
    .error (.invalidConfig "device selector requires a non-empty alias and/or address")
  else if name ≠ "" ∧ maxAliasLen < name.length then
    .error (.invalidConfig "device selector alias exceeds 64 characters")
  else .ok ()

def DeviceSelector.new (name : Option String) (address : Option Address) :
    Except BleError DeviceSelector := do
  let selector : DeviceSelector := ⟨name, address⟩
  selector.validate
  return selector

namespace Session

structure TransportConfig where
  adapter : Option String
  selector : DeviceSelector
  powerPolicy : PowerPolicy
  connectTimeout : Duration
  discoveryTimeout : Duration
  notificationTimeout : Duration
  operationTimeout : Duration
  writeChunkSize : Nat
  requireAdvertisementEvidence : Bool

def TransportConfig.validate (config : TransportConfig) : Except BleError Unit := do
  config.selector.validate
  if config.connectTimeout = 0 ∨ config.discoveryTimeout = 0 ∨ config.notificationTimeout = 0 ∨
      config.operationTimeout = 0 then
    .error (.invalidConfig "timeouts must be positive")
  else if config.writeChunkSize = 0 then
    .error (.invalidConfig "write_chunk_size must be positive")
  else .ok ()

theorem TransportConfig.validate_ok {config : TransportConfig} :
    config.validate = .ok () ↔ config.selector.validate = .ok () ∧ 0 < config.connectTimeout ∧
      0 < config.discoveryTimeout ∧ 0 < config.notificationTimeout ∧ 0 < config.operationTimeout ∧
      0 < config.writeChunkSize := by
  simp only [validate, except_bind_ok, except_check_ok, Nat.pos_iff_ne_zero, not_or]
  constructor
  · rintro ⟨u, hselector, ⟨hconnect, hdiscovery, hnotification, hoperation⟩, hchunk, -⟩
    exact ⟨hselector, hconnect, hdiscovery, hnotification, hoperation, hchunk⟩
  · rintro ⟨hselector, hconnect, hdiscovery, hnotification, hoperation, hchunk⟩
    exact ⟨(), hselector, ⟨hconnect, hdiscovery, hnotification, hoperation⟩, hchunk, trivial⟩

end Session

theorem DeviceSelector.validate_alias {name : String} :
    DeviceSelector.validate ⟨some name, none⟩ = .ok () ↔
      trim name ≠ "" ∧ (trim name).length ≤ maxAliasLen := by
  unfold validate
  by_cases hempty : trim name = ""
  · simp [hempty]
  · by_cases hlong : maxAliasLen < (trim name).length
    · simp [hempty, hlong]
    · simp [hempty, hlong, not_lt.mp hlong]

end VeSmart.Bluez
