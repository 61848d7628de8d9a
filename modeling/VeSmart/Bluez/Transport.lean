import VeSmart.Lib.Machine

set_option autoImplicit false

/-! # The transport seam (`victron-bluez/src/transport.rs`, `error.rs`) -/

namespace VeSmart.Bluez

/-- Which VE.Smart characteristic produced a notification. -/
inductive NotificationSource where
  | control
  /-- Final chunk of a frame. -/
  | lastData
  /-- Chunk stream. -/
  | data
  deriving DecidableEq

/-- One raw notification value, tagged with its source characteristic. -/
structure Notification where
  source : NotificationSource
  value : List UInt8
  deriving DecidableEq

/-- Typed transport error. -/
inductive BleError where
  | adapterNotFound (requested : String)
  | adapterNotPowered (adapter : String)
  | adapterPowerFailed (adapter : String)
  | deviceNotFound (selector : String)
  | notBonded (selector : String)
  | noVictronEvidence (selector : String)
  | gattNotFound (element : String)
  | missingFlag (element required : String)
  | timeout (operation : String)
  | auth (detail : String)
  | contention (detail : String)
  | notificationStopped
  | dbus (detail : String)
  | payloadTooLarge (len max : Nat)
  | notSupported (operation : String)
  | invalidState (operation : String)
  | invalidConfig (detail : String)
  | other (detail : String)
  deriving DecidableEq

/-- Coarse class of an error, for the decisions of the service. -/
inductive BleErrorClass where
  | timeout
  | auth
  | contention
  | notFound
  | dbus
  | other
  deriving DecidableEq

def BleError.class : BleError → BleErrorClass
  | .timeout _ => .timeout
  | .auth _ => .auth
  | .contention _ => .contention
  | .adapterNotFound _ => .notFound
  | .adapterNotPowered _ => .notFound
  | .deviceNotFound _ => .notFound
  | .notBonded _ => .notFound
  | .noVictronEvidence _ => .notFound
  | .gattNotFound _ => .notFound
  | .missingFlag _ _ => .notFound
  -- a failed power mutation is no missing resource
  | .adapterPowerFailed _ => .other
  | .dbus _ => .dbus
  | .notificationStopped => .other
  | .payloadTooLarge _ _ => .other
  | .notSupported _ => .other
  | .invalidState _ => .other
  | .invalidConfig _ => .other
  | .other _ => .other

/-- The text of an error. -/
def BleError.display : BleError → String
  | .adapterNotFound requested => "adapter not found: '" ++ requested ++ "'"
  | .adapterNotPowered adapter =>
      "adapter '" ++ adapter ++ "' is powered off; enable it manually (bluetoothctl power on) " ++
        "or opt into PowerPolicy::EnableIfOff"
  | .adapterPowerFailed adapter => "adapter '" ++ adapter ++ "' could not be powered on"
  | .deviceNotFound selector => "bonded device not found: '" ++ selector ++ "'"
  | .notBonded selector => "device '" ++ selector ++ "' is not paired; pair once via bluetoothctl"
  | .noVictronEvidence selector =>
      "device '" ++ selector ++ "' matched but shows no Victron advertisement evidence"
  | .gattNotFound element => "GATT element not found: " ++ element
  | .missingFlag element required =>
      "GATT characteristic " ++ element ++ " lacks required flag " ++ required
  | .timeout operation => "BLE operation timed out: " ++ operation
  | .auth detail => "BLE authentication failure: " ++ detail
  | .contention detail => "BLE contention: " ++ detail
  | .notificationStopped => "BLE notification session stopped unexpectedly"
  | .dbus detail => "BlueZ D-Bus failure: " ++ detail
  | .payloadTooLarge len max =>
      "payload of " ++ toString len ++ " bytes exceeds write bound of " ++ toString max ++ " bytes"
  | .notSupported operation => "BLE operation not supported: " ++ operation
  | .invalidState operation => "BLE transport in invalid state for: " ++ operation
  | .invalidConfig detail => "invalid BLE configuration: " ++ detail
  | .other detail => "BLE error: " ++ detail

end VeSmart.Bluez
