import VeSmart.Domain.Builder
import VeSmart.Protocol.Request
import VeSmart.Protocol.Vreg
import VeSmart.Service.Ports

set_option autoImplicit false

/-! # The protocol adapter of the collector (`victron-collector/src/adapters/protocol.rs`) -/

namespace VeSmart.Collector

open VeSmart.Lib VeSmart.Domain VeSmart.Protocol

/-- The registers of the dashboard. The lifetime yield is not among them. -/
def mvpVregs : List UInt16 :=
  [0xedbb, 0xedbd, 0xedbc, 0xed8d, 0xed8c, 0x0201, 0xeda8, 0xedad, 0xedaa]

/-- The frames that negotiate the chunk size and announce free chunks (`control.rs`). -/
def negotiationWrites : List (List UInt8) := [[0xfa, 0x80, 0xff], [0xf9, 0x80]]

def responseCode : ResponseCode → UInt8
  | .ok => 0
  | .unknown1 => 1
  | .rejected => 2
  | .other code => code

def mapWireError : ProtocolError → Service.ProtocolError
  | .truncated => .truncated
  | .bufferLimit _ _ => .bufferExceeded
  | .depthLimit => .bufferExceeded
  | .itemLimit => .bufferExceeded
  | _ => .malformed

/-! ## The plan -/

def acquirePlan (m : Minicbor) (inst : UInt16) (vregs : List UInt16) :
    Except Service.ProtocolError Service.AcquirePlan :=
  if inst = 0 then .error .notSubscribed
  else do
    let subscribe ← ((Request.subscribe inst).encode m).mapError mapWireError
    let values ← ((Request.getValues inst vregs).encode m).mapError mapWireError
    .ok ⟨negotiationWrites, subscribe, values⟩

/-! ## The response -/

/-- The values of an instance, up to the first record that rejects a request. -/
def instanceValues (inst : UInt16) :
    List Response → Except Service.ProtocolError (List Service.RawValue)
  | [] => .ok []
  | .value responseInstance register data :: rest => do
      let values ← instanceValues inst rest
      if responseInstance = inst.toUInt64 then .ok (⟨register, data⟩ :: values) else .ok values
  | .response _ _ code :: rest =>
      if code = .ok then instanceValues inst rest
      else .error (.contentionResponse (responseCode code).toNat)
  | .valueResponse _ _ code :: rest =>
      if code = .ok then instanceValues inst rest
      else .error (.contentionResponse (responseCode code).toNat)
  | .pathResponse _ _ code :: rest =>
      if code = .ok then instanceValues inst rest
      else .error (.contentionResponse (responseCode code).toNat)
  | _ :: rest => instanceValues inst rest

def parseResponse (m : Minicbor) (inst : UInt16) (bytes : List UInt8) :
    Except Service.ProtocolError (List Service.RawValue) :=
  if bytes = [] then .error .emptyResponse
  else do
    let responses ← (Response.parseStream m.decodeStream bytes).mapError mapWireError
    let values ← instanceValues inst responses
    if values = [] then .error .emptyResponse else .ok values

/-! ## The sample -/

def qualityOf : Confidence → Quality
  | .confirmed => .confirmedNative
  | .candidate => .candidate

/-- Store a decoded value in the field of its register; most registers have none. -/
def setRegister (b : SampleBuilder) (vreg : UInt16) (value : Scaled) (quality : Quality) :
    Except DomainError SampleBuilder :=
  match value with
  | .number x =>
      if vreg = 0xedbb then b.pvVoltageVolts x quality
      else if vreg = 0xedbd then b.pvCurrentAmperes x quality
      else if vreg = 0xed8d then b.batteryVoltageVolts x quality
      else if vreg = 0xed8c then b.batteryCurrentAmperes x quality
      else if vreg = 0xedad then b.loadCurrentAmperes x quality
      else .ok b
  | .integer n =>
      if vreg = 0xedbc then b.pvPowerWatts (.ofInt n) quality
      else if vreg = 0xedaa then b.loadPowerWatts (.ofInt n) quality
      else .ok b
  | .state code _ =>
      if vreg = 0x0201 then .ok (b.chargerState (.fromCode code))
      else if vreg = 0xeda8 then .ok (b.loadState (.fromCode code))
      else .ok b
  | .slots _ => .ok b
  | .block _ _ => .ok b

def applyValue (b : SampleBuilder) (raw : Service.RawValue) :
    Except Service.ProtocolError SampleBuilder :=
  let decoded := decodeRegister raw.vreg raw.raw
  match decoded.value with
  | none => .ok b
  | some value =>
      (setRegister b raw.vreg value (qualityOf decoded.confidence)).mapError
        fun _ => .invalidValue raw.vreg

/-- The sample of a device at the time `now` of the system's clock. -/
def translate (device : DeviceId) (now : SystemTime) (values : List Service.RawValue) :
    Except Service.ProtocolError Sample := do
  let b ← values.foldlM applyValue ((SampleBuilder.new device now).connectionHealth .up)
  .ok b.build

/-- The adapter of a device. Only `translate` looks at its surroundings, for the time. -/
def veSmartProtocol {ω : Type} (m : Minicbor) (device : DeviceId) (now : ω → SystemTime × ω) :
    Service.ProtocolAdapter ω where
  vregs := fun env => (mvpVregs, env)
  acquirePlan := fun inst vregs env => (acquirePlan m inst vregs, env)
  parseResponse := fun inst bytes env => (parseResponse m inst bytes, env)
  translate := fun _ values env => (translate device (now env).1 values, (now env).2)

end VeSmart.Collector
