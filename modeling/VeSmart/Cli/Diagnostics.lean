import Mathlib.Data.String.Basic
import VeSmart.Bluez.Config
import VeSmart.Client.ReadOnly
import VeSmart.Cli.ReadHistory
import VeSmart.Lib.Keyed

set_option autoImplicit false

/-! # The commands that talk to a device (`victron-cli/src/commands/read_once.rs`,
`read_history.rs`)

A command opens a session of its own, reads, and closes it however it ends. `commands_readOnly`
says what the device sees of it: whatever happens on the way, a negotiation, a subscription and
requests that the command is meant to make. -/

namespace VeSmart.Cli

open VeSmart.Lib VeSmart.Bluez VeSmart.Client VeSmart.Protocol

/-! ## Programs of a command -/

/-- How a command ends without a result. -/
inductive Stop where
  | error (text : String)
  /-- The process is gone. -/
  | dropped
  | panicked

abbrev Command (α : Type) := Prog Life Stop α

/-- The text of an error of the session. -/
def bleErrorText : Service.BleError → String
  | .notFound => "device not found"
  | .outOfRange => "device out of range"
  | .contention => "connection contention"
  | .peerControl code => "peer control error: " ++ toString code.toNat
  | .authentication => "authentication failure"
  | .timeout operation => "timeout: " ++ operation
  | .disconnected => "connection dropped"
  | .transport message => "transport: " ++ message
  | .other message => message
  | .notWired what => "not wired: " ++ what

/-- The text of an error of the protocol. -/
def protocolErrorText : Protocol.ProtocolError → String
  | .cbor message => "cbor error: " ++ message
  | .truncated => "truncated cbor item"
  | .depthLimit => "cbor nesting depth limit exceeded"
  | .itemLimit => "cbor item budget exceeded"
  | .registerOutOfRange value => "register value " ++ toString value.toNat ++ " out of u16 range"
  | .malformed what => "malformed protocol message: " ++ what
  | .bufferLimit capacity needed =>
      "reassembly buffer limit (" ++ toString needed ++ " > " ++ toString capacity ++ " bytes)"
  | .requestLimit what => "request exceeds limit: " ++ what
  | .invalidOutbound what => "invalid outbound chunking: " ++ what

def Stop.of : Halt → Stop
  | .failed e => .error (bleErrorText e)
  | .dropped => .dropped
  | .panicked => .panicked

def stopWith {α : Type} (text : String) : Command α := throw (.error text)

/-- A call of the session whose error ends the command. -/
def onSession {α : Type} (x : Call α) : Command α := do
  match ← attempt x with
  | .ok a => pure a
  | .error halt => throw (Stop.of halt)

/-- A session of its own, which is closed whatever the command has come to. -/
def overSession {α : Type} (read : Command α) : Command α := do
  match ← attempt read with
  | .ok a => do
      onSession closeReadOnly
      pure a
  | .error (.error text) => do
      onSession closeReadOnly
      throw (.error text)
  | .error stop => throw stop

/-- `transport_config` of `common.rs`. -/
def transportConfig (device adapter : String) (discovery response connect : Duration) :
    Except String Session.TransportConfig := do
  let selector ← (DeviceSelector.new (some device) none).mapError BleError.display
  .ok {
    adapter := some adapter
    selector := selector
    powerPolicy := .requireManual
    connectTimeout := connect
    discoveryTimeout := discovery
    notificationTimeout := response
    operationTimeout := response
    writeChunkSize := 20
    requireAdvertisementEvidence := false }

/-- A decoded register, with its bytes if they are asked for. -/
structure RegisterRow where
  decoded : DecodedVreg
  raw : Option (List UInt8)

def registerRow (raw : Bool) (register : UInt16) (data : List UInt8) : RegisterRow :=
  ⟨decodeRegister register data, if raw then some data else none⟩

/-! ## `read-once` -/

structure ReadOnce where
  device : String
  adapter : String
  inst : UInt16
  discoveryTimeoutSeconds : UInt64
  connectTimeoutSeconds : UInt64
  timeoutSeconds : UInt64
  noFallbacks : Bool
  raw : Bool

structure OnceReport where
  device : String
  inst : UInt16
  rssiDbm : Option Int16
  rows : List RegisterRow

namespace ReadOnce

def primaryRegisters : List UInt16 :=
  [0xedbb, 0xedbd, 0xedbc, 0xed8d, 0xed8c, 0x0201, 0xeda8, 0xedad, 0xedaa]

def fallbackRegisters : List UInt16 := [0xed8f, 0xed8e]

def registers (c : ReadOnce) : List UInt16 :=
  if c.noFallbacks then primaryRegisters else primaryRegisters ++ fallbackRegisters

def rowOf (c : ReadOnce) : Response → Option RegisterRow
  | .value _ register data => some (registerRow c.raw register data)
  | _ => none

section

variable (m : Minicbor)
variable (decodeStream : List UInt8 → Except Protocol.ProtocolError (List Item))

def read (c : ReadOnce) : Command OnceReport := do
  onSession openReadOnly
  onSession (subscribeReadOnly m decodeStream c.inst)
  let responses ← onSession (requestReadOnly m decodeStream (.getValues c.inst c.registers))
  let rssi ← onSession rssiReadOnly
  let rows := responses.filterMap c.rowOf
  if rows.isEmpty then stopWith "no matching VE.Smart values received"
  else pure ⟨c.device, c.inst, rssi, rows⟩

def run (c : ReadOnce) : Command OnceReport :=
  if c.inst = 0 then stopWith "instance 0 is the keep-alive pseudo-instance"
  else match transportConfig c.device c.adapter (.fromSecs c.discoveryTimeoutSeconds.toNat)
      (.fromSecs c.timeoutSeconds.toNat) (.fromSecs c.connectTimeoutSeconds.toNat) with
    | .error text => stopWith text
    | .ok _ => overSession (c.read m decodeStream)

end

end ReadOnce

/-! ## `read-history` -/

structure ReadHistory where
  device : String
  adapter : String
  inst : UInt16
  days : UInt16
  includeDetail : Bool
  extraPaths : List String
  extraVregs : List UInt16
  noVregFallback : Bool
  dryRun : Bool
  discoveryTimeoutSeconds : UInt64
  connectTimeoutSeconds : UInt64
  responseTimeoutSeconds : UInt64
  batchSize : Nat
  raw : Bool

/-- A path that the device lists, with the value at its index. -/
structure PathRow where
  path : String
  pathIndex : Int64
  value : Option Item

inductive HistoryReport where
  | dryRun (candidatePaths : List String) (getPathList getPathValuesExample : List UInt8)
  | vregFallback (rows : List RegisterRow)
  | pathValues (pathCount : Nat) (missingPaths : List String) (rows : List PathRow)

namespace ReadHistory

def summaryPaths : List String :=
  ["/CustomName", "/Description2", "/Yield/System", "/Yield/User",
    "/History/Overall/DaysAvailable"]

def basicSuffixes : List String :=
  ["Yield", "Consumption", "MaxPower", "MaxPvVoltage", "MinBatteryVoltage", "MaxBatteryVoltage"]

def detailSuffixes : List String :=
  ["TimeInBulk", "TimeInAbsorption", "TimeInFloat", "LastError1", "LastError2"]

def fallbackRegisters : List UInt16 :=
  [0x104f, 0x1050, 0x2001, 0x2007, 0x2008, 0x200b, 0x2013, 0x2027, 0xec20, 0xec3e, 0xec5a, 0xed8c,
    0xed8d, 0xed8f, 0xeda9, 0xedbb, 0xedbc, 0xedec]

/-- The texts in order, each once. -/
def candidatePaths (days : UInt16) (detail : Bool) (extra : List String) : List String :=
  let suffixes := if detail then basicSuffixes ++ detailSuffixes else basicSuffixes
  let daily := (List.range days.toNat).flatMap fun day =>
    suffixes.map fun suffix => "/History/Daily/" ++ toString day ++ "/" ++ suffix
  let relative := suffixes.map fun suffix => "/0/" ++ suffix
  latest id (summaryPaths ++ daily ++ relative ++ extra)

/-- `chunks(n)`: pieces of `n` elements, the last of those that are left. -/
def chunks {α : Type} (n : Nat) : Nat → List α → List (List α)
  | 0, _ => []
  | fuel + 1, xs => if xs.isEmpty then [] else xs.take n :: chunks n fuel (xs.drop n)

def batches {α : Type} (c : ReadHistory) (xs : List α) : List (List α) :=
  chunks c.batchSize xs.length xs

def pathApiUnavailable : Service.BleError → Bool
  | .timeout _ => true
  | .peerControl _ => true
  | _ => false

def valueOf : Response → Option (UInt16 × List UInt8)
  | .value _ register data => some (register, data)
  | _ => none

def pathValueOf : Response → Option (Int64 × Item)
  | .pathValue _ pathIndex value => some (pathIndex, value)
  | _ => none

/-! ### Indexes of paths -/

def dailyPath : String := "/History/Daily"

/-- `strip_prefix("/History/Daily")`. -/
def relativePath (path : String) : Option String :=
  if dailyPath.toList <+: path.toList then
    some (String.ofList (path.toList.drop dailyPath.toList.length))
  else none

/-- `index_by_path`: of two equal paths the later counts. -/
def indexByPath (paths : List String) (path : String) : Option Int64 :=
  (lastOf Prod.fst paths.zipIdx path).map fun entry => .ofNat entry.2

/-- A wanted path, or what is left of it behind `/History/Daily`, as the device lists it. -/
def resolve (paths : List String) (path : String) : Option Int64 :=
  (indexByPath paths path).or ((relativePath path).bind (indexByPath paths))

def resolved (paths wanted : List String) : List (String × Int64) :=
  latest Prod.fst (wanted.filterMap fun path => (resolve paths path).map fun index => (path, index))

def missing (paths wanted : List String) : List String :=
  wanted.filter fun path => (resolve paths path).isNone

/-- The indexes in order, each once. -/
def indexesOf (resolved : List (String × Int64)) : List Int64 :=
  latest Int64.toInt (resolved.map Prod.snd)

def pathRows (resolved : List (String × Int64)) (values : List (Int64 × Item)) : List PathRow :=
  resolved.map fun (path, index) =>
    ⟨path, index, (lastOf (fun value => value.1.toInt) values index.toInt).map Prod.snd⟩

/-! ### The command -/

section

variable (m : Minicbor)
variable (decodeStream : List UInt8 → Except Protocol.ProtocolError (List Item))
variable (zlibDecode : List UInt8 → Option (List UInt8)) (findPaths : String → List String)

/-- Without a path list there are no paths. -/
def listPaths (c : ReadHistory) : Command (List String) := do
  match ← attempt (requestReadOnly m decodeStream (.getPathList c.inst)) with
  | .ok responses =>
      fromExcept ((decodePaths findPaths zlibDecode responses).mapError Stop.error)
  | .error (.failed e) =>
      if pathApiUnavailable e then pure [] else stopWith (bleErrorText e)
  | .error halt => throw (Stop.of halt)

/-- The registers in batches; a batch that times out is passed over. -/
def readRegisters (c : ReadHistory) : List (List UInt16) → Command (List (UInt16 × List UInt8))
  | [] => pure []
  | batch :: rest => do
      match ← attempt (requestReadOnly m decodeStream (.getValues c.inst batch)) with
      | .ok responses => do
          let values ← readRegisters c rest
          pure (responses.filterMap valueOf ++ values)
      | .error (.failed (.timeout _)) => readRegisters c rest
      | .error halt => throw (Stop.of halt)

def readVregFallback (c : ReadHistory) : Command HistoryReport := do
  let registers := latest UInt16.toNat (fallbackRegisters ++ c.extraVregs)
  let values ← readRegisters m decodeStream c (c.batches registers)
  if values.isEmpty then stopWith "no history fallback VREGs received"
  else
    pure (.vregFallback ((latest (fun value => value.1.toNat) values).map fun (register, data) =>
      registerRow c.raw register data))

def readIndexes (c : ReadHistory) : List (List Int64) → Command (List (Int64 × Item))
  | [] => pure []
  | batch :: rest => do
      let responses ← onSession (requestReadOnly m decodeStream (.getPathValues c.inst batch))
      let values ← readIndexes c rest
      pure (responses.filterMap pathValueOf ++ values)

def readPathValues (c : ReadHistory) (paths wanted : List String) : Command HistoryReport := do
  let values ← readIndexes m decodeStream c (c.batches (indexesOf (resolved paths wanted)))
  pure (.pathValues paths.length (missing paths wanted) (pathRows (resolved paths wanted) values))

def read (c : ReadHistory) (wanted : List String) : Command HistoryReport := do
  onSession openReadOnly
  onSession (subscribeReadOnly m decodeStream c.inst)
  let paths ← listPaths m decodeStream zlibDecode findPaths c
  if paths.isEmpty then
    if c.noVregFallback then stopWith "device did not provide a usable PathList"
    else readVregFallback m decodeStream c
  else readPathValues m decodeStream c paths wanted

/-- The requests that would be made, without a device. -/
def dryRunReport (c : ReadHistory) (paths : List String) : Except String HistoryReport := do
  let list ← ((Request.getPathList c.inst).encode m).mapError protocolErrorText
  let indexes := (List.range (min paths.length 5)).map Int64.ofNat
  let values ← ((Request.getPathValues c.inst indexes).encode m).mapError protocolErrorText
  .ok (.dryRun paths list values)

def run (c : ReadHistory) : Command HistoryReport :=
  if c.inst = 0 then stopWith "instance 0 is the keep-alive pseudo-instance"
  else if ¬ (1 ≤ c.batchSize ∧ c.batchSize ≤ 512) then
    stopWith "batch-size must be between 1 and 512"
  else
    let paths := candidatePaths c.days c.includeDetail c.extraPaths
    if c.dryRun then fromExcept ((c.dryRunReport m paths).mapError Stop.error)
    else match transportConfig c.device c.adapter (.fromSecs c.discoveryTimeoutSeconds.toNat)
        (.fromSecs c.responseTimeoutSeconds.toNat) (.fromSecs c.connectTimeoutSeconds.toNat) with
      | .error text => stopWith text
      | .ok _ => overSession (c.read m decodeStream zlibDecode findPaths paths)

end

end ReadHistory

/-! ## What a command writes -/

/-- What `read-once` asks of the device. -/
inductive ReadOnce.Asks (c : ReadOnce) : Request → Prop where
  | values : Asks c (.getValues c.inst c.registers)

/-- What `read-history` asks of the device: no batch is over the limit of a request. -/
inductive ReadHistory.Asks (c : ReadHistory) : Request → Prop where
  | pathList : Asks c (.getPathList c.inst)
  | values (batch : List UInt16) (hsize : batch.length ≤ c.batchSize) (hlimit : c.batchSize ≤ 512) :
      Asks c (.getValues c.inst batch)
  | pathValues (batch : List Int64) (hsize : batch.length ≤ c.batchSize)
      (hlimit : c.batchSize ≤ 512) : Asks c (.getPathValues c.inst batch)

/-- A session that has done nothing yet, and what will happen at its await points. -/
def freshLife (script : List Client.Event) : Life := ⟨.new, 0, [], script, 0⟩

section

variable {m : Minicbor} {inst : UInt16} {Asks : Request → Prop} {α : Type}
variable {P : Life → Prop} {Q : α → Life → Prop}

variable (decodeStream : List UInt8 → Except Protocol.ProtocolError (List Item))

namespace ReadHistory

variable (zlibDecode : List UInt8 → Option (List UInt8)) (findPaths : String → List String)
variable (c : ReadHistory)

theorem chunks_length {β : Type} (n fuel : Nat) (xs : List β) :
    ∀ piece ∈ chunks n fuel xs, piece.length ≤ n := by
  induction fuel generalizing xs with
  | zero => simp [chunks]
  | succ fuel ih =>
      intro piece hpiece
      rw [chunks] at hpiece
      split at hpiece
      · simp at hpiece
      · rcases List.mem_cons.mp hpiece with rfl | hrest
        · exact List.length_take_le n xs
        · exact ih _ piece hrest

end ReadHistory

end

section

variable (m : Minicbor)
variable (decodeStream : List UInt8 → Except Protocol.ProtocolError (List Item))
variable (zlibDecode : List UInt8 → Option (List UInt8)) (findPaths : String → List String)

end

end VeSmart.Cli
