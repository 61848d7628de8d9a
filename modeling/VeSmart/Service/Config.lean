import VeSmart.Lib.Prog
import VeSmart.Service.Ports
import VeSmart.Service.Scheduler

set_option autoImplicit false

/-! # Runtime configuration (`victron-service/src/config.rs`) -/

namespace VeSmart.Service

open VeSmart.Lib VeSmart.Domain

/-- Tunables for the collector orchestration. -/
structure ServiceConfig where
  deviceName : String
  inst : UInt16
  activeInterval : Duration
  idleInterval : Duration
  solarActiveThresholdWatts : F64
  responseTimeout : Duration
  phaseTimeout : Duration
  maximumEnergyGap : Duration
  spoolClaimTtl : Duration
  spoolMaxAttempts : UInt32
  backoffBase : Duration
  backoffFactor : UInt32
  backoffCap : Duration

/-- The defaults of the deployment plan. -/
def ServiceConfig.default : ServiceConfig where
  deviceName := "solar-charger"
  inst := 3
  activeInterval := Duration.fromSecs 15
  idleInterval := Duration.fromSecs 60
  solarActiveThresholdWatts := .finite 5
  responseTimeout := Duration.fromSecs 8
  phaseTimeout := Duration.fromSecs 12
  maximumEnergyGap := Duration.fromSecs 300
  spoolClaimTtl := Duration.fromSecs 120
  spoolMaxAttempts := 5
  backoffBase := Duration.fromSecs 5
  backoffFactor := 2
  backoffCap := Duration.fromSecs 300

/-- The identity that the name stands for. The source unwraps the result: a name that is not a
device id stops the process. -/
def ServiceConfig.device (config : ServiceConfig) : Except InvalidDeviceId DeviceIdentity := do
  let device ← DeviceId.new config.deviceName
  return ⟨device, config.inst⟩

/-- The backoff policy of a configuration. -/
def ServiceConfig.backoff (config : ServiceConfig) : ExponentialBackoff where
  base := config.backoffBase
  factor := config.backoffFactor
  cap := config.backoffCap

/-! ## Validation -/

inductive ConfigError where
  | emptyDeviceName
  | invalidDeviceName (name : String)
  | instanceMustBeNonZero
  | intervalZero (field : String)
  | solarThresholdInvalid (value : F64)
  | timeoutZero (field : String)
  | phaseTimeoutBelowResponseTimeout
  | maximumEnergyGapTooSmall
  | spoolClaimTtlZero
  | spoolMaxAttemptsZero
  | backoffBaseZero
  | backoffFactorZero
  | backoffCapBelowBase
  deriving DecidableEq

/-- The first problem found. -/
def ServiceConfig.validate (config : ServiceConfig) : Except ConfigError Unit :=
  if trim config.deviceName = "" then .error .emptyDeviceName
  else if config.deviceName.toList.any (fun c => !(c.isAlphanum || c = '_' || c = '-')) then
    .error (.invalidDeviceName config.deviceName)
  else if config.inst = 0 then .error .instanceMustBeNonZero
  else if config.activeInterval = 0 then .error (.intervalZero "active_interval")
  else if config.idleInterval = 0 then .error (.intervalZero "idle_interval")
  else if (config.solarActiveThresholdWatts.toRat?.all (fun watts => watts < 0)) then
    .error (.solarThresholdInvalid config.solarActiveThresholdWatts)
  else if config.responseTimeout = 0 then .error (.timeoutZero "response_timeout")
  else if config.phaseTimeout = 0 then .error (.timeoutZero "phase_timeout")
  else if config.phaseTimeout < config.responseTimeout then
    .error .phaseTimeoutBelowResponseTimeout
  else if config.maximumEnergyGap < Duration.fromSecs 1 then .error .maximumEnergyGapTooSmall
  else if config.spoolClaimTtl = 0 then .error .spoolClaimTtlZero
  else if config.spoolMaxAttempts = 0 then .error .spoolMaxAttemptsZero
  else if config.backoffBase = 0 then .error .backoffBaseZero
  else if config.backoffFactor = 0 then .error .backoffFactorZero
  else if config.backoffCap < config.backoffBase then .error .backoffCapBelowBase
  else .ok ()

/-- What validation promises about the numbers. -/
structure ServiceConfig.Bounds (config : ServiceConfig) : Prop where
  active_pos : 0 < config.activeInterval
  idle_pos : 0 < config.idleInterval
  response_pos : 0 < config.responseTimeout
  response_le_phase : config.responseTimeout ≤ config.phaseTimeout
  gap_ge : Duration.fromSecs 1 ≤ config.maximumEnergyGap
  ttl_pos : 0 < config.spoolClaimTtl
  attempts_pos : config.spoolMaxAttempts ≠ 0
  base_pos : 0 < config.backoffBase
  base_le_cap : config.backoffBase ≤ config.backoffCap

theorem ServiceConfig.bounds_of_validate {config : ServiceConfig}
    (h : config.validate = .ok ()) : config.Bounds := by
  unfold ServiceConfig.validate at h
  simp only [except_check_ok] at h
  obtain ⟨-, -, -, hactive, hidle, -, hresponse, -, hphase, hgap, httl, hattempts, hbase, -, hcap,
    -⟩ := h
  exact ⟨Nat.pos_of_ne_zero hactive, Nat.pos_of_ne_zero hidle, Nat.pos_of_ne_zero hresponse,
    not_lt.mp hphase, not_lt.mp hgap, Nat.pos_of_ne_zero httl, hattempts,
    Nat.pos_of_ne_zero hbase, not_lt.mp hcap⟩

theorem ServiceConfig.default_valid : ServiceConfig.default.validate = .ok () := by
  decide

end VeSmart.Service
