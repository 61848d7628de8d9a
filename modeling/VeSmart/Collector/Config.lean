import VeSmart.Bluez.Config
import VeSmart.Collector.SqliteStorage

set_option autoImplicit false

/-! # The configuration of the daemon (`victron-collector/src/config.rs`, `main.rs`)

`Config.validate` is what `--check-config` runs. `storageConfig` and `bleConfig` are the values
that `run_daemon` derives for the storage and for the transport, which validate them once more. -/

namespace VeSmart.Collector

open VeSmart.Lib VeSmart.Domain

structure DeviceSection where
  name : String
  bluezAlias : String
  inst : UInt16
  adapter : String

structure PollSection where
  activeIntervalSeconds : UInt64
  idleIntervalSeconds : UInt64
  responseTimeoutSeconds : UInt64
  phaseTimeoutSeconds : UInt64
  maximumEnergyGapSeconds : UInt64
  spoolClaimTtlSeconds : UInt64
  spoolMaxAttempts : UInt32
  backoffBaseSeconds : UInt64
  backoffFactor : UInt32
  backoffCapSeconds : UInt64
  solarActiveThresholdWatts : F64

structure VictoriaMetricsSection where
  url : String
  requestTimeoutSeconds : UInt64

structure StorageSection where
  maximumSpoolBatches : UInt64
  maximumSpoolAgeDays : UInt64

structure Config where
  device : DeviceSection
  poll : PollSection
  victoriaMetrics : VictoriaMetricsSection
  storage : StorageSection

/-- What `validate` reports. -/
inductive ConfigError where
  | emptyDeviceName
  | instanceZero
  | timeoutZero (field : String)
  | badUrl (reason : String)
  | solarThresholdInvalid (watts : F64)
  | spoolBatchLimitZero
  | service (error : Service.ConfigError)
  deriving DecidableEq

/-! ## The URL -/

/-- `rsplit_once`: the text before and after the last `c`. -/
def rsplitOnce (c : Char) (text : List Char) : Option (List Char × List Char) :=
  match text.reverse.dropWhile (fun x => x ≠ c) with
  | [] => none
  | _ :: before => some (before.reverse, (text.reverse.takeWhile (fun x => x ≠ c)).reverse)

/-- `str::parse::<u16>`. -/
def parseU16 (text : List Char) : Option Nat :=
  (parseDigits (match text with
    | '+' :: digits => digits
    | digits => digits)).filter (fun n => n ≤ 65535)

/-- Plain IPv4 or DNS names only. -/
def isValidHost (host : List Char) : Bool :=
  host ≠ [] && host.length ≤ 253 &&
    host.all (fun c => c.isAlphanum || c = '-' || c = '.' || c = '_')

/-- An absolute path of bytes that cannot corrupt the request line. -/
def isValidPath (path : List Char) : Bool :=
  path.head? = some '/' &&
    path.all (fun c => 0x21 ≤ c.val && c.val ≤ 0x7e && !(" \"<>\\^`\x7b|\x7d#?".toList.contains c))

/-- The host of an authority, whose port has to be a number other than zero. -/
def authorityHost (authority : List Char) : Except ConfigError (List Char) :=
  match rsplitOnce ':' authority with
  | none => .ok authority
  | some (host, port) =>
      if host = [] ∨ ':' ∈ host ∨ host.head? = some '[' then
        .error (.badUrl "unsupported host (IPv6/brackets not supported)")
      else if ((parseU16 port).filter (fun p => p ≠ 0)).isNone then
        .error (.badUrl "invalid or zero port")
      else .ok host

/-- What follows the scheme. -/
def checkAuthority (rest : List Char) : Except ConfigError Unit :=
  let authority := rest.takeWhile (fun c => c ≠ '/')
  let path := if '/' ∈ rest then rest.dropWhile (fun c => c ≠ '/')
    else "/api/v1/import/prometheus".toList
  if '?' ∈ rest ∨ '#' ∈ rest then .error (.badUrl "query strings and fragments are never sent")
  else if authority = [] then .error (.badUrl "missing host")
  else if '@' ∈ authority then .error (.badUrl "userinfo is not supported")
  else do
    let host ← authorityHost authority
    if !isValidHost host then
      .error (.badUrl ("host must be a plain IPv4 address or DNS name without whitespace or " ++
        "control characters"))
    else if !isValidPath path then
      .error (.badUrl "path must start with '/' and contain only safe request-line bytes")
    else .ok ()

def validateMetricsUrl (url : String) : Except ConfigError Unit :=
  match "http://".toList.isPrefixOf url.toList with
  | false => .error (.badUrl "only plaintext http:// is supported (no TLS on ARMv6)")
  | true => checkAuthority (url.toList.drop 7)

/-! ## Validation -/

/-- The service configuration, before it is validated. -/
def Config.toService (cfg : Config) : Service.ServiceConfig where
  deviceName := cfg.device.name
  inst := cfg.device.inst
  activeInterval := .fromSecs cfg.poll.activeIntervalSeconds.toNat
  idleInterval := .fromSecs cfg.poll.idleIntervalSeconds.toNat
  solarActiveThresholdWatts := cfg.poll.solarActiveThresholdWatts
  responseTimeout := .fromSecs cfg.poll.responseTimeoutSeconds.toNat
  phaseTimeout := .fromSecs cfg.poll.phaseTimeoutSeconds.toNat
  maximumEnergyGap := .fromSecs cfg.poll.maximumEnergyGapSeconds.toNat
  spoolClaimTtl := .fromSecs cfg.poll.spoolClaimTtlSeconds.toNat
  spoolMaxAttempts := cfg.poll.spoolMaxAttempts
  backoffBase := .fromSecs cfg.poll.backoffBaseSeconds.toNat
  backoffFactor := cfg.poll.backoffFactor
  backoffCap := .fromSecs cfg.poll.backoffCapSeconds.toNat

def Config.serviceConfig (cfg : Config) : Except Service.ConfigError Service.ServiceConfig := do
  cfg.toService.validate
  return cfg.toService

def Config.validate (cfg : Config) : Except ConfigError Unit :=
  if trim cfg.device.name = "" then .error .emptyDeviceName
  else if cfg.device.inst = 0 then .error .instanceZero
  else if cfg.victoriaMetrics.requestTimeoutSeconds = 0 then
    .error (.timeoutZero "victoria_metrics.request_timeout_seconds")
  else do
    validateMetricsUrl cfg.victoriaMetrics.url
    if !cfg.poll.solarActiveThresholdWatts.isFinite ||
        cfg.poll.solarActiveThresholdWatts.lt (.finite 0) then
      .error (.solarThresholdInvalid cfg.poll.solarActiveThresholdWatts)
    else if cfg.storage.maximumSpoolBatches = 0 then .error .spoolBatchLimitZero
    else
      -- range checks for everything the service consumes
      (cfg.serviceConfig.mapError ConfigError.service).map fun _ => ()

/-! ## What the daemon derives -/

theorem inI64_min (ms : Nat) : InI64 (min ms i64Max) := by
  simp only [InI64, i64Min, i64Max]
  omega

/-- A number of milliseconds that saturates at `i64::MAX`. -/
def clampMs (ms : Nat) : I64 := ⟨min ms i64Max, inI64_min ms⟩

def durationMs (duration : Duration) : I64 := clampMs duration.asMillis

def daysMs (days : UInt64) : I64 := clampMs (min u64Max (days.toNat * (24 * 60 * 60 * 1000)))

def minAttChunkSize : Nat := 20

/-- The transport configuration of the daemon. -/
def bleConfig (cfg : Config) (service : Service.ServiceConfig) :
    Except Bluez.BleError Bluez.Session.TransportConfig := do
  let selector ← Bluez.DeviceSelector.new (some cfg.device.bluezAlias) none
  return {
    adapter := some cfg.device.adapter
    selector := selector
    powerPolicy := .requireManual
    -- one response window is reserved for cancellation and cleanup
    connectTimeout := service.phaseTimeout - service.responseTimeout
    discoveryTimeout := service.phaseTimeout
    notificationTimeout := service.responseTimeout
    operationTimeout := service.responseTimeout
    writeChunkSize := minAttChunkSize
    requireAdvertisementEvidence := false }

/-- The storage configuration of the daemon. -/
def storageConfig (cfg : Config) (service : Service.ServiceConfig) : Storage.StorageConfig :=
  { Storage.StorageConfig.conservative with
    maxSpoolAttempts := cfg.poll.spoolMaxAttempts
    spoolInflightMs := durationMs service.spoolClaimTtl
    maxSpoolBatches := cfg.storage.maximumSpoolBatches
    maxSpoolAgeMs := daysMs cfg.storage.maximumSpoolAgeDays
    energyGapThresholdMs := durationMs service.maximumEnergyGap }

/-! ## Facts about both -/

section

variable {cfg : Config}

theorem Config.validate_ok (h : cfg.validate = .ok ()) :
    cfg.storage.maximumSpoolBatches ≠ 0 ∧ cfg.toService.validate = .ok () := by
  unfold Config.validate at h
  simp only [except_check_ok, except_bind_ok] at h
  obtain ⟨-, -, -, u, -, -, hbatches, hservice⟩ := h
  refine ⟨hbatches, ?_⟩
  unfold Config.serviceConfig at hservice
  cases hvalid : cfg.toService.validate with
  | ok u => rfl
  | error e =>
      rw [hvalid] at hservice
      cases hservice

theorem Config.validate_url (h : cfg.validate = .ok ()) :
    validateMetricsUrl cfg.victoriaMetrics.url = .ok () := by
  unfold Config.validate at h
  simp only [except_check_ok, except_bind_ok] at h
  obtain ⟨-, -, -, u, hurl, -⟩ := h
  exact hurl

theorem clampMs_pos {ms : Nat} : 0 < (clampMs ms).1 ↔ 0 < ms := by
  simp only [clampMs, i64Max]
  omega

theorem asMillis_fromSecs (secs : Nat) : (Duration.fromSecs secs).asMillis = secs * 1000 := by
  simp only [Duration.asMillis, Duration.fromSecs, nanosPerSec, nanosPerMilli]
  omega

theorem fromSecs_pos {secs : Nat} : 0 < Duration.fromSecs secs ↔ 0 < secs := by
  have h : 0 < secs * 1000000000 ↔ 0 < secs := by omega
  exact h

theorem fromSecs_lt {a b : Nat} : Duration.fromSecs a < Duration.fromSecs b ↔ a < b := by
  have h : a * 1000000000 < b * 1000000000 ↔ a < b := by omega
  exact h

end

/-- The configuration of the deployment plan, with the phase timeout `phase`. -/
def planned (phase : UInt64) : Config where
  device := ⟨"solar-charger", "Solar Charger", 3, "hci0"⟩
  poll := {
    activeIntervalSeconds := 15
    idleIntervalSeconds := 60
    responseTimeoutSeconds := 8
    phaseTimeoutSeconds := phase
    maximumEnergyGapSeconds := 300
    spoolClaimTtlSeconds := 120
    spoolMaxAttempts := 5
    backoffBaseSeconds := 5
    backoffFactor := 2
    backoffCapSeconds := 300
    solarActiveThresholdWatts := .finite 5 }
  victoriaMetrics := ⟨"http://127.0.0.1:8429/api/v1/import/prometheus", 10⟩
  storage := ⟨10000, 7⟩

end VeSmart.Collector
