import VeSmart.Lib.Time

set_option autoImplicit false

/-! # Health counters (`victron-service/src/health.rs`)

The counters are 64-bit words; `energyGapSkippedSeconds` and `consecutiveFailures` saturate,
the others would wrap around. -/

namespace VeSmart.Service

open VeSmart.Lib

structure HealthSnapshot where
  cyclesTotal : UInt64
  cyclesSucceeded : UInt64
  bleDiscoverFailuresTotal : UInt64
  bleConnectFailuresTotal : UInt64
  bleSessionFailuresTotal : UInt64
  protocolErrorsTotal : UInt64
  samplesDroppedTotal : UInt64
  deliveriesSucceededTotal : UInt64
  deliveriesFailedTotal : UInt64
  spoolDroppedTotal : UInt64
  energyGapSkippedSeconds : UInt64
  consecutiveFailures : UInt32
  lastSuccess : Option SystemTime

def HealthSnapshot.new : HealthSnapshot where
  cyclesTotal := 0
  cyclesSucceeded := 0
  bleDiscoverFailuresTotal := 0
  bleConnectFailuresTotal := 0
  bleSessionFailuresTotal := 0
  protocolErrorsTotal := 0
  samplesDroppedTotal := 0
  deliveriesSucceededTotal := 0
  deliveriesFailedTotal := 0
  spoolDroppedTotal := 0
  energyGapSkippedSeconds := 0
  consecutiveFailures := 0
  lastSuccess := none

namespace HealthSnapshot

/-- Record a successful acquisition timestamp; it never moves backwards. -/
def setLastSuccess (h : HealthSnapshot) (time : SystemTime) : HealthSnapshot :=
  if h.lastSuccess.all (fun c => c < time) then { h with lastSuccess := some time } else h

def recordCycle (h : HealthSnapshot) (ok : Bool) : HealthSnapshot :=
  if ok then
    { h with
      cyclesTotal := h.cyclesTotal + 1
      cyclesSucceeded := h.cyclesSucceeded + 1
      consecutiveFailures := 0 }
  else
    { h with
      cyclesTotal := h.cyclesTotal + 1
      consecutiveFailures := UInt32.ofNat (min 4294967295 (h.consecutiveFailures.toNat + 1)) }

def recordBleDiscoverFailure (h : HealthSnapshot) : HealthSnapshot :=
  { h with bleDiscoverFailuresTotal := h.bleDiscoverFailuresTotal + 1 }

def recordBleConnectFailure (h : HealthSnapshot) : HealthSnapshot :=
  { h with bleConnectFailuresTotal := h.bleConnectFailuresTotal + 1 }

def recordBleSessionFailure (h : HealthSnapshot) : HealthSnapshot :=
  { h with bleSessionFailuresTotal := h.bleSessionFailuresTotal + 1 }

def recordProtocolError (h : HealthSnapshot) : HealthSnapshot :=
  { h with protocolErrorsTotal := h.protocolErrorsTotal + 1 }

def recordSampleDropped (h : HealthSnapshot) : HealthSnapshot :=
  { h with samplesDroppedTotal := h.samplesDroppedTotal + 1 }

def recordDelivery (h : HealthSnapshot) (ok : Bool) : HealthSnapshot :=
  if ok then { h with deliveriesSucceededTotal := h.deliveriesSucceededTotal + 1 }
  else { h with deliveriesFailedTotal := h.deliveriesFailedTotal + 1 }

def recordSpoolDropped (h : HealthSnapshot) : HealthSnapshot :=
  { h with spoolDroppedTotal := h.spoolDroppedTotal + 1 }

/-- Add the whole seconds of a skipped energy gap to the cumulative counter. -/
def recordEnergyGap (h : HealthSnapshot) (gap : Duration) : HealthSnapshot :=
  { h with energyGapSkippedSeconds :=
      UInt64.ofNat (min u64Max (h.energyGapSkippedSeconds.toNat + gap.asSecs)) }

@[simp] theorem recordDelivery_gap (h : HealthSnapshot) (ok : Bool) :
    (h.recordDelivery ok).energyGapSkippedSeconds = h.energyGapSkippedSeconds := by
  cases ok <;> rfl

@[simp] theorem recordSpoolDropped_gap (h : HealthSnapshot) :
    h.recordSpoolDropped.energyGapSkippedSeconds = h.energyGapSkippedSeconds := rfl

theorem recordEnergyGap_gap (h : HealthSnapshot) (gap : Duration) :
    (h.recordEnergyGap gap).energyGapSkippedSeconds.toNat =
      min u64Max (h.energyGapSkippedSeconds.toNat + gap.asSecs) := by
  simp only [recordEnergyGap, u64Max, UInt64.toNat_ofNat']
  omega

end HealthSnapshot

end VeSmart.Service
