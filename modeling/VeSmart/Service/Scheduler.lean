import VeSmart.Domain.Sample

set_option autoImplicit false

/-! # Poll scheduling (`victron-service/src/scheduler.rs`) -/

namespace VeSmart.Service

open VeSmart.Lib VeSmart.Domain

/-- Which poll cadence applies. -/
inductive IntervalKind where
  | active
  | idle
  deriving DecidableEq

/-- Solar activity of the last successfully committed sample. -/
inductive SolarActivity where
  | active
  | idle
  deriving DecidableEq

/-- Inputs that an interval policy may consult. -/
structure IntervalContext where
  now : SystemTime
  lastSuccess : Option SystemTime
  lastSolar : Option SolarActivity
  consecutiveFailures : UInt32

/-- The solar activity of a committed sample, by its confirmed PV power. -/
def solarActivity (sample : Sample) (thresholdWatts : F64) : SolarActivity :=
  match sample.pvPowerWatts with
  | some m =>
      if m.quality = .confirmedNative && thresholdWatts.le m.value then .active else .idle
  | none => .idle

/-- The active cadence until a committed sample says that the sun is down. -/
def SolarActivityPolicy.kind (ctx : IntervalContext) : IntervalKind :=
  match ctx.lastSolar with
  | none => .active
  | some .active => .active
  | some .idle => .idle

/-- Deterministic exponential backoff: `min(cap, base * factor^(n-1))` for `n` failures. -/
structure ExponentialBackoff where
  base : Duration
  factor : UInt32
  cap : Duration

def ExponentialBackoff.delay (b : ExponentialBackoff) (consecutiveFailures : UInt32) : Duration :=
  if consecutiveFailures = 0 then 0
  else
    -- the exponent is capped: huge failure counts cannot overflow
    let exponent := min (consecutiveFailures.toNat - 1) 32
    let multiplier := min (b.factor.toNat ^ exponent) (2 ^ 32 - 1)
    min (Duration.saturatingMul b.base multiplier) b.cap

theorem ExponentialBackoff.delay_le_cap (b : ExponentialBackoff) (failures : UInt32) :
    b.delay failures ≤ b.cap := by
  unfold delay
  split
  · exact Nat.zero_le _
  · exact min_le_right _ _

end VeSmart.Service
