import VeSmart.Lib.Int64

set_option autoImplicit false

/-! # Points in time and durations

A `SystemTime` is a number of nanoseconds since the Unix epoch, negative before it, and a
`Duration` is a number of nanoseconds. `asMillis` rounds down, so a time read back from its
milliseconds (`fromMillis`) is never later than it was, and the next millisecond is later
(`fromMillis_asMillis_le`, `lt_fromMillis_succ`). -/

namespace VeSmart.Lib

abbrev Duration := Nat

def nanosPerMilli : Nat := 1000000
def nanosPerSec : Nat := 1000000000

/-- The longest duration: `u64::MAX` seconds and 999,999,999 nanoseconds. -/
def Duration.maximum : Duration := u64Max * nanosPerSec + 999999999

def Duration.fromMillis (ms : Nat) : Duration := ms * nanosPerMilli

def Duration.fromSecs (secs : Nat) : Duration := secs * nanosPerSec

def Duration.asMillis (d : Duration) : Nat := d / nanosPerMilli

def Duration.asSecs (d : Duration) : Nat := d / nanosPerSec

/-- The duration in seconds, exactly. -/
def Duration.asSecsRat (d : Duration) : ℚ := (d : ℚ) / nanosPerSec

def Duration.saturatingAdd (a b : Duration) : Duration := min Duration.maximum (a + b)

def Duration.saturatingMul (a : Duration) (n : Nat) : Duration := min Duration.maximum (a * n)

/-- The last reading that an `Instant` holds: `i64::MAX` seconds and 999,999,999 nanoseconds on
the monotonic clock. -/
def instantMax : Duration := i64Max.toNat * nanosPerSec + 999999999

/-- `Instant::now() + d` does not overflow when the clock stands at `now`. -/
def InstantHolds (now d : Duration) : Prop := now + d ≤ instantMax

instance (now d : Duration) : Decidable (InstantHolds now d) :=
  inferInstanceAs (Decidable (now + d ≤ instantMax))

structure SystemTime where
  nanos : Int
  deriving DecidableEq

namespace SystemTime

theorem nanos_injective : Function.Injective nanos := by
  intro s t h
  cases s
  cases t
  exact congrArg _ h

instance : LinearOrder SystemTime := LinearOrder.lift' nanos nanos_injective

theorem le_iff {s t : SystemTime} : s ≤ t ↔ s.nanos ≤ t.nanos := Iff.rfl

theorem lt_iff {s t : SystemTime} : s < t ↔ s.nanos < t.nanos := Iff.rfl

def unixEpoch : SystemTime := ⟨0⟩

/-- The time from `earlier` to `t`, or nothing if `earlier` is later. -/
def durationSince (t earlier : SystemTime) : Option Duration :=
  if earlier ≤ t then some (t.nanos - earlier.nanos).toNat else none

/-- Whole milliseconds since the epoch, rounded down. -/
def asMillis (t : SystemTime) : Int := t.nanos / nanosPerMilli

def fromMillis (ms : Int) : SystemTime := ⟨ms * nanosPerMilli⟩

/-- The time is a whole number of milliseconds. -/
def WholeMillis (t : SystemTime) : Prop := fromMillis t.asMillis = t

instance (t : SystemTime) : Decidable t.WholeMillis := inferInstanceAs (Decidable (_ = _))

@[simp] theorem asMillis_fromMillis (ms : Int) : (fromMillis ms).asMillis = ms := by
  simp only [asMillis, fromMillis, nanosPerMilli]
  omega

theorem fromMillis_asMillis_le (t : SystemTime) : fromMillis t.asMillis ≤ t := by
  simp only [le_iff, asMillis, fromMillis, nanosPerMilli]
  omega

theorem lt_fromMillis_succ (t : SystemTime) : t < fromMillis (t.asMillis + 1) := by
  simp only [lt_iff, asMillis, fromMillis, nanosPerMilli]
  omega

theorem fromMillis_le_iff {a b : Int} : fromMillis a ≤ fromMillis b ↔ a ≤ b := by
  simp only [le_iff, fromMillis, nanosPerMilli]
  omega

theorem asMillis_mono {s t : SystemTime} (h : s ≤ t) : s.asMillis ≤ t.asMillis := by
  simp only [le_iff] at h
  simp only [asMillis, nanosPerMilli]
  omega

/-- A later millisecond starts after every time of an earlier one. -/
theorem lt_fromMillis {t : SystemTime} {ms : Int} (h : t.asMillis < ms) : t < fromMillis ms :=
  lt_of_lt_of_le t.lt_fromMillis_succ (fromMillis_le_iff.mpr h)

theorem asMillis_le_of_le {t : SystemTime} {ms : Int} (h : t ≤ fromMillis ms) :
    t.asMillis ≤ ms := by
  have hmono := asMillis_mono h
  rwa [asMillis_fromMillis] at hmono

end SystemTime

end VeSmart.Lib
