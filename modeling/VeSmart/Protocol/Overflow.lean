import VeSmart.Lib.Framing
import VeSmart.Protocol.Frame

set_option autoImplicit false

/-! # Frames that overflow the reassembler

After an overflow the buffer is empty, and the reassembler goes on as if a frame began. The rest
of the frame that has overflowed is therefore handed out as a payload, unless it overflows again
at its end: `whole_iff`. `reassemble` is the reassembler without a bound. -/

namespace VeSmart.Protocol

open VeSmart.Lib

/-- The reassembler after a notification; the caller goes on after an error. -/
def Reassembler.receive (r : Reassembler) : Chunk UInt8 → Reassembler
  | .data xs => (r.pushData xs).2
  | .last xs => (r.pushLastData xs).2

def fed (capacity : Nat) (chunks : List (Chunk UInt8)) : Reassembler :=
  chunks.foldl Reassembler.receive (.withMax capacity)

/-- Every payload that is handed out is all that has come since the last-data notification
before. -/
def HandsOutWhole (capacity : Nat) (chunks : List (Chunk UInt8)) : Prop :=
  ∀ before xs payload r, before ++ [.last xs] <+: chunks →
    (fed capacity before).pushLastData xs = (.ok (some payload), r) →
    payload = (reassemble before).buffer ++ xs

/-- Count the bytes since the frame began or overflowed. -/
def countBytes (room count : Nat) : Chunk UInt8 → Nat
  | .data xs => if room < count + xs.length then 0 else count + xs.length
  | .last _ => 0

def bytesSinceReset (room : Nat) (chunks : List (Chunk UInt8)) : Nat :=
  chunks.foldl (countBytes room) 0

/-- The last chunk of a frame that is larger than the room does not fit next to what has come
since the frame overflowed. -/
def OverflowsAtEnd (room : Nat) (chunks : List (Chunk UInt8)) : Prop :=
  ∀ before xs, before ++ [.last xs] <+: chunks →
    room < ((reassemble before).buffer ++ xs).length →
    room < bytesSinceReset room before + xs.length

section

variable {capacity room : Nat} {chunks : List (Chunk UInt8)} {c : Chunk UInt8}
  {r : Reassembler} {xs : List UInt8}

@[simp] theorem fed_concat : fed capacity (chunks ++ [c]) = (fed capacity chunks).receive c := by
  simp [fed]

@[simp] theorem bytesSinceReset_concat : bytesSinceReset room (chunks ++ [c]) =
    countBytes room (bytesSinceReset room chunks) c := by
  simp [bytesSinceReset]

theorem Reassembler.append_fits (h : r.buffer.length + xs.length ≤ r.max) :
    r.append xs = (.ok (), { r with buffer := r.buffer ++ xs }) := by
  rw [append, if_neg (not_lt.mpr h)]

theorem Reassembler.append_overflows (h : r.max < r.buffer.length + xs.length) :
    r.append xs = (.error ⟨r.max, r.buffer.length + xs.length⟩, r.clear) := by
  rw [append, if_pos h]

/-- A last chunk leaves the buffer empty, whether it fits or not. -/
theorem Reassembler.receive_last (r : Reassembler) (xs : List UInt8) : r.receive (.last xs) = r.clear := by
  by_cases h : r.buffer.length + xs.length ≤ r.max
  · simp [receive, pushLastData, append_fits h, take, clear]
  · simp [receive, pushLastData, append_overflows (not_le.mp h)]

/-- A payload is handed out exactly if the last chunk fits. -/
theorem Reassembler.handsOut_iff {payload : List UInt8} :
    (∃ r', r.pushLastData xs = (.ok (some payload), r')) ↔
      r.buffer.length + xs.length ≤ r.max ∧ payload = r.buffer ++ xs := by
  by_cases h : r.buffer.length + xs.length ≤ r.max
  · simp [pushLastData, append_fits h, take, clear, h, eq_comm]
  · simp [pushLastData, append_overflows (not_le.mp h), h]

/-- The buffer has what has come since the frame began, unless that is more than fits. -/
structure Tracks (room : Nat) (chunks : List (Chunk UInt8)) (r : Reassembler) : Prop where
  max : r.max = room
  count : r.buffer.length = bytesSinceReset room chunks
  fits : r.buffer.length ≤ room
  whole : (reassemble chunks).buffer.length ≤ room → r.buffer = (reassemble chunks).buffer

theorem tracks_nil (capacity : Nat) : Tracks (Nat.max capacity 1) [] (.withMax capacity) :=
  ⟨rfl, rfl, Nat.zero_le _, fun _ => rfl⟩

/-- The step: one more notification. -/
theorem Tracks.receive (h : Tracks room chunks r) (c : Chunk UInt8) :
    Tracks room (chunks ++ [c]) (r.receive c) := by
  have hmax := h.max
  have hcount := h.count
  cases c with
  | last xs =>
      rw [Reassembler.receive_last]
      refine ⟨hmax, ?_, Nat.zero_le _, fun _ => ?_⟩
      · rw [bytesSinceReset_concat]
        rfl
      · rw [reassemble_concat]
        rfl
  | data xs =>
      have hbuffer : (reassemble (chunks ++ [.data xs])).buffer =
          (reassemble chunks).buffer ++ xs := by
        rw [reassemble_concat]
        rfl
      have hbytes : bytesSinceReset room (chunks ++ [.data xs]) =
          if room < r.buffer.length + xs.length then 0 else r.buffer.length + xs.length := by
        rw [bytesSinceReset_concat, countBytes, hcount]
      by_cases hfits : r.buffer.length + xs.length ≤ r.max
      · have hreceive : r.receive (.data xs) = { r with buffer := r.buffer ++ xs } := by
          simp [Reassembler.receive, Reassembler.pushData, Reassembler.append_fits hfits]
        rw [hreceive]
        refine ⟨hmax, ?_, ?_, fun hroom => ?_⟩
        · rw [hbytes, if_neg (by omega), List.length_append]
        · rw [List.length_append]
          omega
        · rw [hbuffer, List.length_append] at hroom
          rw [hbuffer, h.whole (by omega)]
      · -- the frame overflows, and has more bytes than there is room
        have hreceive : r.receive (.data xs) = r.clear := by
          simp [Reassembler.receive, Reassembler.pushData,
            Reassembler.append_overflows (not_le.mp hfits)]
        rw [hreceive]
        refine ⟨hmax, ?_, Nat.zero_le _, fun hroom => ?_⟩
        · rw [hbytes, if_pos (by omega)]
          rfl
        · rw [hbuffer, List.length_append] at hroom
          have hsame := h.whole (by omega)
          rw [hsame] at hfits
          omega

/-- The run: any notifications. -/
theorem tracks_fed (capacity : Nat) (chunks : List (Chunk UInt8)) :
    Tracks (Nat.max capacity 1) chunks (fed capacity chunks) := by
  induction chunks using List.reverseRecOn with
  | nil => exact tracks_nil capacity
  | append_singleton chunks c ih =>
      rw [fed_concat]
      exact ih.receive c

end

/-- **When no truncated frame is handed out**, for every capacity and every sequence of
notifications. -/
theorem whole_iff (capacity : Nat) (chunks : List (Chunk UInt8)) :
    HandsOutWhole capacity chunks ↔ OverflowsAtEnd (Nat.max capacity 1) chunks := by
  have hmeets : ∀ before xs, (∀ payload r,
      (fed capacity before).pushLastData xs = (.ok (some payload), r) →
        payload = (reassemble before).buffer ++ xs) ↔
      (Nat.max capacity 1 < ((reassemble before).buffer ++ xs).length →
        Nat.max capacity 1 < bytesSinceReset (Nat.max capacity 1) before + xs.length) := by
    intro before xs
    have htracks := tracks_fed capacity before
    have hmax := htracks.max
    have hcount := htracks.count
    constructor
    · intro hwhole hlarge
      by_contra hfits
      -- the rest of the frame fits, and is handed out
      obtain ⟨r, hr⟩ := Reassembler.handsOut_iff.mpr
        ⟨show (fed capacity before).buffer.length + xs.length ≤ _ by omega, rfl⟩
      have hlength := congrArg List.length (hwhole _ r hr)
      rw [List.length_append] at hlength
      omega
    · intro hend payload r hr
      obtain ⟨hfits, rfl⟩ := Reassembler.handsOut_iff.mp ⟨r, hr⟩
      have hroom : ((reassemble before).buffer ++ xs).length ≤ Nat.max capacity 1 := by
        by_contra hlarge
        have hoverflows := hend (not_le.mp hlarge)
        omega
      rw [List.length_append] at hroom
      rw [htracks.whole (by omega)]
  constructor
  · intro h before xs hprefix
    exact (hmeets before xs).mp fun payload r => h before xs payload r hprefix
  · intro h before xs payload r hprefix
    exact (hmeets before xs).mpr (h before xs hprefix) payload r

/-- A frame that overflows in its second chunk and goes on. -/
def tornFrame : List (Chunk UInt8) := [.data [1, 2], .data [3, 4, 5], .last [9]]

/-- Its last chunk is handed out as a payload of its own. -/
theorem tornFrame_handedOut : ¬ HandsOutWhole 4 tornFrame := by
  intro h
  have hpayload := h [.data [1, 2], .data [3, 4, 5]] [9] [9] ⟨[], 4⟩ (List.prefix_refl _) rfl
  revert hpayload
  decide

end VeSmart.Protocol
