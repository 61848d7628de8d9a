import VeSmart.Protocol.Control

set_option autoImplicit false

/-! # Chunks in and out (`victron-protocol/src/frame.rs`, `outbound.rs`)

`Reassembler` collects the chunks of incoming payloads in a bounded buffer; `splitRequest` cuts an
outgoing payload into chunks. -/

namespace VeSmart.Protocol

/-! ## Incoming -/

/-- A chunk would push the buffer past its capacity. -/
structure ReassemblyError where
  capacity : Nat
  needed : Nat
  deriving DecidableEq

structure Reassembler where
  buffer : List UInt8
  max : Nat
  deriving DecidableEq

def defaultMaxBuffer : Nat := 64 * 1024

def Reassembler.withMax (max : Nat) : Reassembler := ⟨[], Nat.max max 1⟩

def Reassembler.new : Reassembler := .withMax defaultMaxBuffer

def Reassembler.clear (r : Reassembler) : Reassembler := { r with buffer := [] }

/-- An oversized stream is dropped as a whole. -/
def Reassembler.append (r : Reassembler) (chunk : List UInt8) :
    Except ReassemblyError Unit × Reassembler :=
  let needed := r.buffer.length + chunk.length
  if r.max < needed then (.error ⟨r.max, needed⟩, r.clear)
  else (.ok (), { r with buffer := r.buffer ++ chunk })

/-- The accumulated payload, which is cleared. -/
def Reassembler.take (r : Reassembler) : List UInt8 × Reassembler := (r.buffer, r.clear)

/-- A chunk of the data characteristic. -/
def Reassembler.pushData (r : Reassembler) (chunk : List UInt8) :
    Except ReassemblyError Unit × Reassembler := r.append chunk

/-- A chunk of the last-data characteristic: append it and finalize. -/
def Reassembler.pushLastData (r : Reassembler) (chunk : List UInt8) :
    Except ReassemblyError (Option (List UInt8)) × Reassembler :=
  match r.append chunk with
  | (.error e, r') => (.error e, r')
  | (.ok (), r') => (.ok (some r'.take.1), r'.take.2)

section

variable {r r' : Reassembler} {chunk : List UInt8}

theorem Reassembler.append_ok {u : Unit} (h : r.append chunk = (.ok u, r')) :
    r' = { r with buffer := r.buffer ++ chunk } := by
  unfold Reassembler.append at h
  by_cases hmax : r.max < r.buffer.length + chunk.length
  · simp [hmax] at h
  · simp only [hmax, if_false, Prod.mk.injEq] at h
    exact h.2.symm

theorem Reassembler.pushData_ok {u : Unit} (h : r.pushData chunk = (.ok u, r')) :
    r' = { r with buffer := r.buffer ++ chunk } := append_ok h

/-- A payload that is handed out is the buffer with the last chunk, and the buffer is empty. -/
theorem Reassembler.pushLastData_ok {result : Option (List UInt8)}
    (h : r.pushLastData chunk = (.ok result, r')) :
    result = some (r.buffer ++ chunk) ∧ r' = r.clear := by
  unfold Reassembler.pushLastData at h
  rcases happend : r.append chunk with ⟨_ | u, r₁⟩
  · simp [happend] at h
  · simp only [happend, Prod.mk.injEq, Except.ok.injEq] at h
    obtain ⟨hresult, hr⟩ := h
    rw [append_ok happend] at hresult hr
    exact ⟨hresult.symm, hr.symm⟩

end

/-! ## Outgoing -/

inductive OutboundTarget where
  | data
  | lastData
  deriving DecidableEq

structure OutboundChunk where
  target : OutboundTarget
  bytes : List UInt8
  deriving DecidableEq

/-- The loop of `splitRequest`. Every turn but the last takes a byte at least, so that as many
turns as there are bytes suffice. -/
def splitLoop (chunkSize : Nat) : Nat → List UInt8 → List OutboundChunk
  | 0, _ => []
  | turns + 1, rest =>
      let head := rest.take chunkSize
      let tail := rest.drop chunkSize
      if tail.isEmpty then [⟨.lastData, head⟩] else ⟨.data, head⟩ :: splitLoop chunkSize turns tail

/-- Every chunk but the last goes to the data characteristic. -/
def splitRequest (payload : List UInt8) (chunkSize : Nat) :
    Except ProtocolError (List OutboundChunk) :=
  if payload.isEmpty then .error (.invalidOutbound "empty request payload")
  else if chunkSize = 0 then .error (.invalidOutbound "chunk size must be >= 1")
  else .ok (splitLoop chunkSize payload.length payload)

end VeSmart.Protocol
