import VeSmart.Protocol.Frame

set_option autoImplicit false

/-! # Chunking and reassembly are inverse

The chunks of `splitRequest`, fed into a `Reassembler` in order, give the payload back at the last
chunk. `chunks_reassemble` says so for any number of payloads, each with a chunk size of its
own. -/

namespace VeSmart.Protocol

section

variable {chunkSize : Nat} {payload : List UInt8} {chunks : List OutboundChunk}

/-! ## The chunks of a payload -/

/-- What is said of the chunks of a payload. -/
structure Chunked (chunkSize : Nat) (payload : List UInt8) (chunks : List OutboundChunk) :
    Prop where
  bytes : chunks.flatMap OutboundChunk.bytes = payload
  nonempty : ∀ c ∈ chunks, c.bytes ≠ []
  bounded : ∀ c ∈ chunks, c.bytes.length ≤ chunkSize
  count : chunks.length = (payload.length + chunkSize - 1) / chunkSize
  last : ∃ inner final, chunks = inner ++ [final] ∧ final.target = .lastData ∧
    ∀ c ∈ inner, c.target = .data

/-- A payload that fits is one chunk. -/
theorem Chunked.single (hne : payload ≠ []) (hfits : payload.length ≤ chunkSize) :
    Chunked chunkSize payload [⟨.lastData, payload⟩] := by
  have hlength : 0 < payload.length := List.length_pos_iff.mpr hne
  constructor
  · simp
  · simpa using hne
  · simpa using hfits
  · have hdiv : (payload.length + chunkSize - 1) / chunkSize = 1 := by
      rw [Nat.div_eq_iff (by omega)]
      omega
    rw [hdiv]
    rfl
  · exact ⟨[], ⟨.lastData, payload⟩, rfl, rfl, nofun⟩

/-- A full chunk before the chunks of the rest. -/
theorem Chunked.cons (hsize : 0 < chunkSize) (hlong : chunkSize < payload.length)
    (h : Chunked chunkSize (payload.drop chunkSize) chunks) :
    Chunked chunkSize payload (⟨.data, payload.take chunkSize⟩ :: chunks) := by
  have htake : (payload.take chunkSize).length = chunkSize := by
    rw [List.length_take]
    omega
  obtain ⟨inner, final, hchunks, hfinal, hinner⟩ := h.last
  constructor
  · rw [List.flatMap_cons, h.bytes]
    exact List.take_append_drop chunkSize payload
  · intro c hc
    rcases List.mem_cons.mp hc with rfl | hc
    · exact List.ne_nil_of_length_pos (by rw [htake]; exact hsize)
    · exact h.nonempty c hc
  · intro c hc
    rcases List.mem_cons.mp hc with rfl | hc
    · exact htake.le
    · exact h.bounded c hc
  · have hdrop : (payload.drop chunkSize).length = payload.length - chunkSize :=
      List.length_drop
    have hsplit : payload.length + chunkSize - 1 =
        (payload.length - chunkSize + chunkSize - 1) + chunkSize := by omega
    calc (⟨.data, payload.take chunkSize⟩ :: chunks).length
        = (payload.length - chunkSize + chunkSize - 1) / chunkSize + 1 := by
          rw [List.length_cons, h.count, hdrop]
      _ = (payload.length + chunkSize - 1) / chunkSize := by
          rw [hsplit, Nat.add_div_right _ hsize]
  · refine ⟨⟨.data, payload.take chunkSize⟩ :: inner, final, ?_, hfinal, ?_⟩
    · rw [hchunks, List.cons_append]
    · intro c hc
      rcases List.mem_cons.mp hc with rfl | hc
      · rfl
      · exact hinner c hc

/-- The loop, by induction on its turns: every one but the last takes a full chunk. -/
theorem splitLoop_chunked (hsize : 0 < chunkSize) (turns : Nat) (rest : List UInt8)
    (hne : rest ≠ []) (hturns : rest.length ≤ turns) :
    Chunked chunkSize rest (splitLoop chunkSize turns rest) := by
  induction turns generalizing rest with
  | zero =>
      have hlength : 0 < rest.length := List.length_pos_iff.mpr hne
      omega
  | succ turns ih =>
      unfold splitLoop
      dsimp only
      by_cases hfits : rest.length ≤ chunkSize
      · rw [List.drop_eq_nil_of_le hfits, List.take_of_length_le hfits]
        exact .single hne hfits
      · have hdrop : (rest.drop chunkSize).length = rest.length - chunkSize := List.length_drop
        have hrest : rest.drop chunkSize ≠ [] := List.ne_nil_of_length_pos (by omega)
        rw [List.isEmpty_eq_false_iff.mpr hrest, if_neg (by decide)]
        exact .cons hsize (by omega) (ih _ hrest (by omega))

/-- The chunks of an accepted payload. -/
theorem splitRequest_chunked (h : splitRequest payload chunkSize = .ok chunks) :
    payload ≠ [] ∧ 0 < chunkSize ∧ Chunked chunkSize payload chunks := by
  unfold splitRequest at h
  by_cases hempty : payload.isEmpty
  · rw [if_pos hempty] at h
    cases h
  · rw [if_neg hempty] at h
    by_cases hzero : chunkSize = 0
    · rw [if_pos hzero] at h
      cases h
    · rw [if_neg hzero] at h
      cases h
      have hne : payload ≠ [] := by simpa using hempty
      have hsize : 0 < chunkSize := Nat.pos_of_ne_zero hzero
      exact ⟨hne, hsize, splitLoop_chunked hsize _ payload hne le_rfl⟩

theorem splitRequest_ok_iff :
    (∃ chunks, splitRequest payload chunkSize = .ok chunks) ↔ payload ≠ [] ∧ chunkSize ≠ 0 := by
  constructor
  · rintro ⟨chunks, h⟩
    obtain ⟨hne, hsize, -⟩ := splitRequest_chunked h
    exact ⟨hne, hsize.ne'⟩
  · rintro ⟨hne, hsize⟩
    refine ⟨splitLoop chunkSize payload.length payload, ?_⟩
    rw [splitRequest, if_neg (by simpa using hne), if_neg hsize]

end

/-! ## Feeding a reassembler -/

/-- What the reassembler makes of one chunk: nothing, a payload or an error. -/
def Reassembler.push (r : Reassembler) (c : OutboundChunk) :
    Except ReassemblyError (Option (List UInt8)) × Reassembler :=
  match c.target with
  | .data => ((r.pushData c.bytes).1.map fun _ => none, (r.pushData c.bytes).2)
  | .lastData => r.pushLastData c.bytes

/-- The results of a sequence of chunks, one for each, and the reassembler after them. -/
def Reassembler.feed (r : Reassembler) : List OutboundChunk →
    List (Except ReassemblyError (Option (List UInt8))) × Reassembler
  | [] => ([], r)
  | c :: cs =>
      let (result, r') := r.push c
      let (results, last) := r'.feed cs
      (result :: results, last)

section

variable {r : Reassembler} {c : OutboundChunk}

theorem Reassembler.feed_append (r : Reassembler) (first second : List OutboundChunk) :
    r.feed (first ++ second) =
      ((r.feed first).1 ++ ((r.feed first).2.feed second).1, ((r.feed first).2.feed second).2) := by
  induction first generalizing r with
  | nil => rfl
  | cons c first ih =>
      simp only [List.cons_append, Reassembler.feed]
      rw [ih]

theorem Reassembler.push_data (htarget : c.target = .data)
    (hfits : r.buffer.length + c.bytes.length ≤ r.max) :
    r.push c = (.ok none, { r with buffer := r.buffer ++ c.bytes }) := by
  have happend : r.pushData c.bytes = (.ok (), { r with buffer := r.buffer ++ c.bytes }) := by
    unfold Reassembler.pushData Reassembler.append
    dsimp only
    rw [if_neg (by omega)]
  unfold Reassembler.push
  rw [htarget]
  dsimp only
  rw [happend]
  rfl

theorem Reassembler.push_lastData (htarget : c.target = .lastData)
    (hfits : r.buffer.length + c.bytes.length ≤ r.max) :
    r.push c = (.ok (some (r.buffer ++ c.bytes)), r.clear) := by
  unfold Reassembler.push Reassembler.pushLastData Reassembler.append
  rw [htarget]
  dsimp only
  rw [if_neg (by omega)]
  rfl

/-- The inner chunks of a frame stay in the buffer. -/
theorem Reassembler.feed_data (r : Reassembler) (inner : List OutboundChunk)
    (htarget : ∀ c ∈ inner, c.target = .data)
    (hfits : r.buffer.length + (inner.flatMap OutboundChunk.bytes).length ≤ r.max) :
    r.feed inner = (List.replicate inner.length (.ok none),
      { r with buffer := r.buffer ++ inner.flatMap OutboundChunk.bytes }) := by
  induction inner generalizing r with
  | nil => simp [Reassembler.feed]
  | cons c inner ih =>
      rw [List.flatMap_cons, List.length_append] at hfits
      have hc : c.target = .data := htarget c (by simp)
      have hpush : r.push c = (.ok none, { r with buffer := r.buffer ++ c.bytes }) :=
        Reassembler.push_data hc (by omega)
      have hrest := ih { r with buffer := r.buffer ++ c.bytes }
        (fun d hd => htarget d (List.mem_cons_of_mem c hd)) (by simpa [add_assoc] using hfits)
      simp only [Reassembler.feed, hpush, hrest]
      simp [List.replicate_succ]

/-- The chunks of one payload give nothing before the last, the payload there, and an empty
buffer. -/
theorem Chunked.feed {chunkSize : Nat} {payload : List UInt8} {chunks : List OutboundChunk}
    (h : Chunked chunkSize payload chunks) (hempty : r.buffer = [])
    (hfits : payload.length ≤ r.max) :
    r.feed chunks =
      (List.replicate (chunks.length - 1) (.ok none) ++ [.ok (some payload)], r) := by
  obtain ⟨inner, final, rfl, hfinal, hinner⟩ := h.last
  have hbytes : inner.flatMap OutboundChunk.bytes ++ final.bytes = payload := by
    simpa using h.bytes
  have hlength : (inner.flatMap OutboundChunk.bytes).length + final.bytes.length ≤ r.max := by
    rw [← List.length_append, hbytes]
    exact hfits
  have hbuffer : r.buffer.length = 0 := by rw [hempty]; rfl
  have hdata := r.feed_data inner hinner (by omega)
  have hlast : ({ r with buffer := r.buffer ++ inner.flatMap OutboundChunk.bytes } :
      Reassembler).push final = (.ok (some payload), r) := by
    rw [Reassembler.push_lastData hfinal (by rw [hempty]; exact hlength), hempty]
    show (Except.ok (some ([] ++ inner.flatMap OutboundChunk.bytes ++ final.bytes)), _) = _
    rw [List.nil_append, hbytes]
    have hclear : (⟨[], r.max⟩ : Reassembler) = r := by rw [← hempty]
    exact congrArg _ hclear
  rw [Reassembler.feed_append, hdata]
  simp only [Reassembler.feed, hlast]
  simp

end

/-! ## A sequence of payloads -/

/-- The chunks of several payloads, each cut with its own chunk size; the first error wins. -/
def splitRequests : List (List UInt8 × Nat) → Except ProtocolError (List (List OutboundChunk))
  | [] => .ok []
  | (payload, chunkSize) :: messages => do
      let chunks ← splitRequest payload chunkSize
      let others ← splitRequests messages
      .ok (chunks :: others)

/-- The results of the chunks of one payload. -/
def payloadResults (payload : List UInt8) (chunks : List OutboundChunk) :
    List (Except ReassemblyError (Option (List UInt8))) :=
  List.replicate (chunks.length - 1) (.ok none) ++ [.ok (some payload)]

/-- **Chunking and reassembly are inverse.** -/
theorem chunks_reassemble :
    (∀ payload chunkSize, (∃ chunks, splitRequest payload chunkSize = .ok chunks) ↔
      payload ≠ [] ∧ chunkSize ≠ 0) ∧
    (∀ payload chunkSize chunks, splitRequest payload chunkSize = .ok chunks →
      Chunked chunkSize payload chunks) ∧
    ∀ (messages : List (List UInt8 × Nat)) (capacity : Nat),
      (∀ m ∈ messages, m.1 ≠ [] ∧ 1 ≤ m.2 ∧ m.1.length ≤ capacity) →
      ∃ chunks, splitRequests messages = .ok chunks ∧
        (Reassembler.withMax capacity).feed chunks.flatten =
          ((messages.zip chunks).flatMap fun m => payloadResults m.1.1 m.2,
            Reassembler.withMax capacity) ∧
        chunks.length = messages.length ∧
        ∀ n, ((Reassembler.withMax capacity).feed (chunks.take n).flatten).2 =
          Reassembler.withMax capacity := by
  refine ⟨fun _ _ => splitRequest_ok_iff, fun _ _ _ h => (splitRequest_chunked h).2.2, ?_⟩
  intro messages capacity
  induction messages with
  | nil => exact fun _ => ⟨[], rfl, rfl, rfl, fun n => by rw [List.take_nil]; rfl⟩
  | cons m messages ih =>
      intro hall
      obtain ⟨hne, hsize, hfits⟩ := hall m (by simp)
      obtain ⟨others, hothers, hfeed, hlength, hempty⟩ :=
        ih fun n hn => hall n (List.mem_cons_of_mem m hn)
      obtain ⟨chunks, hsplit⟩ : ∃ chunks, splitRequest m.1 m.2 = .ok chunks :=
        splitRequest_ok_iff.mpr ⟨hne, by omega⟩
      have hone : (Reassembler.withMax capacity).feed chunks =
          (payloadResults m.1 chunks, Reassembler.withMax capacity) :=
        (splitRequest_chunked hsplit).2.2.feed rfl (hfits.trans (le_max_left _ _))
      refine ⟨chunks :: others, ?_, ?_, ?_, ?_⟩
      · show (do
          let chunks ← splitRequest m.1 m.2
          let others ← splitRequests messages
          .ok (chunks :: others)) = _
        rw [hsplit, hothers]
        rfl
      · rw [List.flatten_cons, Reassembler.feed_append, hone]
        dsimp only
        rw [hfeed, List.zip_cons_cons, List.flatMap_cons]
      · rw [List.length_cons, List.length_cons, hlength]
      · intro n
        cases n with
        | zero => rfl
        | succ n =>
            rw [List.take_succ_cons, List.flatten_cons, Reassembler.feed_append, hone]
            exact hempty n

/-- Three bytes in chunks of two, then one byte in a chunk of five. -/
theorem twoPayloads_reassemble : ∃ chunks,
    splitRequests [([1, 2, 3], 2), ([4], 5)] = .ok chunks ∧
      (Reassembler.withMax 3).feed chunks.flatten =
        ((([([1, 2, 3], 2), ([4], 5)] : List (List UInt8 × Nat)).zip chunks).flatMap fun m =>
          payloadResults m.1.1 m.2, Reassembler.withMax 3) := by
  obtain ⟨chunks, hsplit, hfeed, -⟩ :=
    chunks_reassemble.2.2 [([1, 2, 3], 2), ([4], 5)] 3 (by decide)
  exact ⟨chunks, hsplit, hfeed⟩

end VeSmart.Protocol
