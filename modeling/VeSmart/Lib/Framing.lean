import Mathlib.Tactic

set_option autoImplicit false

/-! # Frames over two streams

A frame is sent as chunks: some on a data stream, then one on a last stream which ends it. Each
stream keeps its order, but a receiver that merges the two may see any merge of them.
`reassemble` is the receiver that appends data chunks to a buffer and completes a payload at
each last chunk. `Merged.intact_iff` says for which merges its payloads are those of the
frames. -/

namespace VeSmart.Lib

section

variable {β : Type}

/-- A chunk, tagged with the stream it arrives on. -/
inductive Chunk (β : Type) where
  | data (xs : List β)
  | last (xs : List β)

structure Frame (β : Type) where
  data : List (List β)
  last : List β

/-- What a frame puts on the data stream. -/
def Frame.body (f : Frame β) : List β := f.data.flatten

def Frame.payload (f : Frame β) : List β := f.body ++ f.last

/-- The chunks of a frame in the order they are sent. -/
def Frame.chunks (f : Frame β) : List (Chunk β) := f.data.map .data ++ [.last f.last]

def Chunk.bytes : Chunk β → List β
  | .data xs => xs
  | .last _ => []

def Chunk.final? : Chunk β → Option (List β)
  | .data _ => none
  | .last xs => some xs

/-- The bytes of the data stream. -/
def dataBytes (cs : List (Chunk β)) : List β := cs.flatMap Chunk.bytes

/-- The chunks of the last stream. -/
def lasts (cs : List (Chunk β)) : List (List β) := cs.filterMap Chunk.final?

@[simp] theorem dataBytes_nil : dataBytes ([] : List (Chunk β)) = [] := rfl

@[simp] theorem lasts_nil : lasts ([] : List (Chunk β)) = [] := rfl

@[simp] theorem dataBytes_append (cs ds : List (Chunk β)) :
    dataBytes (cs ++ ds) = dataBytes cs ++ dataBytes ds := List.flatMap_append

@[simp] theorem lasts_append (cs ds : List (Chunk β)) : lasts (cs ++ ds) = lasts cs ++ lasts ds :=
  List.filterMap_append

@[simp] theorem dataBytes_singleton (c : Chunk β) : dataBytes [c] = c.bytes := by
  simp [dataBytes]

@[simp] theorem dataBytes_cons (c : Chunk β) (cs : List (Chunk β)) :
    dataBytes (c :: cs) = c.bytes ++ dataBytes cs := by simp [dataBytes]

@[simp] theorem lasts_cons_data (xs : List β) (cs : List (Chunk β)) :
    lasts (.data xs :: cs) = lasts cs := rfl

@[simp] theorem lasts_cons_last (xs : List β) (cs : List (Chunk β)) :
    lasts (.last xs :: cs) = xs :: lasts cs := rfl

@[simp] theorem lasts_data (xs : List β) : lasts [.data xs] = [] := rfl

@[simp] theorem lasts_last (xs : List β) : lasts [.last xs] = [xs] := rfl

theorem dataBytes_map_data (xss : List (List β)) : dataBytes (xss.map .data) = xss.flatten := by
  rw [dataBytes, List.flatMap_map]
  exact List.flatMap_id'

theorem lasts_map_data (xss : List (List β)) : lasts (xss.map .data) = [] := by
  simp [lasts, List.filterMap_map, Function.comp_def, Chunk.final?]

theorem dataBytes_frames (frames : List (Frame β)) :
    dataBytes (frames.flatMap Frame.chunks) = frames.flatMap Frame.body := by
  induction frames with
  | nil => rfl
  | cons f frames ih =>
      calc dataBytes ((f :: frames).flatMap Frame.chunks)
          = dataBytes f.chunks ++ dataBytes (frames.flatMap Frame.chunks) := by
            rw [List.flatMap_cons, dataBytes_append]
        _ = f.body ++ frames.flatMap Frame.body := by
            rw [ih, Frame.chunks, dataBytes_append, dataBytes_map_data]
            simp [Frame.body, Chunk.bytes]
        _ = (f :: frames).flatMap Frame.body := by rw [List.flatMap_cons]

theorem lasts_frames (frames : List (Frame β)) :
    lasts (frames.flatMap Frame.chunks) = frames.map Frame.last := by
  induction frames with
  | nil => rfl
  | cons f frames ih =>
      calc lasts ((f :: frames).flatMap Frame.chunks)
          = lasts f.chunks ++ lasts (frames.flatMap Frame.chunks) := by
            rw [List.flatMap_cons, lasts_append]
        _ = [f.last] ++ frames.map Frame.last := by
            rw [ih, Frame.chunks, lasts_append, lasts_map_data]
            rfl
        _ = (f :: frames).map Frame.last := rfl

/-! ## The receiver -/

/-- The payloads completed so far, and the buffer. -/
structure Reassembly (β : Type) where
  payloads : List (List β)
  buffer : List β

def Reassembly.push (r : Reassembly β) : Chunk β → Reassembly β
  | .data xs => { r with buffer := r.buffer ++ xs }
  | .last xs => { payloads := r.payloads ++ [r.buffer ++ xs], buffer := [] }

def reassemble (taken : List (Chunk β)) : Reassembly β := taken.foldl Reassembly.push ⟨[], []⟩

@[simp] theorem reassemble_nil : reassemble ([] : List (Chunk β)) = ⟨[], []⟩ := rfl

@[simp] theorem reassemble_concat (taken : List (Chunk β)) (c : Chunk β) :
    reassemble (taken ++ [c]) = (reassemble taken).push c := by
  simp [reassemble, List.foldl_append]

/-- What has been completed stays. -/
theorem reassemble_prefix {taken more : List (Chunk β)} (h : taken <+: more) :
    (reassemble taken).payloads <+: (reassemble more).payloads := by
  obtain ⟨rest, rfl⟩ := h
  induction rest using List.reverseRecOn with
  | nil => rw [List.append_nil]
  | append_singleton rest c ih =>
      rw [← List.append_assoc, reassemble_concat]
      cases c with
      | data xs => exact ih
      | last xs => exact ih.trans (List.prefix_append _ _)

theorem reassemble_data (taken : List (Chunk β)) (xss : List (List β)) :
    reassemble (taken ++ xss.map .data) =
      { reassemble taken with buffer := (reassemble taken).buffer ++ xss.flatten } := by
  induction xss using List.reverseRecOn with
  | nil => simp
  | append_singleton xss xs ih =>
      rw [List.map_append, List.map_singleton, ← List.append_assoc, reassemble_concat, ih]
      simp [Reassembly.push]

/-- A frame on an empty buffer is completed, and leaves it empty. -/
theorem reassemble_frame {taken : List (Chunk β)} (h : (reassemble taken).buffer = [])
    (f : Frame β) :
    reassemble (taken ++ f.chunks) = ⟨(reassemble taken).payloads ++ [f.payload], []⟩ := by
  rw [Frame.chunks, ← List.append_assoc, reassemble_concat, reassemble_data, h]
  simp [Reassembly.push, Frame.payload, Frame.body]

/-- Frames in the order they are sent are reassembled. -/
theorem reassemble_frames (frames : List (Frame β)) :
    reassemble (frames.flatMap Frame.chunks) = ⟨frames.map Frame.payload, []⟩ := by
  induction frames using List.reverseRecOn with
  | nil => rfl
  | append_singleton frames f ih =>
      rw [List.flatMap_append, List.flatMap_singleton, reassemble_frame (by rw [ih]), ih]
      simp

/-- Every last chunk completes one payload. -/
theorem reassemble_length (taken : List (Chunk β)) :
    (reassemble taken).payloads.length = (lasts taken).length := by
  induction taken using List.reverseRecOn with
  | nil => rfl
  | append_singleton taken c ih =>
      cases c with
      | data xs => simpa [Reassembly.push] using ih
      | last xs => simpa [Reassembly.push] using ih

/-! ## Which merges are harmless -/

/-- `taken` is a merge of prefixes of the two streams that carry `frames`. -/
structure Merged (frames : List (Frame β)) (taken : List (Chunk β)) : Prop where
  data : dataBytes taken <+: dataBytes (frames.flatMap Frame.chunks)
  last : lasts taken <+: lasts (frames.flatMap Frame.chunks)

/-- The data taken is as much as was sent before the next last chunk. -/
def Settled (frames : List (Frame β)) (taken : List (Chunk β)) : Prop :=
  (dataBytes taken).length =
    ((frames.take ((lasts taken).length + 1)).flatMap Frame.body).length

/-- Every last chunk is taken when the data is settled. -/
def Aligned (frames : List (Frame β)) (taken : List (Chunk β)) : Prop :=
  ∀ p x, p ++ [.last x] <+: taken → Settled frames p

/-- The payloads are those of the frames, in order, one for each last chunk. -/
def Intact (frames : List (Frame β)) (taken : List (Chunk β)) : Prop :=
  (reassemble taken).payloads = (frames.take (lasts taken).length).map Frame.payload

variable {frames : List (Frame β)} {taken : List (Chunk β)}

theorem Merged.of_concat {c : Chunk β} (h : Merged frames (taken ++ [c])) :
    Merged frames taken := by
  constructor
  · exact (List.prefix_append _ _).trans (dataBytes_append taken [c] ▸ h.data)
  · exact (List.prefix_append _ _).trans (lasts_append taken [c] ▸ h.last)

/-- The frame that a last chunk ends. -/
theorem Merged.split {x : List β} (h : Merged frames (taken ++ [.last x])) :
    ∃ before f after, frames = before ++ f :: after ∧
      before.length = (lasts taken).length ∧ f.last = x := by
  obtain ⟨rest, hrest⟩ := h.last
  rw [lasts_append, lasts_last, lasts_frames, List.append_assoc] at hrest
  obtain ⟨before, tail, hframes, hbefore, htail⟩ := List.map_eq_append_iff.mp hrest.symm
  obtain ⟨f, after, hcons, hlast, -⟩ := List.map_eq_cons_iff.mp htail
  refine ⟨before, f, after, by rw [hframes, hcons], ?_, hlast⟩
  rw [← hbefore, List.length_map]

theorem aligned_nil : Aligned frames [] := by
  intro p x h
  have hlength := h.length_le
  simp at hlength

theorem aligned_concat {c : Chunk β} :
    Aligned frames (taken ++ [c]) ↔
      Aligned frames taken ∧ ∀ x, c = .last x → Settled frames taken := by
  constructor
  · intro h
    refine ⟨fun p x hp => h p x (hp.trans (List.prefix_append _ _)), ?_⟩
    rintro x rfl
    exact h taken x (List.prefix_refl _)
  · rintro ⟨htaken, hc⟩ p x hp
    rcases List.prefix_concat_iff.mp hp with heq | hshort
    · obtain ⟨rfl, hx⟩ := List.append_inj' heq rfl
      exact hc x (List.singleton_inj.mp hx).symm
    · exact htaken p x hshort

section

variable {x : List β} {before after : List (Frame β)} {f : Frame β}

theorem take_split (hlen : before.length = (lasts taken).length) :
    (before ++ f :: after).take (lasts taken).length = before ∧
      (before ++ f :: after).take ((lasts taken).length + 1) = before ++ [f] := by
  rw [← hlen]
  constructor
  · exact List.take_left' rfl
  · rw [show before ++ f :: after = (before ++ [f]) ++ after by simp]
    exact List.take_left' (by simp)

/-- A last chunk completes the right payload exactly when the buffer is the body of its
frame. -/
theorem intact_last_iff (hlen : before.length = (lasts taken).length) (hf : f.last = x) :
    Intact (before ++ f :: after) (taken ++ [.last x]) ↔
      Intact (before ++ f :: after) taken ∧ (reassemble taken).buffer = f.body := by
  obtain ⟨htake, htake'⟩ := take_split (f := f) hlen
  have hpayload : f.payload = f.body ++ x := by rw [Frame.payload, hf]
  have hlasts : (lasts (taken ++ [.last x])).length = (lasts taken).length + 1 := by simp
  rw [Intact, Intact, hlasts, htake, htake', reassemble_concat, Reassembly.push, List.map_append,
    List.map_singleton, hpayload]
  constructor
  · intro h
    obtain ⟨hbefore, hlast⟩ := List.append_inj' h rfl
    exact ⟨hbefore, List.append_cancel_right (List.singleton_inj.mp hlast)⟩
  · rintro ⟨hbefore, hbuffer⟩
    rw [hbefore, hbuffer]

end

/-- While the payloads are right, the buffer is the data that belongs to none of them. -/
theorem Merged.intact_data (h : Merged frames taken) (hintact : Intact frames taken) :
    dataBytes taken =
      (frames.take (lasts taken).length).flatMap Frame.body ++ (reassemble taken).buffer := by
  induction taken using List.reverseRecOn with
  | nil => simp
  | append_singleton taken c ih =>
      cases c with
      | data xs =>
          have hbefore : Intact frames taken := by simpa [Intact, Reassembly.push] using hintact
          rw [dataBytes_append, ih h.of_concat hbefore]
          simp [Reassembly.push, Chunk.bytes]
      | last x =>
          obtain ⟨before, f, after, rfl, hlen, hlast⟩ := h.split
          obtain ⟨hbefore, hbuffer⟩ := (intact_last_iff hlen hlast).mp hintact
          obtain ⟨htake, htake'⟩ := take_split (f := f) hlen
          have hlasts : (lasts (taken ++ [.last x])).length = (lasts taken).length + 1 := by simp
          calc dataBytes (taken ++ [.last x])
              = dataBytes taken := by simp [Chunk.bytes]
            _ = before.flatMap Frame.body ++ f.body := by
                rw [ih h.of_concat hbefore, htake, hbuffer]
            _ = (before ++ [f]).flatMap Frame.body ++ [] := by simp
            _ = _ := by rw [hlasts, htake', reassemble_concat, Reassembly.push]

/-- The buffer is the body of the next frame exactly when the data is settled: there is one
stream of data, so its length decides. -/
theorem Merged.buffer_iff {x : List β} {before after : List (Frame β)} {f : Frame β}
    (h : Merged (before ++ f :: after) (taken ++ [.last x]))
    (hlen : before.length = (lasts taken).length)
    (hintact : Intact (before ++ f :: after) taken) :
    (reassemble taken).buffer = f.body ↔ Settled (before ++ f :: after) taken := by
  obtain ⟨htake, htake'⟩ := take_split (f := f) hlen
  have hdata := h.of_concat.intact_data hintact
  rw [htake] at hdata
  have hsettled : Settled (before ++ f :: after) taken ↔
      (reassemble taken).buffer.length = f.body.length := by
    rw [Settled, htake', hdata]
    simp
  rw [hsettled]
  constructor
  · intro heq
    rw [heq]
  · intro hlength
    have hgrown : (reassemble taken).buffer <+: f.body ++ after.flatMap Frame.body := by
      have hall := h.of_concat.data
      rw [hdata, dataBytes_frames, List.flatMap_append, List.flatMap_cons] at hall
      exact (List.prefix_append_right_inj _).mp hall
    have hbody : f.body <+: f.body ++ after.flatMap Frame.body := List.prefix_append _ _
    exact (List.prefix_of_prefix_length_le hgrown hbody hlength.le).eq_of_length hlength

/-- **Which merges are harmless**: those that take every last chunk exactly when the data sent
before it, and no more, has been taken. -/
theorem Merged.intact_iff (h : Merged frames taken) :
    Intact frames taken ↔ Aligned frames taken := by
  induction taken using List.reverseRecOn with
  | nil => simp [Intact, aligned_nil]
  | append_singleton taken c ih =>
      have hih := ih h.of_concat
      rw [aligned_concat, ← hih]
      cases c with
      | data xs => simp [Intact, Reassembly.push]
      | last x =>
          obtain ⟨before, f, after, rfl, hlen, hlast⟩ := h.split
          rw [intact_last_iff hlen hlast]
          constructor
          · rintro ⟨hintact, hbuffer⟩
            exact ⟨hintact, fun _ _ => (h.buffer_iff hlen hintact).mp hbuffer⟩
          · rintro ⟨hintact, hsettled⟩
            exact ⟨hintact, (h.buffer_iff hlen hintact).mpr (hsettled x rfl)⟩

end

end VeSmart.Lib
