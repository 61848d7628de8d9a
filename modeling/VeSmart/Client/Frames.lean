import VeSmart.Client.Rules
import VeSmart.Lib.Framing

set_option autoImplicit false

/-! # Frames over the merged notification streams

The device sends frames, the transport keeps the order of each characteristic and takes from
whichever stream it likes, and `nextPayload` reassembles what it gets. `payloads_intact_iff`
says for which schedules its payloads are the frames. -/

namespace VeSmart.Client

open VeSmart.Lib VeSmart.Bluez VeSmart.Protocol

/-! ## What is sent and what is taken -/

/-- The chunk that a notification carries. -/
def chunkOf (n : Notification) : Option (Chunk UInt8) :=
  match n.source with
  | .control => none
  | .data => some (.data n.value)
  | .lastData => some (.last n.value)

def Entry.taken? : Entry → Option Delivered
  | .took d => some d
  | .wrote _ _ => none

/-- The notifications taken so far. -/
def taken (l : Life) : List Delivered := l.log.filterMap Entry.taken?

def chunksTaken (l : Life) : List (Chunk UInt8) :=
  (taken l).filterMap fun d => chunkOf d.notification

def Event.sent? : Event → Option Notification
  | .sends n => some n
  | _ => none

/-- The chunks that the device still sends. -/
def chunksToCome (script : List Event) : List (Chunk UInt8) :=
  (script.filterMap Event.sent?).filterMap chunkOf

def clearsBuffer (n : Notification) : Prop :=
  n.source = .control ∧ ControlMessage.parse n.value = .ok .clearBuffer

/-- No buffer clear has been taken. -/
def ClearFree (l : Life) : Prop := ∀ d ∈ taken l, ¬ clearsBuffer d.notification

/-- A life in which the device sends frames from now on, to an open transport with empty
streams and a session with an empty buffer. -/
structure DeviceRun where
  life : Life
  frames : List (Frame UInt8)
  sends : chunksToCome life.script = frames.flatMap Frame.chunks
  streams : life.session.transport.streams = some fun _ => []
  buffer : life.session.pending.buffer = []
  log : life.log = []

/-- `k` calls of `next_payload`, one after the other. -/
def payloads : Nat → Call (List Completed)
  | 0 => pure []
  | k + 1 => do
      let completed ← nextPayload
      let others ← payloads k
      pure (completed :: others)

section

variable {l : Life} {frames : List (Frame UInt8)} {outs : List (List UInt8)} {d : Delivered}

@[simp] theorem taken_wrote (target : NotificationSource) (bytes : List UInt8) :
    taken { l with log := l.log ++ [.wrote target bytes] } = taken l := by
  simp [taken, Entry.taken?]

theorem taken_took (session : VeSmartBleSession) :
    taken { l with session := session, log := l.log ++ [.took d] } = taken l ++ [d] := by
  simp [taken, Entry.taken?]

theorem chunksToCome_sends (n : Notification) (es : List Event) :
    chunksToCome (.sends n :: es) = (chunkOf n).toList ++ chunksToCome es := by
  cases hchunk : chunkOf n <;> simp [chunksToCome, Event.sent?, hchunk]

theorem chunksToCome_other {e : Event} (he : ∀ n, e ≠ .sends n) (es : List Event) :
    chunksToCome (e :: es) = chunksToCome es := by
  cases e with
  | sends n => exact absurd rfl (he n)
  | reply r => rfl
  | take source => rfl
  | elapsed => rfl

/-! ## Every characteristic keeps its order -/

/-- What has been taken, what waits in the streams and what is still to come make up the two
streams that the device sends. -/
structure Conserved (frames : List (Frame UInt8)) (l : Life) (q : Streams) : Prop where
  streams : l.session.transport.streams = some q
  sources : ∀ source, ∀ d ∈ q source, d.notification.source = source
  data : dataBytes (chunksTaken l) ++ (q .data).flatMap (·.notification.value) ++
      dataBytes (chunksToCome l.script) = dataBytes (frames.flatMap Frame.chunks)
  last : lasts (chunksTaken l) ++ (q .lastData).map (·.notification.value) ++
      lasts (chunksToCome l.script) = lasts (frames.flatMap Frame.chunks)

/-- What is taken is a merge of prefixes of the two streams. -/
theorem Conserved.merged {q : Streams} (h : Conserved frames l q) :
    Merged frames (chunksTaken l) := by
  constructor
  · rw [← h.data, List.append_assoc]
    exact List.prefix_append _ _
  · rw [← h.last, List.append_assoc]
    exact List.prefix_append _ _

theorem Streams.push_sources {q : Streams} {d : Delivered}
    (hq : ∀ source, ∀ d ∈ q source, d.notification.source = source) :
    ∀ source, ∀ e ∈ (q.push d) source, e.notification.source = source := by
  intro source e he
  by_cases hs : source = d.notification.source
  · simp only [Streams.push, hs, if_true, List.mem_append, List.mem_singleton] at he
    rcases he with he | rfl
    · rw [hs]
      exact hq _ e he
    · exact hs.symm
  · simp only [Streams.push, hs, if_false] at he
    exact hq source e he

theorem kept_conserved : Kept fun l => ∃ q, Conserved frames l q where
  arrives := by
    rintro l n es hscript ⟨q, h⟩
    have hdata := h.data
    have hlast := h.last
    rw [hscript, chunksToCome_sends] at hdata hlast
    refine ⟨q.push ⟨n, l.sent⟩, ?_, Streams.push_sources h.sources, ?_, ?_⟩
    · simp [Life.arrive, h.streams]
    · -- the notification moves from the script to the end of its stream
      rw [← hdata]
      rcases n with ⟨source, value⟩
      cases source <;> simp [Life.arrive, chunksTaken, taken, Streams.push, chunkOf, Chunk.bytes]
    · rw [← hlast]
      rcases n with ⟨source, value⟩
      cases source <;> simp [Life.arrive, chunksTaken, taken, Streams.push, chunkOf]
  occurs := by
    rintro l e es hscript he ⟨q, h⟩
    have hdata := h.data
    have hlast := h.last
    rw [hscript, chunksToCome_other he] at hdata hlast
    exact ⟨q, h.streams, h.sources, hdata, hlast⟩
  refuses := by
    rintro l ⟨q, h⟩
    exact ⟨q, h.streams, h.sources, h.data, h.last⟩
  writes := by
    rintro l target bytes ⟨q, h⟩
    refine ⟨q, h.streams, h.sources, ?_, ?_⟩
    · rw [← h.data, chunksTaken, taken_wrote, chunksTaken]
    · rw [← h.last, chunksTaken, taken_wrote, chunksTaken]
  credits := by
    rintro l c ⟨q, h⟩
    exact ⟨q, h.streams, h.sources, h.data, h.last⟩

/-- The head of a stream becomes the last notification taken. -/
theorem Conserved.take {q : Streams} {source : NotificationSource} {rest : List Delivered}
    (h : Conserved frames l q) (hq : q source = d :: rest) :
    Conserved frames { l with
      session := { l.session with transport := { l.session.transport with
        streams := some fun s => if s = source then rest else q s } }
      log := l.log ++ [.took d] } fun s => if s = source then rest else q s := by
  have hsource : d.notification.source = source := h.sources source d (by simp [hq])
  refine ⟨rfl, ?_, ?_, ?_⟩
  · intro s e he
    by_cases hs : s = source
    · simp only [hs, if_true] at he
      rw [hs]
      exact h.sources source e (by simp [hq, he])
    · simp only [hs, if_false] at he
      exact h.sources s e he
  · rw [← h.data, chunksTaken, taken_took]
    cases source <;> simp [chunksTaken, chunkOf, hsource, hq, Chunk.bytes]
  · rw [← h.last, chunksTaken, taken_took]
    cases source <;> simp [chunksTaken, chunkOf, hsource, hq]

/-! ## The buffer is the reassembly of what has been taken -/

/-- A relation of the notifications taken and the buffer survives everything else. -/
theorem kept_taken (P : List Delivered → Reassembler → Prop) :
    Kept fun l => P (taken l) l.session.pending where
  arrives _ _ _ _ h := h
  occurs _ _ _ _ _ h := h
  refuses _ h := h
  writes _ _ _ h := by simpa using h
  credits _ _ h := h

def takenChunks (ds : List Delivered) : List (Chunk UInt8) :=
  ds.filterMap fun d => chunkOf d.notification

/-- `outs` are the payloads handed out so far, and the rest is in the buffer. -/
def Collected (outs : List (List UInt8)) (ds : List Delivered) (p : Reassembler) : Prop :=
  (∀ d ∈ ds, ¬ clearsBuffer d.notification) → reassemble (takenChunks ds) = ⟨outs, p.buffer⟩

/-- As `Collected`, but the last notification taken is still to be pushed. -/
def Due (outs : List (List UInt8)) (d : Delivered) (ds : List Delivered) (p : Reassembler) :
    Prop :=
  ∃ earlier, ds = earlier ++ [d] ∧
    ((∀ e ∈ ds, ¬ clearsBuffer e.notification) →
      reassemble (takenChunks earlier) = ⟨outs, p.buffer⟩)

/-- The state between two calls. -/
def Between (frames : List (Frame UInt8)) (outs : List (List UInt8)) (l : Life) : Prop :=
  (∃ q, Conserved frames l q) ∧ Collected outs (taken l) l.session.pending

/-- The state after a notification has been taken. -/
def Holding (frames : List (Frame UInt8)) (outs : List (List UInt8)) (d : Delivered)
    (l : Life) : Prop :=
  (∃ q, Conserved frames l q) ∧ Due outs d (taken l) l.session.pending

theorem kept_between : Kept (Between frames outs) := kept_conserved.and (kept_taken _)

theorem kept_holding : Kept (Holding frames outs d) := kept_conserved.and (kept_taken _)

theorem takenChunks_concat (ds : List Delivered) :
    takenChunks (ds ++ [d]) = takenChunks ds ++ (chunkOf d.notification).toList := by
  cases hchunk : chunkOf d.notification <;> simp [takenChunks, hchunk]

/-- Pushing the last notification: what remains to be said is what the push does. -/
theorem Due.collected {ds : List Delivered} {p p' : Reassembler} {outs' : List (List UInt8)}
    (h : Due outs d ds p)
    (hpush : ¬ clearsBuffer d.notification →
      ((chunkOf d.notification).toList.foldl Reassembly.push ⟨outs, p.buffer⟩ =
        ⟨outs', p'.buffer⟩)) :
    Collected outs' ds p' := by
  obtain ⟨earlier, rfl, hearlier⟩ := h
  intro hclear
  rw [takenChunks_concat, reassemble, List.foldl_append]
  rw [show (takenChunks earlier).foldl Reassembly.push ⟨[], []⟩ = ⟨outs, p.buffer⟩ from
    hearlier hclear]
  exact hpush (hclear d (by simp))

/-! ## The calls -/

theorem nextNotification_between :
    Triple (Between frames outs) nextNotification
      (fun r l => match r with
        | some (.ok d) => Holding frames outs d l
        | _ => Between frames outs l)
      (fun _ => Between frames outs) := by
  refine kept_between.nextNotification fun l q source d rest _ hstreams hq hl => ?_
  obtain ⟨⟨q', hconserved⟩, hcollected⟩ := hl
  have hsame : q' = q := Option.some.inj (hconserved.streams.symm.trans hstreams)
  subst hsame
  refine ⟨⟨_, hconserved.take hq⟩, taken l, taken_took _, fun hclear => ?_⟩
  rw [taken_took] at hclear
  exact hcollected fun e he => hclear e (by simp [he])

/-- `pushData` of the notification taken. -/
theorem pushData_holding (hsource : d.notification.source = .data) :
    Triple (Holding frames outs d) (pushData d.notification.value)
      (fun _ => Between frames outs) (fun _ _ => True) := by
  rintro l ⟨⟨q, hconserved⟩, hdue⟩
  rcases hpush : l.session.pending.pushData d.notification.value with ⟨_ | u, p⟩
  · simp [pushData, setSession, exec_bind, hpush, fail]
  · simp only [pushData, setSession, exec_bind, exec_get, exec_modify, hpush, exec_pure]
    refine ⟨⟨q, hconserved.streams, hconserved.sources, hconserved.data, hconserved.last⟩, ?_⟩
    apply hdue.collected
    intro _
    rw [Reassembler.pushData_ok hpush]
    simp [chunkOf, hsource, Reassembly.push]

/-- `pushLastData` of the notification taken completes the next payload. -/
theorem pushLastData_holding (hsource : d.notification.source = .lastData) :
    Triple (Holding frames outs d) (pushLastData d)
      (fun r l => match r with
        | some c => Between frames (outs ++ [c.payload]) l
        | none => Between frames outs l)
      (fun _ _ => True) := by
  rintro l ⟨⟨q, hconserved⟩, hdue⟩
  rcases hpush : l.session.pending.pushLastData d.notification.value with ⟨_ | payload, p⟩
  · simp [pushLastData, setSession, exec_bind, hpush, fail]
  · obtain ⟨rfl, rfl⟩ := Reassembler.pushLastData_ok hpush
    simp only [pushLastData, setSession, exec_bind, exec_get, exec_modify, hpush, exec_pure,
      Option.map_some]
    refine ⟨⟨q, hconserved.streams, hconserved.sources, hconserved.data, hconserved.last⟩, ?_⟩
    apply hdue.collected
    intro _
    simp [chunkOf, hsource, Reassembly.push, Reassembler.clear]

/-- A control notification that is no buffer clear changes nothing. -/
theorem Holding.control (h : Holding frames outs d l)
    (hsource : d.notification.source = .control) : Between frames outs l := by
  refine ⟨h.1, h.2.collected fun _ => ?_⟩
  simp [chunkOf, hsource]

theorem receiveNotification_holding :
    Triple (Holding frames outs d) (receiveNotification d)
      (fun r l => match r with
        | some c => Between frames (outs ++ [c.payload]) l
        | none => Between frames outs l)
      (fun _ _ => True) := by
  refine Triple.bind ((kept_holding.replenishReceiveCredit _).conseq (fun _ h => h)
    (fun _ _ h => h) fun _ _ _ => trivial) fun _ => ?_
  cases hsource : d.notification.source with
  | lastData => exact pushLastData_holding hsource
  | data =>
      refine Triple.bind (pushData_holding hsource) fun _ => ?_
      exact Triple.pure fun _ h => h
  | control =>
      rcases hparse : ControlMessage.parse d.notification.value with e | m
      · exact Triple.pure fun _ h => h.control hsource
      · cases m with
        | error code => exact Triple.throw fun _ _ => trivial
        | readyToReceive n => exact Triple.pure fun _ h => h.control hsource
        | chunkSize a b => exact Triple.pure fun _ h => h.control hsource
        | unknown opcode len => exact Triple.pure fun _ h => h.control hsource
        | clearBuffer =>
            -- a buffer clear has been taken: nothing is claimed from here on
            rintro l ⟨⟨q, hconserved⟩, hdue⟩
            refine ⟨⟨q, hconserved.streams, hconserved.sources, hconserved.data,
              hconserved.last⟩, hdue.collected fun hclear => ?_⟩
            exact absurd ⟨hsource, hparse⟩ hclear

theorem payloadTurn_between :
    Triple (Between frames outs) payloadTurn
      (fun r l => match r with
        | some c => Between frames (outs ++ [c.payload]) l
        | none => Between frames outs l)
      (fun _ _ => True) := by
  refine Triple.bind (kept_between.deadlinePassed.conseq (fun _ h => h)
    (fun _ _ h => h) fun _ _ _ => trivial) fun passed => ?_
  cases passed with
  | true => exact Triple.throw fun _ _ => trivial
  | false =>
      refine Triple.bind (nextNotification_between.conseq (fun _ h => h)
        (fun _ _ h => h) fun _ _ _ => trivial) fun r => ?_
      rcases r with _ | e | d
      · exact Triple.throw fun _ _ => trivial
      · exact Triple.throw fun _ _ => trivial
      · exact receiveNotification_holding

/-- The step: a call of `nextPayload` hands out the next payload. -/
theorem nextPayload_between :
    Triple (Between frames outs) nextPayload (fun c => Between frames (outs ++ [c.payload]))
      (fun _ _ => True) := by
  refine loop_rule (payloadTurn_between.conseq (fun _ h => h) (fun r l hr => ?_)
    fun _ _ h => h) fun _ _ => trivial
  cases r with
  | none => exact hr
  | some c => exact hr

/-- The run: `k` calls hand out `k` payloads. -/
theorem payloads_between (k : Nat) :
    Triple (Between frames outs) (payloads k)
      (fun cs l => cs.length = k ∧ Between frames (outs ++ cs.map (·.payload)) l)
      (fun _ _ => True) := by
  induction k generalizing outs with
  | zero => exact Triple.pure fun _ h => ⟨rfl, by simpa using h⟩
  | succ k ih =>
      refine Triple.bind nextPayload_between fun c => ?_
      refine Triple.bind ih fun cs => ?_
      exact Triple.pure fun _ h => ⟨by simp [h.1], by simpa using h.2⟩

theorem DeviceRun.between (r : DeviceRun) : Between r.frames [] r.life := by
  have htaken : taken r.life = [] := by simp [taken, r.log]
  refine ⟨⟨fun _ => [], r.streams, by simp, ?_, ?_⟩, fun _ => ?_⟩
  · simp [chunksTaken, htaken, r.sends]
  · simp [chunksTaken, htaken, r.sends]
  · simp [htaken, takenChunks, r.buffer]

end

/-- **When frames survive the merge**: the payloads handed out are the first frames sent, exactly
when every last chunk is taken at a time when the data sent before it, and no more, has been. -/
theorem payloads_intact_iff (r : DeviceRun) (k : Nat) {cs : List Completed} {l : Life}
    (hrun : exec (payloads k) r.life = (.ok cs, l)) (hclear : ClearFree l) :
    cs.map (·.payload) = (r.frames.take k).map Frame.payload ↔
      Aligned r.frames (chunksTaken l) := by
  obtain ⟨hlength, ⟨q, hconserved⟩, hcollected⟩ := (payloads_between k).ok r.between hrun
  have hreassembled : (reassemble (chunksTaken l)).payloads = cs.map (·.payload) := by
    have hall := hcollected hclear
    rw [show chunksTaken l = takenChunks (taken l) from rfl, hall]
    simp
  have hlasts : (lasts (chunksTaken l)).length = k := by
    rw [← reassemble_length, hreassembled, List.length_map, hlength]
  rw [← hconserved.merged.intact_iff, Intact, hreassembled, hlasts]

/-! ## Two schedules of one frame -/

/-- An open session with nothing received yet. -/
def openSession : VeSmartBleSession :=
  { VeSmartBleSession.new with
    transport := ⟨.committed, some fun _ => []⟩
    opened := true
    negotiated := true }

/-- The device sends a frame of two chunks, and the streams are taken from in the order `takes`. -/
def twoChunks (takes : List NotificationSource) : DeviceRun where
  life := ⟨openSession, 0, [],
    .sends ⟨.data, [1]⟩ :: .sends ⟨.lastData, [2]⟩ :: takes.map .take, 0⟩
  frames := [⟨[[1]], [2]⟩]
  sends := by
    have htakes : (takes.map Event.take).filterMap Event.sent? = [] := by
      simp [List.filterMap_map, Function.comp_def, Event.sent?]
    simp [chunksToCome, Event.sent?, chunkOf, Frame.chunks, htakes]
  streams := rfl
  buffer := rfl
  log := rfl

theorem clearFree_of_sources {l : Life} (ns : List Notification)
    (htaken : (taken l).map (·.notification) = ns) (hns : ∀ n ∈ ns, n.source ≠ .control) :
    ClearFree l := by
  intro d hd hclears
  have hmem : d.notification ∈ ns := htaken ▸ List.mem_map_of_mem hd
  exact hns _ hmem hclears.1

/-- In the order sent the frame is handed out. -/
theorem twoChunks_inOrder : ∃ cs l,
    exec (payloads 1) (twoChunks [.data, .lastData]).life = (.ok cs, l) ∧
      (cs.map (·.payload) = ((twoChunks [.data, .lastData]).frames.take 1).map Frame.payload ↔
        Aligned (twoChunks [.data, .lastData]).frames (chunksTaken l)) :=
  ⟨_, _, rfl, payloads_intact_iff _ 1 rfl
    (clearFree_of_sources [⟨.data, [1]⟩, ⟨.lastData, [2]⟩] rfl (by decide))⟩

/-- Taken in the other order, its last chunk is handed out as a payload of its own. -/
theorem twoChunks_lastFirst : ∃ cs l,
    exec (payloads 1) (twoChunks [.lastData]).life = (.ok cs, l) ∧ ClearFree l ∧
      cs.map (·.payload) ≠ ((twoChunks [.lastData]).frames.take 1).map Frame.payload :=
  ⟨_, _, rfl, clearFree_of_sources [⟨.lastData, [2]⟩] rfl (by decide), by decide⟩

end VeSmart.Client
