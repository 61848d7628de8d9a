import VeSmart.Collector.Cycles
import VeSmart.Collector.SessionPort
import VeSmart.Lib.Framing
import VeSmart.Protocol.Chunks

set_option autoImplicit false

/-! # What the device hears

A device that puts the chunks of its two data characteristics together hears requests.
`device_hears_requests` says which the daemon makes it hear on a link: one subscription, and then
only requests of the registers of the dashboard. -/

namespace VeSmart.Collector

open VeSmart.Lib VeSmart.Protocol VeSmart.Service

/-- The chunk that a write carries. -/
def writtenChunk : Client.Write → Option (Chunk UInt8)
  | (.data, bytes) => some (.data bytes)
  | (.lastData, bytes) => some (.last bytes)
  | (.control, _) => none

/-- The payloads that the writes of a link complete. -/
def received (link : List Client.Write) : List (List UInt8) :=
  (reassemble (link.filterMap writtenChunk)).payloads

/-- A payload that is heard as a request. -/
def Hears (m : Minicbor) (r : Request) (payload : List UInt8) : Prop :=
  ∃ items, m.decodeStream payload = .ok items ∧ r.Items items

section

variable {plan : AcquirePlan} {m : Minicbor} {link : List Client.Write} {payload : List UInt8}

/-! ## The chunks of a link -/

theorem writtenChunk_isData {write : Client.Write} (h : Client.isData write = false) :
    writtenChunk write = none := by
  rcases write with ⟨_ | _ | _, bytes⟩
  · rfl
  · simp [Client.isData] at h
  · simp [Client.isData] at h

/-- Only the writes of data carry chunks. -/
theorem writtenChunk_filter (link : List Client.Write) :
    (link.filter Client.isData).filterMap writtenChunk = link.filterMap writtenChunk := by
  induction link with
  | nil => rfl
  | cons write link ih =>
      by_cases hdata : Client.isData write = true
      · rw [List.filter_cons_of_pos hdata, List.filterMap_cons, List.filterMap_cons, ih]
      · have hnone := writtenChunk_isData (by simpa using hdata)
        rw [List.filter_cons_of_neg hdata, List.filterMap_cons, hnone, ih]

theorem writtenChunk_frames (frames : List (List UInt8)) :
    (Client.frameWrites frames).filterMap writtenChunk = [] := by
  simp [Client.frameWrites, writtenChunk, List.filterMap_map, Function.comp_def]

theorem writtenChunk_data {inner : List OutboundChunk} (h : ∀ c ∈ inner, c.target = .data) :
    (Client.chunkWrites inner).filterMap writtenChunk =
      (inner.map OutboundChunk.bytes).map .data := by
  induction inner with
  | nil => rfl
  | cons c inner ih =>
      have hc := h c (by simp)
      have hrest := ih fun c hmem => h c (List.mem_cons_of_mem _ hmem)
      unfold Client.chunkWrites at hrest ⊢
      rw [List.map_cons, List.filterMap_cons, hrest, hc]
      rfl

/-- A request is written as one frame. -/
theorem request_frame (h : payload ≠ []) : ∃ f : Frame UInt8,
    (Client.requestWrites payload).filterMap writtenChunk = f.chunks ∧ f.payload = payload := by
  obtain ⟨chunks, hsplit⟩ : ∃ chunks, splitRequest payload 20 = .ok chunks :=
    splitRequest_ok_iff.mpr ⟨h, by decide⟩
  obtain ⟨-, -, hchunked⟩ := splitRequest_chunked hsplit
  obtain ⟨inner, final, rfl, hfinal, hinner⟩ := hchunked.last
  refine ⟨⟨inner.map OutboundChunk.bytes, final.bytes⟩, ?_, ?_⟩
  · have hlast : (Client.chunkWrites [final]).filterMap writtenChunk = [.last final.bytes] := by
      unfold Client.chunkWrites
      rw [List.map_singleton, hfinal]
      rfl
    have hwrites : Client.requestWrites payload = Client.chunkWrites (inner ++ [final]) := by
      simp only [Client.requestWrites, hsplit]
    rw [hwrites, show Client.chunkWrites (inner ++ [final]) =
      Client.chunkWrites inner ++ Client.chunkWrites [final] from List.map_append,
      List.filterMap_append, writtenChunk_data hinner, hlast]
    rfl
  · calc (inner.map OutboundChunk.bytes).flatten ++ final.bytes
        = (inner ++ [final]).flatMap OutboundChunk.bytes := by
          rw [List.flatMap_append, List.flatMap_singleton, List.flatMap_def]
      _ = payload := hchunked.bytes

/-- What the writes of a conversation complete. -/
theorem conversation_received (hsubscribe : plan.subscribePayload ≠ [])
    (hvalues : plan.valuesPayload ≠ []) (n : Nat) :
    received (Client.conversation plan n) =
      plan.subscribePayload :: List.replicate n plan.valuesPayload := by
  obtain ⟨f, hf, hfpayload⟩ := request_frame hsubscribe
  obtain ⟨g, hg, hgpayload⟩ := request_frame hvalues
  have hchunks : (Client.conversation plan n).filterMap writtenChunk =
      (f :: List.replicate n g).flatMap Frame.chunks := by
    rw [Client.conversation, List.filterMap_append, hf, List.flatMap_cons]
    congr 1
    induction n with
    | zero => rfl
    | succ n ih =>
        rw [List.replicate_succ, List.replicate_succ, List.flatten_cons, List.filterMap_append, hg,
          ih, List.flatMap_cons]
  rw [received, hchunks, reassemble_frames]
  simp [hfpayload, hgpayload]

/-- The chunks of a lawful link are a beginning of those of a conversation. -/
theorem lawful_chunks (h : Client.Lawful plan link) : ∃ n,
    link.filterMap writtenChunk <+: (Client.conversation plan n).filterMap writtenChunk := by
  cases h with
  | negotiating hprefix =>
      have hchunks := hprefix.filterMap writtenChunk
      rw [writtenChunk_frames, List.prefix_nil] at hchunks
      exact ⟨0, hchunks ▸ List.nil_prefix⟩
  | @negotiated rest n hcredit hdata =>
      refine ⟨n, ?_⟩
      rw [List.filterMap_append, writtenChunk_frames, List.nil_append, ← writtenChunk_filter]
      exact hdata.filterMap writtenChunk

/-! ## The requests of the plan -/

theorem encode_hears (hm : m.Conforms) {r : Request} (h : r.encode m = .ok payload) :
    Hears m r payload := by
  obtain ⟨items, hitems, hmade, hbounded⟩ := Request.encode_made h
  exact ⟨items, decodeStream_made hm hmade hbounded, hitems⟩

/-- No request is heard in no bytes. -/
theorem hears_nonempty (hm : m.Conforms) {r : Request} (h : Hears m r payload) : payload ≠ [] := by
  rintro rfl
  obtain ⟨items, hdecode, hitems⟩ := h
  have hnone : m.decodeStream [] = .ok [] :=
    decodeStream_made hm .nil (by constructor <;> simp [nestedAll, maxItems])
  obtain ⟨opcode, -, hfirst⟩ := hitems.first
  rw [← Except.ok.inj (hnone.symm.trans hdecode)] at hfirst
  cases hfirst

theorem acquirePlan_hears (hm : m.Conforms) {inst : UInt16} {vregs : List UInt16}
    (h : acquirePlan m inst vregs = .ok plan) :
    Hears m (.subscribe inst) plan.subscribePayload ∧
      Hears m (.getValues inst vregs) plan.valuesPayload := by
  unfold acquirePlan at h
  by_cases hzero : inst = 0
  · rw [if_pos hzero] at h
    cases h
  · rw [if_neg hzero] at h
    rcases hsubscribe : (Request.subscribe inst).encode m with e | subscribe
    · rw [hsubscribe] at h
      cases h
    rcases hvalues : (Request.getValues inst vregs).encode m with e | values
    · rw [hsubscribe, hvalues] at h
      cases h
    rw [hsubscribe, hvalues] at h
    cases h
    exact ⟨encode_hears hm hsubscribe, encode_hears hm hvalues⟩

theorem hears_replicate {r : Request} (h : Hears m r payload) (n : Nat) :
    List.Forall₂ (Hears m) (List.replicate n r) (List.replicate n payload) := by
  induction n with
  | zero => exact .nil
  | succ n ih => exact .cons h ih

/-- Without a plan nothing is requested. -/
theorem received_unplanned (h : Client.Lawful ⟨[], [], []⟩ link) : received link = [] := by
  obtain ⟨n, hchunks⟩ := lawful_chunks h
  have hnone : Client.conversation ⟨[], [], []⟩ n = [] := by
    have hrequest : Client.requestWrites [] = [] := rfl
    simp [Client.conversation, hrequest]
  rw [hnone, List.filterMap_nil, List.prefix_nil] at hchunks
  simp [received, hchunks]

/-- **What the daemon makes its device hear** on each link: a subscription to the configured
instance, and then only requests of the registers of the dashboard. -/
theorem device_hears_requests {ω σ : Type} (m : Minicbor) (hm : m.Conforms)
    (k : Service.Collector ω σ) (scripts : List CallScript) (rest : ω) (store : σ)
    (drains iterations : Nat) :
    let seen := (exec (run (onDevice m k) drains iterations)
      (Runner.new (.new scripts rest) store)).2.ctx.env.seen
    ∀ link ∈ seen.links ++ [seen.current], ∃ n requests,
      requests <+: .subscribe k.config.inst ::
        List.replicate n (.getValues k.config.inst mvpVregs) ∧
      List.Forall₂ (Hears m) requests (received link) := by
  intro seen link hmem
  have hlawful := (session_disciplined m k scripts rest store drains iterations).links link hmem
  rcases hplan : acquirePlan m k.config.inst mvpVregs with e | plan
  · rw [show plannedRequests m k.config.inst = ⟨[], [], []⟩ by simp [plannedRequests, hplan]]
      at hlawful
    refine ⟨0, [], List.nil_prefix, ?_⟩
    rw [received_unplanned hlawful]
    exact .nil
  · rw [show plannedRequests m k.config.inst = plan by simp [plannedRequests, hplan]] at hlawful
    obtain ⟨hsubscribe, hvalues⟩ := acquirePlan_hears hm hplan
    obtain ⟨n, hchunks⟩ := lawful_chunks hlawful
    have hreceived : received link <+:
        plan.subscribePayload :: List.replicate n plan.valuesPayload :=
      conversation_received (hears_nonempty hm hsubscribe) (hears_nonempty hm hvalues) n ▸
        reassemble_prefix hchunks
    have hall : List.Forall₂ (Hears m)
        (.subscribe k.config.inst :: List.replicate n (.getValues k.config.inst mvpVregs))
        (plan.subscribePayload :: List.replicate n plan.valuesPayload) :=
      .cons hsubscribe (hears_replicate hvalues n)
    have htaken := List.forall₂_take (received link).length hall
    rw [← List.prefix_iff_eq_take.mp hreceived] at htaken
    exact ⟨n, _, List.take_prefix _ _, htaken⟩

/-- A first cycle in which the device accepts every write and then says nothing. -/
def silentDevice : List CallScript :=
  [([], [.reply (.ok [])]), ([], []),
    ([], [.reply (.ok [1, 2, 3, 4, 5, 6, 7]), .reply (.ok []), .reply (.ok [])]),
    ([], [.reply (.ok []), .elapsed]),
    ([], [.reply (.ok []), .reply (.ok []), .elapsed, .elapsed])]

/-- The request of values is cut into two chunks, and heard as one. -/
example : received (exec (run (onDevice .byHeads scripted) 1 1)
    (Runner.new (.new silentDevice (sunny 1000)) ⟨Storage.Db.empty, []⟩)).2.ctx.env.seen.current =
      [[3, 3], [5, 3, 137, 25, 237, 187, 25, 237, 189, 25, 237, 188, 25, 237, 141, 25, 237, 140, 25,
        2, 1, 25, 237, 168, 25, 237, 173, 25, 237, 170]] := by
  decide +kernel

theorem device_hears_requests_silent :
    let seen := (exec (run (onDevice .byHeads scripted) 1 1)
      (Runner.new (.new silentDevice (sunny 1000)) ⟨Storage.Db.empty, []⟩)).2.ctx.env.seen
    ∀ link ∈ seen.links ++ [seen.current], ∃ n requests,
      requests <+: .subscribe 3 :: List.replicate n (.getValues 3 mvpVregs) ∧
      List.Forall₂ (Hears .byHeads) requests (received link) :=
  device_hears_requests .byHeads byHeads_conforms scripted silentDevice (sunny 1000)
    ⟨Storage.Db.empty, []⟩ 1 1

end

end VeSmart.Collector
