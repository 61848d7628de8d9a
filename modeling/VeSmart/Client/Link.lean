import VeSmart.Client.Wire

set_option autoImplicit false

/-! # What is written on a link

A link is opened, negotiated, subscribed on once and then asked for values, any number of times.
`Lawful` is what this leaves on the wire: the frames of the negotiation first, then the
subscription and the requests of values, each complete but the last, with credit between them.
Each call of the session has a rule that says from which `Stage` it goes to which; a call that
fails leaves a link that is lawful still. -/

namespace VeSmart.Client

open VeSmart.Lib VeSmart.Bluez VeSmart.Protocol

/-! ## The law of a link -/

def frameWrites (frames : List (List UInt8)) : List Write :=
  frames.map fun frame => (.control, frame)

def chunkWrites (chunks : List OutboundChunk) : List Write :=
  chunks.map fun chunk => (chunkTarget chunk.target, chunk.bytes)

/-- The writes of a request; one that cannot be cut into chunks is not written. -/
def requestWrites (payload : List UInt8) : List Write :=
  match splitRequest payload 20 with
  | .ok chunks => chunkWrites chunks
  | .error _ => []

def isData (write : Write) : Bool := write.1 ≠ .control

/-- The subscription, and `n` requests of values. -/
def conversation (plan : Service.AcquirePlan) (n : Nat) : List Write :=
  requestWrites plan.subscribePayload ++
    (List.replicate n (requestWrites plan.valuesPayload)).flatten

/-- All that is written to the control characteristic gives credit back. -/
def OnlyCredit (ws : List Write) : Prop :=
  ∀ write ∈ ws, isData write = false → ∃ n, write = creditWrite n

/-- The link is being negotiated, or it is, and the rest is a beginning of a conversation. -/
inductive Lawful (plan : Service.AcquirePlan) : List Write → Prop where
  | negotiating {link : List Write} (h : link <+: frameWrites plan.negotiationFrames) :
      Lawful plan link
  | negotiated {rest : List Write} (n : Nat) (hcredit : OnlyCredit rest)
      (hdata : rest.filter isData <+: conversation plan n) :
      Lawful plan (frameWrites plan.negotiationFrames ++ rest)

/-! ## Stages -/

structure Wire.Down (w : Wire) : Prop where
  state : w.state = .cleared
  streaming : w.streaming = false
  opened : w.opened = false
  negotiated : w.negotiated = false
  subscribed : w.subscribedInstance = none

structure Wire.Up (w : Wire) : Prop where
  state : w.state = .committed
  streaming : w.streaming = true
  opened : w.opened = true

/-- The link is up, and the frames `done` have been written on it; `before` is what was written on
the links before it. -/
structure Negotiating (before : List Write) (done : List (List UInt8)) (w : Wire) : Prop
    extends w.Up where
  negotiated : w.negotiated = false
  subscribed : w.subscribedInstance = none
  writes : w.writes = before ++ frameWrites done

/-- The link has been negotiated, and requests of `data` have been written. -/
structure Serving (plan : Service.AcquirePlan) (before : List Write)
    (subscribedInstance : Option UInt16) (data : List Write) (w : Wire) : Prop extends w.Up where
  negotiated : w.negotiated = true
  subscribed : w.subscribedInstance = subscribedInstance
  writes : ∃ rest, w.writes = before ++ (frameWrites plan.negotiationFrames ++ rest) ∧
    OnlyCredit rest ∧ rest.filter isData = data

/-- Subscribed, with any number of requests of values so far. -/
def Asking (plan : Service.AcquirePlan) (inst : UInt16) (before : List Write) (w : Wire) : Prop :=
  ∃ n, Serving plan before (some inst) (conversation plan n) w

/-- There is no link, or a lawful one: a call has failed, and the service will disconnect. -/
structure Broken (plan : Service.AcquirePlan) (before : List Write) (w : Wire) : Prop where
  transport : w.Down ∨ w.Up
  writes : ∃ link, w.writes = before ++ link ∧ Lawful plan link

section

variable {plan : Service.AcquirePlan} {inst : UInt16} {before data more : List Write}
variable {sub : Option UInt16} {w : Wire} {l : Life}

/-! ## Lawful links -/

theorem conversation_succ (plan : Service.AcquirePlan) (n : Nat) :
    conversation plan (n + 1) = conversation plan n ++ requestWrites plan.valuesPayload := by
  simp [conversation, List.replicate_succ']

theorem conversation_zero (plan : Service.AcquirePlan) :
    conversation plan 0 = requestWrites plan.subscribePayload := by
  simp [conversation]

theorem isData_chunk (chunk : OutboundChunk) :
    isData (chunkTarget chunk.target, chunk.bytes) = true := by
  cases h : chunk.target <;> simp [isData, chunkTarget]

theorem isData_credit (n : UInt8) : isData (creditWrite n) = false := rfl

theorem OnlyCredit.append {ws : List Write} (h : OnlyCredit ws) {write : Write}
    (hwrite : isData write = false → ∃ n, write = creditWrite n) : OnlyCredit (ws ++ [write]) := by
  intro write' hmem hcontrol
  rcases List.mem_append.mp hmem with hmem | hmem
  · exact h write' hmem hcontrol
  · rw [List.mem_singleton.mp hmem] at hcontrol ⊢
    exact hwrite hcontrol

theorem Serving.append (h : Serving plan before sub data w) {write : Write}
    (hwrite : isData write = false → ∃ n, write = creditWrite n) :
    Serving plan before sub (data ++ [write].filter isData) (w.append write) where
  state := h.state
  streaming := h.streaming
  opened := h.opened
  negotiated := h.negotiated
  subscribed := h.subscribed
  writes := by
    obtain ⟨rest, hwrites, hcredit, hdata⟩ := h.writes
    refine ⟨rest ++ [write], ?_, hcredit.append hwrite, ?_⟩
    · simp only [Wire.append, hwrites, List.append_assoc]
    · rw [List.filter_append, hdata]

theorem Serving.listens : Listens (Serving plan before sub data) where
  credit w n h := by
    have happended : Serving plan before sub (data ++ [creditWrite n].filter isData)
        (w.append (creditWrite n)) := h.append fun _ => ⟨n, rfl⟩
    rwa [List.filter_cons_of_neg (by simp [isData_credit]), List.filter_nil, List.append_nil]
      at happended
  streaming _ h _ := h.streaming

theorem Serving.chunk (h : Serving plan before sub data w) (chunk : OutboundChunk) :
    Serving plan before sub (data ++ chunkWrites [chunk])
      (w.append (chunkTarget chunk.target, chunk.bytes)) := by
  have happended : Serving plan before sub
      (data ++ [(chunkTarget chunk.target, chunk.bytes)].filter isData)
      (w.append (chunkTarget chunk.target, chunk.bytes)) := h.append fun hcontrol => by
    rw [isData_chunk] at hcontrol
    cases hcontrol
  rwa [List.filter_cons_of_pos (isData_chunk chunk), List.filter_nil] at happended

theorem Serving.broken (h : Serving plan before sub data w) {n : Nat}
    (hdata : data <+: conversation plan n) : Broken plan before w where
  transport := Or.inr h.toUp
  writes := by
    obtain ⟨rest, hwrites, hcredit, hrest⟩ := h.writes
    exact ⟨_, hwrites, .negotiated n hcredit (hrest ▸ hdata)⟩

theorem Asking.broken (h : Asking plan inst before w) : Broken plan before w := by
  obtain ⟨n, h⟩ := h
  exact h.broken (List.prefix_refl _)

theorem Negotiating.broken {done : List (List UInt8)} (h : Negotiating before done w)
    (hdone : done <+: plan.negotiationFrames) : Broken plan before w where
  transport := Or.inr h.toUp
  writes := ⟨_, h.writes, .negotiating (hdone.map _)⟩

theorem broken_down (h : w.Down) (hwrites : w.writes = before) : Broken plan before w where
  transport := Or.inl h
  writes := ⟨[], by rw [hwrites, List.append_nil], .negotiating (List.nil_prefix)⟩

/-! ## Requests -/

/-- The chunks of a request, by induction: a write that fails leaves it torn. -/
theorem writeChunks_serving (chunks : List OutboundChunk) :
    Triple (fun l => Serving plan before sub data l.wire) (writeChunks chunks)
      (fun _ l => Serving plan before sub (data ++ chunkWrites chunks) l.wire)
      (fun halt l => (∃ torn, torn <+: chunkWrites chunks ∧
        Serving plan before sub (data ++ torn) l.wire) ∧ halt ≠ .panicked) := by
  induction chunks generalizing data with
  | nil => exact Triple.pure fun _ h => by simpa [chunkWrites] using h
  | cons chunk chunks ih =>
      have hassoc : writeChunks (chunk :: chunks) =
          (do orFail (← write (chunkTarget chunk.target) chunk.bytes)) >>= fun _ =>
            writeChunks chunks := (bind_assoc _ _ _).symm
      have hsplit : chunkWrites (chunk :: chunks) = chunkWrites [chunk] ++ chunkWrites chunks := rfl
      rw [hassoc, hsplit, ← List.append_assoc]
      refine Triple.bind ((writeOrFail_wire fun w h => h.chunk chunk).conseq (fun _ h => h)
        (fun _ _ h => h) fun halt l h => ?_) fun _ => ?_
      · exact ⟨⟨[], List.nil_prefix, by simpa using h.1⟩, h.2⟩
      · refine ih.conseq (fun _ h => h) (fun _ _ h => h) fun halt l h => ?_
        obtain ⟨⟨torn, htorn, hserving⟩, hhalt⟩ := h
        refine ⟨⟨chunkWrites [chunk] ++ torn, ?_, by rwa [← List.append_assoc]⟩, hhalt⟩
        exact (List.prefix_append_right_inj _).mpr htorn

theorem writeRequest_serving (payload : List UInt8) :
    Triple (fun l => Serving plan before sub data l.wire) (writeRequest payload)
      (fun _ l => Serving plan before sub (data ++ requestWrites payload) l.wire)
      (fun halt l => (∃ torn, torn <+: requestWrites payload ∧
        Serving plan before sub (data ++ torn) l.wire) ∧ halt ≠ .panicked) := by
  unfold writeRequest requestWrites
  rcases splitRequest payload 20 with e | chunks
  · exact Triple.throw fun _ h => ⟨⟨[], List.nil_prefix, by simpa using h⟩, by simp⟩
  · exact writeChunks_serving chunks

/-- A torn request after a complete conversation. -/
theorem torn_conversation {n : Nat} {torn : List Write}
    (h : torn <+: requestWrites plan.valuesPayload) :
    conversation plan n ++ torn <+: conversation plan (n + 1) := by
  rw [conversation_succ]
  exact (List.prefix_append_right_inj _).mpr h

/-! ## The calls -/

/-- How a call fails: on a lawful link, and without a panic. -/
def Fails (plan : Service.AcquirePlan) (before : List Write) (halt : Halt) (l : Life) : Prop :=
  halt ≠ .panicked ∧ Broken plan before l.wire

theorem discover_down :
    Triple (fun l => l.wire.Down ∧ l.wire.writes = before) discover
      (fun _ l => Negotiating before [] l.wire) (Fails plan before) := by
  have hopen : Triple (fun l => l.wire.Down ∧ l.wire.writes = before) transportOpen
      (fun r l => (r = .ok () → l.wire.state = .committed ∧ l.wire.streaming = true ∧
        l.wire.negotiated = false ∧ l.wire.subscribedInstance = none ∧ l.wire.writes = before) ∧
        (r ≠ .ok () → Broken plan before l.wire))
      (Fails plan before) := by
    refine Triple.getThen fun l hl => ?_
    have hclosed : l.session.transport.state.isOpen = false := by
      rw [show l.session.transport.state = .cleared from hl.1.state]
      rfl
    rw [if_neg (by simp [hclosed])]
    have hstart : ∀ s, s = l → s.wire.Down ∧ s.wire.writes = before := by
      rintro _ rfl
      exact hl
    refine Triple.bind ((waits_awaitReply (I := fun w => w.Down ∧ w.writes = before)).conseq hstart
      (fun _ _ h => h) fun halt l h => ⟨by simp [h.2], broken_down h.1.1 h.1.2⟩) fun r => ?_
    cases r with
    | error e => exact Triple.pure fun _ h => ⟨by simp, fun _ => broken_down h.1 h.2⟩
    | ok bytes =>
        refine Triple.bind (Q := fun _ l => l.wire.state = .committed ∧ l.wire.streaming = true ∧
          l.wire.negotiated = false ∧ l.wire.subscribedInstance = none ∧ l.wire.writes = before)
          (Triple.modifyState fun l h => ⟨rfl, rfl, h.1.negotiated, h.1.subscribed, h.2⟩)
          fun _ => ?_
        exact Triple.pure fun _ h => ⟨fun _ => h, by simp⟩
  refine Triple.bind hopen fun r => ?_
  cases r with
  | error e =>
      refine Triple.bind (Q := fun _ _ => False) ?_ fun _ _ h => h.elim
      exact Triple.throw fun _ h => ⟨by simp, h.2 (by simp)⟩
  | ok u =>
      refine Triple.bind (Q := fun _ l => l.wire.state = .committed ∧ l.wire.streaming = true ∧
        l.wire.negotiated = false ∧ l.wire.subscribedInstance = none ∧ l.wire.writes = before)
        (Triple.pure fun _ h => h.1 rfl) fun _ => ?_
      exact Triple.modifyState fun l h =>
        ⟨⟨h.1, h.2.1, rfl⟩, h.2.2.1, h.2.2.2.1,
          h.2.2.2.2.trans (List.append_nil before).symm⟩

/-- On an open transport nothing is opened. -/
theorem discover_up {I : Wire → Prop} (hI : ∀ w, I w → w.Up) {E : Halt → Life → Prop} :
    Triple (fun l => I l.wire) discover (fun _ l => I l.wire) E := by
  intro l hl
  have hup := hI _ hl
  have hopen : l.session.transport.state.isOpen = true := by
    rw [show l.session.transport.state = .committed from hup.state]
    rfl
  have hsame : Life.wire { l with session := { l.session with opened := true } } = l.wire := by
    simp only [Life.wire]
    rw [show l.session.opened = true from hup.opened]
  simp only [discover, transportOpen, exec_bind, exec_get, hopen, if_true, exec_pure, orFail,
    setSession, exec_modify]
  rw [hsame]
  exact hl

theorem connect_up {I : Wire → Prop} (hI : ∀ w, I w → w.Up) {E : Halt → Life → Prop} :
    Triple (fun l => I l.wire) connect (fun _ l => I l.wire) E := by
  intro l hl
  have hopened : l.session.opened = true := (hI _ hl).opened
  simp only [connect, exec_bind, exec_get, hopened, if_true, exec_pure]
  exact hl

/-- The frames, by induction on those that are left. -/
theorem writeFrames_negotiating (done todo : List (List UInt8))
    (hframes : plan.negotiationFrames = done ++ todo) :
    Triple (fun l => Negotiating before done l.wire) (writeFrames todo)
      (fun _ l => Negotiating before plan.negotiationFrames l.wire) (Fails plan before) := by
  induction todo generalizing done with
  | nil =>
      rw [hframes, List.append_nil]
      exact Triple.pure fun _ h => h
  | cons frame todo ih =>
      have hassoc : writeFrames (frame :: todo) =
          (do orFail (← write .control frame)) >>= fun _ => writeFrames todo :=
        (bind_assoc _ _ _).symm
      rw [hassoc]
      refine Triple.bind ((writeOrFail_wire (J := Negotiating before (done ++ [frame]))
        fun w h => ?_).conseq (fun _ h => h) (fun _ _ h => h) fun halt l h => ?_) fun _ => ?_
      · refine ⟨⟨h.state, h.streaming, h.opened⟩, h.negotiated, h.subscribed, ?_⟩
        simp [Wire.append, h.writes, frameWrites]
      · exact ⟨h.2, h.1.broken ⟨frame :: todo, hframes.symm⟩⟩
      · exact ih (done ++ [frame]) (by simp [hframes])

theorem negotiate_fresh :
    Triple (fun l => Negotiating before [] l.wire) (negotiate plan.negotiationFrames)
      (fun _ l => Serving plan before none [] l.wire) (Fails plan before) := by
  refine Triple.getThen fun l hl => ?_
  have hstart : ∀ s, s = l → Negotiating before [] s.wire := by
    rintro _ rfl
    exact hl
  rw [if_neg (by simp [show l.session.negotiated = false from hl.negotiated])]
  have hfails : ∀ (halt : Halt) (l : Life), Negotiating before [] l.wire ∧ halt ≠ .panicked →
      Fails plan before halt l := fun halt l h => ⟨h.2, h.1.broken (List.nil_prefix)⟩
  refine Triple.bind (calm_readControl.conseq hstart (fun _ _ h => h) hfails) fun r => ?_
  refine Triple.bind ((calm_orFail r).conseq (fun _ h => h) (fun _ _ h => h) hfails)
    fun control => ?_
  cases ControlInfo.parse control with
  | none => exact Triple.throw fun _ h => hfails _ _ ⟨h, by simp⟩
  | some info =>
      refine Triple.bind (writeFrames_negotiating [] plan.negotiationFrames rfl) fun _ => ?_
      refine Triple.modifyState fun l h => ?_
      refine ⟨⟨h.state, h.streaming, h.opened⟩, rfl, h.subscribed, [], ?_, ?_, rfl⟩
      · rw [List.append_nil]
        exact h.writes
      · simp [OnlyCredit]

theorem negotiate_again {E : Halt → Life → Prop} (frames : List (List UInt8)) :
    Triple (fun l => Asking plan inst before l.wire) (negotiate frames)
      (fun _ l => Asking plan inst before l.wire) E := by
  intro l hl
  obtain ⟨n, hserving⟩ := hl
  have hnegotiated : l.session.negotiated = true := hserving.negotiated
  simp only [negotiate, exec_bind, exec_get, hnegotiated, if_true, exec_pure]
  exact ⟨n, hserving⟩

variable (decodeStream : List UInt8 → Except Protocol.ProtocolError (List Item))

theorem drain_serving {n : Nat} (hdata : data <+: conversation plan n) (instanceId : UInt16) :
    Triple (fun l => Serving plan before sub data l.wire)
      (drainCompletedPayloads decodeStream instanceId)
      (fun _ l => Serving plan before sub data l.wire) (Fails plan before) :=
  (Serving.listens.drain decodeStream instanceId).conseq (fun _ h => h) (fun _ _ h => h)
    fun _ _ h => ⟨h.2, h.1.broken hdata⟩

theorem subscribe_asking :
    Triple (fun l => Serving plan before none [] l.wire ∨ Asking plan inst before l.wire)
      (subscribe decodeStream inst plan.subscribePayload)
      (fun _ l => Asking plan inst before l.wire) (Fails plan before) := by
  refine Triple.getThen fun l hl => ?_
  rcases hl with hl | ⟨n, hl⟩
  · -- the first time on a link
    have hstart : ∀ s, s = l → Serving plan before none [] s.wire := by
      rintro _ rfl
      exact hl
    have hnegotiated : l.session.negotiated = true := hl.negotiated
    have hsubscribed : l.session.subscribedInstance = none := hl.subscribed
    simp only [hnegotiated, Bool.not_true, Bool.false_eq_true, if_false]
    refine Triple.getThen fun l' hl' => ?_
    subst hl'
    simp only [hsubscribed, reduceCtorEq, if_false]
    refine Triple.bind ((writeRequest_serving plan.subscribePayload).conseq hstart
      (fun _ _ h => h) fun halt l h => ?_) fun _ => ?_
    · obtain ⟨⟨torn, htorn, hserving⟩, hhalt⟩ := h
      refine ⟨hhalt, hserving.broken (n := 0) ?_⟩
      rwa [conversation_zero, List.nil_append]
    · rw [List.nil_append, ← conversation_zero]
      refine Triple.bind (drain_serving decodeStream (List.prefix_refl _) inst) fun _ => ?_
      refine Triple.modifyState fun l h => ?_
      exact ⟨0, ⟨h.state, h.streaming, h.opened⟩, h.negotiated, rfl, h.writes⟩
  · have hstart : ∀ s, s = l → Serving plan before (some inst) (conversation plan n) s.wire := by
      rintro _ rfl
      exact hl
    have hnegotiated : l.session.negotiated = true := hl.negotiated
    have hsubscribed : l.session.subscribedInstance = some inst := hl.subscribed
    simp only [hnegotiated, Bool.not_true, Bool.false_eq_true, if_false]
    refine Triple.getThen fun l' hl' => ?_
    subst hl'
    simp only [hsubscribed, if_true]
    exact (drain_serving decodeStream (List.prefix_refl _) inst).conseq hstart
      (fun _ _ h => ⟨n, h⟩) fun _ _ h => h

/-- An attempt writes one request of values. -/
theorem requestAttempt_asking (n : Nat) (first : Bool) :
    Triple (fun l => Serving plan before (some inst) (conversation plan n) l.wire)
      (requestAttempt decodeStream inst plan.valuesPayload first)
      (fun r l => (r = none → first = true) ∧
        Serving plan before (some inst) (conversation plan (n + 1)) l.wire)
      (Fails plan before) := by
  have hfails : ∀ (halt : Halt) (l : Life),
      Serving plan before (some inst) (conversation plan (n + 1)) l.wire ∧ halt ≠ .panicked →
        Fails plan before halt l := fun _ _ h => ⟨h.2, h.1.broken (List.prefix_refl _)⟩
  refine Triple.bind (calm_clearPending.conseq (fun _ h => h) (fun _ _ h => h) fun halt l h =>
    ⟨h.2, h.1.broken (List.prefix_refl _)⟩) fun _ => ?_
  refine Triple.bind ((writeRequest_serving plan.valuesPayload).conseq (fun _ h => h)
    (fun _ _ h => h) fun halt l h => ?_) fun _ => ?_
  · obtain ⟨⟨torn, htorn, hserving⟩, hhalt⟩ := h
    exact ⟨hhalt, hserving.broken (torn_conversation htorn)⟩
  rw [← conversation_succ]
  refine Triple.bind (Serving.listens.waitForValues decodeStream inst).attempt fun r => ?_
  rcases r with halt | c
  · cases halt with
    | failed error =>
        exact (calm_fallBack first error).conseq (fun _ h => h.1) (fun _ _ h => h) hfails
    | dropped => exact Triple.throw fun _ h => hfails _ _ h
    | panicked => exact Triple.throw fun _ h => absurd rfl h.2
  · refine Triple.bind ((calm_setSession fun _ => rfl).conseq (fun _ h => h) (fun _ _ h => h)
      hfails) fun _ => ?_
    exact Triple.pure fun _ h => ⟨by simp, h⟩

theorem requestValues_asking :
    Triple (fun l => Asking plan inst before l.wire)
      (requestValues decodeStream plan.valuesPayload)
      (fun _ l => Asking plan inst before l.wire) (Fails plan before) := by
  refine Triple.getThen fun l hl => ?_
  obtain ⟨n, hl⟩ := hl
  have hstart : ∀ s, s = l → Serving plan before (some inst) (conversation plan n) s.wire := by
    rintro _ rfl
    exact hl
  have hsubscribed : l.session.subscribedInstance = some inst := hl.subscribed
  simp only [hsubscribed]
  refine Triple.bind ((calm_setSession fun _ => rfl).conseq hstart (fun _ _ h => h) fun halt l h =>
    ⟨h.2, h.1.broken (List.prefix_refl _)⟩) fun _ => ?_
  refine Triple.bind (requestAttempt_asking decodeStream n true) fun r => ?_
  cases r with
  | some values => exact Triple.pure fun _ h => ⟨n + 1, h.2⟩
  | none =>
      refine Triple.bind ((requestAttempt_asking decodeStream (n + 1) false).conseq
        (fun _ h => h.2) (fun _ _ h => h) fun _ _ h => h) fun r => ?_
      cases r with
      | some values => exact Triple.pure fun _ h => ⟨n + 2, h.2⟩
      | none => exact Triple.throw fun _ h => absurd (h.1 rfl) (by simp)

/-! ## The end of a link -/

/-- After a disconnect there is no link; it writes nothing. -/
theorem disconnect_closes {P : List Write → Prop} :
    Triple (fun l => (l.wire.Down ∨ l.wire.Up) ∧ P l.wire.writes) disconnect
      (fun _ l => l.wire.Down ∧ P l.wire.writes)
      (fun halt l => halt = .dropped ∧ P l.wire.writes) := by
  have hcleared : Triple (fun l => l.wire.streaming = false ∧ P l.wire.writes)
      (setTransport fun t => { t with state := .cleared })
      (fun _ l => (l.wire.state = .cleared ∧ l.wire.streaming = false) ∧ P l.wire.writes)
      (fun halt l => halt = .dropped ∧ P l.wire.writes) :=
    Triple.modifyState fun l h => ⟨⟨rfl, h.1⟩, h.2⟩
  have hclose : Triple (fun l => (l.wire.Down ∨ l.wire.Up) ∧ P l.wire.writes) transportClose
      (fun _ l => (l.wire.state = .cleared ∧ l.wire.streaming = false) ∧ P l.wire.writes)
      (fun halt l => halt = .dropped ∧ P l.wire.writes) := by
    refine Triple.getThen fun l hl => ?_
    refine Triple.bind (Q := fun _ l => l.wire.streaming = false ∧ P l.wire.writes)
      (Triple.modifyState ?_) fun _ => ?_
    · rintro _ rfl
      exact ⟨rfl, hl.2⟩
    by_cases hours : (l.session.transport.state.device &&
        l.session.transport.state.connectedByUs) = true
    · simp only [hours, if_true]
      refine Triple.bind ((waits_awaitReply
        (I := fun w => w.streaming = false ∧ P w.writes)).conseq
        (fun _ h => h) (fun _ _ h => h) fun halt l h => ⟨h.2, h.1.2⟩) fun _ => hcleared
    · simp only [hours, Bool.false_eq_true, if_false]
      exact hcleared
  refine Triple.bind hclose fun _ => ?_
  exact Triple.modifyState fun l h => ⟨⟨h.1.1, h.1.2, rfl, rfl, rfl⟩, h.2⟩

theorem disconnect_broken :
    Triple (fun l => Broken plan before l.wire) disconnect
      (fun _ l => l.wire.Down ∧ ∃ link, l.wire.writes = before ++ link ∧ Lawful plan link)
      (fun halt l => halt = .dropped ∧ ∃ link, l.wire.writes = before ++ link ∧
        Lawful plan link) :=
  (disconnect_closes (P := fun ws => ∃ link, ws = before ++ link ∧ Lawful plan link)).conseq
    (fun _ h => ⟨h.transport, h.writes⟩) (fun _ _ h => h) fun _ _ h => h

theorem finishCycle_asking :
    Triple (fun l => Asking plan inst before l.wire) finishCycle
      (fun _ l => Asking plan inst before l.wire ∨
        (l.wire.Down ∧ ∃ link, l.wire.writes = before ++ link ∧ Lawful plan link))
      (fun halt l => halt = .dropped ∧ ∃ link, l.wire.writes = before ++ link ∧
        Lawful plan link) := by
  refine Triple.getThen fun l hl => ?_
  have hstart : ∀ s, s = l → Asking plan inst before s.wire := by
    rintro _ rfl
    exact hl
  by_cases hreusable : l.session.reusable = true
  · rw [if_pos hreusable]
    exact Triple.pure fun s hs => Or.inl (hstart s hs)
  · rw [if_neg hreusable]
    exact disconnect_broken.conseq (fun s hs => (hstart s hs).broken) (fun _ _ h => Or.inr h)
      fun _ _ h => h

end

end VeSmart.Client
