import VeSmart.Client.Calls

set_option autoImplicit false

/-! # The answers are correlated

`requestValues` returns a payload of the live request, which it has checked, or the fallback
that the last drain has kept. The fallback belongs to the instance of that drain; it is right
as long as this is the instance subscribed to. -/

namespace VeSmart.Client

open VeSmart.Lib VeSmart.Bluez VeSmart.Protocol

section

variable {decodeStream : List UInt8 → Except Protocol.ProtocolError (List Item)}

/-! ## What is kept of the subscription -/

/-- A relation of the instance subscribed to and the fallback. -/
def Memory (P : Option UInt16 → Option Completed → Prop) (l : Life) : Prop :=
  P l.session.subscribedInstance l.session.fallbackValues

variable {P : Option UInt16 → Option Completed → Prop}

theorem taking_memory (P : Option UInt16 → Option Completed → Prop) :
    KeptTaking (Memory P) (fun _ => True) where
  arrives _ _ _ _ h := h
  occurs _ _ _ _ _ h := h
  refuses _ h := h
  writes _ _ _ h := h
  credits _ _ h := h
  buffers _ _ h := h
  takes _ _ _ _ _ _ _ _ h := ⟨h, fun _ _ => trivial⟩

theorem setTransport_memory (f : BluezTransport → BluezTransport) :
    Triple (Memory P) (setTransport f) (fun _ => Memory P) (fun _ => Memory P) :=
  Triple.modifyState fun _ h => h

theorem transportOpen_memory :
    Triple (Memory P) transportOpen (fun _ => Memory P) (fun _ => Memory P) := by
  intro l hl
  rw [transportOpen, exec_bind, exec_get]
  by_cases hopen : l.session.transport.state.isOpen = true
  · simpa [hopen] using hl
  · simp only [hopen, Bool.false_eq_true, if_false]
    refine Triple.bind (taking_memory P).toKept.awaitReply (fun r => ?_) l hl
    cases r with
    | error e => exact Triple.pure fun _ h => h
    | ok bs =>
        refine Triple.bind (setTransport_memory _) fun _ => ?_
        exact Triple.pure fun _ h => h

theorem transportClose_memory :
    Triple (Memory P) transportClose (fun _ => Memory P) (fun _ => Memory P) := by
  intro l hl
  rw [transportClose, exec_bind, exec_get]
  refine Triple.bind (setTransport_memory _) (fun _ => ?_) l hl
  by_cases hours : (l.session.transport.state.device &&
      l.session.transport.state.connectedByUs) = true
  · simp only [hours, if_true]
    refine Triple.bind (taking_memory P).toKept.awaitReply fun _ => ?_
    exact setTransport_memory _
  · simp only [hours, Bool.false_eq_true, if_false]
    exact setTransport_memory _

theorem discover_memory :
    Triple (Memory P) discover (fun _ => Memory P) (fun _ => Memory P) := by
  refine Triple.bind transportOpen_memory fun r => ?_
  refine Triple.bind (orFail_kept r) fun _ => ?_
  exact Triple.modifyState fun _ h => h

theorem connect_memory :
    Triple (Memory P) connect (fun _ => Memory P) (fun _ => Memory P) := by
  intro l hl
  rw [connect, exec_bind, exec_get]
  by_cases hopened : l.session.opened = true
  · simpa [hopened] using hl
  · simpa [hopened, fail] using hl

theorem negotiate_memory (frames : List (List UInt8)) :
    Triple (Memory P) (negotiate frames) (fun _ => Memory P) (fun _ => Memory P) := by
  intro l hl
  rw [negotiate, exec_bind, exec_get]
  by_cases hnegotiated : l.session.negotiated = true
  · simpa [hnegotiated] using hl
  · simp only [hnegotiated, Bool.false_eq_true, if_false]
    refine Triple.bind (taking_memory P).toKept.readControl (fun r => ?_) l hl
    refine Triple.bind (orFail_kept r) fun control => ?_
    cases ControlInfo.parse control with
    | none => exact fail_kept _
    | some info =>
        refine Triple.bind ((taking_memory P).toKept.writeFrames frames) fun _ => ?_
        exact Triple.modifyState fun _ h => h

/-- A disconnect forgets the subscription, unless it is dropped. -/
theorem disconnect_memory (hnone : P none none) :
    Triple (Memory P) disconnect (fun _ => Memory P) (fun _ => Memory P) := by
  refine Triple.bind transportClose_memory fun _ => ?_
  exact Triple.modifyState fun _ _ => hnone

theorem finishCycle_memory (hnone : P none none) :
    Triple (Memory P) finishCycle (fun _ => Memory P) (fun _ => Memory P) := by
  intro l hl
  rw [finishCycle, exec_bind, exec_get]
  by_cases hreusable : l.session.reusable = true
  · simpa [hreusable] using hl
  · simpa [hreusable] using disconnect_memory hnone l hl

/-! ## The fallback fits the subscription -/

/-- The fallback has values of the instance subscribed to. -/
def Fits (decodeStream : List UInt8 → Except Protocol.ProtocolError (List Item))
    (subscribed : Option UInt16) (fallback : Option Completed) : Prop :=
  ∀ i c, subscribed = some i → fallback = some c →
    payloadHasValues decodeStream c.payload i = .ok true

def FallbackFits (decodeStream : List UInt8 → Except Protocol.ProtocolError (List Item))
    (l : Life) : Prop :=
  Memory (Fits decodeStream) l

theorem request_fits (instanceId : UInt16) :
    KeptRequest decodeStream instanceId
      (Memory fun s f => s = some instanceId ∧ Fits decodeStream s f) (fun _ => True)
      (fun c => payloadHasValues decodeStream c.payload instanceId = .ok true) where
  toKeptTaking := taking_memory _
  subscribed _ h := h.1
  answers _ _ h := h
  fallback _ c h hc := h.2 instanceId c h.1 hc
  releases _ h := ⟨h.1, by simp [Fits]⟩
  reuses _ _ h := h

/-- The step of the invariant at a request, and what the request answers. -/
theorem requestValues_fits (payload : List UInt8) (s₀ : Option UInt16) :
    Triple (Memory fun s f => s = s₀ ∧ Fits decodeStream s f) (requestValues decodeStream payload)
      (fun c l => FallbackFits decodeStream l ∧ ∀ i, s₀ = some i →
        payloadHasValues decodeStream c.payload i = .ok true)
      (fun _ => FallbackFits decodeStream) := by
  intro l hl
  rcases hsubscribed : l.session.subscribedInstance with _ | i
  · have hfits : FallbackFits decodeStream l := hl.2
    simpa [requestValues, exec_bind, hsubscribed, fail] using hfits
  · refine ((request_fits i).requestValues payload).conseq (fun _ h => h) (fun c l' h => ?_)
      (fun _ l' h => ?_) l ⟨hsubscribed, hl.2⟩
    · refine ⟨h.1.2, fun j hj => ?_⟩
      have hij : i = j := Option.some.inj (hsubscribed.symm.trans (hl.1.trans hj))
      exact hij ▸ h.2
    · exact h.2

/-- After a drain the fallback has values of the instance drained for, and the subscription is
the same. -/
theorem drain_memory (instanceId : UInt16) (s₀ : Option UInt16) :
    Triple (Memory fun s _ => s = s₀) (drainCompletedPayloads decodeStream instanceId)
      (fun _ => Memory fun s f => s = s₀ ∧ ∀ c, f = some c →
        payloadHasValues decodeStream c.payload instanceId = .ok true)
      (fun _ => Memory fun s _ => s = s₀) := by
  refine Triple.bind (Q := fun _ => Memory fun s f => s = s₀ ∧ ∀ c, f = some c →
    payloadHasValues decodeStream c.payload instanceId = .ok true) ?_ fun _ => ?_
  · exact Triple.modifyState fun _ h => ⟨h, by simp⟩
  · have hrule := (taking_memory fun s f => s = s₀ ∧ ∀ c, f = some c →
      payloadHasValues decodeStream c.payload instanceId = .ok true).drain decodeStream
      instanceId ?_
    · exact hrule.conseq (fun _ h => h) (fun _ _ h => h) fun _ _ h => h.1
    · intro l c hl _ hc
      exact ⟨hl.1, fun c' hc' => Option.some.inj hc' ▸ hc⟩

/-- A subscribe that returns leaves a fallback that fits. -/
theorem subscribe_fits (instanceId : UInt16) (payload : List UInt8) :
    Triple (fun _ => True) (subscribe decodeStream instanceId payload)
      (fun _ => FallbackFits decodeStream) (fun _ _ => True) := by
  intro l _
  rw [subscribe, exec_bind, exec_get]
  by_cases hnegotiated : l.session.negotiated = true
  · simp only [hnegotiated, Bool.not_true, Bool.false_eq_true, if_false]
    rw [exec_bind, exec_get]
    by_cases hsame : l.session.subscribedInstance = some instanceId
    · simp only [hsame, if_true]
      refine (drain_memory instanceId (some instanceId)).conseq (fun _ h => h)
        (fun _ l h i c hi hc => ?_) (fun _ _ _ => trivial) l hsame
      have hii : instanceId = i := Option.some.inj (h.1.symm.trans hi)
      exact hii ▸ h.2 c hc
    · simp only [hsame, if_false]
      refine Triple.bind (Q := fun _ => Memory fun s _ => s = l.session.subscribedInstance)
        (((taking_memory _).toKept.writeRequest payload).conseq (fun _ h => h)
          (fun _ _ h => h) fun _ _ _ => trivial) (fun _ => ?_) l rfl
      refine Triple.bind ((drain_memory instanceId _).conseq (fun _ h => h) (fun _ _ h => h)
        fun _ _ _ => trivial) fun _ => ?_
      refine Triple.modifyState fun l h i c hi hc => ?_
      have hii : instanceId = i := Option.some.inj hi
      exact hii ▸ h.2 c hc
  · simp [hnegotiated, fail]

/-! ## Where the fallback can come from -/

/-- The transport is open and has its streams. -/
def Receiving (l : Life) : Prop :=
  l.session.transport.state.isOpen = true ∧ l.session.transport.streams.isSome = true

/-- What a drain keeps: it opens and closes nothing, and keeps a fallback only on an open
transport. -/
theorem taking_receiving (s₀ : Option UInt16) (O : Prop) :
    KeptTaking (fun l => l.session.subscribedInstance = s₀ ∧ (Receiving l ↔ O) ∧
      (l.session.fallbackValues ≠ none → O)) (fun _ => O) where
  arrives l n es _ h := by simpa [Life.arrive, Receiving] using h
  occurs _ _ _ _ _ h := h
  refuses _ h := h
  writes _ _ _ h := h
  credits _ _ h := h
  buffers _ _ h := h
  takes l q source d rest hopen hstreams _ h := by
    have hO : O := h.2.1.mp ⟨hopen, by simp [hstreams]⟩
    exact ⟨⟨h.1, by simp [Receiving, hopen, hO], fun _ => hO⟩, fun _ _ => hO⟩

theorem drain_receiving (instanceId : UInt16) (s₀ : Option UInt16) :
    Triple (fun l => l.session.subscribedInstance = s₀)
      (drainCompletedPayloads decodeStream instanceId) (fun _ _ => True)
      (fun _ l => l.session.subscribedInstance = s₀ ∧
        ∀ c, l.session.fallbackValues = some c → Receiving l) := by
  intro l hl
  have hrule := (taking_receiving s₀ (Receiving l)).drain decodeStream instanceId
    fun l' c hl' hc _ => ⟨hl'.1, hl'.2.1, fun _ => hc⟩
  refine Triple.bind (P := fun l' => l' = l) (Triple.modifyState fun l' hl' => ?_)
    (fun _ => hrule.conseq (fun _ h => h) (fun _ _ _ => trivial) fun _ l' h => ?_) l rfl
  · subst hl'
    exact ⟨hl, Iff.rfl, by simp⟩
  · refine ⟨h.1, fun c hc => h.2.1.mpr (h.2.2 ?_)⟩
    rw [hc]
    exact Option.some_ne_none c

/-- A subscribe that fails keeps the subscription; it leaves the fallback alone, or one that it
has received itself. -/
theorem subscribe_error (instanceId : UInt16) (payload : List UInt8)
    (s₀ : Option UInt16) (f₀ : Option Completed) :
    Triple (Memory fun s f => s = s₀ ∧ f = f₀) (subscribe decodeStream instanceId payload)
      (fun _ _ => True)
      (fun _ l => l.session.subscribedInstance = s₀ ∧
        (l.session.fallbackValues = f₀ ∨
          ∀ c, l.session.fallbackValues = some c → Receiving l)) := by
  have hdrain : Triple (fun l => l.session.subscribedInstance = s₀)
      (drainCompletedPayloads decodeStream instanceId) (fun _ _ => True)
      (fun _ l => l.session.subscribedInstance = s₀ ∧ (l.session.fallbackValues = f₀ ∨
        ∀ c, l.session.fallbackValues = some c → Receiving l)) :=
    (drain_receiving instanceId s₀).conseq (fun _ h => h) (fun _ _ _ => trivial)
      fun _ _ h => ⟨h.1, .inr h.2⟩
  unfold subscribe
  refine Triple.getThen fun l hl => ?_
  by_cases hnegotiated : l.session.negotiated = true
  · rw [if_neg (by simp [hnegotiated])]
    refine Triple.getThen fun t ht => ?_
    subst ht
    by_cases hsame : t.session.subscribedInstance = some instanceId
    · rw [if_pos hsame]
      exact hdrain.conseq (fun _ h => h ▸ hl.1) (fun _ _ h => h) fun _ _ h => h
    · rw [if_neg hsame]
      refine Triple.bind (((taking_memory fun s f => s = s₀ ∧ f = f₀).toKept.writeRequest
        payload).conseq (fun _ h => h ▸ hl) (fun _ _ h => h) fun _ _ h => ⟨h.1, .inl h.2⟩)
        fun _ => ?_
      refine Triple.bind (hdrain.conseq (fun _ h => h.1) (fun _ _ h => h) fun _ _ h => h)
        fun _ => ?_
      exact Triple.modifyState fun _ _ => trivial
  · rw [if_pos (by simp [hnegotiated])]
    exact Triple.throw fun _ h => h ▸ ⟨hl.1, .inl hl.2⟩

variable (decodeStream) in
/-- A request that fails on an open transport answers with the fallback. -/
theorem fallback_answers {l : Life} {i : UInt16} {c : Completed} (hreceiving : Receiving l)
    (hsubscribed : l.session.subscribedInstance = some i)
    (hfallback : l.session.fallbackValues = some c) :
    (exec (requestValues decodeStream [0]) (l.facing [.reply (.ok []), .elapsed])).1 = .ok c := by
  have hopen := hreceiving.1
  -- the request is written, and the deadline passes at once
  simp [requestValues, requestAttempt, exec_bind, Life.facing, hsubscribed, hopen, hfallback,
    setSession, clearPending, writeRequest, splitRequest, splitLoop, writeChunks, write,
    awaitOpen, requireOpen, awaitReply, awaitEvent, absorb, waitForValues, loop, repeatUntil,
    waitTurn, nextPayload, payloadTurn, deadlinePassed, exec_attempt, orFail, fail, fallBack,
    chunkTarget]

/-! ## Every run -/

/-- A payload parses and has a value record of an instance. -/
def Correlated (decodeStream : List UInt8 → Except Protocol.ProtocolError (List Item))
    (payload : List UInt8) (instanceId : UInt16) : Prop :=
  ∃ responses, Response.parseStream decodeStream payload = .ok responses ∧
    ∃ register data, Response.value instanceId.toUInt64 register data ∈ responses

theorem isValueOf_iff {instanceId : UInt16} {r : Response} :
    isValueOf instanceId r = true ↔ ∃ register data, r = .value instanceId.toUInt64 register data := by
  cases r <;> simp [isValueOf]

theorem correlated_iff {payload : List UInt8} {instanceId : UInt16} :
    payloadHasValues decodeStream payload instanceId = .ok true ↔
      Correlated decodeStream payload instanceId := by
  unfold payloadHasValues Correlated
  cases Response.parseStream decodeStream payload with
  | error e => simp
  | ok responses =>
      simp only [Except.ok.injEq, List.any_eq_true, isValueOf_iff, exists_eq_left']
      constructor
      · rintro ⟨r, hr, register, data, rfl⟩
        exact ⟨register, data, hr⟩
      · rintro ⟨register, data, hr⟩
        exact ⟨_, hr, register, data, rfl⟩

/-- `S` says which subscribe calls occur in a run, at which instances and with which scripts;
everything else may occur. -/
def Allows (S : Life → UInt16 → List UInt8 → List Event → Prop) (l : Life) : Action → Prop
  | .call (.subscribe instanceId payload) script => S l instanceId payload script
  | _ => True

/-- The step of the invariant: only a subscribe that fails can leave a fallback that does not
fit. -/
theorem FallbackFits.step {l l' : Life} {a : Action} (h : FallbackFits decodeStream l)
    (hsubscribe : ∀ i p script halt t, a = .call (.subscribe i p) script →
      exec (subscribe decodeStream i p) (l.facing script) = (.error halt, t) →
      FallbackFits decodeStream t)
    (hstep : step decodeStream l a = some l') : FallbackFits decodeStream l' := by
  have hnone : Fits decodeStream none none := by simp [Fits]
  cases a with
  | idle sends =>
      cases hstep
      -- what arrives does not change what is kept of the subscription
      have harrive : ∀ (ns : List Notification) (t : Life), FallbackFits decodeStream t →
          FallbackFits decodeStream (ns.foldl Life.arrive t) := by
        intro ns
        induction ns with
        | nil => exact fun _ ht => ht
        | cons n ns ih => exact fun t ht => ih (t.arrive n) ht
      exact harrive sends l h
  | call c script =>
      have hfacing : FallbackFits decodeStream (l.facing script) := h
      cases hstep
      cases c with
      | discover =>
          rw [perform, exec_then_pure]
          exact kept_after discover_memory hfacing
      | connect =>
          rw [perform, exec_then_pure]
          exact kept_after connect_memory hfacing
      | negotiate frames =>
          rw [perform, exec_then_pure]
          exact kept_after (negotiate_memory frames) hfacing
      | finishCycle =>
          rw [perform, exec_then_pure]
          exact kept_after (finishCycle_memory hnone) hfacing
      | disconnect =>
          rw [perform, exec_then_pure]
          exact kept_after (disconnect_memory hnone) hfacing
      | requestValues payload =>
          rw [perform, exec_then_pure]
          exact kept_after ((requestValues_fits payload l.session.subscribedInstance).conseq
            (fun _ h => h) (fun _ _ h => h.1) fun _ _ h => h) ⟨rfl, hfacing⟩
      | subscribe i p =>
          rw [perform, exec_then_pure]
          rcases hrun : exec (subscribe decodeStream i p) (l.facing script) with ⟨r, t⟩
          cases r with
          | ok u => exact (subscribe_fits i p).ok trivial hrun
          | error halt => exact hsubscribe i p script halt t rfl hrun

/-- The run: if no subscribe that fails leaves a misfit behind, the fallback always fits. -/
theorem FallbackFits.of_reached {S : Life → UInt16 → List UInt8 → List Event → Prop} {l : Life}
    (hsubscribe : ∀ t, Reached decodeStream (Allows S) t → FallbackFits decodeStream t →
      ∀ i p script halt t', S t i p script →
      exec (subscribe decodeStream i p) (t.facing script) = (.error halt, t') →
      FallbackFits decodeStream t')
    (hl : Reached decodeStream (Allows S) l) : FallbackFits decodeStream l := by
  have hboth : Reached decodeStream (Allows S) l ∧ FallbackFits decodeStream l := by
    refine Reaches.invariant (I := fun l => Reached decodeStream (Allows S) l ∧
      FallbackFits decodeStream l) hl ⟨.refl, ?_⟩ ?_
    · simp [FallbackFits, Memory, Fits, Life.initial, VeSmartBleSession.new]
    · intro t a u ⟨ht, hI⟩ hmay hstep
      refine ⟨ht.act hmay hstep, hI.step (fun i p script halt t' ha hrun => ?_) hstep⟩
      subst ha
      exact hsubscribe t ht hI i p script halt t' hmay hrun
  exact hboth.2

/-- **When answers are correlated**: exactly when no subscribe call that fails or is dropped
leaves a drained payload behind that has no value of the instance still subscribed to. -/
theorem responses_correlated_iff
    (decodeStream : List UInt8 → Except Protocol.ProtocolError (List Item))
    (S : Life → UInt16 → List UInt8 → List Event → Prop) :
    (∀ l, Reached decodeStream (Allows S) l → ∀ payload script c l',
      exec (requestValues decodeStream payload) (l.facing script) = (.ok c, l') →
      ∀ i, l.session.subscribedInstance = some i → Correlated decodeStream c.payload i) ↔
    (∀ l, Reached decodeStream (Allows S) l → ∀ i p script halt l', S l i p script →
      exec (subscribe decodeStream i p) (l.facing script) = (.error halt, l') →
      FallbackFits decodeStream l') := by
  constructor
  · intro h
    -- a misfit would be the answer to the next request that fails
    have hfail : ∀ t, Reached decodeStream (Allows S) t → FallbackFits decodeStream t →
        ∀ i p script halt t', S t i p script →
        exec (subscribe decodeStream i p) (t.facing script) = (.error halt, t') →
        FallbackFits decodeStream t' := by
      intro t ht hfits i p script halt t' hS hrun
      obtain ⟨hsame, hfallback⟩ := (subscribe_error i p t.session.subscribedInstance
        t.session.fallbackValues).error (s := t.facing script) ⟨rfl, rfl⟩ hrun
      have hallowed : Allows S t (.call (.subscribe i p) script) := hS
      have ht' : Reached decodeStream (Allows S) t' := by
        apply ht.act hallowed
        rw [step, perform, exec_then_pure, hrun]
      intro j c hj hc
      rcases hfallback with hold | hreceiving
      · exact hfits j c (hsame ▸ hj) (hold ▸ hc)
      · have hanswer := fallback_answers decodeStream (hreceiving c hc) hj hc
        exact correlated_iff.mpr (h t' ht' [0] _ c _ (Prod.ext hanswer rfl) j hj)
    intro l hl i p script halt l' hS hrun
    exact hfail l hl (FallbackFits.of_reached hfail hl) i p script halt l' hS hrun
  · intro h l hl payload script c l' hrun i hi
    have hfits : FallbackFits decodeStream l := FallbackFits.of_reached (fun t ht _ => h t ht) hl
    have hanswer := (requestValues_fits payload l.session.subscribedInstance).ok
      (s := l.facing script) ⟨rfl, hfits⟩ hrun
    exact correlated_iff.mp (hanswer.2 i hi)

end

/-! ## A subscribe that breaks off -/

/-- The CBOR items of one payload: a value record of instance 4. -/
def oneValue (payload : List UInt8) : Except Protocol.ProtocolError (List Item) :=
  if payload = [0x08, 0x04, 0x19, 0xed, 0xbb, 0x42, 0xf3, 0x0a] then
    .ok [.uint 8, .uint 4, .uint 0xedbb, .bytes [0xf3, 0x0a]]
  else .error .truncated

/-- Instance 3 is subscribed to; a subscribe to instance 4 receives a value and then loses its
transport. -/
def brokenResubscribe : List Action :=
  [.call .discover [.reply (.ok [])],
    .call (.negotiate []) [.reply (.ok [0x00, 0x04, 0x00, 0x01, 0xde, 0x4a, 0x00])],
    .call (.subscribe 3 [0x03, 0x03]) [.reply (.ok []), .elapsed],
    .call (.subscribe 4 [0x03, 0x04]) [.reply (.ok []),
      .sends ⟨.lastData, [0x08, 0x04, 0x19, 0xed, 0xbb, 0x42, 0xf3, 0x0a]⟩, .take .lastData,
      .reply (.error .notificationStopped)]]

/-- The value of instance 4 answers a request to instance 3. -/
theorem brokenResubscribe_uncorrelated :
    ∃ l payload script c l', Reached oneValue (Allows fun _ _ _ _ => True) l ∧
      exec (requestValues oneValue payload) (l.facing script) = (.ok c, l') ∧
      l.session.subscribedInstance = some 3 ∧ ¬ Correlated oneValue c.payload 3 := by
  have hmay : ∀ l, ∀ a ∈ brokenResubscribe, Allows (fun _ _ _ _ => True) l a := by
    intro l a ha
    unfold Allows
    split <;> trivial
  refine ⟨_, [0], [.reply (.ok []), .elapsed], _, _, Reaches.of_run hmay rfl, rfl, rfl, ?_⟩
  rw [← correlated_iff]
  decide

end VeSmart.Client
