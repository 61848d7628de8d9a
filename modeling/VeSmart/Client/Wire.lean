import VeSmart.Client.Calls

set_option autoImplicit false

/-! # What a session writes

`Wire` is what the calls of a session decide by, with what it has written. Waiting for
notifications changes only the credit that is given back, so the rules of the calls are stated in
terms of it (`Listens`, `Calm`). They also say that no call panics while an open transport has its
streams. -/

namespace VeSmart.Client

open VeSmart.Lib VeSmart.Bluez VeSmart.Protocol

/-- A write, with its characteristic. -/
abbrev Write := NotificationSource × List UInt8

def Entry.write? : Entry → Option Write
  | .wrote target bytes => some (target, bytes)
  | .took _ => none

/-- The writes that have succeeded. -/
def writes (log : List Entry) : List Write := log.filterMap Entry.write?

structure Wire where
  state : SessionState
  streaming : Bool
  opened : Bool
  negotiated : Bool
  subscribedInstance : Option UInt16
  writes : List Write

def Life.wire (l : Life) : Wire where
  state := l.session.transport.state
  streaming := l.session.transport.streams.isSome
  opened := l.session.opened
  negotiated := l.session.negotiated
  subscribedInstance := l.session.subscribedInstance
  writes := Client.writes l.log

def Wire.append (w : Wire) (write : Write) : Wire := { w with writes := w.writes ++ [write] }

/-- A message that gives credit back. -/
def creditWrite (n : UInt8) : Write := (.control, [0xf9, n])

/-- `I` survives the credit that is given back, and an open transport has its streams. -/
structure Listens (I : Wire → Prop) : Prop where
  credit : ∀ w n, I w → I (w.append (creditWrite n))
  streaming : ∀ w, I w → w.state.isOpen = true → w.streaming = true

/-- A call that keeps `I`, however it ends, and does not panic. -/
def Calm {α : Type} (I : Wire → Prop) (x : Call α) : Prop :=
  Triple (fun l => I l.wire) x (fun _ l => I l.wire) (fun halt l => I l.wire ∧ halt ≠ .panicked)

/-- A call that keeps `I`, and ends without a result only if it is dropped. -/
def Waits {α : Type} (I : Wire → Prop) (x : Call α) : Prop :=
  Triple (fun l => I l.wire) x (fun _ l => I l.wire) (fun halt l => I l.wire ∧ halt = .dropped)

section

variable {I : Wire → Prop} {α β : Type} {l : Life}

/-! ## Await points -/

theorem wire_arrive (l : Life) (n : Notification) : (l.arrive n).wire = l.wire := by
  simp [Life.wire, Life.arrive]

theorem wire_absorb (es : List Event) (l : Life) : (absorb es l).wire = l.wire := by
  induction es generalizing l with
  | nil => rfl
  | cons e es ih =>
      cases e with
      | sends n => exact (ih (l.arrive n)).trans (wire_arrive l n)
      | reply r => rfl
      | take source => rfl
      | elapsed => rfl

theorem wire_wrote (l : Life) (target : NotificationSource) (bytes : List UInt8) :
    Life.wire { l with log := l.log ++ [.wrote target bytes] } = l.wire.append (target, bytes) := by
  simp [Life.wire, Wire.append, writes, Entry.write?]

theorem calm_pure (a : α) : Calm I (pure a : Call α) := Triple.pure fun _ h => h

theorem calm_throw {halt : Halt} (h : halt ≠ .panicked) : Calm I (throw halt : Call α) :=
  Triple.throw fun _ hl => ⟨hl, h⟩

theorem calm_fail (e : Service.BleError) : Calm I (fail e : Call α) := calm_throw (by simp)

theorem calm_bind {x : Call α} {f : α → Call β} (hx : Calm I x) (hf : ∀ a, Calm I (f a)) :
    Calm I (x >>= f) := Triple.bind hx hf

theorem calm_get {f : Life → Call α} (hf : ∀ l, Calm I (f l)) : Calm I (get >>= f) :=
  fun l hl => hf l l hl

theorem Waits.calm {x : Call α} (h : Waits I x) : Calm I x :=
  h.conseq (fun _ hl => hl) (fun _ _ hl => hl) fun _ _ hl => ⟨hl.1, by simp [hl.2]⟩

theorem waits_awaitEvent : Waits I awaitEvent := by
  intro l hl
  have habsorbed : I (absorb l.script l).wire := (wire_absorb l.script l).symm ▸ hl
  rcases hscript : (absorb l.script l).script with _ | ⟨e, es⟩
  · simp only [awaitEvent, exec_ofFun, hscript]
    exact ⟨habsorbed, trivial⟩
  · simp only [awaitEvent, exec_ofFun, hscript]
    exact habsorbed

theorem waits_awaitReply : Waits I awaitReply := by
  refine Triple.bind waits_awaitEvent fun e => ?_
  cases e with
  | reply r => exact Triple.pure fun _ hl => hl
  | sends n => exact Triple.throw fun _ hl => ⟨hl, rfl⟩
  | take source => exact Triple.throw fun _ hl => ⟨hl, rfl⟩
  | elapsed => exact Triple.throw fun _ hl => ⟨hl, rfl⟩

theorem calm_sleep : Calm I sleep := by
  refine calm_bind waits_awaitEvent.calm fun e => ?_
  cases e with
  | elapsed => exact calm_pure ()
  | reply r => exact calm_throw (by simp)
  | sends n => exact calm_throw (by simp)
  | take source => exact calm_throw (by simp)

theorem calm_deadlinePassed : Calm I deadlinePassed := by
  intro l hl
  have habsorbed : I (absorb l.script l).wire := (wire_absorb l.script l).symm ▸ hl
  rcases hscript : (absorb l.script l).script with _ | ⟨e, es⟩
  · simp only [deadlinePassed, exec_ofFun, hscript]
    exact habsorbed
  · cases e <;> simp only [deadlinePassed, exec_ofFun, hscript] <;> exact habsorbed

/-- A change of the session that the wire does not see. -/
theorem calm_setSession {f : VeSmartBleSession → VeSmartBleSession}
    (h : ∀ l : Life, Life.wire { l with session := f l.session } = l.wire) :
    Calm I (setSession f) :=
  Triple.modifyState fun l hl => (h l).symm ▸ hl

theorem calm_requireOpen : Calm I requireOpen := by
  refine calm_get fun l => ?_
  by_cases hopen : l.session.transport.state.isOpen = true
  · rw [if_pos hopen]
    exact calm_pure _
  · rw [if_neg hopen]
    exact calm_pure _

theorem calm_orFail (r : Except Bluez.BleError α) : Calm I (orFail r) := by
  cases r with
  | ok a => exact calm_pure a
  | error e => exact calm_fail _

theorem calm_awaitOpen : Calm I awaitOpen := by
  refine calm_bind calm_requireOpen fun r => ?_
  cases r with
  | error e => exact calm_pure _
  | ok u => exact waits_awaitReply.calm

theorem calm_readControl : Calm I readControl := calm_awaitOpen

/-! ## Writes -/

/-- The rule of a write that must succeed. -/
theorem writeOrFail_wire {J : Wire → Prop} {target : NotificationSource} {bytes : List UInt8}
    (h : ∀ w, I w → J (w.append (target, bytes))) :
    Triple (fun l => I l.wire) (do orFail (← write target bytes)) (fun _ l => J l.wire)
      (fun halt l => I l.wire ∧ halt ≠ .panicked) := by
  have hwrite : Triple (fun l => I l.wire) (write target bytes)
      (fun r l => (r = .ok () → J l.wire) ∧ (r ≠ .ok () → I l.wire))
      (fun halt l => I l.wire ∧ halt ≠ .panicked) := by
    have hrefuse : ∀ {E : Halt → Life → Prop}, Triple (fun l => I l.wire) (refuse target)
        (fun _ l => I l.wire) E := Triple.modifyState fun _ hl => hl
    refine Triple.bind calm_awaitOpen.attempt fun r => ?_
    rcases r with halt | e | bs
    · exact Triple.bind (Triple.modifyState fun l hl => hl) fun _ => Triple.throw fun _ hl => hl
    · exact Triple.bind hrefuse fun _ => Triple.pure fun _ hl => ⟨by simp, fun _ => hl⟩
    · refine Triple.bind (Q := fun _ l => J l.wire) ?_ fun _ =>
        Triple.pure fun _ hl => ⟨fun _ => hl, by simp⟩
      exact Triple.modifyState fun l hl => (wire_wrote l target bytes).symm ▸ h _ hl
  refine Triple.bind hwrite fun r => ?_
  cases r with
  | error e => exact Triple.throw fun _ hl => ⟨hl.2 (by simp), by simp⟩
  | ok u => exact Triple.pure fun _ hl => hl.1 rfl

theorem record_credit (c : ReceiveCredit) (source : NotificationSource) {credit : List UInt8}
    {counted : ReceiveCredit} (h : c.record source = (some credit, counted)) :
    ∃ n, credit = [0xf9, n] := by
  simp only [ReceiveCredit.record] at h
  generalize hpending : (if source = .data ∨ source = .lastData then
    saturatingSucc c.pendingChunks else c.pendingChunks) = pending at h
  by_cases hfull : receiveCreditThreshold ≤ pending
  · rw [if_pos hfull] at h
    cases h
    exact ⟨pending, rfl⟩
  · rw [if_neg hfull] at h
    cases h

theorem Listens.replenishReceiveCredit (h : Listens I) (source : NotificationSource) :
    Calm I (replenishReceiveCredit source) := by
  refine calm_get fun l => ?_
  rcases hrecord : l.session.receiveCredit.record source with ⟨_ | credit, counted⟩
  · exact calm_bind (calm_setSession fun _ => rfl) fun _ => calm_pure ()
  · obtain ⟨n, rfl⟩ := record_credit _ _ hrecord
    exact calm_bind (calm_setSession fun _ => rfl) fun _ => writeOrFail_wire fun w => h.credit w n

/-! ## Notifications -/

theorem calm_takeFrom (source : NotificationSource) : Calm I (takeFrom source) := by
  intro l hl
  rcases hstreams : l.session.transport.streams with _ | q
  · simp only [takeFrom, exec_ofFun, hstreams]
    exact ⟨hl, by simp⟩
  · rcases hq : q source with _ | ⟨d, rest⟩
    · simp only [takeFrom, exec_ofFun, hstreams, hq]
      exact ⟨hl, by simp⟩
    · simp only [takeFrom, exec_ofFun, hstreams, hq]
      have hwire : Life.wire { l with
          session := { l.session with transport := { l.session.transport with
            streams := some fun s => if s = source then rest else q s } }
          log := l.log ++ [.took d] } = l.wire := by
        simp [Life.wire, writes, Entry.write?, hstreams]
      rw [hwire]
      exact hl

/-- A notification is awaited only from streams that are there. -/
theorem Listens.nextNotification (h : Listens I) : Calm I nextNotification := by
  have hopen : Triple (fun l => I l.wire) requireOpen
      (fun r l => I l.wire ∧ (r = .ok () → l.session.transport.streams.isNone = false))
      (fun halt l => I l.wire ∧ halt ≠ .panicked) := by
    refine Triple.getThen fun l hl => ?_
    by_cases hopen : l.session.transport.state.isOpen = true
    · rw [if_pos hopen]
      have hstreaming : l.session.transport.streams.isSome = true := h.streaming _ hl hopen
      refine Triple.pure ?_
      rintro _ rfl
      refine ⟨hl, fun _ => ?_⟩
      rw [← Option.not_isSome, hstreaming]
      rfl
    · rw [if_neg hopen]
      refine Triple.pure ?_
      rintro _ rfl
      exact ⟨hl, by simp⟩
  refine Triple.bind hopen fun r => ?_
  cases r with
  | error e => exact Triple.pure fun _ hl => hl.1
  | ok u =>
      rintro l ⟨hl, hstreams⟩
      rw [exec_bind, exec_get]
      simp only [hstreams rfl, Bool.false_eq_true, if_false]
      refine (calm_bind waits_awaitEvent.calm fun e => ?_) l hl
      cases e with
      | sends n => exact calm_throw (by simp)
      | elapsed => exact calm_pure _
      | take source => exact calm_bind (calm_takeFrom source) fun d => calm_pure _
      | reply r =>
          cases r with
          | ok bs => exact calm_throw (by simp)
          | error e => exact calm_pure _

theorem calm_clearPending : Calm I clearPending := calm_setSession fun _ => rfl

theorem calm_pushData (chunk : List UInt8) : Calm I (pushData chunk) := by
  refine calm_get fun l => ?_
  rcases l.session.pending.pushData chunk with ⟨e | _, p⟩
  · exact calm_bind (calm_setSession fun _ => rfl) fun _ => calm_fail _
  · exact calm_bind (calm_setSession fun _ => rfl) fun _ => calm_pure ()

theorem calm_pushLastData (d : Delivered) : Calm I (pushLastData d) := by
  refine calm_get fun l => ?_
  rcases l.session.pending.pushLastData d.notification.value with ⟨e | payload, p⟩
  · exact calm_bind (calm_setSession fun _ => rfl) fun _ => calm_fail _
  · exact calm_bind (calm_setSession fun _ => rfl) fun _ => calm_pure _

theorem Listens.receiveNotification (h : Listens I) (d : Delivered) :
    Calm I (receiveNotification d) := by
  refine calm_bind (h.replenishReceiveCredit _) fun _ => ?_
  cases d.notification.source with
  | lastData => exact calm_pushLastData d
  | data => exact calm_bind (calm_pushData _) fun _ => calm_pure _
  | control =>
      rcases ControlMessage.parse d.notification.value with e | m
      · exact calm_pure _
      · cases m with
        | error code => exact calm_fail _
        | clearBuffer => exact calm_bind calm_clearPending fun _ => calm_pure _
        | readyToReceive n => exact calm_pure _
        | chunkSize a b => exact calm_pure _
        | unknown opcode len => exact calm_pure _

theorem calm_loop {turn : Call (Option α)} (h : Calm I turn) : Calm I (loop turn) := by
  refine loop_rule (h.conseq (fun _ hl => hl) (fun r _ hl => ?_) fun _ _ hl => hl)
    fun _ hl => ⟨hl, by simp⟩
  cases r with
  | none => exact hl
  | some a => exact hl

theorem Listens.payloadTurn (h : Listens I) : Calm I payloadTurn := by
  refine calm_bind calm_deadlinePassed fun passed => ?_
  cases passed with
  | true => exact calm_fail _
  | false =>
      refine calm_bind h.nextNotification fun r => ?_
      rcases r with _ | e | d
      · exact calm_fail _
      · exact calm_fail _
      · exact h.receiveNotification d

theorem Listens.nextPayload (h : Listens I) : Calm I nextPayload := calm_loop h.payloadTurn

/-! ## Draining and waiting -/

variable (decodeStream : List UInt8 → Except Protocol.ProtocolError (List Item))

theorem Listens.drainNotification (h : Listens I) (instanceId : UInt16) (d : Delivered) :
    Calm I (drainNotification decodeStream instanceId d) := by
  refine calm_bind (h.replenishReceiveCredit _) fun _ => ?_
  cases d.notification.source with
  | data => exact calm_pushData _
  | control =>
      rcases ControlMessage.parse d.notification.value with e | m
      · exact calm_pure _
      · cases m with
        | clearBuffer => exact calm_clearPending
        | error code => exact calm_pure _
        | readyToReceive n => exact calm_pure _
        | chunkSize a b => exact calm_pure _
        | unknown opcode len => exact calm_pure _
  | lastData =>
      refine calm_bind (calm_pushLastData d) fun r => ?_
      rcases r with _ | completed
      · exact calm_pure _
      · rcases hvalues : payloadHasValues decodeStream completed.payload instanceId with e | _ | _
        · simp only [hvalues]
          exact calm_pure _
        · simp only [hvalues]
          exact calm_pure _
        · simp only [hvalues]
          exact calm_setSession fun _ => rfl

theorem Listens.drain (h : Listens I) (instanceId : UInt16) :
    Calm I (drainCompletedPayloads decodeStream instanceId) := by
  refine calm_bind (calm_setSession fun _ => rfl) fun _ => ?_
  refine calm_loop (calm_bind calm_deadlinePassed fun passed => ?_)
  cases passed with
  | true => exact calm_pure _
  | false =>
      refine calm_bind h.nextNotification fun r => ?_
      rcases r with _ | e | d
      · exact calm_pure _
      · cases e with
        | timeout operation => exact calm_pure _
        | _ => exact calm_fail _
      · exact calm_bind (h.drainNotification decodeStream instanceId d) fun _ => calm_pure _

theorem Listens.waitForValues (h : Listens I) (instanceId : UInt16) :
    Calm I (waitForValues decodeStream instanceId) := by
  refine calm_loop (calm_bind h.nextPayload fun completed => ?_)
  rcases payloadHasValues decodeStream completed.payload instanceId with e | _ | _
  · exact calm_fail _
  · exact calm_pure _
  · exact calm_pure _

/-- After a wait that has failed there is another attempt only if it was the first. -/
theorem calm_fallBack (first : Bool) (error : Service.BleError) :
    Triple (fun l => I l.wire) (fallBack first error)
      (fun r l => (r = none → first = true) ∧ I l.wire)
      (fun halt l => I l.wire ∧ halt ≠ .panicked) := by
  intro l hl
  rw [fallBack, exec_bind, exec_get]
  rcases hvalues : l.session.fallbackValues with _ | c
  · simp only [hvalues]
    cases first with
    | false => exact ⟨hl, by simp⟩
    | true =>
        cases error with
        | timeout operation =>
            exact Triple.bind calm_sleep (fun _ => Triple.pure fun _ hl => ⟨fun _ => rfl, hl⟩) l hl
        | _ => exact ⟨hl, by simp⟩
  · simp only [hvalues]
    exact ⟨by simp, hl⟩

end

end VeSmart.Client
