import VeSmart.Client.Session

set_option autoImplicit false

/-! # Rules for the calls of a session

What a call keeps, whatever happens at its await points. `Kept I` lists the steps that every
call makes: the device sends, an event occurs, something is written, credit is counted. A
predicate that survives them survives every call that does nothing else, and each further rule
names what its call does beyond them: take a notification, push it, keep a fallback. -/

namespace VeSmart.Client

open VeSmart.Lib VeSmart.Bluez VeSmart.Protocol

/-- `I` survives what happens at an await point. -/
structure KeptAwaiting (I : Life → Prop) : Prop where
  arrives : ∀ l n es, l.script = .sends n :: es → I l → I { l.arrive n with script := es }
  occurs : ∀ l e es, l.script = e :: es → (∀ n, e ≠ .sends n) → I l → I { l with script := es }
  refuses : ∀ l, I l → I { l with unanswered := l.unanswered + 1 }

/-- `I` survives what happens at an await point, writes and counting. -/
structure Kept (I : Life → Prop) : Prop extends KeptAwaiting I where
  writes : ∀ l target bytes, I l → I { l with log := l.log ++ [.wrote target bytes] }
  credits : ∀ (l : Life) c, I l →
    I { l with session := { l.session with receiveCredit := c } }

section

variable {I : Life → Prop}

/-! ## Await points -/

theorem KeptAwaiting.absorb (h : KeptAwaiting I) (es : List Event) (l : Life) (hl : I { l with script := es }) :
    I (absorb es l) := by
  induction es generalizing l with
  | nil => exact hl
  | cons e es ih =>
      cases e with
      | sends n =>
          exact ih (l.arrive n) (h.arrives { l with script := .sends n :: es } n es rfl hl)
      | reply r => exact hl
      | take source => exact hl
      | elapsed => exact hl

/-- What is absorbed is all that the device sends. -/
theorem absorb_head (es : List Event) (l : Life) {e : Event} {rest : List Event}
    (h : (absorb es l).script = e :: rest) : ∀ n, e ≠ .sends n := by
  induction es generalizing l with
  | nil => simp [Client.absorb] at h
  | cons e' es ih =>
      cases e' with
      | sends n => exact ih (l.arrive n) h
      | reply r =>
          simp only [Client.absorb, List.cons.injEq] at h
          simp [← h.1]
      | take source =>
          simp only [Client.absorb, List.cons.injEq] at h
          simp [← h.1]
      | elapsed =>
          simp only [Client.absorb, List.cons.injEq] at h
          simp [← h.1]

theorem KeptAwaiting.awaitEvent (h : KeptAwaiting I) : Triple I awaitEvent (fun _ => I) (fun _ => I) := by
  intro l hl
  have habsorbed : I (Client.absorb l.script l) := h.absorb l.script l hl
  rcases hscript : (Client.absorb l.script l).script with _ | ⟨e, es⟩
  · simp only [Client.awaitEvent, exec_ofFun, hscript]
    exact habsorbed
  · simp only [Client.awaitEvent, exec_ofFun, hscript]
    exact h.occurs _ e es hscript (absorb_head _ _ hscript) habsorbed

theorem KeptAwaiting.awaitReply (h : KeptAwaiting I) : Triple I awaitReply (fun _ => I) (fun _ => I) := by
  refine Triple.bind h.awaitEvent fun e => ?_
  cases e with
  | reply r => exact Triple.pure fun _ hl => hl
  | sends n => exact Triple.throw fun _ hl => hl
  | take source => exact Triple.throw fun _ hl => hl
  | elapsed => exact Triple.throw fun _ hl => hl

theorem KeptAwaiting.sleep (h : KeptAwaiting I) : Triple I sleep (fun _ => I) (fun _ => I) := by
  refine Triple.bind h.awaitEvent fun e => ?_
  cases e with
  | elapsed => exact Triple.pure fun _ hl => hl
  | reply r => exact Triple.throw fun _ hl => hl
  | sends n => exact Triple.throw fun _ hl => hl
  | take source => exact Triple.throw fun _ hl => hl

theorem KeptAwaiting.deadlinePassed (h : KeptAwaiting I) :
    Triple I deadlinePassed (fun _ => I) (fun _ => I) := by
  intro l hl
  have habsorbed : I (Client.absorb l.script l) := h.absorb l.script l hl
  rcases hscript : (Client.absorb l.script l).script with _ | ⟨e, es⟩
  · simp only [Client.deadlinePassed, exec_ofFun, hscript]
    exact habsorbed
  · cases e with
    | elapsed =>
        simp only [Client.deadlinePassed, exec_ofFun, hscript]
        exact h.occurs _ _ es hscript (by simp) habsorbed
    | sends n =>
        simp only [Client.deadlinePassed, exec_ofFun, hscript]
        exact habsorbed
    | reply r =>
        simp only [Client.deadlinePassed, exec_ofFun, hscript]
        exact habsorbed
    | take source =>
        simp only [Client.deadlinePassed, exec_ofFun, hscript]
        exact habsorbed

/-! ## Writes -/

theorem requireOpen_kept : Triple I requireOpen (fun _ => I) (fun _ => I) := by
  intro l hl
  simp only [requireOpen, exec_bind, exec_get]
  by_cases hopen : l.session.transport.state.isOpen = true
  · simpa [hopen] using hl
  · simpa [hopen] using hl

theorem fail_kept {α : Type} {Q : α → Life → Prop} (e : Service.BleError) :
    Triple I (fail e : Call α) Q (fun _ => I) := Triple.throw fun _ hl => hl

theorem orFail_kept {α : Type} (r : Except Bluez.BleError α) :
    Triple I (orFail r) (fun _ => I) (fun _ => I) := by
  cases r with
  | ok a => exact Triple.pure fun _ hl => hl
  | error e => exact fail_kept _

theorem KeptAwaiting.awaitOpen (h : KeptAwaiting I) :
    Triple I awaitOpen (fun _ => I) (fun _ => I) := by
  refine Triple.bind requireOpen_kept fun r => ?_
  cases r with
  | error e => exact Triple.pure fun _ hl => hl
  | ok u => exact h.awaitReply

theorem KeptAwaiting.readControl (h : KeptAwaiting I) :
    Triple I readControl (fun _ => I) (fun _ => I) := h.awaitOpen

theorem KeptAwaiting.refuse (h : KeptAwaiting I) (target : NotificationSource) :
    Triple I (refuse target) (fun _ => I) (fun _ => I) := by
  refine Triple.modifyState fun l hl => ?_
  by_cases hcontrol : target = .control
  · rw [if_pos hcontrol]
    exact h.refuses l hl
  · rw [if_neg hcontrol]
    exact hl

/-- The rule of a write: `J` is what holds once it has succeeded. -/
theorem KeptAwaiting.write (h : KeptAwaiting I) {J : Life → Prop} {target : NotificationSource}
    {bytes : List UInt8}
    (hwrote : ∀ l, I l → J { l with log := l.log ++ [.wrote target bytes] }) :
    Triple I (write target bytes)
      (fun r l => match r with
        | .ok () => J l
        | .error _ => I l)
      (fun _ => I) := by
  refine Triple.bind h.awaitOpen.attempt fun r => ?_
  rcases r with halt | e | bs
  · exact Triple.bind (h.refuse target) fun _ => Triple.throw fun _ hl => hl
  · exact Triple.bind (h.refuse target) fun _ => Triple.pure fun _ hl => hl
  · refine Triple.bind (Q := fun _ => J) ?_ fun _ => Triple.pure fun _ hl => hl
    exact Triple.modifyState hwrote

theorem Kept.write (h : Kept I) (target : NotificationSource) (bytes : List UInt8) :
    Triple I (write target bytes) (fun _ => I) (fun _ => I) := by
  refine (h.toKeptAwaiting.write fun l => h.writes l target bytes).conseq (fun _ hl => hl)
    (fun r l hr => ?_) fun _ _ hl => hl
  cases r with
  | error e => exact hr
  | ok u => exact hr

theorem Kept.writeOrFail (h : Kept I) (target : NotificationSource) (bytes : List UInt8) :
    Triple I (do orFail (← Client.write target bytes)) (fun _ => I) (fun _ => I) :=
  Triple.bind (h.write target bytes) orFail_kept

/-- A request is written to the data characteristics only. -/
theorem KeptAwaiting.writeChunks (h : KeptAwaiting I)
    (hwrites : ∀ l target bytes, target ≠ .control → I l →
      I { l with log := l.log ++ [.wrote target bytes] }) (chunks : List OutboundChunk) :
    Triple I (writeChunks chunks) (fun _ => I) (fun _ => I) := by
  induction chunks with
  | nil => exact Triple.pure fun _ hl => hl
  | cons chunk chunks ih =>
      have htarget : chunkTarget chunk.target ≠ .control := by
        cases chunk.target <;> simp [chunkTarget]
      refine Triple.bind (h.write fun l => hwrites l _ chunk.bytes htarget) fun r => ?_
      cases r with
      | error e => exact Triple.bind (Q := fun _ => I) (orFail_kept _) fun _ => ih
      | ok u => exact Triple.bind (Q := fun _ => I) (orFail_kept _) fun _ => ih

theorem KeptAwaiting.writeRequest (h : KeptAwaiting I)
    (hwrites : ∀ l target bytes, target ≠ .control → I l →
      I { l with log := l.log ++ [.wrote target bytes] }) (payload : List UInt8) :
    Triple I (writeRequest payload) (fun _ => I) (fun _ => I) := by
  unfold Client.writeRequest
  cases splitRequest payload 20 with
  | ok chunks => exact h.writeChunks hwrites chunks
  | error e => exact fail_kept _

theorem Kept.writeRequest (h : Kept I) (payload : List UInt8) :
    Triple I (writeRequest payload) (fun _ => I) (fun _ => I) :=
  h.toKeptAwaiting.writeRequest (fun l target bytes _ => h.writes l target bytes) payload

theorem Kept.writeFrames (h : Kept I) (frames : List (List UInt8)) :
    Triple I (writeFrames frames) (fun _ => I) (fun _ => I) := by
  induction frames with
  | nil => exact Triple.pure fun _ hl => hl
  | cons frame frames ih =>
      refine Triple.bind (h.write _ _) fun r => ?_
      exact Triple.bind (orFail_kept r) fun _ => ih

theorem Kept.replenishReceiveCredit (h : Kept I) (source : NotificationSource) :
    Triple I (replenishReceiveCredit source) (fun _ => I) (fun _ => I) := by
  intro l hl
  have hcounted := h.credits l (l.session.receiveCredit.record source).2 hl
  rcases hrecord : l.session.receiveCredit.record source with ⟨_ | credit, counted⟩
  · rw [hrecord] at hcounted
    simpa [Client.replenishReceiveCredit, setSession, exec_bind, hrecord] using hcounted
  · rw [hrecord] at hcounted
    have hwrite := h.writeOrFail .control credit _ hcounted
    simpa only [Client.replenishReceiveCredit, setSession, exec_bind, exec_get, exec_modify,
      hrecord] using hwrite

/-! ## Notifications -/

theorem KeptAwaiting.and {J : Life → Prop} (hI : KeptAwaiting I) (hJ : KeptAwaiting J) :
    KeptAwaiting fun l => I l ∧ J l where
  arrives l n es hs h := ⟨hI.arrives l n es hs h.1, hJ.arrives l n es hs h.2⟩
  occurs l e es hs he h := ⟨hI.occurs l e es hs he h.1, hJ.occurs l e es hs he h.2⟩
  refuses l h := ⟨hI.refuses l h.1, hJ.refuses l h.2⟩

theorem Kept.and {J : Life → Prop} (hI : Kept I) (hJ : Kept J) : Kept fun l => I l ∧ J l where
  toKeptAwaiting := hI.toKeptAwaiting.and hJ.toKeptAwaiting
  writes l t b h := ⟨hI.writes l t b h.1, hJ.writes l t b h.2⟩
  credits l c h := ⟨hI.credits l c h.1, hJ.credits l c h.2⟩

/-- Nothing that happens at an await point opens or closes the transport. -/
theorem kept_state (P : SessionState → Prop) :
    Kept fun l => P l.session.transport.state where
  arrives _ _ _ _ h := h
  occurs _ _ _ _ _ h := h
  refuses _ h := h
  writes _ _ _ h := h
  credits _ _ h := h

theorem requireOpen_open :
    Triple I requireOpen
      (fun r l => I l ∧ (r = .ok () → l.session.transport.state.isOpen = true)) (fun _ => I) := by
  intro l hl
  simp only [requireOpen, exec_bind, exec_get]
  by_cases hopen : l.session.transport.state.isOpen = true
  · simpa [hopen] using hl
  · simpa [hopen] using hl

/-- The control characteristic is read only from an open transport. -/
theorem KeptAwaiting.readControlOpen (h : KeptAwaiting I) :
    Triple I Client.readControl
      (fun r l => I l ∧ ∀ bytes, r = .ok bytes → l.session.transport.state.isOpen = true)
      (fun _ => I) := by
  refine Triple.bind requireOpen_open fun r => ?_
  cases r with
  | error e => exact Triple.pure fun _ hl => ⟨hl.1, by simp⟩
  | ok u =>
      have hboth := h.and (kept_state fun state => state.isOpen = true).toKeptAwaiting
      exact hboth.awaitReply.conseq (fun _ hl => ⟨hl.1, hl.2 rfl⟩)
        (fun _ _ hl => ⟨hl.1, fun _ _ => hl.2⟩) fun _ _ hl => hl.1

/-- The rule of `next_notification`: `J d` is what holds once `d` has left its stream. -/
theorem KeptAwaiting.nextNotification (h : KeptAwaiting I) {J : Delivered → Life → Prop}
    (htake : ∀ (l : Life) q source d rest, l.session.transport.state.isOpen = true →
      l.session.transport.streams = some q → q source = d :: rest → I l →
      J d { l with
        session := { l.session with transport := { l.session.transport with
          streams := some fun s => if s = source then rest else q s } }
        log := l.log ++ [.took d] }) :
    Triple I nextNotification
      (fun r l => match r with
        | some (.ok d) => J d l
        | _ => I l)
      (fun _ => I) := by
  refine Triple.bind requireOpen_open fun r => ?_
  cases r with
  | error e => exact Triple.pure fun _ hl => hl.1
  | ok u =>
      rintro l ⟨hl, hopen⟩
      have hboth := h.and (kept_state fun state => state.isOpen = true).toKeptAwaiting
      rw [exec_bind, exec_get]
      by_cases hnone : l.session.transport.streams.isNone = true
      · simpa [hnone] using hl
      · simp only [hnone, Bool.false_eq_true, if_false]
        refine Triple.bind (hboth.awaitEvent.conseq (fun _ h => h) (fun _ _ h => h)
          fun _ _ h => h.1) (fun e => ?_) l ⟨hl, hopen rfl⟩
        cases e with
        | sends n => exact Triple.throw fun _ hl => hl.1
        | elapsed => exact Triple.pure fun _ hl => hl.1
        | reply r =>
            cases r with
            | ok bs => exact Triple.throw fun _ hl => hl.1
            | error e => exact Triple.pure fun _ hl => hl.1
        | take source =>
            rintro l ⟨hl, hopen⟩
            rw [exec_bind]
            rcases hstreams : l.session.transport.streams with _ | q
            · simpa [takeFrom, hstreams] using hl
            · rcases hq : q source with _ | ⟨d, rest⟩
              · simpa [takeFrom, hstreams, hq] using hl
              · simpa [takeFrom, hstreams, hq] using htake l q source d rest hopen hstreams hq hl

end

/-! ## Loops -/

section

variable {I : Life → Prop} {α : Type} {turn : Call (Option α)}

/-- The rule of a loop of the session. -/
theorem loop_rule {Q : α → Life → Prop} {E : Halt → Life → Prop}
    (hturn : Triple I turn (fun r l => match r with
      | some a => Q a l
      | none => I l) E)
    (hdropped : ∀ l, I l → E .dropped l) : Triple I (loop turn) Q E := by
  intro l hl
  rw [loop, exec_bind, exec_get]
  exact Triple.repeatUntil hturn hdropped _ l hl

/-- A loop whose turns take events does another turn or returns; it never ends for want of
turns. -/
theorem loop_unroll
    (hturn : ∀ l l', exec turn l = (.ok none, l') → l'.script.length < l.script.length)
    (l : Life) :
    exec (loop turn) l = exec (do
      match ← turn with
      | some a => pure a
      | none => loop turn) l := by
  have hloop : ∀ l, exec (loop turn) l =
      exec (repeatUntil .dropped turn (l.script.length + 1)) l := fun _ => rfl
  rw [hloop, Lib.repeatUntil, exec_bind, exec_bind]
  rcases h : exec turn l with ⟨_ | _ | a, l'⟩
  · rfl
  · -- the turn has taken an event, so that fewer turns suffice for the rest
    have hshorter := hturn l l' h
    simp only [hloop]
    exact exec_repeatUntil_turns hturn hshorter (by omega)
  · rfl

/-- The script is less than `n` events long. -/
def Within (n : Nat) (l : Life) : Prop := l.script.length < n

theorem kept_within (n : Nat) : Kept (Within n) where
  arrives l m es hs h := by
    simp only [Within, hs, List.length_cons] at h ⊢
    omega
  occurs l e es hs _ h := by
    simp only [Within, hs, List.length_cons] at h ⊢
    omega
  refuses _ h := h
  writes _ _ _ h := h
  credits _ _ h := h

theorem awaitEvent_within (n : Nat) :
    Triple (Within (n + 1)) awaitEvent (fun _ => Within n) (fun _ _ => True) := by
  intro l hl
  have habsorbed : Within (n + 1) (absorb l.script l) :=
    (kept_within (n + 1)).absorb l.script l hl
  rcases hscript : (absorb l.script l).script with _ | ⟨e, es⟩
  · simp [Client.awaitEvent, hscript]
  · simp only [Client.awaitEvent, exec_ofFun, hscript]
    simp only [Within, hscript, List.length_cons] at habsorbed ⊢
    omega

theorem takeFrom_within (n : Nat) (source : NotificationSource) :
    Triple (Within n) (takeFrom source) (fun _ => Within n) (fun _ _ => True) := by
  intro l hl
  rcases hstreams : l.session.transport.streams with _ | q
  · simp [takeFrom, hstreams]
  · rcases hq : q source with _ | ⟨d, rest⟩
    · simp [takeFrom, hstreams, hq]
    · simpa [takeFrom, hstreams, hq, Within] using hl

/-- To take a notification takes an event. -/
theorem nextNotification_within (n : Nat) :
    Triple (Within (n + 1)) nextNotification
      (fun r l => ∀ d, r = some (.ok d) → Within n l) (fun _ _ => True) := by
  refine Triple.bind (Q := fun _ => Within (n + 1)) ?_ fun r => ?_
  · exact requireOpen_kept.conseq (fun _ h => h) (fun _ _ h => h) fun _ _ _ => trivial
  · cases r with
    | error e => exact Triple.pure fun _ _ => by simp
    | ok u =>
        intro l hl
        rw [exec_bind, exec_get]
        by_cases hnone : l.session.transport.streams.isNone = true
        · simp [hnone]
        · simp only [hnone, Bool.false_eq_true, if_false]
          refine Triple.bind (awaitEvent_within n) (fun e => ?_) l hl
          cases e with
          | sends m => exact Triple.throw fun _ _ => trivial
          | elapsed => exact Triple.pure fun _ _ => by simp
          | reply r =>
              cases r with
              | ok bs => exact Triple.throw fun _ _ => trivial
              | error e => exact Triple.pure fun _ _ => by simp
          | take source =>
              refine Triple.bind (takeFrom_within n source) fun d => ?_
              exact Triple.pure fun _ h _ _ => h

end

/-! ## Invariants that leave the buffer open -/

/-- `I` survives every change of the buffer, too. -/
structure KeptBuffers (I : Life → Prop) : Prop extends KeptAwaiting I where
  buffers : ∀ (l : Life) p, I l → I { l with session := { l.session with pending := p } }

/-- `I` survives also every change of the buffer and every notification that is taken. A payload
completed by a notification that is taken has `K`. -/
structure KeptTaking (I : Life → Prop) (K : Completed → Prop) : Prop
    extends Kept I, KeptBuffers I where
  takes : ∀ (l : Life) q source d rest, l.session.transport.state.isOpen = true →
    l.session.transport.streams = some q → q source = d :: rest → I l →
    I { l with
        session := { l.session with transport := { l.session.transport with
          streams := some fun s => if s = source then rest else q s } }
        log := l.log ++ [.took d] } ∧
      (d.notification.source = .lastData → ∀ payload, K ⟨payload, d.sent⟩)

section

variable {I : Life → Prop} {K : Completed → Prop}

theorem KeptTaking.nextNotification (h : KeptTaking I K) :
    Triple I nextNotification
      (fun r l => match r with
        | some (.ok d) => I l ∧ (d.notification.source = .lastData → ∀ payload, K ⟨payload, d.sent⟩)
        | _ => I l)
      (fun _ => I) :=
  h.toKept.nextNotification h.takes

theorem KeptBuffers.clearPending (h : KeptBuffers I) :
    Triple I clearPending (fun _ => I) (fun _ => I) :=
  Triple.modifyState fun l hl => h.buffers l _ hl

theorem KeptBuffers.pushData (h : KeptBuffers I) (chunk : List UInt8) :
    Triple I (pushData chunk) (fun _ => I) (fun _ => I) := by
  intro l hl
  have hpushed := h.buffers l (l.session.pending.pushData chunk).2 hl
  rcases hpush : l.session.pending.pushData chunk with ⟨_ | _, p⟩
  · rw [hpush] at hpushed
    simpa [Client.pushData, setSession, exec_bind, hpush, Client.fail] using hpushed
  · rw [hpush] at hpushed
    simpa [Client.pushData, setSession, exec_bind, hpush] using hpushed

/-- A payload that a last chunk completes is sent when that chunk is. -/
theorem KeptBuffers.pushLastData (h : KeptBuffers I) {d : Delivered}
    (hd : ∀ payload, K ⟨payload, d.sent⟩) :
    Triple I (pushLastData d) (fun r l => I l ∧ ∀ c, r = some c → K c) (fun _ => I) := by
  intro l hl
  have hpushed := h.buffers l (l.session.pending.pushLastData d.notification.value).2 hl
  rcases hpush : l.session.pending.pushLastData d.notification.value with ⟨_ | payload, p⟩
  · rw [hpush] at hpushed
    simpa [Client.pushLastData, setSession, exec_bind, hpush, Client.fail] using hpushed
  · rw [hpush] at hpushed
    simp only [Client.pushLastData, setSession, exec_bind, exec_get, exec_modify, hpush,
      exec_pure]
    refine ⟨hpushed, fun c hc => ?_⟩
    obtain ⟨bytes, -, rfl⟩ := Option.map_eq_some_iff.mp hc
    exact hd bytes

theorem KeptTaking.receiveNotification (h : KeptTaking I K) {d : Delivered}
    (hd : d.notification.source = .lastData → ∀ payload, K ⟨payload, d.sent⟩) :
    Triple I (receiveNotification d) (fun r l => I l ∧ ∀ c, r = some c → K c) (fun _ => I) := by
  refine Triple.bind (h.toKept.replenishReceiveCredit _) fun _ => ?_
  cases hsource : d.notification.source with
  | lastData => exact h.pushLastData (hd hsource)
  | data =>
      refine Triple.bind (h.pushData _) fun _ => ?_
      exact Triple.pure fun _ hl => ⟨hl, by simp⟩
  | control =>
      rcases ControlMessage.parse d.notification.value with e | m
      · exact Triple.pure fun _ hl => ⟨hl, by simp⟩
      · cases m with
        | error code => exact fail_kept _
        | clearBuffer =>
            refine Triple.bind h.clearPending fun _ => ?_
            exact Triple.pure fun _ hl => ⟨hl, by simp⟩
        | readyToReceive n => exact Triple.pure fun _ hl => ⟨hl, by simp⟩
        | chunkSize a b => exact Triple.pure fun _ hl => ⟨hl, by simp⟩
        | unknown opcode len => exact Triple.pure fun _ hl => ⟨hl, by simp⟩

theorem taking_within (n : Nat) : KeptTaking (Within n) (fun _ => True) where
  toKept := kept_within n
  buffers _ _ h := h
  takes _ _ _ _ _ _ _ _ h := ⟨h, fun _ _ => trivial⟩

theorem KeptTaking.payloadTurn (h : KeptTaking I K) :
    Triple I payloadTurn (fun r l => I l ∧ ∀ c, r = some c → K c) (fun _ => I) := by
  refine Triple.bind h.toKept.deadlinePassed fun passed => ?_
  cases passed with
  | true => exact fail_kept _
  | false =>
      refine Triple.bind h.nextNotification fun r => ?_
      rcases r with _ | e | d
      · exact fail_kept _
      · exact fail_kept _
      · intro l hl
        exact h.receiveNotification hl.2 l hl.1

theorem KeptTaking.nextPayload (h : KeptTaking I K) :
    Triple I nextPayload (fun c l => I l ∧ K c) (fun _ => I) := by
  refine loop_rule (h.payloadTurn.conseq (fun _ hl => hl) (fun r l hr => ?_) fun _ _ hl => hl)
    fun _ hl => hl
  cases r with
  | none => exact hr.1
  | some c => exact ⟨hr.1, hr.2 c rfl⟩

/-- A turn of `next_payload` that does not fail has taken an event. -/
theorem payloadTurn_within (n : Nat) :
    Triple (Within (n + 1)) payloadTurn (fun _ => Within n) (fun _ _ => True) := by
  refine Triple.bind ((kept_within _).deadlinePassed.conseq (fun _ h => h) (fun _ _ h => h)
    fun _ _ _ => trivial) fun passed => ?_
  cases passed with
  | true => exact Triple.throw fun _ _ => trivial
  | false =>
      refine Triple.bind (nextNotification_within n) fun r => ?_
      rcases r with _ | e | d
      · exact Triple.throw fun _ _ => trivial
      · exact Triple.throw fun _ _ => trivial
      · exact ((taking_within n).receiveNotification (d := d) fun _ _ => trivial).conseq
          (fun _ h => h d rfl) (fun _ _ h => h.1) fun _ _ _ => trivial

theorem payloadTurn_shorter (l l' : Life) (h : exec payloadTurn l = (.ok none, l')) :
    l'.script.length < l.script.length :=
  (payloadTurn_within l.script.length).ok (Nat.lt_succ_self _) h

/-- A completed payload has taken an event. -/
theorem nextPayload_shorter {l l' : Life} {completed : Completed}
    (h : exec nextPayload l = (.ok completed, l')) : l'.script.length < l.script.length := by
  have hrule : Triple (Within (l.script.length + 1)) nextPayload
      (fun _ => Within l.script.length) (fun _ _ => True) := by
    refine loop_rule ((payloadTurn_within _).conseq (fun _ h => h) (fun r l' hl => ?_)
      fun _ _ h => h) fun _ _ => trivial
    cases r with
    | none => exact Nat.lt_succ_of_lt hl
    | some completed => exact hl
  exact hrule.ok (Nat.lt_succ_self _) h

/-- `next_payload` is its loop. -/
theorem nextPayload_unroll (l : Life) :
    exec nextPayload l = exec (do
      match ← payloadTurn with
      | some c => pure c
      | none => nextPayload) l := by
  rw [nextPayload, loop_unroll payloadTurn_shorter l, exec_bind, exec_bind]
  rcases exec payloadTurn l with ⟨_ | _ | c, l'⟩ <;> rfl

variable {decodeStream : List UInt8 → Except Protocol.ProtocolError (List Item)}
  {instanceId : UInt16}

/-- What `wait_for_values` returns is correlated. -/
theorem KeptTaking.waitForValues (h : KeptTaking I K) :
    Triple I (waitForValues decodeStream instanceId)
      (fun c l => I l ∧ K c ∧ payloadHasValues decodeStream c.payload instanceId = .ok true)
      (fun _ => I) := by
  refine loop_rule ?_ fun _ hl => hl
  refine Triple.bind h.nextPayload fun c => ?_
  rcases hvalues : payloadHasValues decodeStream c.payload instanceId with e | _ | _
  · exact Triple.throw fun _ hl => hl.1
  · exact Triple.pure fun _ hl => hl.1
  · exact Triple.pure fun _ hl => ⟨hl.1, hl.2, hvalues⟩

/-- The rule of the drain: `I` must also survive a correlated payload being kept. -/
theorem KeptTaking.drain (h : KeptTaking I K)
    (decodeStream : List UInt8 → Except Protocol.ProtocolError (List Item))
    (instanceId : UInt16)
    (hkeep : ∀ (l : Life) c, I l → K c →
      payloadHasValues decodeStream c.payload instanceId = .ok true →
      I { l with session := { l.session with fallbackValues := some c } }) :
    Triple I (loop (drainTurn decodeStream instanceId)) (fun _ => I) (fun _ => I) := by
  refine loop_rule ?_ fun _ hl => hl
  refine Triple.bind h.toKept.deadlinePassed fun passed => ?_
  cases passed with
  | true => exact Triple.pure fun _ hl => hl
  | false =>
      refine Triple.bind h.nextNotification fun r => ?_
      rcases r with _ | e | d
      · exact Triple.pure fun _ hl => hl
      · cases e with
        | timeout operation => exact Triple.pure fun _ hl => hl
        | _ => exact fail_kept _
      · intro l hl
        obtain ⟨hI, hd⟩ := hl
        refine Triple.bind (Q := fun _ => I) ?_ (fun _ => Triple.pure fun _ hl => hl) l hI
        refine Triple.bind (h.toKept.replenishReceiveCredit _) fun _ => ?_
        cases hsource : d.notification.source with
        | data => exact h.pushData _
        | control =>
            rcases ControlMessage.parse d.notification.value with e | m
            · exact Triple.pure fun _ hl => hl
            · cases m with
              | clearBuffer => exact h.clearPending
              | error code => exact Triple.pure fun _ hl => hl
              | readyToReceive n => exact Triple.pure fun _ hl => hl
              | chunkSize a b => exact Triple.pure fun _ hl => hl
              | unknown opcode len => exact Triple.pure fun _ hl => hl
        | lastData =>
            refine Triple.bind (h.pushLastData (hd hsource)) fun r => ?_
            rcases r with _ | c
            · exact Triple.pure fun _ hl => hl.1
            · rcases hvalues : payloadHasValues decodeStream c.payload instanceId with e | _ | _
              · simp only [hvalues]
                exact Triple.pure fun _ hl => hl.1
              · simp only [hvalues]
                exact Triple.pure fun _ hl => hl.1
              · simp only [hvalues]
                exact Triple.modifyState fun l hl => hkeep l c hl.1 (hl.2 c rfl) hvalues

/-! ## Requests -/

/-- `I` survives a request to an instance, too. What the live request answers has `R`, and so
has the fallback. -/
structure KeptRequest (decodeStream : List UInt8 → Except Protocol.ProtocolError (List Item))
    (instanceId : UInt16) (I : Life → Prop) (K R : Completed → Prop) : Prop
    extends KeptTaking I K where
  subscribed : ∀ l, I l → l.session.subscribedInstance = some instanceId
  answers : ∀ c, K c → payloadHasValues decodeStream c.payload instanceId = .ok true → R c
  fallback : ∀ l c, I l → l.session.fallbackValues = some c → R c
  releases : ∀ l, I l →
    I { l with session := { l.session with fallbackValues := none, reusable := true } }
  reuses : ∀ (l : Life) b, I l → I { l with session := { l.session with reusable := b } }

variable {R : Completed → Prop}

theorem KeptAwaiting.secondAttempt (h : KeptAwaiting I) (first : Bool) (error : Service.BleError) :
    Triple I (secondAttempt first error) (fun r l => I l ∧ r = none) (fun _ => I) := by
  cases first with
  | false => exact fail_kept _
  | true =>
      cases error with
      | timeout operation =>
          refine Triple.bind h.sleep fun _ => ?_
          exact Triple.pure fun _ hl => ⟨hl, rfl⟩
      | _ => exact fail_kept _

/-- The rule of `fall_back`: the fallback is released, or there is a second attempt. -/
theorem KeptAwaiting.fallBack (h : KeptAwaiting I)
    (hfallback : ∀ l c, I l → l.session.fallbackValues = some c → R c)
    (hreleases : ∀ l, I l →
      I { l with session := { l.session with fallbackValues := none, reusable := true } })
    (first : Bool) (error : Service.BleError) :
    Triple I (fallBack first error) (fun r l => I l ∧ ∀ c, r = some c → R c) (fun _ => I) := by
  intro l hl
  rw [Client.fallBack, exec_bind, exec_get]
  rcases hvalues : l.session.fallbackValues with _ | c
  · -- no fallback: a second attempt after a sleep, or the error
    simp only [hvalues]
    exact (h.secondAttempt first error).conseq (fun _ hl => hl)
      (fun r _ hr => ⟨hr.1, by simp [hr.2]⟩) (fun _ _ hl => hl) l hl
  · simp only [hvalues, setSession, exec_bind, exec_modify, exec_pure]
    refine ⟨hreleases l hl, fun c' hc => ?_⟩
    cases hc
    exact hfallback l c hl hvalues

theorem KeptRequest.fallBack (h : KeptRequest decodeStream instanceId I K R) (first : Bool)
    (error : Service.BleError) :
    Triple I (fallBack first error) (fun r l => I l ∧ ∀ c, r = some c → R c) (fun _ => I) :=
  h.toKept.toKeptAwaiting.fallBack h.fallback h.releases first error

theorem KeptRequest.requestAttempt (h : KeptRequest decodeStream instanceId I K R)
    (payload : List UInt8) (first : Bool) :
    Triple I (requestAttempt decodeStream instanceId payload first)
      (fun r l => I l ∧ ∀ c, r = some c → R c) (fun _ => I) := by
  refine Triple.bind h.clearPending fun _ => ?_
  refine Triple.bind (h.toKept.writeRequest payload) fun _ => ?_
  refine Triple.bind h.waitForValues.attempt fun r => ?_
  rcases r with halt | c
  · cases halt with
    | failed error => exact h.fallBack first error
    | dropped => exact Triple.throw fun _ hl => hl
    | panicked => exact Triple.throw fun _ hl => hl
  · refine Triple.bind (Q := fun _ l => I l ∧ R c) ?_ fun _ => ?_
    · exact Triple.modifyState fun l hl => ⟨h.reuses l true hl.1, h.answers c hl.2.1 hl.2.2⟩
    · exact Triple.pure fun _ hl => ⟨hl.1, fun _ hc => Option.some.inj hc ▸ hl.2⟩

theorem KeptRequest.requestValues (h : KeptRequest decodeStream instanceId I K R)
    (payload : List UInt8) :
    Triple I (requestValues decodeStream payload) (fun c l => I l ∧ R c) (fun _ => I) := by
  intro l hl
  rw [Client.requestValues, exec_bind, exec_get]
  simp only [h.subscribed l hl]
  refine Triple.bind (Q := fun _ => I) ?_ (fun _ => ?_) l hl
  · exact Triple.modifyState fun l hl => h.reuses l false hl
  · refine Triple.bind (h.requestAttempt payload true) fun r => ?_
    cases r with
    | some c => exact Triple.pure fun _ hl => ⟨hl.1, hl.2 c rfl⟩
    | none =>
        refine Triple.bind ((h.requestAttempt payload false).conseq (fun _ hl => hl.1)
          (fun _ _ hl => hl) fun _ _ hl => hl) fun r => ?_
        cases r with
        | some c => exact Triple.pure fun _ hl => ⟨hl.1, hl.2 c rfl⟩
        | none => exact Triple.throw fun _ hl => hl.1

end

end VeSmart.Client
