import VeSmart.Client.Watch
import VeSmart.Lib.CreditLedger

set_option autoImplicit false

/-! # The receive-credit window

The negotiation grants the device 0x80 chunks on a link, and the session gives credit back for
0x41 chunks at a time. `window_kept` says that the device's window stays between 0x40 and 0x80
in every run whose control writes succeed. The invariant is a credit ledger over what the
transport has done on the link. -/

namespace VeSmart.Client

open VeSmart.Lib VeSmart.Bluez VeSmart.Protocol

/-! ## What is granted and consumed -/

/-- What an entry of the log means for the credit. -/
def Entry.move : Entry → CreditMove
  | .took d => if d.notification.source = .control then .other else .consumed
  | .wrote .control bytes =>
      match ControlMessage.parse bytes with
      | .ok (.readyToReceive n) => .granted n.toNat
      | _ => .other
  | .wrote _ _ => .other

def moves (log : List Entry) : List CreditMove := log.map Entry.move

/-- Credits granted to the device. -/
def granted (log : List Entry) : Nat := creditGranted (moves log)

/-- Data and last-data chunks consumed. -/
def consumed (log : List Entry) : Nat := chunksConsumed (moves log)

/-- What the device may still send. -/
def window (log : List Entry) : Int := granted log - consumed log

def isCredit (bytes : List UInt8) : Bool := bytes.head? = some 0xf9

/-- The negotiation grants 0x80 credits, and nothing else. -/
def Grants (frames : List (List UInt8)) : Prop := frames.filter isCredit = [[0xf9, 0x80]]

instance (frames : List (List UInt8)) : Decidable (Grants frames) :=
  inferInstanceAs (Decidable (_ = _))

/-- Every credit message that has been sent is well formed. -/
def CreditMessages (log : List Entry) : Prop :=
  ∀ bytes, Entry.wrote .control bytes ∈ log → isCredit bytes = true →
    ∃ n : UInt8, bytes = [0xf9, n] ∧ 1 ≤ n ∧ n ≤ 0x80

section

variable {log rest : List Entry} {e : Entry} {l l' : Life} {start due due' failed : Nat}

@[simp] theorem moves_append : moves (log ++ rest) = moves log ++ moves rest := by
  simp [moves]

@[simp] theorem granted_append : granted (log ++ rest) = granted log + granted rest := by
  simp [granted]

@[simp] theorem consumed_append : consumed (log ++ rest) = consumed log + consumed rest := by
  simp [consumed]

theorem granted_cons : granted (e :: log) = granted [e] + granted log := by
  rw [← List.singleton_append, granted_append]

theorem window_append : window (log ++ rest) = window log + window rest := by
  simp only [window, granted_append, consumed_append]
  omega

theorem parse_ready {bytes : List UInt8} {n : UInt8}
    (h : ControlMessage.parse bytes = .ok (.readyToReceive n)) : bytes = [0xf9, n] := by
  unfold ControlMessage.parse at h
  split at h <;> grind

/-- A control write that is no credit message changes no credit. -/
theorem move_of_not_credit {bytes : List UInt8} (h : isCredit bytes = false) :
    (Entry.wrote .control bytes).move = .other := by
  simp only [Entry.move]
  split
  · next n hparse =>
      rw [parse_ready hparse] at h
      simp [isCredit] at h
  · rfl

@[simp] theorem move_credit (n : UInt8) :
    (Entry.wrote .control [0xf9, n]).move = .granted n.toNat := rfl

theorem move_took (d : Delivered) :
    (Entry.took d).move = if d.notification.source = .control then .other else .consumed := rfl

theorem move_data {target : NotificationSource} (h : target ≠ .control) (bytes : List UInt8) :
    (Entry.wrote target bytes).move = .other := by
  cases target with
  | control => exact absurd rfl h
  | data => rfl
  | lastData => rfl

theorem consumed_control (bytes : List UInt8) : consumed [.wrote .control bytes] = 0 := by
  simp only [consumed, moves, List.map_cons, List.map_nil, chunksConsumed_cons,
    chunksConsumed_nil, Entry.move]
  split <;> rfl

/-! ## The books of a session -/

/-- What holds of the log from the start of the link on, whatever the session is doing. -/
structure Logged (start : Nat) (l : Life) : Prop where
  begun : start ≤ l.log.length
  messages : CreditMessages l.log

/-- The session has not negotiated. -/
structure Unnegotiated (start : Nat) (l : Life) : Prop extends Logged start l where
  negotiated : l.session.negotiated = false
  subscribed : l.session.subscribedInstance = none
  counted : l.session.receiveCredit = .zero

/-- If there is a link, nothing has been granted on it. -/
structure Ungranted (start : Nat) (l : Life) : Prop extends Unnegotiated start l where
  unused : l.session.transport.state.isOpen = true →
    granted (l.log.drop start) = 0 ∧ consumed (l.log.drop start) = 0

/-- There is a link, on which the negotiation has granted `n` so far. -/
structure Granting (start n : Nat) (l : Life) : Prop extends Unnegotiated start l where
  isOpen : l.session.transport.state.isOpen = true
  granted : granted (l.log.drop start) = n
  unused : consumed (l.log.drop start) = 0

/-- The link has been granted its credit. The session counts all the chunks that it owes credit
for but `due`. -/
structure Granted (start due : Nat) (l : Life) : Prop extends Logged start l where
  negotiated : l.session.negotiated = true
  isOpen : l.session.transport.state.isOpen = true
  counted : l.session.receiveCredit.pendingChunks.toNat ≤ 0x40
  ledger : ∃ opening rest, l.log.drop start = opening ++ rest ∧ granted opening = 0x80 ∧
    consumed opening = 0 ∧
    Ledger 0x41 (moves rest) (l.session.receiveCredit.pendingChunks.toNat + due)

/-- The books between two calls. -/
def Accounts (start : Nat) (l : Life) : Prop := Ungranted start l ∨ Granted start 0 l

theorem Logged.append (h : Logged start l) (hlog : l'.log = l.log ++ [e])
    (hmessage : ∀ bytes, e = .wrote .control bytes → isCredit bytes = true →
      ∃ n : UInt8, bytes = [0xf9, n] ∧ 1 ≤ n ∧ n ≤ 0x80) : Logged start l' := by
  refine ⟨?_, fun bytes hmem hcredit => ?_⟩
  · have hbegun := h.begun
    rw [hlog, List.length_append]
    omega
  · rw [hlog, List.mem_append, List.mem_singleton] at hmem
    rcases hmem with hmem | hlast
    · exact h.messages bytes hmem hcredit
    · exact hmessage bytes hlast.symm hcredit

theorem Logged.drop_append (h : Logged start l) (hlog : l'.log = l.log ++ [e]) :
    l'.log.drop start = l.log.drop start ++ [e] := by
  rw [hlog, List.drop_append_of_le_length h.begun]

theorem Unnegotiated.congr (h : Unnegotiated start l) (hlog : l'.log = l.log)
    (hnegotiated : l'.session.negotiated = l.session.negotiated)
    (hsubscribed : l'.session.subscribedInstance = l.session.subscribedInstance)
    (hcredit : l'.session.receiveCredit = l.session.receiveCredit) : Unnegotiated start l' where
  begun := by
    rw [hlog]
    exact h.begun
  messages := by
    rw [hlog]
    exact h.messages
  negotiated := hnegotiated.trans h.negotiated
  subscribed := hsubscribed.trans h.subscribed
  counted := hcredit.trans h.counted

theorem Granted.congr (h : Granted start due l) (hlog : l'.log = l.log)
    (hnegotiated : l'.session.negotiated = l.session.negotiated)
    (hcredit : l'.session.receiveCredit = l.session.receiveCredit)
    (hopen : l'.session.transport.state.isOpen = l.session.transport.state.isOpen) :
    Granted start due l' where
  begun := by
    rw [hlog]
    exact h.begun
  messages := by
    rw [hlog]
    exact h.messages
  negotiated := hnegotiated.trans h.negotiated
  isOpen := hopen.trans h.isOpen
  counted := by
    rw [hcredit]
    exact h.counted
  ledger := by
    rw [hlog, hcredit]
    exact h.ledger

/-- The step of the ledger: an entry that settles what is owed. -/
theorem Granted.append (h : Granted start due l) (hlog : l'.log = l.log ++ [e])
    (hsession : l'.session.negotiated = l.session.negotiated ∧
      l'.session.receiveCredit = l.session.receiveCredit ∧
      l'.session.transport.state = l.session.transport.state)
    (hmessage : ∀ bytes, e = .wrote .control bytes → isCredit bytes = true →
      ∃ n : UInt8, bytes = [0xf9, n] ∧ 1 ≤ n ∧ n ≤ 0x80)
    (hmove : e.move.settle 0x41 (l.session.receiveCredit.pendingChunks.toNat + due) =
      some (l.session.receiveCredit.pendingChunks.toNat + due')) : Granted start due' l' := by
  obtain ⟨hnegotiated, hcredit, hstate⟩ := hsession
  obtain ⟨opening, rest, hlink, hgranted, hconsumed, hledger⟩ := h.ledger
  refine ⟨h.toLogged.append hlog hmessage, hnegotiated.trans h.negotiated, ?_, ?_, ?_⟩
  · rw [hstate]
    exact h.isOpen
  · rw [hcredit]
    exact h.counted
  · refine ⟨opening, rest ++ [e], ?_, hgranted, hconsumed, ?_⟩
    · rw [h.toLogged.drop_append hlog, hlink, List.append_assoc]
    · rw [moves_append, hcredit]
      exact hledger.move hmove

theorem kept_granted : KeptBuffers (Granted start due) where
  arrives _ _ _ _ h := h.congr rfl rfl rfl rfl
  occurs _ _ _ _ _ h := h.congr rfl rfl rfl rfl
  refuses _ h := h.congr rfl rfl rfl rfl
  buffers _ _ h := h.congr rfl rfl rfl rfl

theorem kept_unnegotiated : KeptAwaiting (Unnegotiated start) where
  arrives _ _ _ _ h := h.congr rfl rfl rfl rfl
  occurs _ _ _ _ _ h := h.congr rfl rfl rfl rfl
  refuses _ h := h.congr rfl rfl rfl rfl

theorem kept_ungranted : KeptAwaiting (Ungranted start) where
  arrives _ _ _ _ h := ⟨h.toUnnegotiated.congr rfl rfl rfl rfl, h.unused⟩
  occurs _ _ _ _ _ h := ⟨h.toUnnegotiated.congr rfl rfl rfl rfl, h.unused⟩
  refuses _ h := ⟨h.toUnnegotiated.congr rfl rfl rfl rfl, h.unused⟩

theorem kept_granting {n : Nat} : KeptAwaiting (Granting start n) where
  arrives _ _ _ _ h := ⟨h.toUnnegotiated.congr rfl rfl rfl rfl, h.isOpen, h.granted, h.unused⟩
  occurs _ _ _ _ _ h := ⟨h.toUnnegotiated.congr rfl rfl rfl rfl, h.isOpen, h.granted, h.unused⟩
  refuses _ h := ⟨h.toUnnegotiated.congr rfl rfl rfl rfl, h.isOpen, h.granted, h.unused⟩

/-- A request is no credit, and nothing is due. -/
theorem Granted.writes (l : Life) (target : NotificationSource) (bytes : List UInt8)
    (htarget : target ≠ .control) (h : Granted start 0 l) :
    Granted start 0 { l with log := l.log ++ [.wrote target bytes] } := by
  refine h.append rfl ⟨rfl, rfl, rfl⟩ (fun bytes' hentry => ?_) ?_
  · cases hentry
    exact absurd rfl htarget
  · have hcounted := h.counted
    rw [move_data htarget]
    exact CreditMove.settle_other (by omega)

/-- How many chunks a notification is. -/
def chunksOf (source : NotificationSource) : Nat := if source = .control then 0 else 1

/-- A chunk that is taken is due. -/
theorem Granted.took {d : Delivered} (h : Granted start 0 l) (hlog : l'.log = l.log ++ [.took d])
    (hsession : l'.session.negotiated = l.session.negotiated ∧
      l'.session.receiveCredit = l.session.receiveCredit ∧
      l'.session.transport.state = l.session.transport.state) :
    Granted start (chunksOf d.notification.source) l' := by
  refine h.append hlog hsession (fun bytes hentry => ?_) ?_
  · cases hentry
  · have hcounted := h.counted
    rw [move_took, chunksOf]
    by_cases hcontrol : d.notification.source = .control
    · rw [if_pos hcontrol, if_pos hcontrol]
      exact CreditMove.settle_other (by omega)
    · rw [if_neg hcontrol, if_neg hcontrol]
      exact CreditMove.settle_consumed (by omega)

/-! ## Credit is given back -/

/-- The step of the counter: it counts, or it gives everything back. -/
theorem record_cases {c : ReceiveCredit} (source : NotificationSource)
    (hc : c.pendingChunks.toNat ≤ 0x40) :
    (∃ c', c.record source = (none, c') ∧ c'.pendingChunks.toNat ≤ 0x40 ∧
      c'.pendingChunks.toNat = c.pendingChunks.toNat + chunksOf source) ∨
    (c.record source = (some [0xf9, 0x41], .zero) ∧
      c.pendingChunks.toNat + chunksOf source = 0x41) := by
  have hthreshold : ∀ p : UInt8, receiveCreditThreshold ≤ p ↔ 0x41 ≤ p.toNat := fun p =>
    UInt8.le_iff_toNat_le
  have hsucc : (saturatingSucc c.pendingChunks).toNat = c.pendingChunks.toNat + 1 := by
    have hroom : c.pendingChunks ≠ 255 := by
      rintro hfull
      simp [hfull] at hc
    rw [saturatingSucc, if_neg hroom, UInt8.toNat_add]
    simp only [UInt8.reduceToNat]
    omega
  by_cases hcontrol : source = .control
  · left
    have hcounts : ¬ (source = .data ∨ source = .lastData) := by simp [hcontrol]
    have hbelow : ¬ receiveCreditThreshold ≤ c.pendingChunks := by
      rw [hthreshold]
      omega
    refine ⟨c, ?_, hc, ?_⟩
    · simp [ReceiveCredit.record, hcounts, hbelow]
    · simp [chunksOf, hcontrol]
  · have hcounts : source = .data ∨ source = .lastData := by
      cases source <;> simp_all
    have hchunks : chunksOf source = 1 := if_neg hcontrol
    by_cases hfull : c.pendingChunks.toNat = 0x40
    · right
      have hat : saturatingSucc c.pendingChunks = 0x41 := by
        apply UInt8.toNat_inj.mp
        rw [hsucc, hfull]
        rfl
      refine ⟨?_, by omega⟩
      simp [ReceiveCredit.record, hcounts, hat, receiveCreditThreshold]
    · left
      have hbelow : ¬ receiveCreditThreshold ≤ saturatingSucc c.pendingChunks := by
        rw [hthreshold, hsucc]
        omega
      refine ⟨⟨saturatingSucc c.pendingChunks⟩, ?_, ?_, ?_⟩
      · simp [ReceiveCredit.record, hcounts, hbelow]
      · rw [hsucc]
        omega
      · rw [hsucc, hchunks]

/-- What is due is counted, and given back at the threshold. -/
theorem replenish_granted (source : NotificationSource) :
    Triple (Watch failed (Granted start (chunksOf source)))
      (replenishReceiveCredit source) (fun _ => Watch failed (Granted start 0))
      (fun _ => Watch failed (Granted start 0)) := by
  refine Triple.getThen fun l hl => ?_
  rcases hrecord : l.session.receiveCredit.record source with ⟨_ | credit, counted⟩
  · -- the counter goes on
    have hset : ∀ l, Granted start (chunksOf source) l ∧
        l.session.receiveCredit.record source = (none, counted) →
        Granted start 0 { l with session := { l.session with receiveCredit := counted } } := by
      rintro l ⟨h, hnone⟩
      obtain ⟨c, hc, hbelow, hcount⟩ | ⟨hcredit, -⟩ := record_cases source h.counted
      · rw [hnone, Prod.mk.injEq] at hc
        obtain ⟨-, rfl⟩ := hc
        obtain ⟨opening, rest, hlink, hgranted, hconsumed, hledger⟩ := h.ledger
        rw [← hcount] at hledger
        exact ⟨⟨h.begun, h.messages⟩, h.negotiated, h.isOpen, hbelow, opening, rest, hlink,
          hgranted, hconsumed, hledger⟩
      · rw [hnone] at hcredit
        cases hcredit
    refine Triple.bind ((watch_session hset).conseq (fun t ht => ?_) (fun _ _ h => h)
      fun _ _ h => h) fun _ => Triple.pure fun _ h => h
    subst ht
    exact hl.step rfl fun h => ⟨h, hrecord⟩
  · -- the counter starts again, and all that it has counted is given back
    let Due := fun l : Life => Granted start 0x41 l ∧ credit = [0xf9, 0x41] ∧
      l.session.receiveCredit.pendingChunks.toNat = 0
    have hset : ∀ l, Granted start (chunksOf source) l ∧
        l.session.receiveCredit.record source = (some credit, counted) →
        Due { l with session := { l.session with receiveCredit := counted } } := by
      rintro l ⟨h, hsome⟩
      obtain ⟨c, hc, -⟩ | ⟨hcredit, hfull⟩ := record_cases source h.counted
      · rw [hsome] at hc
        cases hc
      · rw [hsome, Prod.mk.injEq, Option.some.injEq] at hcredit
        obtain ⟨rfl, rfl⟩ := hcredit
        obtain ⟨opening, rest, hlink, hgranted, hconsumed, hledger⟩ := h.ledger
        rw [hfull] at hledger
        exact ⟨⟨⟨h.begun, h.messages⟩, h.negotiated, h.isOpen, Nat.zero_le _, opening, rest,
          hlink, hgranted, hconsumed, hledger⟩, rfl, rfl⟩
    have hdue : KeptAwaiting Due := by
      refine ⟨fun l n es hs h => ?_, fun l e es hs he h => ?_, fun l h => ?_⟩
      · exact ⟨kept_granted.arrives l n es hs h.1, h.2⟩
      · exact ⟨kept_granted.occurs l e es hs he h.1, h.2⟩
      · exact ⟨kept_granted.refuses l h.1, h.2⟩
    have hwrite : Triple (Watch failed Due) (do orFail (← write .control credit))
        (fun _ => Watch failed (Granted start 0)) (fun _ => Watch failed fun _ => False) := by
      refine writeControlOrFail_rule hdue fun l hl => ?_
      obtain ⟨h, rfl, hzero⟩ := hl
      refine h.append rfl ⟨rfl, rfl, rfl⟩ (fun bytes hentry _ => ?_) ?_
      · cases hentry
        exact ⟨0x41, rfl, by decide, by decide⟩
      · rw [hzero]
        exact CreditMove.settle_granted
    refine Triple.bind ((watch_session hset).conseq (fun t ht => ?_) (fun _ _ h => h)
      fun _ _ h => h) fun _ => hwrite.conseq (fun _ h => h) (fun _ _ h => h)
        fun _ _ h => h.mono fun _ => False.elim
    subst ht
    exact hl.step rfl fun h => ⟨h, hrecord⟩

/-! ## Negotiation -/

theorem writeFrames_granting {frames : List (List UInt8)}
    (hframes : ∀ frame ∈ frames, isCredit frame = true → frame = [0xf9, 0x80]) (n : Nat) :
    Triple (Watch failed (Granting start n)) (writeFrames frames)
      (fun _ => Watch failed (Granting start (n + granted (frames.map (Entry.wrote .control)))))
      (fun _ => Watch failed fun _ => False) := by
  induction frames generalizing n with
  | nil => exact Triple.pure fun _ h => h
  | cons frame frames ih =>
      have hcredit := hframes frame (by simp)
      have hwrite : Triple (Watch failed (Granting start n))
          (do orFail (← write .control frame))
          (fun _ => Watch failed (Granting start (n + granted [.wrote .control frame])))
          (fun _ => Watch failed fun _ => False) := by
        refine writeControlOrFail_rule kept_granting fun l h => ?_
        let written : Life := { l with log := l.log ++ [.wrote .control frame] }
        have hlogged : Logged start written := by
          refine h.toLogged.append rfl fun bytes hentry hbytes => ?_
          cases hentry
          exact ⟨0x80, hcredit hbytes, by decide, by decide⟩
        have hlink : written.log.drop start = l.log.drop start ++ [.wrote .control frame] :=
          h.toLogged.drop_append rfl
        refine ⟨⟨hlogged, h.negotiated, h.subscribed, h.counted⟩, h.isOpen, ?_, ?_⟩
        · rw [hlink, granted_append, h.granted]
        · rw [hlink, consumed_append, h.unused, consumed_control]
      have hassoc : writeFrames (frame :: frames) =
          (do orFail (← write .control frame)) >>= fun _ => writeFrames frames :=
        (bind_assoc _ _ _).symm
      rw [hassoc, List.map_cons, granted_cons, ← Nat.add_assoc]
      exact Triple.bind hwrite fun _ => ih (fun f hf => hframes f (by simp [hf])) _

/-- Only credit messages grant credit. -/
theorem granted_frames (frames : List (List UInt8)) :
    granted (frames.map (Entry.wrote .control)) =
      granted ((frames.filter isCredit).map (Entry.wrote .control)) := by
  induction frames with
  | nil => rfl
  | cons frame frames ih =>
      rw [List.map_cons, granted_cons, ih]
      by_cases hcredit : isCredit frame = true
      · rw [List.filter_cons_of_pos hcredit, List.map_cons]
        exact granted_cons.symm
      · have hother := move_of_not_credit (Bool.not_eq_true _ ▸ hcredit)
        rw [List.filter_cons_of_neg hcredit]
        simp [granted, moves, hother, CreditMove.credit]

theorem Grants.granted {frames : List (List UInt8)} (h : Grants frames) :
    granted (frames.map (Entry.wrote .control)) = 0x80 := by
  rw [granted_frames, h]
  rfl

theorem Grants.frames {frames : List (List UInt8)} (h : Grants frames) :
    ∀ frame ∈ frames, isCredit frame = true → frame = [0xf9, 0x80] := by
  intro frame hmem hcredit
  have hfiltered : frame ∈ frames.filter isCredit := List.mem_filter.mpr ⟨hmem, hcredit⟩
  rw [h] at hfiltered
  exact List.mem_singleton.mp hfiltered

/-! ## The calls -/

/-- A call that keeps `I`, under watch. -/
def Stays (failed : Nat) (I : Life → Prop) {α : Type} (x : Call α) : Prop :=
  Triple (Watch failed I) x (fun _ => Watch failed I) (fun _ => Watch failed I)

theorem stays_rises {I : Life → Prop} {α : Type} {x : Call α} (hrises : Rises x)
    (h : Triple I x (fun _ => I) (fun _ => I)) : Stays failed I x := hrises.watch h

theorem stays_fail {I : Life → Prop} {α : Type} (e : Service.BleError) :
    Stays failed I (fail e : Call α) := fail_kept e

theorem stays_pure {I : Life → Prop} {α : Type} (a : α) : Stays failed I (pure a) :=
  Triple.pure fun _ h => h

theorem stays_bind {I : Life → Prop} {α β : Type} {x : Call α} {f : α → Call β}
    (hx : Stays failed I x) (hf : ∀ a, Stays failed I (f a)) : Stays failed I (x >>= f) :=
  Triple.bind hx hf

theorem stays_get {I : Life → Prop} {α : Type} {f : Life → Call α}
    (hf : ∀ l, Stays failed I (f l)) : Stays failed I (get >>= f) :=
  fun l hl => hf l l hl

theorem kept_watched : KeptBuffers (Watch failed (Granted start due)) := kept_granted.watch

/-- What a session change leaves alone, the books do not see. -/
theorem granted_session {f : VeSmartBleSession → VeSmartBleSession}
    (hnegotiated : ∀ s, (f s).negotiated = s.negotiated)
    (hcredit : ∀ s, (f s).receiveCredit = s.receiveCredit)
    (htransport : ∀ s, (f s).transport = s.transport) :
    Stays failed (Granted start due) (setSession f) := by
  refine watch_session fun l h => h.congr rfl (hnegotiated _) (hcredit _) ?_
  rw [htransport]

theorem pushLastData_granted (d : Delivered) :
    Stays failed (Granted start due) (pushLastData d) := by
  refine (kept_watched.pushLastData (K := fun _ => True) fun _ => trivial).conseq
    (fun _ h => h) (fun _ _ h => h.1) fun _ _ h => h

/-- A notification that has been taken is credited, whatever becomes of it. -/
theorem receiveNotification_granted (d : Delivered) :
    Triple (Watch failed (Granted start (chunksOf d.notification.source)))
      (receiveNotification d) (fun _ => Watch failed (Granted start 0))
      (fun _ => Watch failed (Granted start 0)) := by
  refine Triple.bind (replenish_granted _) fun _ => ?_
  cases d.notification.source with
  | lastData => exact pushLastData_granted d
  | data => exact stays_bind (kept_watched.pushData _) fun _ => stays_pure _
  | control =>
      rcases ControlMessage.parse d.notification.value with e | m
      · exact stays_pure _
      · cases m with
        | error code => exact stays_fail _
        | clearBuffer =>
            exact stays_bind kept_watched.clearPending fun _ => stays_pure _
        | readyToReceive n => exact stays_pure _
        | chunkSize a b => exact stays_pure _
        | unknown opcode len => exact stays_pure _

theorem nextNotification_granted :
    Triple (Watch failed (Granted start 0)) nextNotification
      (fun r l => match r with
        | some (.ok d) => Watch failed (Granted start (chunksOf d.notification.source)) l
        | _ => Watch failed (Granted start 0) l)
      (fun _ => Watch failed (Granted start 0)) := by
  refine kept_watched.nextNotification fun l q source d rest _ _ _ h => ?_
  exact h.step rfl fun h => h.took rfl ⟨rfl, rfl, rfl⟩

theorem deadlinePassed_granted :
    Stays failed (Granted start 0) deadlinePassed :=
  kept_watched.deadlinePassed

theorem payloadTurn_granted : Stays failed (Granted start 0) payloadTurn := by
  refine stays_bind deadlinePassed_granted fun passed => ?_
  cases passed with
  | true => exact stays_fail _
  | false =>
      refine Triple.bind nextNotification_granted fun r => ?_
      rcases r with _ | e | d
      · exact stays_fail _
      · exact stays_fail _
      · exact receiveNotification_granted d

theorem loop_granted {α : Type} {turn : Call (Option α)}
    (h : Stays failed (Granted start 0) turn) : Stays failed (Granted start 0) (loop turn) := by
  refine loop_rule (h.conseq (fun _ h => h) (fun r w hr => ?_) fun _ _ h => h) fun _ h => h
  cases r with
  | none => exact hr
  | some a => exact hr

theorem nextPayload_granted : Stays failed (Granted start 0) nextPayload :=
  loop_granted payloadTurn_granted

variable (decodeStream : List UInt8 → Except Protocol.ProtocolError (List Item))

theorem drainNotification_granted (instanceId : UInt16) (d : Delivered) :
    Triple (Watch failed (Granted start (chunksOf d.notification.source)))
      (drainNotification decodeStream instanceId d)
      (fun _ => Watch failed (Granted start 0)) (fun _ => Watch failed (Granted start 0)) := by
  refine Triple.bind (replenish_granted _) fun _ => ?_
  cases d.notification.source with
  | data => exact kept_watched.pushData _
  | control =>
      rcases ControlMessage.parse d.notification.value with e | m
      · exact stays_pure _
      · cases m with
        | clearBuffer => exact kept_watched.clearPending
        | error code => exact stays_pure _
        | readyToReceive n => exact stays_pure _
        | chunkSize a b => exact stays_pure _
        | unknown opcode len => exact stays_pure _
  | lastData =>
      refine stays_bind (pushLastData_granted d) fun r => ?_
      rcases r with _ | completed
      · exact stays_pure _
      · rcases hvalues : payloadHasValues decodeStream completed.payload instanceId with e | _ | _
        · simp only [hvalues]
          exact stays_pure _
        · simp only [hvalues]
          exact stays_pure _
        · simp only [hvalues]
          exact granted_session (fun _ => rfl) (fun _ => rfl) fun _ => rfl

theorem drain_granted (instanceId : UInt16) :
    Stays failed (Granted start 0) (drainCompletedPayloads decodeStream instanceId) := by
  refine stays_bind (granted_session (fun _ => rfl) (fun _ => rfl) fun _ => rfl) fun _ => ?_
  refine loop_granted (stays_bind deadlinePassed_granted fun passed => ?_)
  cases passed with
  | true => exact stays_pure _
  | false =>
      refine Triple.bind nextNotification_granted fun r => ?_
      rcases r with _ | e | d
      · exact stays_pure _
      · cases e with
        | timeout operation => exact stays_pure _
        | _ => exact stays_fail _
      · exact Triple.bind (drainNotification_granted decodeStream instanceId d) fun _ =>
          stays_pure _

theorem waitForValues_granted (instanceId : UInt16) :
    Stays failed (Granted start 0) (waitForValues decodeStream instanceId) := by
  refine loop_granted (stays_bind nextPayload_granted fun completed => ?_)
  rcases payloadHasValues decodeStream completed.payload instanceId with e | _ | _
  · exact stays_fail _
  · exact stays_pure _
  · exact stays_pure _

theorem writeRequest_granted (payload : List UInt8) :
    Stays failed (Granted start 0) (writeRequest payload) :=
  kept_watched.writeRequest
    (fun l target bytes htarget h => h.step rfl (Granted.writes l target bytes htarget)) payload

theorem requestAttempt_granted (instanceId : UInt16) (payload : List UInt8) (first : Bool) :
    Stays failed (Granted start 0) (requestAttempt decodeStream instanceId payload first) := by
  refine stays_bind kept_watched.clearPending fun _ => ?_
  refine stays_bind (writeRequest_granted payload) fun _ => ?_
  refine Triple.bind (waitForValues_granted decodeStream instanceId).attempt fun r => ?_
  rcases r with halt | values
  · cases halt with
    | failed error =>
        exact (kept_watched.fallBack (R := fun _ => True) (fun _ _ _ _ => trivial)
          (fun l h => h.step rfl fun h => h.congr rfl rfl rfl rfl) first error).conseq
          (fun _ h => h) (fun _ _ h => h.1) fun _ _ h => h
    | dropped => exact Triple.throw fun _ h => h
    | panicked => exact Triple.throw fun _ h => h
  · refine stays_bind (granted_session (fun _ => rfl) (fun _ => rfl) fun _ => rfl) fun _ => ?_
    exact stays_pure _

theorem requestValues_granted (payload : List UInt8) :
    Stays failed (Granted start 0) (requestValues decodeStream payload) := by
  refine stays_get fun l => ?_
  cases l.session.subscribedInstance with
  | none => exact stays_fail _
  | some instanceId =>
      refine stays_bind (granted_session (fun _ => rfl) (fun _ => rfl) fun _ => rfl) fun _ => ?_
      refine stays_bind (requestAttempt_granted decodeStream instanceId payload true) fun r => ?_
      cases r with
      | some values => exact stays_pure _
      | none =>
          refine stays_bind (requestAttempt_granted decodeStream instanceId payload false)
            fun r => ?_
          cases r with
          | some values => exact stays_pure _
          | none => exact Triple.throw fun _ h => h

theorem subscribe_granted (instanceId : UInt16) (payload : List UInt8) :
    Stays failed (Granted start 0) (subscribe decodeStream instanceId payload) := by
  refine stays_get fun l => ?_
  by_cases hnegotiated : l.session.negotiated = true
  · simp only [hnegotiated, Bool.not_true, Bool.false_eq_true, if_false]
    refine stays_get fun l => ?_
    by_cases hsame : l.session.subscribedInstance = some instanceId
    · simp only [hsame, if_true]
      exact drain_granted decodeStream instanceId
    · simp only [hsame, if_false]
      refine stays_bind (writeRequest_granted payload) fun _ => ?_
      refine stays_bind (drain_granted decodeStream instanceId) fun _ => ?_
      exact granted_session (fun _ => rfl) (fun _ => rfl) fun _ => rfl
  · simp only [hnegotiated, Bool.not_false, if_true]
    exact stays_fail _

/-! ### Links come and go -/

/-- The transport closes, or the call is dropped before. -/
theorem transportClose_closes {I : Life → Prop} (h : KeptAwaiting I)
    (hlogged : ∀ l, I l → Logged start l)
    (htransport : ∀ (l : Life) t, t.state.isOpen = l.session.transport.state.isOpen → I l →
      I { l with session := { l.session with transport := t } }) :
    Triple I transportClose
      (fun _ l => Logged start l ∧ l.session.transport.state.isOpen = false) (fun _ => I) := by
  have hcleared : Triple I (setTransport fun t => { t with state := .cleared })
      (fun _ l => Logged start l ∧ l.session.transport.state.isOpen = false) (fun _ => I) :=
    Triple.modifyState fun l hl => ⟨⟨(hlogged l hl).begun, (hlogged l hl).messages⟩, rfl⟩
  have hstreams : Triple I
      (setTransport fun t => { t with streams := none, state := { t.state with device := false } })
      (fun _ => I) (fun _ => I) := Triple.modifyState fun l hl => htransport l _ rfl hl
  intro l hl
  rw [transportClose, exec_bind, exec_get]
  refine Triple.bind hstreams (fun _ => ?_) l hl
  by_cases hours : (l.session.transport.state.device &&
      l.session.transport.state.connectedByUs) = true
  · simp only [hours, if_true]
    exact Triple.bind h.awaitReply fun _ => hcleared
  · simp only [hours, Bool.false_eq_true, if_false]
    exact hcleared

theorem disconnect_ends {I : Life → Prop} (h : KeptAwaiting I)
    (hlogged : ∀ l, I l → Logged start l)
    (htransport : ∀ (l : Life) t, t.state.isOpen = l.session.transport.state.isOpen → I l →
      I { l with session := { l.session with transport := t } }) :
    Triple I disconnect (fun _ => Ungranted start) (fun _ => I) := by
  refine Triple.bind (transportClose_closes h hlogged htransport) fun _ => ?_
  refine Triple.modifyState fun l hl => ⟨⟨⟨hl.1.begun, hl.1.messages⟩, rfl, rfl, rfl⟩, ?_⟩
  intro hopen
  rw [hl.2] at hopen
  cases hopen

/-- Whatever the books, after a disconnect there are none, or it has been dropped. -/
theorem disconnect_accounts :
    Triple (Accounts start) disconnect (fun _ => Accounts start) (fun _ => Accounts start) := by
  rintro l (h | h)
  · refine ((disconnect_ends kept_ungranted (fun l h => h.toLogged) fun l t ht h => ?_).conseq
      (fun _ h => h) (fun _ _ => Or.inl) fun _ _ => Or.inl) l h
    refine ⟨h.toUnnegotiated.congr rfl rfl rfl rfl, fun hopen => ?_⟩
    exact h.unused (ht ▸ hopen)
  · refine ((disconnect_ends kept_granted.toKeptAwaiting (fun l h => h.toLogged)
      fun l t ht h => ?_).conseq
      (fun _ h => h) (fun _ _ => Or.inl) fun _ _ => Or.inr) l h
    exact h.congr rfl rfl rfl ht

theorem disconnect_rises : Rises disconnect := by
  intro n
  refine Triple.bind ?_ fun _ => Triple.modifyState fun _ h => h
  refine Triple.getThen fun l hl => ?_
  refine Triple.bind (Q := fun _ l => n ≤ l.unanswered)
    (Triple.modifyState fun t ht => ht ▸ hl) fun _ => ?_
  have hcleared : Triple (fun l => n ≤ l.unanswered)
      (setTransport fun t => { t with state := .cleared }) (fun _ l => n ≤ l.unanswered)
      (fun _ l => n ≤ l.unanswered) := Triple.modifyState fun _ h => h
  by_cases hours : (l.session.transport.state.device &&
      l.session.transport.state.connectedByUs) = true
  · simp only [hours, if_true]
    exact Triple.bind (kept_rises n).awaitReply fun _ => hcleared
  · simp only [hours, Bool.false_eq_true, if_false]
    exact hcleared

theorem finishCycle_rises : Rises finishCycle := by
  intro n l hl
  rw [finishCycle, exec_bind, exec_get]
  by_cases hreusable : l.session.reusable = true
  · simpa [hreusable] using hl
  · simpa [hreusable] using disconnect_rises n l hl

theorem connect_rises : Rises connect := by
  intro n l hl
  rw [connect, exec_bind, exec_get]
  by_cases hopened : l.session.opened = true
  · simpa [hopened] using hl
  · simpa [hopened, fail] using hl

theorem finishCycle_accounts :
    Triple (Accounts start) finishCycle (fun _ => Accounts start) (fun _ => Accounts start) := by
  intro l hl
  rw [finishCycle, exec_bind, exec_get]
  by_cases hreusable : l.session.reusable = true
  · simpa [hreusable] using hl
  · simpa [hreusable] using disconnect_accounts l hl

theorem connect_accounts :
    Triple (Accounts start) connect (fun _ => Accounts start) (fun _ => Accounts start) := by
  intro l hl
  rw [connect, exec_bind, exec_get]
  by_cases hopened : l.session.opened = true
  · simpa [hopened] using hl
  · simpa [hopened, fail] using hl

/-- A link comes up only where there is none, and nothing has been granted on it. -/
theorem discover_unnegotiated :
    Triple (Unnegotiated start) discover (fun _ => Unnegotiated start)
      (fun _ => Unnegotiated start) := by
  have hopen : Triple (Unnegotiated start) transportOpen (fun _ => Unnegotiated start)
      (fun _ => Unnegotiated start) := by
    intro l hl
    rw [transportOpen, exec_bind, exec_get]
    by_cases hopen : l.session.transport.state.isOpen = true
    · simpa [hopen] using hl
    · simp only [hopen, Bool.false_eq_true, if_false]
      refine Triple.bind kept_unnegotiated.awaitReply (fun r => ?_) l hl
      cases r with
      | error e => exact Triple.pure fun _ h => h
      | ok bs =>
          refine Triple.bind (Q := fun _ => Unnegotiated start) ?_ fun _ =>
            Triple.pure fun _ h => h
          exact Triple.modifyState fun l h => h.congr rfl rfl rfl rfl
  refine Triple.bind hopen fun r => ?_
  refine Triple.bind (orFail_kept r) fun _ => ?_
  exact Triple.modifyState fun l h => h.congr rfl rfl rfl rfl

/-- An open transport stays as it is. -/
theorem discover_open (hopen : l.session.transport.state.isOpen = true) :
    exec discover l = (.ok (), { l with session := { l.session with opened := true } }) := by
  simp [discover, transportOpen, exec_bind, hopen, orFail, setSession]

/-! ### Negotiation of the session -/

/-- A negotiation grants the credit of a link, or fails before it writes. -/
theorem negotiate_accounts {frames : List (List UInt8)} (hframes : Grants frames) :
    Stays failed (Accounts start) (negotiate frames) := by
  have hgrant : Triple (Watch failed (Granting start 0)) (do
      writeFrames frames
      setSession fun s => { s with negotiated := true, reusable := false })
      (fun _ => Watch failed (Accounts start)) (fun _ => Watch failed (Accounts start)) := by
    refine Triple.bind ((writeFrames_granting hframes.frames 0).conseq (fun _ h => h)
      (fun _ _ h => h) fun _ _ h => h.mono fun _ => False.elim) fun _ => ?_
    refine watch_session fun l h => Or.inr ?_
    -- the frames are the opening of the link, and nothing has been consumed since
    refine ⟨⟨h.begun, h.messages⟩, rfl, h.isOpen, ?_, l.log.drop start, [], ?_, ?_, h.unused, ?_⟩
    · rw [show l.session.receiveCredit = .zero from h.counted]
      decide
    · rw [List.append_nil]
    · rw [h.granted, hframes.granted]
    · rw [show l.session.receiveCredit = .zero from h.counted]
      exact Ledger.nil
  refine Triple.getThen fun l hl => ?_
  by_cases hnegotiated : l.session.negotiated = true
  · simp only [hnegotiated, if_true]
    exact Triple.pure fun t ht => ht ▸ hl
  · simp only [hnegotiated, Bool.false_eq_true, if_false]
    have hungranted : Watch failed (Ungranted start) l := by
      refine hl.step rfl fun h => ?_
      rcases h with h | h
      · exact h
      · exact absurd h.negotiated hnegotiated
    refine Triple.bind (kept_ungranted.watch.readControlOpen.conseq
      (fun t ht => ht ▸ hungranted) (fun _ _ h => h) fun _ _ h => h.mono fun _ => Or.inl)
      fun r => ?_
    cases r with
    | error e => exact Triple.throw fun _ h => h.1.mono fun _ => Or.inl
    | ok bytes =>
        refine Triple.bind (Q := fun _ => Watch failed (Granting start 0)) ?_ fun control => ?_
        · refine Triple.pure fun l hl => hl.1.step rfl fun h => ?_
          have hopen := hl.2 _ rfl
          have hunused := h.unused hopen
          exact ⟨h.toUnnegotiated, hopen, hunused.1, hunused.2⟩
        · cases ControlInfo.parse control with
          | none =>
              refine Triple.throw fun _ h => h.mono fun l hl => Or.inl ?_
              exact ⟨hl.toUnnegotiated, fun _ => ⟨hl.granted, hl.unused⟩⟩
          | some info => exact hgrant

/-! ### All of them -/

/-- A call that does nothing to a session that has not negotiated. -/
theorem stays_accounts {α : Type} {x : Call α} (h : Stays failed (Granted start 0) x)
    (hidle : ∀ l, l.session.negotiated = false → l.session.subscribedInstance = none →
      (exec x l).2 = l) : Stays failed (Accounts start) x := by
  intro l hl
  by_cases hgranted : Watch failed (Granted start 0) l
  · exact (h.conseq (fun _ h => h) (fun _ _ h => h.mono fun _ => Or.inr)
      fun _ _ h => h.mono fun _ => Or.inr) l hgranted
  · -- nothing has been negotiated, and so nothing happens
    have hungranted : Ungranted start l := by
      by_contra hother
      exact hgranted (hl.step rfl fun h => h.resolve_left hother)
    have hsame := hidle l hungranted.negotiated hungranted.subscribed
    rcases hx : exec x l with ⟨e | a, l'⟩
    · rw [hx] at hsame
      rw [show l' = l from hsame]
      exact hl
    · rw [hx] at hsame
      rw [show l' = l from hsame]
      exact hl

theorem subscribe_accounts (instanceId : UInt16) (payload : List UInt8) :
    Stays failed (Accounts start) (subscribe decodeStream instanceId payload) := by
  refine stays_accounts (subscribe_granted decodeStream instanceId payload) fun l hno _ => ?_
  simp [subscribe, exec_bind, hno, fail]

theorem requestValues_accounts (payload : List UInt8) :
    Stays failed (Accounts start) (requestValues decodeStream payload) := by
  refine stays_accounts (requestValues_granted decodeStream payload) fun l _ hnone => ?_
  simp [requestValues, exec_bind, hnone, fail]

/-- The step: a call with `may` grants on the same link keeps the books, if it does not
discover. -/
theorem perform_accounts {c : SessionCall} (hdiscover : c ≠ .discover)
    (hframes : ∀ frames, c = .negotiate frames → Grants frames) :
    Stays failed (Accounts start) (perform decodeStream c) := by
  cases c with
  | discover => exact absurd rfl hdiscover
  | connect =>
      exact stays_bind (stays_rises connect_rises connect_accounts) fun _ => stays_pure _
  | negotiate frames =>
      exact stays_bind (negotiate_accounts (hframes frames rfl)) fun _ => stays_pure _
  | subscribe instanceId payload =>
      exact stays_bind (subscribe_accounts decodeStream instanceId payload) fun _ => stays_pure _
  | requestValues payload =>
      exact stays_bind (requestValues_accounts decodeStream payload) fun _ => stays_pure _
  | finishCycle =>
      exact stays_bind (stays_rises finishCycle_rises finishCycle_accounts) fun _ => stays_pure _
  | disconnect =>
      exact stays_bind (stays_rises disconnect_rises disconnect_accounts) fun _ => stays_pure _

end

end VeSmart.Client
