import VeSmart.Client.Link
import VeSmart.Collector.Protocol
import VeSmart.Service.SessionStages

set_option autoImplicit false

/-! # The collector with its session

The service of the daemon over the session of the client (`main.rs`): its environment is the life
of the session, with what will happen in each call that is to come, beside the environment of the
other ports. Everything that is proved of the loop holds here of the writes of the session. -/

namespace VeSmart.Collector

open VeSmart.Lib VeSmart.Protocol VeSmart.Service

/-- What the device sends before a call, and the script of the call. -/
abbrev CallScript := List Bluez.Notification × List Client.Event

/-- What is observed of the session, until one of its disconnects is cut off: the writes on the
links that are closed and on the current one, and whether a call has panicked. -/
structure Observed where
  links : List (List Client.Write)
  current : List Client.Write
  cut : Bool
  panicked : Bool

structure SessionWorld (ω : Type) where
  life : Client.Life
  scripts : List CallScript
  seen : Observed
  rest : ω

/-- The calls that disconnect. -/
def releases : Client.SessionCall → Bool
  | .finishCycle => true
  | .disconnect => true
  | _ => false

def isDropped {α : Type} : Except Client.Halt α → Bool
  | .error .dropped => true
  | _ => false

def isPanic {α : Type} : Except Client.Halt α → Bool
  | .error .panicked => true
  | _ => false

/-- A call has ended. A link that is down is closed. -/
def Observed.record {α : Type} (seen : Observed) (c : Client.SessionCall)
    (result : Except Client.Halt α) (l : Client.Life) : Observed :=
  let current := (Client.writes l.log).drop seen.links.flatten.length
  if seen.cut then seen
  else if l.session.transport.state.isOpen then
    ⟨seen.links, current, releases c && isDropped result, seen.panicked || isPanic result⟩
  else
    ⟨seen.links ++ [current], [], releases c && isDropped result, seen.panicked || isPanic result⟩

namespace SessionWorld

variable {ω : Type}

/-- A session that has not been used. -/
def new (scripts : List CallScript) (rest : ω) : SessionWorld ω where
  life := .initial
  scripts := scripts
  seen := ⟨[], [], false, false⟩
  rest := rest

section

variable (decodeStream : List UInt8 → Except Protocol.ProtocolError (List Item))

/-- How the next call begins: the device has sent, and its script is ahead. -/
def facing (w : SessionWorld ω) : Client.Life :=
  ((w.scripts.headD ([], [])).1.foldl Client.Life.arrive w.life).facing
    (w.scripts.headD ([], [])).2

/-- A call of the session, and what it leaves. -/
def call (c : Client.SessionCall) (w : SessionWorld ω) :
    Except Client.Halt (Option Client.Completed) × SessionWorld ω :=
  let out := exec (Client.perform decodeStream c) w.facing
  (out.1, { w with
    life := out.2
    scripts := w.scripts.tail
    seen := w.seen.record c out.1 out.2 })

/-- The answer of a call; a future that was dropped has none. -/
def answer {α β : Type} (f : α → β) : Except Client.Halt α → Timed β
  | .ok a => some (.ok (f a))
  | .error (.failed e) => some (.error e)
  | .error .dropped => none
  | .error .panicked => none

def unitCall (c : Client.SessionCall) (w : SessionWorld ω) : Timed Unit × SessionWorld ω :=
  let out := w.call decodeStream c
  (answer (fun _ => ()) out.1, out.2)

/-- The session as the service's port. -/
def port : BleSession (SessionWorld ω) where
  discover := fun _ => unitCall decodeStream .discover
  connect := fun _ => unitCall decodeStream .connect
  negotiate := fun frames _ => unitCall decodeStream (.negotiate frames)
  subscribe := fun inst payload _ => unitCall decodeStream (.subscribe inst payload)
  requestValues := fun payload _ _ w =>
    let out := w.call decodeStream (.requestValues payload)
    (answer (fun values => (values.map Client.Completed.payload).getD []) out.1, out.2)
  finishCycle := fun _ => unitCall decodeStream .finishCycle
  disconnect := fun _ => unitCall decodeStream .disconnect

end

/-- A port that has nothing to do with the session. -/
def beside {α : Type} (f : ω → α × ω) (w : SessionWorld ω) : α × SessionWorld ω :=
  ((f w.rest).1, { w with rest := (f w.rest).2 })

end SessionWorld

/-- The collector of the daemon: `k` with the session of the client and the protocol adapter. -/
def onDevice {ω σ : Type} (m : Minicbor) (k : Service.Collector ω σ) :
    Service.Collector (SessionWorld ω) σ where
  config := k.config
  device := k.device
  resolves := k.resolves
  energy := k.energy
  backoff := k.backoff
  interval := k.interval
  ports := {
    ble := SessionWorld.port m.decodeStream
    protocol := veSmartProtocol m k.device.device (SessionWorld.beside k.ports.now)
    storage := k.ports.storage
    deliver := fun payload => SessionWorld.beside (k.ports.deliver payload)
    render := fun ctx => SessionWorld.beside (k.ports.render ctx)
    now := SessionWorld.beside k.ports.now
    shutdownRequested := SessionWorld.beside k.ports.shutdownRequested
    wait := fun d w => { w with rest := k.ports.wait d w.rest } }

/-- The requests of an instance; there are none for an instance that has no plan. -/
def plannedRequests (m : Minicbor) (inst : UInt16) : AcquirePlan :=
  match acquirePlan m inst mvpVregs with
  | .ok plan => plan
  | .error _ => ⟨[], [], []⟩

/-! ## Stages of the session -/

section

variable {plan : AcquirePlan} {inst : UInt16} {before : List Client.Write}

/-- What holds of the session when a cycle has come to a stage, after the writes `before` on the
links before. -/
def StageOf (plan : AcquirePlan) (inst : UInt16) (before : List Client.Write) :
    SessionStage → Client.Wire → Prop
  | .idle, w => (w.Down ∧ w.writes = before) ∨ Client.Asking plan inst before w
  | .discovered, w => Client.Negotiating before [] w ∨ Client.Asking plan inst before w
  | .connected, w => Client.Negotiating before [] w ∨ Client.Asking plan inst before w
  | .negotiated, w =>
      Client.Serving plan before none [] w ∨ Client.Asking plan inst before w
  | .subscribed, w => Client.Asking plan inst before w
  | .answered, w => Client.Asking plan inst before w
  | .broken, w => Client.Broken plan before w

/-- Nothing has panicked, and every link is lawful. -/
structure Observed.Lawful (plan : AcquirePlan) (seen : Observed) : Prop where
  panicked : seen.panicked = false
  links : ∀ link ∈ seen.links ++ [seen.current], Client.Lawful plan link

/-- The session at a stage, as far as it is observed. -/
structure Staged {ω : Type} (plan : AcquirePlan) (inst : UInt16) (s : SessionStage)
    (w : SessionWorld ω) : Prop where
  lawful : w.seen.Lawful plan
  stage : w.seen.cut = false → StageOf plan inst w.seen.links.flatten s w.life.wire

/-- The writes of a link are what was written since the one before. -/
def OnLink (plan : AcquirePlan) (before : List Client.Write) (w : Client.Wire) : Prop :=
  ∃ link, w.writes = before ++ link ∧ Client.Lawful plan link

theorem Lawful.nil : Client.Lawful plan [] := .negotiating List.nil_prefix

/-- The step of the observer. -/
theorem Observed.Lawful.record {α : Type} {seen : Observed} (h : seen.Lawful plan)
    {c : Client.SessionCall} {result : Except Client.Halt α} {l : Client.Life}
    (hpanic : seen.cut = false → isPanic result = false)
    (hlink : seen.cut = false → OnLink plan seen.links.flatten l.wire) :
    (seen.record c result l).Lawful plan := by
  unfold Observed.record
  extract_lets current
  by_cases hcut : seen.cut = true
  · rw [if_pos hcut]
    exact h
  have hcut : seen.cut = false := by simpa using hcut
  obtain ⟨link, hwrites, hlawful⟩ := hlink hcut
  have hcurrent : current = link := by
    show (Client.writes l.log).drop _ = link
    rw [show Client.writes l.log = seen.links.flatten ++ link from hwrites, List.drop_left]
  have hlinks : ∀ link ∈ seen.links, Client.Lawful plan link :=
    fun link hmem => h.links link (by simp [hmem])
  rw [if_neg (by simp [hcut]), hcurrent]
  by_cases hopen : l.session.transport.state.isOpen = true
  · rw [if_pos hopen]
    refine ⟨by simp [h.panicked, hpanic hcut], fun link' hmem => ?_⟩
    rcases List.mem_append.mp hmem with hmem | hmem
    · exact hlinks link' hmem
    · rw [List.mem_singleton.mp hmem]
      exact hlawful
  · rw [if_neg hopen]
    refine ⟨by simp [h.panicked, hpanic hcut], fun link' hmem => ?_⟩
    simp only [List.mem_append, List.mem_singleton] at hmem
    rcases hmem with (hmem | rfl) | rfl
    · exact hlinks link' hmem
    · exact hlawful
    · exact Lawful.nil

/-- On a link that is up, the links before it stay. -/
theorem record_up {α : Type} {seen : Observed} {c : Client.SessionCall}
    {result : Except Client.Halt α} {l : Client.Life} (hcut : seen.cut = false)
    (h : l.wire.Up) : (seen.record c result l).links = seen.links := by
  have hopen : l.session.transport.state.isOpen = true := by
    rw [show l.session.transport.state = .committed from h.state]
    rfl
  simp [Observed.record, hcut, hopen]

/-- A link that is down is behind. -/
theorem record_down {α : Type} {seen : Observed} {c : Client.SessionCall}
    {result : Except Client.Halt α} {l : Client.Life} (hcut : seen.cut = false)
    (h : l.wire.Down) (hlink : OnLink plan seen.links.flatten l.wire) :
    (seen.record c result l).links.flatten = l.wire.writes := by
  have hopen : l.session.transport.state.isOpen = false := by
    rw [show l.session.transport.state = .cleared from h.state]
    rfl
  obtain ⟨link, hwrites, -⟩ := hlink
  have hlog : Client.writes l.log = seen.links.flatten ++ link := hwrites
  simp [Observed.record, hcut, hopen, hwrites, hlog]

theorem record_cut {α : Type} {seen : Observed} {c : Client.SessionCall}
    {result : Except Client.Halt α} {l : Client.Life} :
    (seen.record c result l).cut = (seen.cut || (releases c && isDropped result)) := by
  unfold Observed.record
  extract_lets current
  by_cases hcut : seen.cut = true
  · simp [hcut]
  · by_cases hopen : l.session.transport.state.isOpen = true
    · simp [hcut, hopen]
    · simp [hcut, hopen]

theorem StageOf.onLink {s : SessionStage} {w : Client.Wire} (h : StageOf plan inst before s w) :
    OnLink plan before w := by
  have hasking : Client.Asking plan inst before w → OnLink plan before w := fun h => h.broken.writes
  cases s with
  | idle =>
      rcases h with ⟨hdown, hwrites⟩ | h
      · exact (Client.broken_down hdown hwrites).writes
      · exact hasking h
  | discovered => exact h.elim (fun h => (h.broken List.nil_prefix).writes) hasking
  | connected => exact h.elim (fun h => (h.broken List.nil_prefix).writes) hasking
  | negotiated =>
      exact h.elim (fun h => (h.broken (n := 0) List.nil_prefix).writes) hasking
  | subscribed => exact hasking h
  | answered => exact hasking h
  | broken => exact h.writes

theorem asking_up {w : Client.Wire} (h : Client.Asking plan inst before w) : w.Up := by
  obtain ⟨n, hserving⟩ := h
  exact hserving.toUp

/-- Every stage may break. -/
theorem StageOf.breaks {s : SessionStage} {w : Client.Wire} (h : StageOf plan inst before s w) :
    Client.Broken plan before w := by
  refine ⟨?_, h.onLink⟩
  have hasking : Client.Asking plan inst before w → w.Down ∨ w.Up := fun h => h.broken.transport
  cases s with
  | idle => exact h.elim (fun h => Or.inl h.1) hasking
  | discovered => exact h.elim (fun h => Or.inr h.toUp) hasking
  | connected => exact h.elim (fun h => Or.inr h.toUp) hasking
  | negotiated => exact h.elim (fun h => Or.inr h.toUp) hasking
  | subscribed => exact hasking h
  | answered => exact hasking h
  | broken => exact h.transport

/-! ## The calls -/

variable {ω : Type} {decodeStream : List UInt8 → Except Protocol.ProtocolError (List Item)}

theorem wire_facing (w : SessionWorld ω) : w.facing.wire = w.life.wire := by
  have harrive : ∀ (sends : List Bluez.Notification) (l : Client.Life),
      (sends.foldl Client.Life.arrive l).wire = l.wire := by
    intro sends
    induction sends with
    | nil => exact fun _ => rfl
    | cons n sends ih => exact fun l => (ih _).trans (Client.wire_arrive l n)
  exact harrive _ w.life

/-- A call that has failed, with the link that it leaves. -/
theorem staged_broken {w : SessionWorld ω} {s : SessionStage} (hw : Staged plan inst s w)
    {c : Client.SessionCall}
    (h : w.seen.cut = false → isPanic (w.call decodeStream c).1 = false ∧
      Client.Broken plan w.seen.links.flatten (w.call decodeStream c).2.life.wire) :
    Staged plan inst .broken (w.call decodeStream c).2 := by
  have hkept : w.seen.cut = false → w.seen.cut = false ∧
      Client.Broken plan w.seen.links.flatten (w.call decodeStream c).2.life.wire :=
    fun hcut => ⟨hcut, (h hcut).2⟩
  refine ⟨hw.lawful.record (fun hcut => (h hcut).1) fun hcut => (h hcut).2.writes, fun hcut => ?_⟩
  have hbefore : w.seen.cut = false := by
    have hafter : (w.seen.cut || _) = false := record_cut.symm.trans hcut
    exact (Bool.or_eq_false_iff.mp hafter).1
  obtain ⟨-, htransport, hlink⟩ := hkept hbefore
  rcases htransport with hdown | hup
  · refine Client.broken_down hdown ?_
    exact (record_down hbefore hdown hlink).symm
  · refine ⟨Or.inr hup, ?_⟩
    rw [show (w.call decodeStream c).2.seen.links = w.seen.links from record_up hbefore hup]
    exact hlink

/-- A call ends in a stage, or breaks the session. -/
def CallEnds (plan : AcquirePlan) (inst : UInt16) (s : SessionStage)
    (out : Except Client.Halt (Option Client.Completed) × SessionWorld ω) : Prop :=
  (∀ r, out.1 = .ok r → Staged plan inst s out.2) ∧
    ((∀ r, out.1 ≠ .ok r) → Staged plan inst .broken out.2)

/-- A call on a link. -/
theorem call_staged {c : Client.SessionCall} {s s' : SessionStage}
    (h : ∀ before, Triple (fun l => StageOf plan inst before s l.wire)
      (Client.perform decodeStream c)
      (fun _ l => StageOf plan inst before s' l.wire ∧ l.wire.Up) (Client.Fails plan before))
    {w : SessionWorld ω} (hw : Staged plan inst s w) :
    CallEnds plan inst s' (w.call decodeStream c) := by
  have hstart : w.seen.cut = false →
      StageOf plan inst w.seen.links.flatten s w.facing.wire := fun hcut => by
    rw [wire_facing]
    exact hw.stage hcut
  have hrun := fun hcut => h w.seen.links.flatten w.facing (hstart hcut)
  have hcall : w.call decodeStream c = ((exec (Client.perform decodeStream c) w.facing).1, { w with
      life := (exec (Client.perform decodeStream c) w.facing).2
      scripts := w.scripts.tail
      seen := w.seen.record c (exec (Client.perform decodeStream c) w.facing).1
        (exec (Client.perform decodeStream c) w.facing).2 }) := rfl
  have hbroken : (w.seen.cut = false → isPanic (w.call decodeStream c).1 = false ∧
      Client.Broken plan w.seen.links.flatten (w.call decodeStream c).2.life.wire) →
      Staged plan inst .broken (w.call decodeStream c).2 := staged_broken hw
  rcases hexec : exec (Client.perform decodeStream c) w.facing with ⟨halt | r, l⟩
  · rw [hexec] at hrun
    refine ⟨fun r hr => ?_, fun _ => hbroken fun hcut => ?_⟩
    · rw [hcall, hexec] at hr
      cases hr
    · rw [hcall, hexec]
      obtain ⟨hhalt, hlink⟩ := hrun hcut
      refine ⟨?_, hlink⟩
      cases halt with
      | failed e => rfl
      | dropped => rfl
      | panicked => exact absurd rfl hhalt
  · rw [hexec] at hrun
    refine ⟨fun _ _ => ?_, fun hno => ?_⟩
    · rw [hcall, hexec]
      refine ⟨hw.lawful.record (fun _ => rfl) fun hcut => (hrun hcut).1.onLink, fun hcut => ?_⟩
      have hbefore : w.seen.cut = false := by
        have hafter : (w.seen.cut || _) = false := record_cut.symm.trans hcut
        exact (Bool.or_eq_false_iff.mp hafter).1
      obtain ⟨hstage, hup⟩ := hrun hbefore
      show StageOf plan inst (w.seen.record c (.ok r) l).links.flatten s' l.wire
      rw [record_up hbefore hup]
      exact hstage
    · rw [hcall, hexec] at hno
      exact absurd rfl (hno r)

/-- A call that disconnects: after it there is no link, or the one that is to be used again. -/
theorem call_releases {c : Client.SessionCall} {s : SessionStage} (hc : releases c = true)
    (h : ∀ before, Triple (fun l => StageOf plan inst before s l.wire)
      (Client.perform decodeStream c)
      (fun _ l => Client.Asking plan inst before l.wire ∨ (l.wire.Down ∧ OnLink plan before l.wire))
      (fun halt l => halt = .dropped ∧ OnLink plan before l.wire))
    {w : SessionWorld ω} (hw : Staged plan inst s w) :
    Staged plan inst .idle (w.call decodeStream c).2 := by
  have hstart : w.seen.cut = false →
      StageOf plan inst w.seen.links.flatten s w.facing.wire := fun hcut => by
    rw [wire_facing]
    exact hw.stage hcut
  have hrun := fun hcut => h w.seen.links.flatten w.facing (hstart hcut)
  have hcall : w.call decodeStream c = ((exec (Client.perform decodeStream c) w.facing).1, { w with
      life := (exec (Client.perform decodeStream c) w.facing).2
      scripts := w.scripts.tail
      seen := w.seen.record c (exec (Client.perform decodeStream c) w.facing).1
        (exec (Client.perform decodeStream c) w.facing).2 }) := rfl
  rw [hcall]
  rcases hexec : exec (Client.perform decodeStream c) w.facing with ⟨halt | r, l⟩
  · rw [hexec] at hrun
    refine ⟨hw.lawful.record (fun hcut => ?_) fun hcut => (hrun hcut).2, fun hcut => ?_⟩
    · rw [(hrun hcut).1]
      rfl
    · -- the disconnect has been cut off, and nothing more is observed
      have hafter : (w.seen.cut || (releases c && isDropped (Except.error halt))) = false :=
        record_cut.symm.trans hcut
      obtain ⟨hbefore, hdropped⟩ := Bool.or_eq_false_iff.mp hafter
      rw [(hrun hbefore).1, hc] at hdropped
      cases hdropped
  · rw [hexec] at hrun
    have hlink : w.seen.cut = false → OnLink plan w.seen.links.flatten l.wire := fun hcut =>
      (hrun hcut).elim (fun hasking => hasking.broken.writes) fun hdown => hdown.2
    refine ⟨hw.lawful.record (fun _ => rfl) hlink, fun hcut => ?_⟩
    have hbefore : w.seen.cut = false := by
      have hafter : (w.seen.cut || _) = false := record_cut.symm.trans hcut
      exact (Bool.or_eq_false_iff.mp hafter).1
    rcases hrun hbefore with hasking | ⟨hdown, hown⟩
    · refine Or.inr ?_
      show Client.Asking plan inst (w.seen.record c (.ok r) l).links.flatten l.wire
      obtain ⟨n, hserving⟩ := hasking
      rw [record_up hbefore hserving.toUp]
      exact ⟨n, hserving⟩
    · exact Or.inl ⟨hdown, (record_down hbefore hdown hown).symm⟩

/-! ## The stages of a cycle -/

theorem Staged.discover {w : SessionWorld ω} (hw : Staged plan inst .idle w) :
    CallEnds plan inst .discovered (w.call decodeStream .discover) := by
  refine call_staged (fun before => ?_) hw
  refine Triple.bind (Q := fun _ l => StageOf plan inst before .discovered l.wire ∧ l.wire.Up) ?_
    fun _ => Triple.pure fun _ h => h
  rintro l (hdown | hasking)
  · exact Client.discover_down.conseq (fun _ h => h) (fun _ _ h => ⟨Or.inl h, h.toUp⟩)
      (fun _ _ h => h) l hdown
  · exact (Client.discover_up fun _ h => asking_up h).conseq (fun _ h => h)
      (fun _ _ h => ⟨Or.inr h, asking_up h⟩) (fun _ _ h => h) l hasking

theorem Staged.connect {w : SessionWorld ω} (hw : Staged plan inst .discovered w) :
    CallEnds plan inst .connected (w.call decodeStream .connect) := by
  refine call_staged (fun before => ?_) hw
  refine Triple.bind (Q := fun _ l => StageOf plan inst before .connected l.wire ∧ l.wire.Up) ?_
    fun _ => Triple.pure fun _ h => h
  have hup : ∀ w, StageOf plan inst before .discovered w → w.Up := fun w h =>
    h.elim (fun h => h.toUp) asking_up
  exact (Client.connect_up hup).conseq (fun _ h => h) (fun _ _ h => ⟨h, hup _ h⟩) fun _ _ h => h

theorem Staged.negotiate {w : SessionWorld ω} (hw : Staged plan inst .connected w) :
    CallEnds plan inst .negotiated (w.call decodeStream (.negotiate plan.negotiationFrames)) := by
  refine call_staged (fun before => ?_) hw
  refine Triple.bind (Q := fun _ l => StageOf plan inst before .negotiated l.wire ∧ l.wire.Up) ?_
    fun _ => Triple.pure fun _ h => h
  rintro l (hfresh | hasking)
  · exact Client.negotiate_fresh.conseq (fun _ h => h) (fun _ _ h => ⟨Or.inl h, h.toUp⟩)
      (fun _ _ h => h) l hfresh
  · exact (Client.negotiate_again plan.negotiationFrames).conseq (fun _ h => h)
      (fun _ _ h => ⟨Or.inr h, asking_up h⟩) (fun _ _ h => h) l hasking

theorem Staged.subscribe {w : SessionWorld ω} (hw : Staged plan inst .negotiated w) :
    CallEnds plan inst .subscribed
      (w.call decodeStream (.subscribe inst plan.subscribePayload)) := by
  refine call_staged (fun before => ?_) hw
  refine Triple.bind (Q := fun _ l => StageOf plan inst before .subscribed l.wire ∧ l.wire.Up) ?_
    fun _ => Triple.pure fun _ h => h
  exact (Client.subscribe_asking decodeStream).conseq (fun _ h => h)
    (fun _ _ h => ⟨h, asking_up h⟩) fun _ _ h => h

theorem Staged.requestValues {w : SessionWorld ω} (hw : Staged plan inst .subscribed w) :
    CallEnds plan inst .answered (w.call decodeStream (.requestValues plan.valuesPayload)) := by
  refine call_staged (fun before => ?_) hw
  refine Triple.bind (Q := fun _ l => StageOf plan inst before .answered l.wire ∧ l.wire.Up) ?_
    fun _ => Triple.pure fun _ h => h
  exact (Client.requestValues_asking decodeStream).conseq (fun _ h => h)
    (fun _ _ h => ⟨h, asking_up h⟩) fun _ _ h => h

theorem Staged.finishCycle {w : SessionWorld ω} (hw : Staged plan inst .answered w) :
    Staged plan inst .idle (w.call decodeStream .finishCycle).2 := by
  refine call_releases (s := .answered) rfl (fun before => ?_) hw
  exact Triple.bind (@Client.finishCycle_asking plan inst before)
    fun _ => Triple.pure fun _ h => h

theorem Staged.disconnect {w : SessionWorld ω} (hw : Staged plan inst .broken w) :
    Staged plan inst .idle (w.call decodeStream .disconnect).2 := by
  refine call_releases (s := .broken) rfl (fun before => ?_) hw
  exact Triple.bind (@Client.disconnect_broken plan before)
    fun _ => Triple.pure fun _ h => Or.inr h

theorem Staged.breaks {s : SessionStage} {w : SessionWorld ω} (hw : Staged plan inst s w) :
    Staged plan inst .broken w :=
  ⟨hw.lawful, fun hcut => (hw.stage hcut).breaks⟩

theorem answer_ok {α β : Type} {f : α → β} {result : Except Client.Halt α} {b : β}
    (h : SessionWorld.answer f result = some (.ok b)) : ∃ a, result = .ok a ∧ f a = b := by
  rcases result with (e | _ | _) | a
  · cases h
  · cases h
  · cases h
  · cases h
    exact ⟨a, rfl, rfl⟩

/-- The answer of a call goes with its stage. -/
theorem CallEnds.ends {α : Type} {s : SessionStage}
    {out : Except Client.Halt (Option Client.Completed) × SessionWorld ω}
    (h : CallEnds plan inst s out) (f : Option Client.Completed → α) :
    Ends (Staged plan inst s) (Staged plan inst .broken)
      (SessionWorld.answer f out.1, out.2) := by
  refine ⟨fun a ha => ?_, fun hno => ?_⟩
  · obtain ⟨r, hr, -⟩ := answer_ok ha
    exact h.1 r hr
  · refine h.2 fun r hr => hno (f r) ?_
    simp only [hr]
    rfl

/-- The daemon uses its session stage by stage. -/
theorem onDevice_staged {σ : Type} (m : Minicbor) (k : Service.Collector ω σ) :
    StagedSession (onDevice m k) (plannedRequests m k.config.inst)
      (Staged (plannedRequests m k.config.inst) k.config.inst) where
  others s := by
    have hbeside : ∀ {α : Type} (f : ω → α × ω) (w : SessionWorld ω),
        Staged (plannedRequests m k.config.inst) k.config.inst s w →
          Staged (plannedRequests m k.config.inst) k.config.inst s (SessionWorld.beside f w).2 :=
      fun f w hw => ⟨hw.lawful, hw.stage⟩
    exact {
      vregs := fun _ hw => hw
      acquirePlan := fun _ _ _ hw => hw
      parseResponse := fun _ _ _ hw => hw
      translate := fun _ _ => hbeside _
      deliver := fun _ => hbeside _
      render := fun _ => hbeside _
      now := hbeside _
      shutdownRequested := hbeside _
      wait := fun _ _ hw => ⟨hw.lawful, hw.stage⟩ }
  plans env env' p hp := by
    have hplan : acquirePlan m k.config.inst mvpVregs = .ok p := hp
    simp [plannedRequests, hplan]
  discover _ w hw := hw.discover.ends _
  connect _ w hw := hw.connect.ends _
  negotiate _ w hw := hw.negotiate.ends _
  subscribe _ w hw := hw.subscribe.ends _
  requestValues _ _ w hw := hw.requestValues.ends _
  finishCycle _ w hw := ⟨fun _ _ => hw.finishCycle, fun _ => hw.finishCycle.breaks⟩
  disconnect _ w hw := hw.disconnect
  breaks _ w hw := hw.breaks

/-- **However the device and the other ports behave, the daemon's session does not panic, and what
it writes on each of its links is lawful**, up to a disconnect that is cut off. The response
and the connect timeout are such that an `Instant` can hold their ends. -/
theorem session_disciplined {σ : Type} (m : Minicbor) (k : Service.Collector ω σ)
    (scripts : List CallScript) (rest : ω) (store : σ) (drains iterations : Nat) :
    (exec (run (onDevice m k) drains iterations)
      (Runner.new (.new scripts rest) store)).2.ctx.env.seen.Lawful
        (plannedRequests m k.config.inst) := by
  have hnew : Staged (plannedRequests m k.config.inst) k.config.inst .idle
      (SessionWorld.new scripts rest) :=
    ⟨⟨rfl, fun link hmem => by
      rw [List.mem_singleton.mp hmem]
      exact Lawful.nil⟩, fun _ => Or.inl ⟨⟨rfl, rfl, rfl, rfl, rfl⟩, rfl⟩⟩
  exact (run_session (onDevice_staged m k) hnew store drains iterations).lawful

end

end VeSmart.Collector
