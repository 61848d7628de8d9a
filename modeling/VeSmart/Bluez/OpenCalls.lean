import VeSmart.Bluez.Gatt

set_option autoImplicit false

/-! # The calls of `open` (`victron-bluez/src/session.rs`, `adapter.rs`)

`openTransport` is `BluezTransport::open` with all that it reads: the adapter, the device, the
connection and its retries, the GATT surface. It records each await point with its reply.
`open_refines` says that the record is a run of the machine of `open`, so what the machine keeps
holds of `open` itself. `open_disciplined` says what may be called: the adapter is powered on only
if that was opted into, and only a device that was resolved and has no link is connected to, a
bounded number of times. -/

namespace VeSmart.Bluez

open VeSmart.Lib

/-! ## The adapter -/

def defaultAdapter : String := "hci0"

/-- The configured adapter; without one the default adapter, or the first there is. -/
def pickAdapterName (names : List String) (configured : Option String) : Except BleError String :=
  match configured with
  | some configured =>
      if configured ∈ names then .ok configured else .error (.adapterNotFound configured)
  | none =>
      if defaultAdapter ∈ names then .ok defaultAdapter
      else match names.head? with
        | some name => .ok name
        | none => .error (.adapterNotFound defaultAdapter)

/-- `adapter` is the answer to the request for the adapter that was picked. -/
def resolveAdapter (names : Answer (List String)) (adapter : Except ErrorKind Unit)
    (configured : Option String) : Except BleError String := do
  let names ← bounded "adapter-names" names
  let name ← pickAdapterName names configured
  adapter.mapError classifyBluerKind
  .ok name

/-! ## Answers -/

/-- What happens to one `device.connect()`. A reply takes time; a pause takes the time that was
asked for at least. -/
structure ConnectAnswers where
  reply : Answer Unit
  took : Duration
  took_pos : 0 < took
  cancel : Answer Unit
  cancelTook : Duration
  overslept : Duration

/-- What BlueZ answers while the transport is opened. -/
structure OpenAnswers where
  session : Answer Unit
  adapterNames : Answer (List String)
  adapter : Except ErrorKind Unit
  powered : Answer Bool
  setPowered : Answer Unit
  poweredAgain : Answer Bool
  discovery : DiscoveryAnswers
  connected : Answer Bool
  connects : List ConnectAnswers
  services : Answer (List ServiceAnswers)
  notify : NotificationSource → Answer Unit
  rollback : Answer Unit

/-! ## The record -/

/-- The await points that were passed, with the replies. -/
abbrev Record := List (Await × Reply)

/-- A part of `open`. It fails with an error, or with nothing if it still waits. -/
abbrev OpenCall (α : Type) := Prog Record (Option BleError) α

def passed (a : Await) (r : Reply) : OpenCall Unit := modify fun record => record ++ [(a, r)]

/-- A call has ended with `r`. -/
def settle {α : Type} (a : Await) (reply : α → Reply) (r : Except BleError α) : OpenCall α :=
  match r with
  | .ok value => do
      passed a (reply value)
      pure value
  | .error e => do
      passed a (.error e false)
      throw (some e)

/-- The reply to a call whose result is ignored. -/
def ignored (operation : String) (answer : Answer Unit) : Reply :=
  match bounded operation answer with
  | .ok _ => .ok
  | .error e => .error e false

/-! ## Connecting -/

def retryableConnectKind : ErrorKind → Bool
  | .connectionAttemptFailed => true
  | .failed => true
  | .inProgress => true
  | .notReady => true
  | _ => false

/-- Cancel an attempt, pause, and go on with the time at which the next attempt begins, unless the
deadline has passed. -/
def pauseAfter (timeout elapsed : Duration) (c : ConnectAnswers) : OpenCall Duration :=
  let cancelled := elapsed + c.took + c.cancelTook
  let woken := cancelled + min (timeout - cancelled) nanosPerSec + c.overslept
  if timeout < cancelled then do
    passed .connectRetryCancel .expired
    throw (some (.timeout "connect"))
  else do
    passed .connectRetryCancel (ignored "connect-retry-cancel" c.cancel)
    if timeout < woken then do
      passed .connectRetrySleep .expired
      throw (some (.timeout "connect"))
    else do
      passed .connectRetrySleep .ok
      pure woken

/-- Connect, and try again after a transient failure, within a deadline that an `Instant` can
hold and that is ahead at the first attempt. -/
def connectWithRetry (timeout : Duration) : Duration → List ConnectAnswers → OpenCall Unit
  | _, [] => throw none
  | elapsed, c :: cs =>
      match c.reply with
      | some (.ok ()) => passed .connect .ok
      | some (.error kind) =>
          if retryableConnectKind kind then do
            passed .connect (.error (classifyBluerKind kind) true)
            let elapsed ← pauseAfter timeout elapsed c
            connectWithRetry timeout elapsed cs
          else do
            passed .connect (.error (classifyBluerKind kind) false)
            throw (some (classifyBluerKind kind))
      | none => do
          passed .connect .timeout
          passed .connectTimeoutCancel (ignored "connect-timeout-cancel" c.cancel)
          throw (some (.timeout "connect"))

/-! ## Opening -/

/-- The power state of an adapter is changed only if that was opted into. -/
def ensurePowered (name : String) (policy : PowerPolicy) (answers : OpenAnswers) :
    OpenCall Unit := do
  let powered ← settle .adapterPowered .flag (bounded "adapter-powered" answers.powered)
  if powered then pure ()
  else match policy with
    | .requireManual => throw (some (.adapterNotPowered name))
    | .enableIfOff => do
        settle .adapterSetPowered (fun _ => .ok) (bounded "adapter-set-powered" answers.setPowered)
        let powered ← settle .adapterPoweredAgain .flag
          (bounded "adapter-powered" answers.poweredAgain)
        if powered then pure () else throw (some (.adapterPowerFailed name))

/-- A connection that somebody else has made is not taken over. -/
def refuseForeign (answers : OpenAnswers) : OpenCall Unit := do
  let alreadyConnected ← settle .deviceConnected .flag
    (bounded "device-connected" answers.connected)
  if alreadyConnected then throw (some (.contention "already-connected")) else pure ()

/-- The transactional tail. -/
def locateAndSubscribe (answers : OpenAnswers) : OpenCall VeSmartGatt := do
  let gatt ← settle .locate (fun _ => .ok) (locate answers.services)
  settle (.subscribe .control) (fun _ => .ok) (bounded "notify-subscribe" (answers.notify .control))
  settle (.subscribe .lastData) (fun _ => .ok)
    (bounded "notify-subscribe" (answers.notify .lastData))
  settle (.subscribe .data) (fun _ => .ok) (bounded "notify-subscribe" (answers.notify .data))
  pure gatt

/-- A tail that has failed disconnects the device. -/
def openTail (answers : OpenAnswers) : OpenCall VeSmartGatt := do
  match ← attempt (locateAndSubscribe answers) with
  | .ok gatt => pure gatt
  | .error none => throw none
  | .error (some e) => do
      passed (.disconnectRollback e) (ignored "disconnect-rollback" answers.rollback)
      throw (some e)

/-- `open` after the validation. -/
def openValid (config : Session.TransportConfig) (answers : OpenAnswers) :
    OpenCall (Address × VeSmartGatt) := do
  settle .sessionOpen (fun _ => .ok) (bounded "session-open" answers.session)
  let name ← settle .adapterNames (fun _ => .ok)
    (resolveAdapter answers.adapterNames answers.adapter config.adapter)
  ensurePowered name config.powerPolicy answers
  let device ← settle .resolveDevice (fun _ => .ok)
    (resolveDevice config.selector config.requireAdvertisementEvidence answers.discovery)
  refuseForeign answers
  connectWithRetry config.connectTimeout 0 answers.connects
  let gatt ← openTail answers
  pure (device, gatt)

/-- `open` of a transport that is not open. -/
def openTransport (config : Session.TransportConfig) (answers : OpenAnswers) :
    OpenCall (Address × VeSmartGatt) :=
  match config.validate with
  | .error e => throw (some e)
  | .ok () => openValid config answers

/-! ## The record follows the machine -/

/-- The machine's view of a configuration, with the adapter that was picked. -/
def Session.TransportConfig.machine (config : Session.TransportConfig) (name : String) :
    Bluez.TransportConfig := ⟨config.validate, name, config.powerPolicy⟩

/-- The record is a run of `open` in the machine: it has come to an await point, or to its end. -/
inductive Follows (config : TransportConfig) : Record → Await ⊕ Except BleError Unit → Prop where
  | start : Follows config [] (.inl .sessionOpen)
  | reply {record : Record} {a : Await} {next : Await ⊕ Except BleError Unit} (r : Reply)
      (h : Follows config record (.inl a)) (hnext : resume config a r = some next) :
      Follows config (record ++ [(a, r)]) next

section

variable {config : TransportConfig} {a b : Await} {e : BleError} {α : Type}

/-- How a part of `open` fails: with the machine's result, or at an await point. -/
def Fails (config : TransportConfig) : Option BleError → Record → Prop
  | some e, record => Follows config record (.inr (.error e))
  | none, record => ∃ a, Follows config record (.inl a)

theorem passed_follows {E : Option BleError → Record → Prop} {r : Reply}
    {next : Await ⊕ Except BleError Unit} (h : resume config a r = some next) :
    Triple (fun record => Follows config record (.inl a)) (passed a r)
      (fun _ record => Follows config record next) E :=
  Triple.modifyState fun _ hrecord => hrecord.reply r h

/-- A call whose failure ends `open`. -/
theorem settle_follows {reply : α → Reply} (r : Except BleError α)
    (hfails : ∀ e, resume config a (.error e false) = some (.inr (.error e))) :
    Triple (fun record => Follows config record (.inl a)) (settle a reply r)
      (fun value record => r = .ok value ∧ ∀ next, resume config a (reply value) = some next →
        Follows config record next) (Fails config) := by
  cases r with
  | ok value =>
      refine Triple.bind (Q := fun _ record => ∀ next, resume config a (reply value) = some next →
        Follows config record next) (Triple.modifyState fun _ h next hnext => h.reply _ hnext)
        fun _ => ?_
      exact Triple.pure fun _ h => ⟨rfl, h⟩
  | error e =>
      refine Triple.bind (passed_follows (hfails e)) fun _ => ?_
      exact Triple.throw fun _ h => h

/-- A call of the tail, which is rolled back if it fails. -/
theorem settle_tail {reply : α → Reply} (r : Except BleError α)
    (hfails : ∀ e, resume config a (.error e false) = some (.inl (.disconnectRollback e)))
    (hnext : ∀ value, resume config a (reply value) = some (.inl b)) :
    Triple (fun record => Follows config record (.inl a)) (settle a reply r)
      (fun _ record => Follows config record (.inl b))
      (fun e record => ∃ e', e = some e' ∧
        Follows config record (.inl (.disconnectRollback e'))) := by
  cases r with
  | ok value =>
      refine Triple.bind (passed_follows (hnext value)) fun _ => ?_
      exact Triple.pure fun _ h => h
  | error e =>
      refine Triple.bind (passed_follows (hfails e)) fun _ => ?_
      exact Triple.throw fun _ h => ⟨e, rfl, h⟩

/-! ## Step by step -/

theorem ensurePowered_follows (policy : PowerPolicy) (answers : OpenAnswers)
    (hpolicy : config.powerPolicy = policy) :
    Triple (fun record => Follows config record (.inl .adapterPowered))
      (ensurePowered config.adapter policy answers)
      (fun _ record => Follows config record (.inl .resolveDevice)) (Fails config) := by
  refine Triple.bind (settle_follows _ fun _ => rfl) fun powered => ?_
  cases powered with
  | true => exact Triple.pure fun _ h => h.2 _ rfl
  | false =>
      cases policy with
      | requireManual =>
          refine Triple.throw fun _ h => h.2 _ ?_
          rw [resume, hpolicy]
      | enableIfOff =>
          refine Triple.bind ((settle_follows _ fun _ => rfl).conseq (fun _ h => h.2 _ ?_)
            (fun _ _ h => h) fun _ _ h => h) fun _ => ?_
          · rw [resume, hpolicy]
          refine Triple.bind ((settle_follows _ fun _ => rfl).conseq (fun _ h => h.2 _ rfl)
            (fun _ _ h => h) fun _ _ h => h) fun again => ?_
          cases again with
          | true => exact Triple.pure fun _ h => h.2 _ rfl
          | false => exact Triple.throw fun _ h => h.2 _ rfl

theorem refuseForeign_follows (answers : OpenAnswers) :
    Triple (fun record => Follows config record (.inl .deviceConnected)) (refuseForeign answers)
      (fun _ record => Follows config record (.inl .connect)) (Fails config) := by
  refine Triple.bind (settle_follows _ fun _ => rfl) fun already => ?_
  cases already with
  | true => exact Triple.throw fun _ h => h.2 _ rfl
  | false => exact Triple.pure fun _ h => h.2 _ rfl

/-- A cancelling call goes on whatever its result is. -/
theorem ignored_cases (operation : String) (answer : Answer Unit) :
    ignored operation answer = .ok ∨ ∃ e, ignored operation answer = .error e false := by
  unfold ignored
  cases bounded operation answer with
  | ok u => exact Or.inl rfl
  | error e => exact Or.inr ⟨e, rfl⟩

theorem pauseAfter_follows (timeout elapsed : Duration) (c : ConnectAnswers) :
    Triple (fun record => Follows config record (.inl .connectRetryCancel))
      (pauseAfter timeout elapsed c) (fun _ record => Follows config record (.inl .connect))
      (Fails config) := by
  unfold pauseAfter
  extract_lets cancelled woken
  by_cases hlate : timeout < cancelled
  · rw [if_pos hlate]
    refine Triple.bind (passed_follows rfl) fun _ => ?_
    exact Triple.throw fun _ h => h
  · rw [if_neg hlate]
    have hcancel : resume config .connectRetryCancel (ignored "connect-retry-cancel" c.cancel) =
        some (.inl .connectRetrySleep) := by
      rcases ignored_cases "connect-retry-cancel" c.cancel with h | ⟨e, h⟩
      · rw [h]
        rfl
      · rw [h]
        rfl
    refine Triple.bind (passed_follows hcancel) fun _ => ?_
    by_cases hover : timeout < woken
    · rw [if_pos hover]
      refine Triple.bind (passed_follows rfl) fun _ => ?_
      exact Triple.throw fun _ h => h
    · rw [if_neg hover]
      refine Triple.bind (passed_follows rfl) fun _ => ?_
      exact Triple.pure fun _ h => h

/-- The retries, by induction on the attempts. -/
theorem connectWithRetry_follows (timeout elapsed : Duration) (cs : List ConnectAnswers) :
    Triple (fun record => Follows config record (.inl .connect))
      (connectWithRetry timeout elapsed cs)
      (fun _ record => Follows config record (.inl .locate)) (Fails config) := by
  induction cs generalizing elapsed with
  | nil => exact Triple.throw fun _ h => ⟨_, h⟩
  | cons c cs ih =>
      unfold connectWithRetry
      rcases c.reply with _ | kind | _
      · refine Triple.bind (passed_follows rfl) fun _ => ?_
        have hcancel : resume config .connectTimeoutCancel
            (ignored "connect-timeout-cancel" c.cancel) =
              some (.inr (.error (.timeout "connect"))) := by
          rcases ignored_cases "connect-timeout-cancel" c.cancel with h | ⟨e, h⟩
          · rw [h]
            rfl
          · rw [h]
            rfl
        refine Triple.bind (passed_follows hcancel) fun _ => ?_
        exact Triple.throw fun _ h => h
      · by_cases hretry : retryableConnectKind kind = true
        · simp only [hretry, if_true]
          refine Triple.bind (passed_follows rfl) fun _ => ?_
          exact Triple.bind (pauseAfter_follows timeout elapsed c) fun elapsed => ih elapsed
        · simp only [hretry, Bool.false_eq_true, if_false]
          refine Triple.bind (passed_follows rfl) fun _ => ?_
          exact Triple.throw fun _ h => h
      · exact passed_follows rfl

theorem openTail_follows (answers : OpenAnswers) :
    Triple (fun record => Follows config record (.inl .locate)) (openTail answers)
      (fun _ record => Follows config record (.inr (.ok ()))) (Fails config) := by
  have htail : Triple (fun record => Follows config record (.inl .locate))
      (locateAndSubscribe answers) (fun _ record => Follows config record (.inr (.ok ())))
      (fun e record => ∃ e', e = some e' ∧
        Follows config record (.inl (.disconnectRollback e'))) := by
    refine Triple.bind (settle_tail _ (fun _ => rfl) fun _ => rfl) fun gatt => ?_
    refine Triple.bind (settle_tail _ (fun _ => rfl) fun _ => rfl) fun _ => ?_
    refine Triple.bind (settle_tail _ (fun _ => rfl) fun _ => rfl) fun _ => ?_
    -- the last subscription ends `open`
    refine Triple.bind (Q := fun _ record => Follows config record (.inr (.ok ()))) ?_ fun _ =>
      Triple.pure fun _ h => h
    cases bounded "notify-subscribe" (answers.notify .data) with
    | ok u =>
        refine Triple.bind (passed_follows rfl) fun _ => ?_
        exact Triple.pure fun _ h => h
    | error e =>
        refine Triple.bind (passed_follows rfl) fun _ => ?_
        exact Triple.throw fun _ h => ⟨e, rfl, h⟩
  refine Triple.bind htail.attempt fun r => ?_
  rcases r with _ | gatt
  · next e =>
    cases e with
    | none =>
        refine Triple.throw fun _ h => ?_
        obtain ⟨e', he, -⟩ := h
        cases he
    | some e =>
        have hrollback : ∀ record, (∃ e', some e = some e' ∧
            Follows config record (.inl (.disconnectRollback e'))) →
              Follows config record (.inl (.disconnectRollback e)) := by
          rintro record ⟨e', he, h⟩
          cases he
          exact h
        refine Triple.bind ((passed_follows (E := Fails config)
          (show resume config (.disconnectRollback e) _ = some (.inr (.error e)) from rfl)).conseq
            hrollback (fun _ _ h => h) fun _ _ h => h) fun _ => ?_
        exact Triple.throw fun _ h => h
  · exact Triple.pure fun _ h => h

end

/-- The adapter that is picked, if one is. -/
def adapterName (config : Session.TransportConfig) (answers : OpenAnswers) : String :=
  match resolveAdapter answers.adapterNames answers.adapter config.adapter with
  | .ok name => name
  | .error _ => ""

theorem openValid_follows (config : Session.TransportConfig) (answers : OpenAnswers) :
    Triple (fun record => record = []) (openValid config answers)
      (fun _ record =>
        Follows (config.machine (adapterName config answers)) record (.inr (.ok ())))
      (Fails (config.machine (adapterName config answers))) := by
  have hname : ∀ name, resolveAdapter answers.adapterNames answers.adapter config.adapter =
      .ok name → adapterName config answers = name := by
    intro name h
    rw [adapterName, h]
  unfold openValid
  refine Triple.bind ((settle_follows _ fun _ => rfl).conseq ?_ (fun _ _ h => h)
    fun _ _ h => h) fun _ => ?_
  · rintro _ rfl
    exact .start
  rcases hresolve : resolveAdapter answers.adapterNames answers.adapter config.adapter with e | name
  · refine Triple.bind (Q := fun _ _ => False) ?_ fun _ _ h => h.elim
    refine Triple.bind ((passed_follows rfl).conseq (fun _ h => h.2 _ rfl) (fun _ _ h => h)
      fun _ _ h => h) fun _ => ?_
    exact Triple.throw fun _ h => h
  rw [hname name hresolve]
  refine Triple.bind ((settle_follows (.ok name) fun _ => rfl).conseq (fun _ h => h.2 _ rfl)
    (fun _ _ h => h) fun _ _ h => h) fun name' => ?_
  refine Triple.of_state fun record hrecord => ?_
  obtain ⟨hok, hfollows⟩ := hrecord
  cases hok
  have hpowered : Triple (fun record => Follows (config.machine name) record (.inl .adapterPowered))
      (ensurePowered name config.powerPolicy answers)
      (fun _ record => Follows (config.machine name) record (.inl .resolveDevice))
      (Fails (config.machine name)) :=
    ensurePowered_follows config.powerPolicy answers rfl
  refine Triple.bind (hpowered.conseq ?_ (fun _ _ h => h) fun _ _ h => h) fun _ => ?_
  · rintro _ rfl
    exact hfollows _ rfl
  refine Triple.bind (settle_follows _ fun _ => rfl) fun device => ?_
  refine Triple.bind ((refuseForeign_follows answers).conseq (fun _ h => h.2 _ rfl)
    (fun _ _ h => h) fun _ _ h => h) fun _ => ?_
  refine Triple.bind (connectWithRetry_follows _ _ _) fun _ => ?_
  exact Triple.bind (openTail_follows answers) fun gatt => Triple.pure fun _ h => h

/-! ## The machine does the same -/

section

variable {config : TransportConfig} {record : Record}

/-- The actions of the machine for a record. -/
def Record.actions (record : Record) : List Action :=
  .open :: record.map fun passed => .reply passed.2

theorem Record.actions_append (a : Await) (r : Reply) :
    Record.actions (record ++ [(a, r)]) = record.actions ++ [.reply r] := by
  simp [Record.actions]

/-- Only where the tail runs there is a link. -/
def Await.linked : Await → Bool
  | .locate => true
  | .subscribe _ => true
  | _ => false

/-- What is known of the link where a record has come to: it is up in the tail and after a
success, and BlueZ works on a connect that is awaited. -/
def LinkAt (link : Link) : Await ⊕ Except BleError Unit → Prop
  | .inl a => link.up = a.linked ∧ (a = .connect → link.attempt = true)
  | .inr (.ok ()) => link.up = true
  | .inr (.error _) => link.up = false

/-- The state of the machine where a record has come to: nothing is committed before a success. -/
def StateAt (st : State) : Await ⊕ Except BleError Unit → Prop
  | .inl a => st.pc = .awaiting a ∧ st.session = .cleared ∧ LinkAt st.link (.inl a)
  | .inr (.ok ()) =>
      st.pc = .ended (some (.ok ())) ∧ st.session = .committed ∧ LinkAt st.link (.inr (.ok ()))
  | .inr (.error e) =>
      st.pc = .ended (some (.error e)) ∧ st.session = .cleared ∧ LinkAt st.link (.inr (.error e))

/-- The link that a call leaves when it goes on to the next await point. -/
def arrive (link : Link) : Await ⊕ Except BleError Unit → Link
  | .inl a => issue a link
  | .inr _ => link

theorem issue_up {a : Await} {l : Link} (h : l.up = false) : (issue a l).up = false := by
  cases a <;> first | exact h | rfl

/-- Where there is no link, every reply is possible but to a connect. -/
theorem receive_down_some {a : Await} {l : Link} (r : Reply) (hlinked : a.linked = false)
    (hconnect : a ≠ .connect) (h : l.up = false) : receive a r l = some l := by
  unfold receive
  split
  · exact absurd rfl hconnect
  · exact absurd rfl hconnect
  · rw [h, if_neg Bool.false_ne_true]
  · rfl

/-- Where there is no link, only a connect goes on to the tail. -/
theorem resume_unlinked {a : Await} {r : Reply} {next : Await ⊕ Except BleError Unit}
    (hlinked : a.linked = false) (hconnect : a ≠ .connect)
    (hnext : resume config a r = some next) :
    (∃ b, next = .inl b ∧ b.linked = false) ∨ ∃ e, next = .inr (.error e) := by
  revert hnext
  fun_cases resume config a r
  all_goals
    intro hnext
    first
    | exact absurd rfl hconnect
    | (cases hlinked; done)
    | -- a call of a single operation has timed out
      obtain ⟨operation, -, hop⟩ := Option.map_eq_some_iff.mp hnext
      cases hop
      exact Or.inr ⟨_, rfl⟩
    | (cases hnext; exact Or.inl ⟨_, rfl, rfl⟩)
    | (cases hnext; exact Or.inr ⟨_, rfl⟩)
    | cases hnext

/-- What a connect leaves. -/
theorem receive_connect {r : Reply} {next : Await ⊕ Except BleError Unit}
    (hnext : resume config .connect r = some next) :
    ∃ l', receive .connect r ⟨false, true⟩ = some l' ∧ LinkAt (arrive l' next) next := by
  rcases r with _ | _ | _ | ⟨e, _ | _⟩ | _ | _
  · cases hnext
    exact ⟨_, rfl, rfl, fun h => nomatch h⟩
  · cases hnext
  · cases hnext
  · cases hnext
    exact ⟨_, rfl, rfl⟩
  · cases hnext
    exact ⟨_, rfl, rfl, fun h => nomatch h⟩
  · cases hnext
    exact ⟨_, rfl, rfl, fun h => nomatch h⟩
  · cases hnext

/-- What a call of the tail leaves. -/
theorem receive_tail {a : Await} {r : Reply} {next : Await ⊕ Except BleError Unit}
    {attempt : Bool} (hlinked : a.linked = true) (hnext : resume config a r = some next) :
    ∃ l', receive a r ⟨true, attempt⟩ = some l' ∧ LinkAt (arrive l' next) next := by
  cases a with
  | locate =>
      refine ⟨⟨true, attempt⟩, rfl, ?_⟩
      rcases r with _ | _ | _ | ⟨e, _⟩ | _ | _ <;> cases hnext
      · exact ⟨rfl, fun h => nomatch h⟩
      · exact ⟨rfl, fun h => nomatch h⟩
      · exact ⟨rfl, fun h => nomatch h⟩
  | subscribe source =>
      refine ⟨⟨true, attempt⟩, rfl, ?_⟩
      cases source <;> rcases r with _ | _ | _ | ⟨e, _⟩ | _ | _ <;> cases hnext <;>
        first | rfl | exact ⟨rfl, fun h => nomatch h⟩
  | _ => cases hlinked

/-- A reply that `open` understands is possible, and leaves the link as it should be. -/
theorem receive_linkAt {a : Await} {r : Reply} {next : Await ⊕ Except BleError Unit} {l : Link}
    (h : LinkAt l (.inl a)) (hnext : resume config a r = some next) :
    ∃ l', receive a r l = some l' ∧ LinkAt (arrive l' next) next := by
  obtain ⟨up, attempt⟩ := l
  obtain ⟨hup, hattempt⟩ := h
  by_cases hconnect : a = .connect
  · subst hconnect
    rw [show up = false from hup, show attempt = true from hattempt rfl]
    exact receive_connect hnext
  by_cases hlinked : a.linked = true
  · rw [show up = true from hup.trans hlinked]
    exact receive_tail hlinked hnext
  -- before the connect, and after it was cancelled, there is no link
  have hlinked : a.linked = false := by simpa using hlinked
  have hdown : up = false := hup.trans hlinked
  subst hdown
  refine ⟨_, receive_down_some r hlinked hconnect rfl, ?_⟩
  rcases resume_unlinked hlinked hconnect hnext with ⟨b, rfl, hb⟩ | ⟨e, rfl⟩
  · refine ⟨(issue_up rfl).trans hb.symm, ?_⟩
    rintro rfl
    rfl
  · rfl

/-- A reply in the machine. -/
theorem step_reply {a : Await} {r : Reply} {next : Await ⊕ Except BleError Unit} {st : State}
    (h : StateAt st (.inl a)) (hnext : resume config a r = some next) :
    ∃ st', step config st (.reply r) = some st' ∧ StateAt st' next := by
  rcases st with ⟨pc, session, link⟩
  obtain ⟨hpc, hsession, hlink⟩ := h
  simp only at hpc hsession
  subst hpc hsession
  obtain ⟨link', hreceive, hlink'⟩ := receive_linkAt hlink hnext
  refine ⟨State.goOn ⟨.awaiting a, .cleared, link⟩ link' next, ?_, ?_⟩
  · simp only [step, hreceive, hnext, Option.bind_eq_bind, Option.bind_some, Option.pure_def]
  · rcases next with b | e | ⟨⟩
    · exact ⟨rfl, rfl, hlink'⟩
    · exact ⟨rfl, rfl, hlink'⟩
    · exact ⟨rfl, rfl, hlink'⟩

/-- **A record is a run of the machine**, by induction on the record. -/
theorem Follows.run {next : Await ⊕ Except BleError Unit} (hvalid : config.valid = .ok ())
    (h : Follows config record next) :
    ∃ st, runActions (step config) .initial record.actions = some st ∧ StateAt st next := by
  induction h with
  | start =>
      refine ⟨⟨.awaiting .sessionOpen, .cleared, .down⟩, ?_, rfl, rfl, rfl, fun h => nomatch h⟩
      simp [Record.actions, runActions, step, State.initial, State.beginOpen, SessionState.cleared,
        hvalid, issue]
  | reply r _ hnext ih =>
      obtain ⟨st, hrun, hst⟩ := ih
      obtain ⟨st', hstep, hst'⟩ := step_reply hst hnext
      refine ⟨st', ?_, hst'⟩
      rw [Record.actions_append, runActions_append, hrun]
      simp only [runActions, Option.bind_some, hstep]

end

/-- The machine has come to where a call of `open` has: to the same result, or to an await point. -/
def Matches : Except (Option BleError) (Address × VeSmartGatt) → State → Prop
  | .ok _, st => StateAt st (.inr (.ok ()))
  | .error (some e), st => StateAt st (.inr (.error e))
  | .error none, st => ∃ a, StateAt st (.inl a)

/-- **`open` refines the machine**: whatever BlueZ answers, its calls are a run of the machine, to
the same result. Without a success nothing is committed and there is no link. -/
theorem open_refines (config : Session.TransportConfig) (answers : OpenAnswers) :
    ∃ st, runActions (step (config.machine (adapterName config answers))) .initial
        (Record.actions (exec (openTransport config answers) []).2) = some st ∧
      Matches (exec (openTransport config answers) []).1 st := by
  unfold openTransport
  rcases hvalid : config.validate with e | ⟨⟩
  · -- the configuration is refused before any call
    refine ⟨⟨.ended (some (.error e)), .cleared, .down⟩, ?_, rfl, rfl, rfl⟩
    simp [Record.actions, runActions, step, State.initial, State.beginOpen, SessionState.cleared,
      Session.TransportConfig.machine, hvalid, Link.down]
  · refine Triple.to_exec (P := fun record => record = [])
      (S := fun result record => ∃ st, runActions
        (step (config.machine (adapterName config answers))) .initial (Record.actions record) =
          some st ∧ Matches result st) rfl ?_
    refine (openValid_follows config answers).conseq (fun _ h => h) ?_ ?_
    · intro device record h
      exact h.run hvalid
    · intro e record h
      cases e with
      | some e => exact h.run hvalid
      | none =>
          obtain ⟨a, h⟩ := h
          obtain ⟨st, hrun, hst⟩ := h.run hvalid
          exact ⟨st, hrun, a, hst⟩

/-! ## What is called, and when -/

/-- The connects so far. -/
def attempts (record : Record) : Nat := record.countP fun passed => passed.1 = .connect

/-- How many connects may still begin. -/
def attemptsLeft (remaining : Duration) : Nat := (remaining + (nanosPerSec - 1)) / nanosPerSec + 1

/-- What `open` calls, and when. -/
structure Disciplined (config : Session.TransportConfig) (answers : OpenAnswers)
    (record : Record) : Prop where
  /-- The adapter is powered on if that was opted into and it was off. -/
  power : ∀ r, (.adapterSetPowered, r) ∈ record → config.powerPolicy = .enableIfOff ∧
    bounded "adapter-powered" answers.powered = .ok false
  /-- A connect goes to the device that was resolved, if nobody is connected to it. -/
  connect : ∀ r, (.connect, r) ∈ record →
    (∃ device, resolveDevice config.selector config.requireAdvertisementEvidence answers.discovery =
      .ok device) ∧ bounded "device-connected" answers.connected = .ok false
  attempts : attempts record ≤ attemptsLeft config.connectTimeout

section

variable {config : Session.TransportConfig} {answers : OpenAnswers} {a : Await} {α : Type}

/-- A pause costs an attempt: it takes a second, or what is left. -/
theorem attemptsLeft_pause {timeout elapsed cancelled woken overslept : Nat}
    (hcancelled : elapsed < cancelled)
    (hpause : woken = cancelled + min (timeout - cancelled) nanosPerSec + overslept)
    (htime : woken ≤ timeout) :
    attemptsLeft (timeout - woken) + 1 ≤ attemptsLeft (timeout - elapsed) := by
  simp only [attemptsLeft, nanosPerSec] at *
  omega

theorem attempts_other {record : Record} {r : Reply} (h : a ≠ .connect) :
    attempts (record ++ [(a, r)]) = attempts record := by
  simp [attempts, h]

theorem attempts_connect (record : Record) (r : Reply) :
    attempts (record ++ [(.connect, r)]) = attempts record + 1 := by
  simp [attempts]

/-- Other calls are not restricted. -/
theorem Disciplined.other {record : Record} (h : Disciplined config answers record)
    (hpower : a ≠ .adapterSetPowered) (hconnect : a ≠ .connect) (r : Reply) :
    Disciplined config answers (record ++ [(a, r)]) where
  power := by
    intro r' hr'
    rcases List.mem_append.mp hr' with hr' | hr'
    · exact h.power r' hr'
    · cases List.mem_singleton.mp hr'
      exact absurd rfl hpower
  connect := by
    intro r' hr'
    rcases List.mem_append.mp hr' with hr' | hr'
    · exact h.connect r' hr'
    · cases List.mem_singleton.mp hr'
      exact absurd rfl hconnect
  attempts := by
    rw [attempts_other hconnect]
    exact h.attempts

theorem Disciplined.setPowered {record : Record} (h : Disciplined config answers record)
    (hpolicy : config.powerPolicy = .enableIfOff)
    (hoff : bounded "adapter-powered" answers.powered = .ok false) (r : Reply) :
    Disciplined config answers (record ++ [(.adapterSetPowered, r)]) where
  power := fun _ _ => ⟨hpolicy, hoff⟩
  connect := by
    intro r' hr'
    rcases List.mem_append.mp hr' with hr' | hr'
    · exact h.connect r' hr'
    · cases List.mem_singleton.mp hr'
  attempts := by
    rw [attempts_other (by decide)]
    exact h.attempts

/-- A call that the discipline does not forbid. -/
theorem settle_disciplined {I : Record → Prop} {reply : α → Reply} (r : Except BleError α)
    (hI : ∀ record r, I record → I (record ++ [(a, r)])) :
    Triple I (settle a reply r) (fun value record => r = .ok value ∧ I record) fun _ => I := by
  cases r with
  | ok value =>
      refine Triple.bind (Q := fun _ => I) (Triple.modifyState fun _ h => hI _ _ h) fun _ => ?_
      exact Triple.pure fun _ h => ⟨rfl, h⟩
  | error e =>
      refine Triple.bind (Q := fun _ => I) (Triple.modifyState fun _ h => hI _ _ h) fun _ => ?_
      exact Triple.throw fun _ h => h

/-- The discipline has been kept, with `k` connects so far. -/
def Made (config : Session.TransportConfig) (answers : OpenAnswers) (k : Nat)
    (record : Record) : Prop :=
  Disciplined config answers record ∧ attempts record = k

theorem Made.other {k : Nat} (hpower : a ≠ .adapterSetPowered) (hconnect : a ≠ .connect)
    (record : Record) (r : Reply) (h : Made config answers k record) :
    Made config answers k (record ++ [(a, r)]) :=
  ⟨h.1.other hpower hconnect r, (attempts_other hconnect).trans h.2⟩

/-- One more connect, to a device that was resolved and that nobody is connected to. -/
theorem Made.connecting {k : Nat} {record : Record} (h : Made config answers k record)
    (hconnect : (∃ device, resolveDevice config.selector config.requireAdvertisementEvidence
      answers.discovery = .ok device) ∧ bounded "device-connected" answers.connected = .ok false)
    (hk : k + 1 ≤ attemptsLeft config.connectTimeout) (r : Reply) :
    Made config answers (k + 1) (record ++ [(.connect, r)]) := by
  have hattempts : attempts (record ++ [(.connect, r)]) = k + 1 := by
    rw [attempts_connect, h.2]
  refine ⟨⟨?_, fun _ _ => hconnect, hattempts ▸ hk⟩, hattempts⟩
  intro r' hr'
  rcases List.mem_append.mp hr' with hr' | hr'
  · exact h.1.power r' hr'
  · cases List.mem_singleton.mp hr'

theorem passed_disciplined {k : Nat} (r : Reply) (hpower : a ≠ .adapterSetPowered)
    (hconnect : a ≠ .connect) :
    Triple (Made config answers k) (passed a r) (fun _ => Made config answers k)
      (fun _ => Made config answers k) :=
  Triple.modifyState fun record h => Made.other hpower hconnect record r h

theorem ensurePowered_disciplined (name : String) :
    Triple (Made config answers 0) (ensurePowered name config.powerPolicy answers)
      (fun _ => Made config answers 0) (fun _ => Made config answers 0) := by
  unfold ensurePowered
  refine Triple.bind (settle_disciplined _ (Made.other (by decide) (by decide))) fun powered => ?_
  cases powered with
  | true => exact Triple.pure fun _ h => h.2
  | false =>
      -- the adapter was read, and it is off
      refine Triple.of_state fun record hrecord => ?_
      obtain ⟨hoff, hmade⟩ := hrecord
      rcases hpolicy : config.powerPolicy with _ | _
      · refine Triple.throw ?_
        rintro _ rfl
        exact hmade
      · have hset : ∀ record r, Made config answers 0 record →
            Made config answers 0 (record ++ [(.adapterSetPowered, r)]) := by
          intro record r h
          exact ⟨h.1.setPowered hpolicy hoff r, (attempts_other (by decide)).trans h.2⟩
        have hstart : ∀ s, s = record → Made config answers 0 s := by
          rintro _ rfl
          exact hmade
        refine Triple.bind ((settle_disciplined _ hset).conseq hstart (fun _ _ h => h.2)
          fun _ _ h => h) fun _ => ?_
        refine Triple.bind (settle_disciplined _ (Made.other (by decide) (by decide)))
          fun again => ?_
        cases again with
        | true => exact Triple.pure fun _ h => h.2
        | false => exact Triple.throw fun _ h => h.2

theorem refuseForeign_disciplined :
    Triple (Made config answers 0) (refuseForeign answers) (fun _ record =>
      bounded "device-connected" answers.connected = .ok false ∧ Made config answers 0 record)
      (fun _ => Made config answers 0) := by
  unfold refuseForeign
  refine Triple.bind (settle_disciplined _ (Made.other (by decide) (by decide))) fun already => ?_
  cases already with
  | true => exact Triple.throw fun _ h => h.2
  | false => exact Triple.pure fun _ h => h

theorem pauseAfter_disciplined {timeout elapsed : Duration} {k : Nat} (c : ConnectAnswers) :
    Triple (Made config answers k) (pauseAfter timeout elapsed c)
      (fun woken record => (woken ≤ timeout ∧
        attemptsLeft (timeout - woken) + 1 ≤ attemptsLeft (timeout - elapsed)) ∧
          Made config answers k record)
      (fun _ => Made config answers k) := by
  unfold pauseAfter
  extract_lets cancelled woken
  by_cases hlate : timeout < cancelled
  · rw [if_pos hlate]
    refine Triple.bind (passed_disciplined _ (by decide) (by decide)) fun _ => ?_
    exact Triple.throw fun _ h => h
  · rw [if_neg hlate]
    refine Triple.bind (passed_disciplined _ (by decide) (by decide)) fun _ => ?_
    by_cases hover : timeout < woken
    · rw [if_pos hover]
      refine Triple.bind (passed_disciplined _ (by decide) (by decide)) fun _ => ?_
      exact Triple.throw fun _ h => h
    · rw [if_neg hover]
      refine Triple.bind (passed_disciplined _ (by decide) (by decide)) fun _ => ?_
      have hwoken : woken ≤ timeout := not_lt.mp hover
      have htook : elapsed < cancelled :=
        calc elapsed < elapsed + c.took := Nat.lt_add_of_pos_right c.took_pos
          _ ≤ elapsed + c.took + c.cancelTook := Nat.le_add_right _ _
      exact Triple.pure fun _ h => ⟨⟨hwoken, attemptsLeft_pause htook rfl hwoken⟩, h⟩

/-- The retries: the connects that were made and those that may still begin are within the
bound. -/
theorem connectWithRetry_disciplined {elapsed : Duration} {k : Nat} (cs : List ConnectAnswers)
    (hconnect : (∃ device, resolveDevice config.selector config.requireAdvertisementEvidence
      answers.discovery = .ok device) ∧ bounded "device-connected" answers.connected = .ok false)
    (hk : k + attemptsLeft (config.connectTimeout - elapsed) ≤
      attemptsLeft config.connectTimeout) :
    Triple (Made config answers k) (connectWithRetry config.connectTimeout elapsed cs)
      (fun _ => Disciplined config answers) (fun _ => Disciplined config answers) := by
  induction cs generalizing elapsed k with
  | nil => exact Triple.throw fun _ h => h.1
  | cons c cs ih =>
      have hattempt : ∀ r, Triple (Made config answers k) (passed .connect r)
          (fun _ => Made config answers (k + 1)) (fun _ => Disciplined config answers) := by
        intro r
        have hleft : 1 ≤ attemptsLeft (config.connectTimeout - elapsed) := Nat.le_add_left 1 _
        exact Triple.modifyState fun record h => h.connecting hconnect (by omega) r
      unfold connectWithRetry
      rcases c.reply with _ | kind | _
      · refine Triple.bind (hattempt _) fun _ => ?_
        refine Triple.bind ((passed_disciplined _ (by decide) (by decide)).conseq
          (fun _ h => h) (fun _ _ h => h) fun _ _ h => h.1) fun _ => ?_
        exact Triple.throw fun _ h => h.1
      · by_cases hretry : retryableConnectKind kind = true
        · simp only [hretry, if_true]
          refine Triple.bind (hattempt _) fun _ => ?_
          refine Triple.bind ((pauseAfter_disciplined c).conseq (fun _ h => h) (fun _ _ h => h)
            fun _ _ h => h.1) fun woken => ?_
          refine Triple.of_state fun record hrecord => ?_
          obtain ⟨⟨-, hleft⟩, hmade⟩ := hrecord
          have hk' : k + 1 + attemptsLeft (config.connectTimeout - woken) ≤
              attemptsLeft config.connectTimeout := by omega
          refine (ih hk').conseq ?_ (fun _ _ h => h) fun _ _ h => h
          rintro _ rfl
          exact hmade
        · simp only [hretry, Bool.false_eq_true, if_false]
          refine Triple.bind (hattempt _) fun _ => ?_
          exact Triple.throw fun _ h => h.1
      · exact (hattempt _).conseq (fun _ h => h) (fun _ _ h => h.1) fun _ _ h => h

/-- A call that the discipline does not restrict. -/
theorem settle_other {reply : α → Reply} (r : Except BleError α)
    (hpower : a ≠ .adapterSetPowered) (hconnect : a ≠ .connect) :
    Triple (Disciplined config answers) (settle a reply r) (fun _ => Disciplined config answers)
      (fun _ => Disciplined config answers) :=
  (settle_disciplined r fun _ r h => h.other hpower hconnect r).conseq (fun _ h => h)
    (fun _ _ h => h.2) fun _ _ h => h

theorem openTail_disciplined :
    Triple (Disciplined config answers) (openTail answers) (fun _ => Disciplined config answers)
      (fun _ => Disciplined config answers) := by
  have htail : Triple (Disciplined config answers) (locateAndSubscribe answers)
      (fun _ => Disciplined config answers) (fun _ => Disciplined config answers) := by
    refine Triple.bind (settle_other _ (by decide) (by decide)) fun gatt => ?_
    refine Triple.bind (settle_other _ (by decide) (by decide)) fun _ => ?_
    refine Triple.bind (settle_other _ (by decide) (by decide)) fun _ => ?_
    refine Triple.bind (settle_other _ (by decide) (by decide)) fun _ => ?_
    exact Triple.pure fun _ h => h
  refine Triple.bind htail.attempt fun r => ?_
  rcases r with (_ | e) | gatt
  · exact Triple.throw fun _ h => h
  · refine Triple.bind (Q := fun _ => Disciplined config answers)
      (Triple.modifyState fun _ h => h.other (by simp) (by simp) _) fun _ => ?_
    exact Triple.throw fun _ h => h
  · exact Triple.pure fun _ h => h

end

/-- **The discipline of `open`**: it powers the adapter on only if it was told to and the adapter
was off, connects only to a device that was resolved and that nobody is connected to, and begins
as many attempts as the timeout has seconds, and one more, whatever BlueZ answers. -/
theorem open_disciplined (config : Session.TransportConfig) (answers : OpenAnswers) :
    Disciplined config answers (exec (openTransport config answers) []).2 := by
  have hnil : Made config answers 0 [] :=
    ⟨⟨by simp, by simp, Nat.zero_le _⟩, rfl⟩
  unfold openTransport
  rcases config.validate with e | ⟨⟩
  · exact hnil.1
  refine Triple.to_exec (S := fun _ => Disciplined config answers) hnil ?_
  have hE : ∀ (e : Option BleError) record, Made config answers 0 record →
      Disciplined config answers record := fun _ _ h => h.1
  refine Triple.bind ((settle_disciplined _ (Made.other (by decide) (by decide))).conseq
    (fun _ h => h) (fun _ _ h => h.2) hE) fun _ => ?_
  refine Triple.bind ((settle_disciplined _ (Made.other (by decide) (by decide))).conseq
    (fun _ h => h) (fun _ _ h => h.2) hE) fun name => ?_
  refine Triple.bind ((ensurePowered_disciplined name).conseq (fun _ h => h) (fun _ _ h => h) hE)
    fun _ => ?_
  refine Triple.bind ((settle_disciplined _ (Made.other (by decide) (by decide))).conseq
    (fun _ h => h) (fun _ _ h => h) hE) fun device => ?_
  refine Triple.of_state fun record hrecord => ?_
  obtain ⟨hdevice, hmade⟩ := hrecord
  have hstart : ∀ s, s = record → Made config answers 0 s := by
    rintro _ rfl
    exact hmade
  refine Triple.bind (refuseForeign_disciplined.conseq hstart (fun _ _ h => h) hE) fun _ => ?_
  refine Triple.of_state fun record' hrecord' => ?_
  obtain ⟨hfree, hmade'⟩ := hrecord'
  have hstart' : ∀ s, s = record' → Made config answers 0 s := by
    rintro _ rfl
    exact hmade'
  refine Triple.bind ((connectWithRetry_disciplined answers.connects ⟨⟨device, hdevice⟩, hfree⟩
    (by simp)).conseq hstart' (fun _ _ h => h) fun _ _ h => h) fun _ => ?_
  refine Triple.bind openTail_disciplined fun gatt => ?_
  exact Triple.pure fun _ h => h

end VeSmart.Bluez
