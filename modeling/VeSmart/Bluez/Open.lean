import VeSmart.Bluez.Transport

set_option autoImplicit false

/-! # Opening and closing the transport (`BluezTransport` of `victron-bluez/src/session.rs`)

`open` is a machine over its await points: at each the call may succeed, fail or time out, and
the caller may drop the future. Beside it runs BlueZ, which works on a `Connect` call until the
link is up or the attempt has failed, whether or not anybody still waits for the reply. A
`Disconnect` call that is issued succeeds. `link_released_iff` says at which await points the
future must not be dropped for a `close` to release the link. -/

namespace VeSmart.Bluez

open VeSmart.Lib

/-- How the transport treats a powered-off adapter. -/
inductive PowerPolicy where
  | requireManual
  | enableIfOff
  deriving DecidableEq

/-- What `open` asks of its configuration; `valid` is the result of its validation. -/
structure TransportConfig where
  valid : Except BleError Unit
  adapter : String
  powerPolicy : PowerPolicy

/-- Transactional open state: whether the device handle is held, whether the link is ours, and
whether the transport is open. -/
structure SessionState where
  device : Bool
  connectedByUs : Bool
  isOpen : Bool
  deriving DecidableEq

def SessionState.cleared : SessionState := ⟨false, false, false⟩

def SessionState.committed : SessionState := ⟨true, true, true⟩

/-! ## The await points of `open` -/

inductive Await where
  | sessionOpen
  | adapterNames
  | adapterPowered
  | adapterSetPowered
  | adapterPoweredAgain
  /-- The calls of `resolve_device`, one after the other. -/
  | resolveDevice
  | deviceConnected
  /-- `device.connect()` in `connect_with_retry`. -/
  | connect
  | connectRetryCancel
  | connectRetrySleep
  | connectTimeoutCancel
  /-- The calls of `gatt::locate`, one after the other. -/
  | locate
  | subscribe (source : NotificationSource)
  | disconnectRollback (error : BleError)
  deriving DecidableEq

/-- The operation that the timeout of a single call names; a call of `resolveDevice` or `locate`
that times out is an error which names it itself. -/
def Await.operation : Await → Option String
  | .sessionOpen => some "session-open"
  | .adapterNames => some "adapter-names"
  | .adapterPowered => some "adapter-powered"
  | .adapterSetPowered => some "adapter-set-powered"
  | .adapterPoweredAgain => some "adapter-powered"
  | .deviceConnected => some "device-connected"
  | _ => none

/-- How an awaited call ends. -/
inductive Reply where
  | ok
  /-- It succeeded, and its step has further calls to make. -/
  | again
  /-- It returned a property. -/
  | flag (value : Bool)
  | error (e : BleError) (retryable : Bool)
  | timeout
  /-- It ended, and the deadline of `connect_with_retry` has passed. -/
  | expired
  deriving DecidableEq

/-- Where `open` goes from an await point: to the next one, or it returns. -/
def resume (config : TransportConfig) : Await → Reply → Option (Await ⊕ Except BleError Unit)
  -- the cancelling calls go on whatever their result is
  | .connectRetryCancel, .expired => some (.inr (.error (.timeout "connect")))
  | .connectRetryCancel, _ => some (.inl .connectRetrySleep)
  | .connectRetrySleep, .expired => some (.inr (.error (.timeout "connect")))
  | .connectRetrySleep, _ => some (.inl .connect)
  | .connectTimeoutCancel, _ => some (.inr (.error (.timeout "connect")))
  | .disconnectRollback e, _ => some (.inr (.error e))
  | .connect, .ok => some (.inl .locate)
  | .connect, .error _ true => some (.inl .connectRetryCancel)
  | .connect, .timeout => some (.inl .connectTimeoutCancel)
  -- the transactional tail rolls back
  | .locate, .again => some (.inl .locate)
  | .locate, .ok => some (.inl (.subscribe .control))
  | .locate, .error e _ => some (.inl (.disconnectRollback e))
  | .subscribe .control, .ok => some (.inl (.subscribe .lastData))
  | .subscribe .lastData, .ok => some (.inl (.subscribe .data))
  | .subscribe .data, .ok => some (.inr (.ok ()))
  | .subscribe _, .error e _ => some (.inl (.disconnectRollback e))
  | .subscribe _, .timeout => some (.inl (.disconnectRollback (.timeout "notify-subscribe")))
  | .sessionOpen, .ok => some (.inl .adapterNames)
  | .adapterNames, .ok => some (.inl .adapterPowered)
  | .adapterPowered, .flag true => some (.inl .resolveDevice)
  | .adapterPowered, .flag false =>
      match config.powerPolicy with
      | .requireManual => some (.inr (.error (.adapterNotPowered config.adapter)))
      | .enableIfOff => some (.inl .adapterSetPowered)
  | .adapterSetPowered, .ok => some (.inl .adapterPoweredAgain)
  | .adapterPoweredAgain, .flag true => some (.inl .resolveDevice)
  | .adapterPoweredAgain, .flag false =>
      some (.inr (.error (.adapterPowerFailed config.adapter)))
  | .resolveDevice, .again => some (.inl .resolveDevice)
  | .resolveDevice, .ok => some (.inl .deviceConnected)
  | .deviceConnected, .flag true => some (.inr (.error (.contention "already-connected")))
  | .deviceConnected, .flag false => some (.inl .connect)
  -- every other call that fails or times out ends `open`
  | _, .error e _ => some (.inr (.error e))
  | a, .timeout => a.operation.map fun operation => .inr (.error (.timeout operation))
  | _, _ => none

/-! ## The link -/

/-- The link that `device.connect()` calls of this transport have established, and whether BlueZ
still works on such a call. -/
structure Link where
  up : Bool
  attempt : Bool
  deriving DecidableEq

def Link.down : Link := ⟨false, false⟩

/-- Arriving at an await point issues its call. -/
def issue : Await → Link → Link
  | .connect, l => { l with attempt := true }
  | .connectRetryCancel, _ => .down
  | .connectTimeoutCancel, _ => .down
  | .disconnectRollback _, _ => .down
  | _, l => l

/-- What a reply says of the link; nothing if it is impossible. A `Connect` that fails has
established no link, and a link that is up is reported. -/
def receive : Await → Reply → Link → Option Link
  | .connect, .ok, l => some ⟨l.up || l.attempt, false⟩
  | .connect, .error _ _, l => if l.up then none else some .down
  | .deviceConnected, .flag false, l => if l.up then none else some l
  | _, _, l => some l

/-! ## The machine -/

/-- The future that is running: none, `open` at an await point, or `open` has ended: with a
result, or dropped. -/
inductive Pc where
  | closed
  | awaiting (a : Await)
  | ended (result : Option (Except BleError Unit))

structure State where
  pc : Pc
  session : SessionState
  link : Link

def State.initial : State := ⟨.closed, .cleared, .down⟩

inductive Action where
  | open
  | reply (r : Reply)
  /-- The phase timeout drops the future of `open`. -/
  | drop
  | close
  /-- BlueZ establishes the link. -/
  | established
  /-- BlueZ gives the attempt up. -/
  | abandoned
  /-- The link is lost. -/
  | lost
  deriving DecidableEq

/-- `open` begins: it returns at once, or arrives at its first await point. -/
def State.beginOpen (config : TransportConfig) (st : State) : State :=
  if st.session.isOpen then { st with pc := .ended (some (.ok ())) }
  else match config.valid with
    | .error e => { st with pc := .ended (some (.error e)) }
    | .ok () => { st with pc := .awaiting .sessionOpen, link := issue .sessionOpen st.link }

/-- `open` goes on after a reply. -/
def State.goOn (st : State) (link : Link) : Await ⊕ Except BleError Unit → State
  | .inl a => { st with pc := .awaiting a, link := issue a link }
  | .inr (.ok ()) => { pc := .ended (some (.ok ())), session := .committed, link := link }
  | .inr (.error e) => { st with pc := .ended (some (.error e)), link := link }

/-- `close`: a link that is ours is disconnected, and the state is cleared. -/
def State.close (st : State) : State where
  pc := .closed
  session := .cleared
  link := if st.session.device && st.session.connectedByUs then .down else st.link

/-- The service closes the transport after a failed or dropped `open` before it opens it
again. -/
def step (config : TransportConfig) (st : State) : Action → Option State
  | .open =>
      match st.pc with
      | .closed => some (st.beginOpen config)
      | .ended _ => if st.session.isOpen then some (st.beginOpen config) else none
      | .awaiting _ => none
  | .reply r =>
      match st.pc with
      | .awaiting a => do
          let link ← receive a r st.link
          let next ← resume config a r
          pure (st.goOn link next)
      | _ => none
  | .drop =>
      match st.pc with
      | .awaiting _ => some { st with pc := .ended none }
      | _ => none
  | .close =>
      match st.pc with
      | .awaiting _ => none
      | _ => some st.close
  | .established => if st.link.attempt then some { st with link := ⟨true, false⟩ } else none
  | .abandoned =>
      if st.link.attempt then some { st with link := { st.link with attempt := false } } else none
  | .lost => if st.link.up then some { st with link := { st.link with up := false } } else none

/-! ## What the machine keeps -/

/-- The await points at which `open` has called `device.connect()` and neither cancelled nor
committed it. -/
def Await.uncommitted : Await → Bool
  | .connect => true
  | .locate => true
  | .subscribe _ => true
  | _ => false

section

variable {config : TransportConfig} {st st' : State}

/-- Where the link can be: nothing is committed while `open` runs, and outside of the uncommitted
await points an uncommitted transport has no link. -/
def Tidy (st : State) : Prop :=
  match st.pc with
  | .closed => st.session = .cleared ∧ st.link = .down
  | .awaiting a => st.session = .cleared ∧ (a.uncommitted = false → st.link = .down)
  | .ended _ => st.session = .committed ∨ (st.session = .cleared ∧ st.link = .down)

theorem issue_down {a : Await} (h : a.uncommitted = false) : issue a .down = .down := by
  cases a <;> first | rfl | cases h

/-- A reply at an await point without a link reports none. -/
theorem receive_down {a : Await} {r : Reply} {l : Link} (hun : a.uncommitted = false)
    (h : receive a r .down = some l) : l = .down := by
  unfold receive at h
  split at h
  · cases hun
  · cases hun
  · exact (Option.some.inj h).symm
  · exact (Option.some.inj h).symm

/-- `open` goes on after a reply: a call that cancels or rolls back leaves no link, and an error
is returned without one. -/
theorem goOn_link {a : Await} {r : Reply} {l l' : Link} {next : Await ⊕ Except BleError Unit}
    (hreceive : receive a r l = some l') (hresume : resume config a r = some next)
    (hl : a.uncommitted = false → l = .down) :
    match next with
    | .inl a' => a'.uncommitted = false → issue a' l' = .down
    | .inr (.ok ()) => True
    | .inr (.error _) => l' = .down := by
  by_cases hun : a.uncommitted = false
  · -- nothing is connected yet, or it has been cancelled
    have hdown : l' = .down := by
      rw [hl hun] at hreceive
      exact receive_down hun hreceive
    rw [hdown]
    rcases next with a' | e | ⟨⟩
    · exact issue_down
    · rfl
    · trivial
  · cases a with
    | connect =>
        rcases r with _ | _ | _ | ⟨e, _ | _⟩ | _ | _ <;> simp only [resume, reduceCtorEq,
          Option.some.injEq] at hresume
        · subst hresume
          intro h
          cases h
        · subst hresume
          -- an error without a retry: the call has established no link
          by_cases hup : l.up = true
          · simp [receive, hup] at hreceive
          · simp only [receive, hup, Bool.false_eq_true, if_false, Option.some.injEq] at hreceive
            exact hreceive.symm
        · subst hresume
          intro _
          rfl
        · subst hresume
          intro _
          rfl
    | locate =>
        rcases r with _ | _ | _ | ⟨e, _⟩ | _ | _ <;> simp only [resume, reduceCtorEq,
          Option.some.injEq, Option.map_none, Await.operation] at hresume
        · subst hresume
          intro h
          cases h
        · subst hresume
          intro h
          cases h
        · subst hresume
          intro _
          rfl
    | subscribe source =>
        cases source <;> rcases r with _ | _ | _ | ⟨e, _⟩ | _ | _ <;> simp only [resume,
          reduceCtorEq, Option.some.injEq] at hresume <;>
          subst hresume <;> first | trivial | (intro h; first | rfl | cases h)
    | _ => exact absurd rfl hun

theorem tidy_initial : Tidy .initial := ⟨rfl, rfl⟩

/-- A change of a link that is not down: only an uncommitted await point or a committed
transport has one. -/
theorem Tidy.relink {pc : Pc} {session : SessionState} {link : Link}
    (h : Tidy ⟨pc, session, link⟩) (hlink : link ≠ .down) (link' : Link) :
    Tidy ⟨pc, session, link'⟩ := by
  cases pc with
  | closed => exact absurd h.2 hlink
  | awaiting a =>
      refine ⟨h.1, fun hun => ?_⟩
      exact absurd (h.2 hun) hlink
  | ended result =>
      rcases h with hcommitted | ⟨-, hdown⟩
      · exact .inl hcommitted
      · exact absurd hdown hlink

theorem Tidy.beginOpen (h : Tidy st) (hpc : ∀ a, st.pc ≠ .awaiting a)
    (hended : st.pc = .closed ∨ st.session.isOpen = true) : Tidy (st.beginOpen config) := by
  rcases st with ⟨pc, session, link⟩
  unfold State.beginOpen
  by_cases hopen : session.isOpen = true
  · rw [if_pos hopen]
    cases pc with
    | closed =>
        -- a closed transport is cleared, so it is not open
        rw [show session = .cleared from h.1] at hopen
        cases hopen
    | awaiting a => exact absurd rfl (hpc a)
    | ended result => exact h
  · rw [if_neg hopen]
    have hclosed : pc = .closed := hended.resolve_right hopen
    subst hclosed
    obtain ⟨hsession, hlink⟩ : session = .cleared ∧ link = .down := h
    subst hsession hlink
    cases config.valid with
    | error e => exact .inr ⟨rfl, rfl⟩
    | ok u => exact ⟨rfl, fun _ => rfl⟩

/-- The step of the invariant, when no future is dropped while there is a link. -/
theorem Tidy.step {a : Action} (h : Tidy st) (hdrop : a = .drop → st.link = .down)
    (hstep : step config st a = some st') : Tidy st' := by
  rcases st with ⟨pc, session, link⟩
  cases a with
  | «open» =>
      cases pc with
      | closed =>
          cases hstep
          exact h.beginOpen (by simp) (.inl rfl)
      | awaiting a => cases hstep
      | ended result =>
          by_cases hopen : session.isOpen = true
          · simp only [Bluez.step, hopen, if_true, Option.some.injEq] at hstep
            subst hstep
            exact h.beginOpen (by simp) (.inr hopen)
          · simp [Bluez.step, hopen] at hstep
  | reply r =>
      cases pc with
      | closed => cases hstep
      | ended result => cases hstep
      | awaiting a =>
          obtain ⟨link', hreceive, hrest⟩ := Option.bind_eq_some_iff.mp hstep
          obtain ⟨next, hresume, hgo⟩ := Option.bind_eq_some_iff.mp hrest
          cases hgo
          have hgoOn := goOn_link hreceive hresume h.2
          rcases next with a' | e | ⟨⟩
          · exact ⟨h.1, hgoOn⟩
          · exact .inr ⟨h.1, hgoOn⟩
          · exact .inl rfl
  | drop =>
      cases pc with
      | closed => cases hstep
      | ended result => cases hstep
      | awaiting a =>
          cases hstep
          exact .inr ⟨h.1, hdrop rfl⟩
  | close =>
      cases pc with
      | closed =>
          cases hstep
          obtain ⟨hsession, hlink⟩ : session = .cleared ∧ link = .down := h
          subst hsession hlink
          exact ⟨rfl, rfl⟩
      | awaiting a => cases hstep
      | ended result =>
          cases hstep
          rcases h with hcommitted | ⟨hcleared, hdown⟩
          · have hsession : session = .committed := hcommitted
            subst hsession
            exact ⟨rfl, rfl⟩
          · have hsession : session = .cleared := hcleared
            subst hsession
            exact ⟨rfl, hdown⟩
  | established =>
      by_cases hattempt : link.attempt = true
      · simp only [Bluez.step, hattempt, if_true, Option.some.injEq] at hstep
        subst hstep
        apply h.relink
        rintro rfl
        cases hattempt
      · simp [Bluez.step, hattempt] at hstep
  | abandoned =>
      by_cases hattempt : link.attempt = true
      · simp only [Bluez.step, hattempt, if_true, Option.some.injEq] at hstep
        subst hstep
        apply h.relink
        rintro rfl
        cases hattempt
      · simp [Bluez.step, hattempt] at hstep
  | lost =>
      by_cases hup : link.up = true
      · simp only [Bluez.step, hup, if_true, Option.some.injEq] at hstep
        subst hstep
        apply h.relink
        rintro rfl
        cases hup
      · simp [Bluez.step, hup] at hstep

/-! ## When the link is released -/

/-- `D` says in which states the phase timeout may strike. -/
def Strikes (D : State → Prop) (st : State) (a : Action) : Prop := a = .drop → D st

/-- The states that a transport reaches in any sequence of opens and closes. -/
def Reached (config : TransportConfig) (D : State → Prop) (st : State) : Prop :=
  Reaches (step config) (Strikes D) .initial st

/-- No connection leak: a closed transport has no link of its own, and the check before the next
connect finds none. -/
structure LinkReleased (config : TransportConfig) (D : State → Prop) : Prop where
  closed : ∀ st, Reached config D st → st.pc = .closed → st.link.up = false
  contention : ∀ st, Reached config D st → st.pc = .awaiting .deviceConnected →
    st.link.up = false

/-- The session state at every moment: only an `open` that has ended can have committed. -/
def Staged (st : State) : Prop :=
  match st.pc with
  | .ended _ => st.session = .cleared ∨ st.session = .committed
  | _ => st.session = .cleared

theorem Staged.beginOpen (h : Staged st) (hpc : ∀ a, st.pc ≠ .awaiting a) :
    Staged (st.beginOpen config) := by
  rcases st with ⟨pc, session, link⟩
  have hsession : session = .cleared ∨ session = .committed := by
    cases pc with
    | closed => exact .inl h
    | awaiting a => exact absurd rfl (hpc a)
    | ended result => exact h
  rcases hsession with rfl | rfl
  · simp only [State.beginOpen, SessionState.cleared, Bool.false_eq_true, if_false]
    cases config.valid with
    | error e => exact .inl rfl
    | ok u => rfl
  · exact .inr rfl

/-- The step of `Staged`, whatever is dropped. -/
theorem Staged.step {a : Action} (h : Staged st) (hstep : step config st a = some st') :
    Staged st' := by
  rcases st with ⟨pc, session, link⟩
  have hlink : ∀ link', Staged ⟨pc, session, link'⟩ := fun _ => h
  cases a with
  | «open» =>
      cases pc with
      | awaiting a => cases hstep
      | closed =>
          cases hstep
          exact h.beginOpen (by simp)
      | ended result =>
          by_cases hopen : session.isOpen = true
          · simp only [Bluez.step, hopen, if_true, Option.some.injEq] at hstep
            subst hstep
            exact h.beginOpen (by simp)
          · simp [Bluez.step, hopen] at hstep
  | reply r =>
      cases pc with
      | closed => cases hstep
      | ended result => cases hstep
      | awaiting a =>
          obtain ⟨link', -, hrest⟩ := Option.bind_eq_some_iff.mp hstep
          obtain ⟨next, -, hgo⟩ := Option.bind_eq_some_iff.mp hrest
          cases hgo
          rcases next with a' | e | ⟨⟩
          · exact h
          · exact .inl h
          · exact .inr rfl
  | drop =>
      cases pc with
      | closed => cases hstep
      | ended result => cases hstep
      | awaiting a =>
          cases hstep
          exact .inl h
  | close =>
      cases pc with
      | awaiting a => cases hstep
      | closed =>
          cases hstep
          rfl
      | ended result =>
          cases hstep
          rfl
  | established =>
      simp only [Bluez.step, Option.ite_none_right_eq_some, Option.some.injEq] at hstep
      exact hstep.2 ▸ hlink _
  | abandoned =>
      simp only [Bluez.step, Option.ite_none_right_eq_some, Option.some.injEq] at hstep
      exact hstep.2 ▸ hlink _
  | lost =>
      simp only [Bluez.step, Option.ite_none_right_eq_some, Option.some.injEq] at hstep
      exact hstep.2 ▸ hlink _

/-- **When the link is released**: exactly when the phase timeout never drops `open` while a
`device.connect()` of this transport is pending or its link is up. -/
theorem link_released_iff (config : TransportConfig) (D : State → Prop) :
    LinkReleased config D ↔
      ∀ st, Reached config D st → ∀ a, st.pc = .awaiting a → D st → st.link = .down := by
  constructor
  · intro h st hst a hpc hD
    rcases st with ⟨pc, session, link⟩
    have hpc' : pc = .awaiting a := hpc
    subst hpc'
    have hstaged : Staged ⟨.awaiting a, session, link⟩ :=
      Reaches.invariant hst rfl fun _ _ _ hs _ hstep => hs.step hstep
    have hsession : session = .cleared := hstaged
    subst hsession
    -- the future is dropped, and the close that follows knows of no device
    have hdropped : Reached config D ⟨.ended none, .cleared, link⟩ :=
      hst.act (a := .drop) (fun _ => hD) rfl
    have hclosed : Reached config D ⟨.closed, .cleared, link⟩ :=
      hdropped.act (a := .close) (fun h => nomatch h) rfl
    have hup : link.up = false := h.closed _ hclosed rfl
    by_cases hattempt : link.attempt = true
    · -- BlueZ finishes the attempt that nobody has cancelled
      have hlate : Reached config D ⟨.closed, .cleared, ⟨true, false⟩⟩ := by
        apply hclosed.act (a := .established) (fun h => nomatch h)
        simp [step, hattempt]
      exact absurd (h.closed _ hlate rfl) (by simp)
    · have hnone : link.attempt = false := by simpa using hattempt
      calc link = ⟨link.up, link.attempt⟩ := rfl
        _ = .down := by rw [hup, hnone]; rfl
  · intro h
    have htidy : ∀ st, Reached config D st → Tidy st := by
      intro st hst
      have hboth : Reached config D st ∧ Tidy st := by
        apply Reaches.invariant (I := fun st => Reached config D st ∧ Tidy st) hst
          ⟨.refl, tidy_initial⟩
        intro t a u ⟨ht, hI⟩ hmay hstep
        refine ⟨ht.act hmay hstep, hI.step (fun hdrop => ?_) hstep⟩
        subst hdrop
        rcases t with ⟨pc, session, link⟩
        cases pc with
        | closed => cases hstep
        | ended result => cases hstep
        | awaiting a => exact h _ ht a rfl (hmay rfl)
      exact hboth.2
    constructor
    · intro st hst hpc
      have hclosed := htidy st hst
      rw [Tidy, hpc] at hclosed
      rw [hclosed.2]
      rfl
    · intro st hst hpc
      have hcheck := htidy st hst
      rw [Tidy, hpc] at hcheck
      rw [hcheck.2 rfl]
      rfl

end

/-- The phase timeout strikes during service discovery, after the connect has succeeded. -/
def dropInTail : List Action :=
  [.open, .reply .ok, .reply .ok, .reply (.flag true), .reply .ok, .reply (.flag false),
    .reply .ok, .drop, .close]

/-- If the phase timeout may strike at any await point, a link stays up after the teardown. -/
theorem dropInTail_leaks :
    ¬ LinkReleased ⟨.ok (), "hci0", .requireManual⟩ (fun _ => True) := by
  intro h
  have hrun : runActions (step ⟨.ok (), "hci0", .requireManual⟩) .initial dropInTail =
      some ⟨.closed, .cleared, ⟨true, false⟩⟩ := rfl
  have hreached : Reaches (step ⟨.ok (), "hci0", .requireManual⟩) (Strikes fun _ => True) .initial
      ⟨.closed, .cleared, ⟨true, false⟩⟩ :=
    Reaches.of_run (fun _ _ _ _ => trivial) hrun
  exact absurd (h.closed _ hreached rfl) (by simp)

end VeSmart.Bluez
