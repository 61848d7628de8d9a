import VeSmart.Lib.Prog
import VeSmart.Service.Config
import VeSmart.Service.Scheduler

set_option autoImplicit false

/-! # The context of a cycle (`CycleContext` of `victron-service/src/cycle.rs`)

A `Collector` is the part of the context that a cycle reads, a `CycleContext` the part that it
changes: the worlds of the ports, the state machine, the health counters and, for the
statements about a cycle, the events that have happened. The second half has one rule for each
elementary step of a cycle. -/

namespace VeSmart.Service

open VeSmart.Lib VeSmart.Domain

/-- The part of the context that no cycle changes. `resolves` says that the configured name is a
device id: with another name the source stops before its first cycle does anything. -/
structure Collector (ω σ : Type) where
  config : ServiceConfig
  device : DeviceIdentity
  resolves : config.device = .ok device
  ports : CyclePorts ω σ
  energy : EnergyPolicy
  backoff : UInt32 → Duration
  interval : IntervalContext → IntervalKind

/-- An operation of the BLE session, as it is called. -/
inductive BleCall where
  | discover
  | connect
  | negotiate (frames : List (List UInt8))
  | subscribe (inst : UInt16) (payload : List UInt8)
  | requestValues (payload : List UInt8) (timeout : Duration)
  | finishCycle
  | disconnect
  deriving DecidableEq

/-- What is observed of a cycle: the reports to the phase observer, with the storage at the time
of a phase entry, and the calls of the ports that the theorems speak about. -/
inductive Event (σ : Type) where
  | phase (phase : CyclePhase) (store : σ)
  | progress (phase : CyclePhase)
  | ble (call : BleCall)
  | commit (energy : EnergyOutcome) (commit : AcquisitionCommit)
      (result : Except StorageError AcquisitionCommitOutcome)
  | deliver (payload : List UInt8)

structure CycleContext (ω σ : Type) where
  env : ω
  store : σ
  state : StateMachine
  health : HealthSnapshot
  trace : List (Event σ)

/-- A new context: `Idle`, and all counters zero. -/
def CycleContext.new {ω σ : Type} (env : ω) (store : σ) : CycleContext ω σ where
  env := env
  store := store
  state := .new
  health := .new
  trace := []

section

variable {ω σ ε ε' α : Type}

/-- A program on the context of a cycle. -/
abbrev Cycle (ω σ ε α : Type) := Prog (CycleContext ω σ) ε α

/-! ## Elementary steps -/

/-- A call to the environment. -/
def onEnv (f : ω → α × ω) : Cycle ω σ ε α :=
  ofFun fun c => (.ok (f c.env).1, { c with env := (f c.env).2 })

/-- A call to the storage. -/
def onStore (f : σ → α × σ) : Cycle ω σ ε α :=
  ofFun fun c => (.ok (f c.store).1, { c with store := (f c.store).2 })

def record (e : Event σ) : Cycle ω σ ε Unit :=
  modify fun c => { c with trace := c.trace ++ [e] }

def updateHealth (f : HealthSnapshot → HealthSnapshot) : Cycle ω σ ε Unit :=
  modify fun c => { c with health := f c.health }

/-- Fail with the mapped error of a call that has failed. -/
def mapErr (f : ε' → ε) (result : Except ε' α) : Cycle ω σ ε α := fromExcept (result.mapError f)

/-- Transition the state machine; an illegal transition is an error. -/
def goto (phase : CyclePhase) : Cycle ω σ ε (Except StateTransitionError Unit) :=
  ofFun fun c =>
    match c.state.transition phase with
    | .error e => (.ok (.error e), c)
    | .ok state => (.ok (.ok ()),
        { c with state := state, trace := c.trace ++ [.phase phase c.store] })

/-- Call the BLE session; a call that the deadline has cut off returns nothing. -/
def callBle (k : Collector ω σ) (call : BleCall) (op : Duration → ω → Timed α × ω) :
    Cycle ω σ ε (Timed α) := do
  record (.ble call)
  onEnv (op k.config.phaseTimeout)

/-- One BLE phase with the hard outer timeout. -/
def phase (k : Collector ω σ) (call : BleCall) (op : Duration → ω → Timed α × ω) :
    Cycle ω σ ε (Except BleError α) := do
  match ← callBle k call op with
  | some result => pure result
  | none => pure (.error (.timeout "service-phase"))

/-! ## Running them -/

theorem exec_onStore (f : σ → α × σ) (c : CycleContext ω σ) :
    exec (onStore f : Cycle ω σ ε α) c = (.ok (f c.store).1, { c with store := (f c.store).2 }) :=
  rfl

theorem exec_onEnv (f : ω → α × ω) (c : CycleContext ω σ) :
    exec (onEnv f : Cycle ω σ ε α) c = (.ok (f c.env).1, { c with env := (f c.env).2 }) := rfl

theorem exec_mapErr_ok (f : ε' → ε) {result : Except ε' α} {a : α}
    (h : result = .ok a) (c : CycleContext ω σ) :
    exec (mapErr f result : Cycle ω σ ε α) c = (.ok a, c) := by
  rw [h]
  rfl

theorem exec_mapErr_error (f : ε' → ε) {result : Except ε' α} {e : ε'}
    (h : result = .error e) (c : CycleContext ω σ) :
    exec (mapErr f result : Cycle ω σ ε α) c = (.error (f e), c) := by
  rw [h]
  rfl

theorem exec_phase (k : Collector ω σ) (call : BleCall) (op : Duration → ω → Timed α × ω)
    (c : CycleContext ω σ) :
    exec (phase k call op : Cycle ω σ ε (Except BleError α)) c =
      (.ok ((op k.config.phaseTimeout c.env).1.getD (.error (.timeout "service-phase"))),
        { c with
          env := (op k.config.phaseTimeout c.env).2, trace := c.trace ++ [.ble call] }) := by
  have hcall : exec (callBle k call op : Cycle ω σ ε (Timed α)) c =
      (.ok (op k.config.phaseTimeout c.env).1, { c with
        env := (op k.config.phaseTimeout c.env).2, trace := c.trace ++ [.ble call] }) := rfl
  unfold phase
  rw [exec_bind_ok hcall]
  cases (op k.config.phaseTimeout c.env).1 with
  | none => rfl
  | some result => rfl

/-! ## Their rules -/

variable {P : CycleContext ω σ → Prop} {E : ε → CycleContext ω σ → Prop}

theorem onEnv_rule {Q : α → CycleContext ω σ → Prop} {f : ω → α × ω}
    (h : ∀ c a env, P c → Q a { c with env := env }) : Triple P (onEnv f) Q E :=
  fun c hP => h c _ _ hP

theorem onStore_rule {Q : α → CycleContext ω σ → Prop} {f : σ → α × σ}
    (h : ∀ c, P c → Q (f c.store).1 { c with store := (f c.store).2 }) :
    Triple P (onStore f) Q E :=
  fun c hP => h c hP

theorem record_rule {e : Event σ} {Q : Unit → CycleContext ω σ → Prop}
    (h : ∀ c, P c → Q () { c with trace := c.trace ++ [e] }) : Triple P (record e) Q E :=
  fun c hP => h c hP

theorem updateHealth_rule {f : HealthSnapshot → HealthSnapshot}
    {Q : Unit → CycleContext ω σ → Prop} (h : ∀ c, P c → Q () { c with health := f c.health }) :
    Triple P (updateHealth f) Q E :=
  fun c hP => h c hP

theorem mapErr_rule {f : ε' → ε} {result : Except ε' α} {Q : α → CycleContext ω σ → Prop}
    (hok : ∀ a c, P c → result = .ok a → Q a c)
    (herr : ∀ e c, P c → result = .error e → E (f e) c) : Triple P (mapErr f result) Q E := by
  intro c hP
  unfold mapErr
  rw [exec_fromExcept]
  cases result with
  | ok a => exact hok a c hP rfl
  | error e => exact herr e c hP rfl

/-- A legal transition succeeds and is reported. -/
theorem goto_rule {phase : CyclePhase} {Q : Except StateTransitionError Unit →
      CycleContext ω σ → Prop}
    (hlegal : ∀ c, P c → c.state.current.canTransitionTo phase = true)
    (h : ∀ c n, P c → Q (.ok ()) { c with
      state := ⟨phase, n⟩, trace := c.trace ++ [.phase phase c.store] }) :
    Triple P (goto phase) Q E := by
  intro c hP
  unfold goto
  rw [exec_ofFun, StateMachine.transition_ok (hlegal c hP)]
  exact h c _ hP

theorem callBle_rule {k : Collector ω σ} {call : BleCall} {op : Duration → ω → Timed α × ω}
    {Q : Timed α → CycleContext ω σ → Prop}
    (h : ∀ c a env, P c → Q a { c with env := env, trace := c.trace ++ [.ble call] }) :
    Triple P (callBle k call op) Q E := by
  apply Triple.bind
    (Q := fun _ c => ∃ c₀, P c₀ ∧ c = { c₀ with trace := c₀.trace ++ [.ble call] })
  · apply record_rule
    intro c hP
    exact ⟨c, hP, rfl⟩
  · intro _
    apply onEnv_rule
    rintro _ a env ⟨c, hP, rfl⟩
    exact h c a env hP

theorem phase_rule {k : Collector ω σ} {call : BleCall} {op : Duration → ω → Timed α × ω}
    {Q : Except BleError α → CycleContext ω σ → Prop}
    (h : ∀ c a env, P c → Q a { c with env := env, trace := c.trace ++ [.ble call] }) :
    Triple P (phase k call op) Q E := by
  intro c hP
  rw [exec_phase]
  exact h c _ _ hP

end

end VeSmart.Service
