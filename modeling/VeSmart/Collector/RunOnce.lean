import VeSmart.Service.Endings
import VeSmart.Collector.Cycles

set_option autoImplicit false

/-! # The collector under `--run-once` (`victron-collector/src/main.rs`)

`run_daemon` gives the single cycle the receiver of a channel whose sender is dropped at once,
and `shutdown_requested` reads a closed channel as a request. The two together end every cycle
that gets as far as the delivery boundary at it, so nothing is ever delivered under `--run-once`:
`daemonOnce_undelivered`. -/

namespace VeSmart.Collector

open VeSmart.Lib VeSmart.Domain VeSmart.Service

/-- What is used of `tokio::sync::watch`. -/
structure WatchChannel (Rx : Type) where
  /-- `watch::channel(value).1`: the sender is dropped with the pair. -/
  loneReceiver : Bool → Rx
  borrow : Rx → Bool
  hasChanged : Rx → Except Unit Bool

/-- `has_changed` returns an error if the channel has been closed, as it is when all senders have
been dropped. -/
def WatchChannel.ClosedFails {Rx : Type} (watch : WatchChannel Rx) : Prop :=
  ∀ value, watch.hasChanged (watch.loneReceiver value) = .error ()

/-- Shutdown was requested, or the shutdown sender was dropped. -/
def shutdownRequested {Rx : Type} (watch : WatchChannel Rx) (shutdown : Rx) : Bool :=
  if watch.borrow shutdown then true else !(watch.hasChanged shutdown).isOk

/-- How `run_daemon` ends under `--run-once`. -/
inductive OnceExit where
  /-- The result is printed, and the exit code is `OK`. -/
  | cycleOk (result : CycleResult)
  | run (error : CycleError)
  /-- The exit code is `OK`. -/
  | ok

def OnceExit.isOk : OnceExit → Bool
  | .ok => true
  | _ => false

section

variable {ω σ Rx ε : Type}

/-- The collector with the shutdown channel of the single cycle. -/
def onceCollector (watch : WatchChannel Rx) (k : Service.Collector ω σ) :
    Service.Collector ω σ :=
  { k with ports := { k.ports with
      shutdownRequested := fun env => (shutdownRequested watch (watch.loneReceiver false), env) } }

/-- The branch of `run_daemon` for `--run-once`. -/
def daemonOnce (watch : WatchChannel Rx) (k : Service.Collector ω σ) : Cycle ω σ ε OnceExit := do
  match ← runCycle (onceCollector watch k) with
  | .success result => pure (.cycleOk result)
  | .failure _ error => pure (.run error)
  | .shutdownGraceful _ _ => pure .ok

/-- What is claimed of a single cycle that has committed a fresh sample: it has entered
`Delivering` and tried to deliver the oldest due batch, and it has ended in `Success` or in a
`Disconnecting` failure. -/
structure Delivers (k : Service.Collector ω σ) (exit : OnceExit) (c : CycleContext ω σ) :
    Prop where
  entered : ∃ store, .phase .delivering store ∈ c.trace
  attempted : ∃ now store claim,
    (k.ports.storage.spoolClaimNext k.config.spoolClaimTtl now store).1 = .ok (some claim) ∧
      .deliver claim.payload ∈ c.trace
  ended : (∃ result, exit = .cycleOk result) ∨ ∃ e, exit = .run (.disconnect e)

variable {watch : WatchChannel Rx} {k : Service.Collector ω σ} {start c : CycleContext ω σ}

/-! ## A cycle whose shutdown test is constant -/

/-- A cycle that commits a sample ends at the delivery boundary if shutdown is always
requested, and never there if it is never requested. -/
theorem committed_outcome {requested : Bool} {outcome : CycleOutcome} {sample : Sample}
    (hrequested : ∀ env, (k.ports.shutdownRequested env).1 = requested)
    (hends : CycleEnds k start outcome c) (hcommits : committing k start = some sample) :
    if requested then outcome = .shutdownGraceful .delivering sample
    else (∃ result, outcome = .success result) ∨
      ∃ e, outcome = .failure .disconnecting (.disconnect e) := by
  unfold committing at hcommits
  cases hends with
  | undurable p e late _ hdurable _ =>
      rw [hdurable] at hcommits
      cases hcommits
  | interrupted sample' energy duplicate late _ hdurable hstop _ =>
      have hyes : requested = true := (hrequested late.env).symm.trans hstop
      rw [hdurable] at hcommits
      rw [if_pos hyes]
      cases duplicate with
      | true => cases hcommits
      | false =>
          cases hcommits
          rfl
  | unreleased sample' energy duplicate e late _ _ hstop _ _ =>
      have hno : requested = false := (hrequested late.env).symm.trans hstop
      rw [if_neg (by simp [hno])]
      exact .inr ⟨e, rfl⟩
  | released sample' energy duplicate delivery late _ _ hstop _ _ =>
      have hno : requested = false := (hrequested late.env).symm.trans hstop
      rw [if_neg (by simp [hno])]
      exact .inl ⟨_, rfl⟩

/-- The durable step delivers nothing. -/
theorem persist_undelivered {sample : Sample}
    {r : Except (CyclePhase × CycleError) (Service.EnergyOutcome × Bool)}
    (h : PersistStep k sample start r c) :
    ∃ events, c.trace = start.trace ++ events ∧ ∀ e ∈ events, e.isDeliver = false := by
  cases h with
  | refused _ _ _ _ _ _ htrace => exact ⟨_, htrace, by simp [Event.isDeliver]⟩
  | duplicate _ _ _ _ _ _ _ _ _ htrace => exact ⟨_, htrace, by simp [Event.isDeliver]⟩
  | commit _ _ _ _ _ _ _ _ _ _ _ _ _ _ _ _ _ _ _ _ _ htrace =>
      exact ⟨_, htrace, by simp [Event.isDeliver]⟩

/-- A graceful end delivers nothing. -/
theorem graceful_undelivered {p : CyclePhase} {sample : Sample}
    (h : CycleRun k start (.shutdownGraceful p sample) c) :
    ∃ events, c.trace = start.trace ++ events ∧ ∀ e ∈ events, e.isDeliver = false := by
  cases h with
  | shutdown _ _ stop _ hwalk hdown =>
      cases hwalk with
      | interrupted _ energy duplicate mid late env hmid hpersist =>
          obtain ⟨walk, hwalk, hquiet⟩ := hmid.idled.trace
          obtain ⟨work, hwork, hdurable⟩ := persist_undelivered hpersist
          obtain ⟨rest, hrest, hdisconnect⟩ := hdown.idled.trace
          refine ⟨walk ++ work ++ rest, by simp [hrest, hwork, hwalk], ?_⟩
          intro e he
          rw [List.mem_append, List.mem_append] at he
          rcases he with (he | he) | he
          · exact (hquiet e he).2
          · exact hdurable e he
          · exact (hdisconnect e he).2

/-! ## The single cycle -/

/-- The receiver of a dropped sender always requests shutdown. -/
theorem lone_requested (hclosed : watch.ClosedFails) (env : ω) :
    ((onceCollector watch k).ports.shutdownRequested env).1 = true := by
  show shutdownRequested watch (watch.loneReceiver false) = true
  unfold shutdownRequested
  rw [hclosed false]
  split <;> rfl

/-- **Run-once never delivers**: for every port behaviour, a single cycle that commits a sample
is ended at the delivery boundary as if shutdown had been requested. -/
theorem daemonOnce_undelivered (hclosed : watch.ClosedFails) (k : Service.Collector ω σ) (env : ω)
    (store : σ) {sample : Sample}
    (hcommits : committing (onceCollector watch k) (CycleContext.new env store) = some sample) :
    ∃ c, exec (daemonOnce watch k : Cycle ω σ ε OnceExit) (CycleContext.new env store) =
        (.ok .ok, c) ∧
      (∀ payload, .deliver payload ∉ c.trace) ∧ ¬ Delivers k .ok c := by
  have hidle : (CycleContext.new env store).state.current = .idle := rfl
  obtain ⟨outcome, c, hexec, hrun⟩ := runCycle_steps (k := onceCollector watch k) (ε := ε) hidle
  have houtcome := committed_outcome (lone_requested hclosed) (runCycle_ends hidle hexec) hcommits
  rw [if_pos rfl] at houtcome
  subst houtcome
  refine ⟨c, ?_, ?_, ?_⟩
  · unfold daemonOnce
    rw [exec_bind_ok hexec]
    rfl
  · obtain ⟨events, htrace, hnone⟩ := graceful_undelivered hrun
    intro payload hmem
    rw [htrace] at hmem
    have hevents : .deliver payload ∈ events := by simpa [CycleContext.new] using hmem
    cases hnone _ hevents
  · intro h
    rcases h.ended with ⟨result, hresult⟩ | ⟨e, he⟩
    · cases hresult
    · cases he

end

/-- A channel that knows whether its sender has been dropped. -/
def flagChannel : WatchChannel (Bool × Bool) where
  loneReceiver := fun value => (value, true)
  borrow := fun rx => rx.1
  hasChanged := fun rx => if rx.2 then .error () else .ok false

theorem flagChannel_closed : flagChannel.ClosedFails := fun _ => rfl

theorem scripted_commits : (committing (onceCollector flagChannel scripted)
    (CycleContext.new (sunny 1000000000) ⟨Storage.Db.empty, []⟩)).isSome = true := by
  decide +kernel

/-- A single cycle of the scripted collector over a fresh database. -/
theorem scriptedOnce_undelivered : ∃ c,
    exec (daemonOnce flagChannel scripted : Cycle Sample SqliteWorld RunError OnceExit)
      (CycleContext.new (sunny 1000000000) ⟨Storage.Db.empty, []⟩) = (.ok .ok, c) ∧
    (∀ payload, .deliver payload ∉ c.trace) ∧ ¬ Delivers scripted .ok c := by
  obtain ⟨sample, hcommits⟩ := Option.isSome_iff_exists.mp scripted_commits
  exact daemonOnce_undelivered flagChannel_closed scripted _ _ hcommits

/-- The cycle commits its sample and ends well, but with no result to print and no delivery. -/
theorem scriptedOnce_silent :
    (committing (onceCollector flagChannel scripted)
      (CycleContext.new (sunny 1000000000) ⟨Storage.Db.empty, []⟩)).isSome = true ∧
    ¬ ∃ exit c,
      exec (daemonOnce flagChannel scripted : Cycle Sample SqliteWorld RunError OnceExit)
        (CycleContext.new (sunny 1000000000) ⟨Storage.Db.empty, []⟩) = (.ok exit, c) ∧
      Delivers scripted exit c := by
  refine ⟨scripted_commits, ?_⟩
  rintro ⟨exit, c, hexec, hdelivers⟩
  have hexit : (exec (daemonOnce flagChannel scripted :
      Cycle Sample SqliteWorld RunError OnceExit) (CycleContext.new (sunny 1000000000)
      ⟨Storage.Db.empty, []⟩)).1.toOption.map OnceExit.isOk = some true := by decide +kernel
  rw [hexec] at hexit
  cases exit with
  | ok => rcases hdelivers.ended with ⟨_, h⟩ | ⟨_, h⟩ <;> cases h
  | cycleOk result => cases hexit
  | run error => cases hexit

end VeSmart.Collector
