import VeSmart.Collector.Renderer
import VeSmart.Collector.SqliteStorage
import VeSmart.Service.Integration

set_option autoImplicit false

/-! # Runs of acquisition cycles over one SQLite storage

A run is a list of cycles; only the database lasts from one to the next. Each has its own
environment, health counters, statement faults and drains of the spool before it, so the
process may restart between any two. `counted_once_iff` says when such a run counts no instant
twice. -/

namespace VeSmart.Collector

open VeSmart.Lib VeSmart.Domain VeSmart.Service

/-- One cycle over the adapter, and the process that runs it. -/
structure CycleInput (ω : Type) (s : SqliteStorage) where
  collector : Service.Collector ω SqliteWorld
  storage : collector.ports.storage = s.port
  device : collector.device.device = s.device
  env : ω
  calls : List CallEnv
  health : HealthSnapshot
  transitions : UInt64
  drains : Nat

section

variable {ω : Type} {s : SqliteStorage}

/-- The context before the cycle, with the database `d`. -/
def CycleInput.start (i : CycleInput ω s) (d : Storage.Db) : CycleContext ω SqliteWorld where
  env := i.env
  store := ⟨d, i.calls⟩
  state := ⟨.idle, i.transitions⟩
  health := i.health
  trace := []

/-- A pass over the spool, and the cycle. -/
def iteration (k : Service.Collector ω SqliteWorld) (drains : Nat) :
    Cycle ω SqliteWorld RunError CycleOutcome := do
  let _ ← drainSpool k drains 0
  runCycle k

def CycleInput.finish (i : CycleInput ω s) (d : Storage.Db) : CycleContext ω SqliteWorld :=
  (exec (iteration i.collector i.drains) (i.start d)).2

/-- The database after the cycles. -/
def cyclesDb : Storage.Db → List (CycleInput ω s) → Storage.Db
  | d, [] => d
  | d, i :: rest => cyclesDb (i.finish d).store.db rest

/-- The cycles that committed, in order. -/
def committed : Storage.Db → List (CycleInput ω s) → List CommittedCycle
  | _, [] => []
  | d, i :: rest => committedCycles (i.finish d).trace ++ committed (i.finish d).store.db rest

/-- The view of a database. -/
def SqliteStorage.dbView (s : SqliteStorage) (d : Storage.Db) : Durable := s.view ⟨d, []⟩

/-- The parts of an iteration: a context after the spool work, and a cycle from there. -/
theorem CycleInput.finish_run (i : CycleInput ω s) (d : Storage.Db) :
    ∃ mid outcome, Unwritten i.collector (i.start d) mid ∧
      CycleRun i.collector mid outcome (i.finish d) := by
  have hdrain := drainSpool_unwritten (k := i.collector) (ε := RunError) i.drains 0 (i.start d)
    (fun _ _ => False)
  rcases hexec : exec (drainSpool i.collector i.drains 0 : Cycle ω SqliteWorld RunError _)
    (i.start d) with ⟨result, mid⟩
  cases result with
  | error e => exact (hdrain.error rfl hexec).elim
  | ok drained =>
      obtain ⟨hmid, hstate⟩ := hdrain.ok rfl hexec
      have hidle : mid.state.current = .idle := by
        rw [hstate]
        rfl
      obtain ⟨outcome, c, hrun, hsteps⟩ :=
        runCycle_steps (k := i.collector) (ε := RunError) hidle
      have hfinish : i.finish d = c := by
        unfold finish iteration
        rw [exec_bind_ok hexec, hrun]
      exact ⟨mid, outcome, hmid, hfinish ▸ hsteps⟩

theorem CycleInput.contract (i : CycleInput ω s) :
    CommitContract i.collector.ports.storage i.collector.device.device s.view := by
  rw [i.storage, i.device]
  exact s.contract

/-- The step of a run: what one cycle does to the view of the database. -/
theorem CycleInput.durable (i : CycleInput ω s) (d : Storage.Db) :
    DurableStep i.collector s.view (i.start d) (i.finish d) := by
  obtain ⟨mid, outcome, hmid, hrun⟩ := i.finish_run d
  exact (hrun.writes.durable i.contract).after i.contract hmid

/-! ## No instant is counted twice -/

/-- Every instant of observation time is counted at most once: the intervals that the committed
cycles have integrated do not overlap, and the accumulator has grown by their trapezoids. -/
structure CountedOnce (s : SqliteStorage) (d : Storage.Db) (run : List (CycleInput ω s)) :
    Prop where
  disjoint : (intervals ((committed d run).map CommittedCycle.move)).Pairwise NonOverlapping
  total : (s.dbView (cyclesDb d run)).totalKwh =
    (s.dbView d).totalKwh + ((committed d run).map CommittedCycle.area).sum

/-- The committed cycles of a run are moves of the durable anchor; by induction on the cycles,
each later than the last committed one. -/
theorem cycles_moves (run : List (CycleInput ω s)) (d : Storage.Db) (last : Option SystemTime)
    (hlast : ∀ t ∈ last, (s.dbView d).lastSuccessMs = some t.asMillis) :
    Moves rounded (s.dbView d).anchor last ((committed d run).map CommittedCycle.move) := by
  induction run generalizing d last with
  | nil => exact .nil _ _
  | cons i rest ih =>
      have hstart : s.view (i.start d).store = s.dbView d := rfl
      have hend : s.view (i.finish d).store = s.dbView (i.finish d).store.db := rfl
      rw [committed]
      rcases i.durable d with ⟨henergy, hidentity, htrace⟩ |
        ⟨sample, payload, stored, hnewer, henergy, hholds, hidentity, htrace⟩
      · -- nothing committed: anchor and identity are those of `d`
        rw [hstart, hend] at henergy hidentity
        have hanchor : (s.dbView (i.finish d).store.db).anchor = (s.dbView d).anchor := by
          rw [Durable.anchor, henergy]
          rfl
        rw [htrace, ← hanchor]
        exact ih _ _ (hidentity ▸ hlast)
      · have hcommitted : committedCycles (i.finish d).trace =
            [cycleOf i.collector s.view (i.start d).store sample payload] := htrace
        rw [hstart] at hnewer
        rw [hend] at henergy hidentity
        have hlater : ∀ t ∈ last, t < rounded sample.observedAt := by
          intro t ht
          exact SystemTime.lt_fromMillis (hnewer _ (hlast t ht))
        have hanchor : (s.dbView (i.finish d).store.db).anchor =
            stored.lastSampleAtMs.map SystemTime.fromMillis := by
          rw [Durable.anchor, henergy]
          rfl
        have hrest := ih (i.finish d).store.db (some sample.observedAt) (by
          intro t ht
          rw [← Option.some.inj ht]
          exact hidentity)
        rw [hanchor] at hrest
        rw [hcommitted, List.singleton_append, List.map_cons]
        cases cycleMove payload hholds with
        | anchored hmove hmoved =>
            rw [hmove]
            rw [hmoved] at hrest
            exact .anchored hlater hrest
        | kept hmove hkept =>
            rw [hmove]
            rw [hkept] at hrest
            exact .kept hlater hrest
        | integrated a hmove hfrom hlt hmoved =>
            rw [hstart] at hfrom
            rw [hmove, hfrom]
            rw [hmoved] at hrest
            exact .integrated hlater hlt hrest

/-- The accumulator grows by the trapezoids of the committed cycles, by induction on the
cycles. -/
theorem cycles_total (run : List (CycleInput ω s)) (d : Storage.Db) :
    (s.dbView (cyclesDb d run)).totalKwh =
      (s.dbView d).totalKwh + ((committed d run).map CommittedCycle.area).sum := by
  induction run generalizing d with
  | nil => simp [cyclesDb, committed]
  | cons i rest ih =>
      have hstart : s.view (i.start d).store = s.dbView d := rfl
      have hend : s.view (i.finish d).store = s.dbView (i.finish d).store.db := rfl
      have hstep : (s.dbView (i.finish d).store.db).totalKwh = (s.dbView d).totalKwh +
          ((committedCycles (i.finish d).trace).map CommittedCycle.area).sum := by
        rcases i.durable d with ⟨henergy, -, htrace⟩ |
          ⟨sample, payload, stored, -, henergy, hholds, -, htrace⟩
        · rw [htrace, Durable.totalKwh, ← hend, henergy, hstart]
          simp [CycleInput.start, committedCycles, Durable.totalKwh]
        · have hcommitted : committedCycles (i.finish d).trace =
              [cycleOf i.collector s.view (i.start d).store sample payload] := htrace
          rw [hcommitted, Durable.totalKwh, ← hend, henergy]
          simp only [Option.map_some, Option.getD_some, List.map_cons, List.map_nil, List.sum_cons,
            List.sum_nil, add_zero]
          cases cycleMove payload hholds with
          | anchored hmove _ htotal => rw [htotal, hstart, CommittedCycle.area, hmove, add_zero]
          | kept hmove _ htotal => rw [htotal, hstart, CommittedCycle.area, hmove, add_zero]
          | integrated a _ _ _ _ htotal => rw [htotal, hstart]
      calc (s.dbView (cyclesDb d (i :: rest))).totalKwh
          = (s.dbView (i.finish d).store.db).totalKwh +
              ((committed (i.finish d).store.db rest).map CommittedCycle.area).sum := ih _
        _ = _ := by rw [hstep, committed, List.map_append, List.sum_append, add_assoc]

/-- **When no instant is counted twice**: exactly when no cycle integrates from an anchor that an
integrating cycle with a fraction of a millisecond in its observation time has left. -/
theorem counted_once_iff (s : SqliteStorage) (d : Storage.Db) (run : List (CycleInput ω s)) :
    CountedOnce s d run ↔
      WholeStarts rounded none ((committed d run).map CommittedCycle.move) := by
  have hmoves := cycles_moves run d none (by simp)
  rw [wholeStarts_iff_disjoint rounded_le hmoves]
  exact ⟨fun h => h.disjoint, fun h => ⟨h, cycles_total run d⟩⟩

end

/-! ## A scripted collector -/

/-- Ports of which every call succeeds; the environment is the sample that is acquired. -/
def scriptedPorts (s : SqliteStorage) (r : PrometheusRenderer) :
    CyclePorts Sample SqliteWorld where
  ble := {
    discover := fun _ env => (some (.ok ()), env)
    connect := fun _ env => (some (.ok ()), env)
    negotiate := fun _ _ env => (some (.ok ()), env)
    subscribe := fun _ _ _ env => (some (.ok ()), env)
    requestValues := fun _ _ _ env => (some (.ok []), env)
    finishCycle := fun _ env => (some (.ok ()), env)
    disconnect := fun _ env => (some (.ok ()), env) }
  protocol := {
    vregs := fun env => ([], env)
    acquirePlan := fun _ _ env => (.ok ⟨[], [], []⟩, env)
    parseResponse := fun _ _ env => (.ok [], env)
    translate := fun _ _ env => (.ok env, env) }
  storage := s.port
  deliver := fun _ env => (.ok (), env)
  render := fun ctx env => (r.render ctx, env)
  now := fun env => (env.observedAt, env)
  shutdownRequested := fun env => (false, env)
  wait := fun _ env => env

/-- The storage of the default service configuration: the lease is its claim TTL. -/
def scriptedStorage : SqliteStorage where
  device := solarCharger
  config := ⟨{ Storage.StorageConfig.conservative with spoolInflightMs := ⟨120000, by decide⟩ },
    by decide⟩
  sqliteText := fun _ => "sqlite error"

def scriptedRenderer : PrometheusRenderer where
  sampleToBatch := fun _ => .ok [⟨"up", [], .finite 1, ⟨1, by decide⟩, by decide, by decide⟩]
  formatValue := fun _ => "1"

def scripted : Service.Collector Sample SqliteWorld where
  config := .default
  device := ⟨solarCharger, 3⟩
  resolves := by rfl
  ports := scriptedPorts scriptedStorage scriptedRenderer
  energy := ⟨ServiceConfig.default.maximumEnergyGap⟩
  backoff := fun _ => 0
  interval := fun _ => .active

/-- A sample with 100 W of confirmed PV power. -/
def sunny (nanos : Int) : Sample where
  device := solarCharger
  observedAt := ⟨nanos⟩
  pvVoltageVolts := none
  pvCurrentAmperes := none
  pvPowerWatts := some hundredWatts
  batteryVoltageVolts := none
  batteryCurrentAmperes := none
  loadCurrentAmperes := none
  loadPowerWatts := none
  yieldTotalKwh := none
  yieldTodayKwh := none
  bleRssiDbm := none
  chargerState := none
  loadState := none
  connectionHealth := none

/-- A cycle of a new process that observes its sample `nanos` after the epoch. -/
def cycleAt (nanos : Int) : CycleInput Sample scriptedStorage where
  collector := scripted
  storage := rfl
  device := rfl
  env := sunny nanos
  calls := []
  health := .new
  transitions := 0
  drains := 3

/-- A cycle of the scripted collector over a fresh database. -/
theorem scripted_truthful : ∃ outcome c,
    exec (runCycle scripted : Cycle Sample SqliteWorld RunError CycleOutcome)
      ((cycleAt 1000000000).start Storage.Db.empty) = (.ok outcome, c) ∧
    Truthful scripted scriptedStorage.view ((cycleAt 1000000000).start Storage.Db.empty)
      outcome c :=
  runCycle_truthful scripted scriptedStorage.view scriptedStorage.contract _ rfl

/-- The half millisecond before 2.0005 s is integrated twice: the third cycle starts from the
rounded anchor. -/
theorem halfMillisecond_countedTwice : ¬ CountedOnce scriptedStorage Storage.Db.empty
    [cycleAt 1000000000, cycleAt 2000500000, cycleAt 3000000000] := by
  have hmoves : (committed Storage.Db.empty
      [cycleAt 1000000000, cycleAt 2000500000, cycleAt 3000000000]).map CommittedCycle.move =
        [.anchored ⟨1000000000⟩, .integrated ⟨1000000000⟩ ⟨2000500000⟩,
          .integrated ⟨2000000000⟩ ⟨3000000000⟩] := by
    decide +kernel
  intro h
  have hdisjoint := h.disjoint
  rw [hmoves] at hdisjoint
  change List.Pairwise NonOverlapping [((⟨1000000000⟩, ⟨2000500000⟩) : SystemTime × SystemTime),
    (⟨2000000000⟩, ⟨3000000000⟩)] at hdisjoint
  -- neither interval ends before the other starts
  rcases List.rel_of_pairwise_cons hdisjoint (List.mem_singleton_self _) with hle | hle
  · exact absurd (SystemTime.le_iff.mp hle) (by decide)
  · exact absurd (SystemTime.le_iff.mp hle) (by decide)

end VeSmart.Collector
