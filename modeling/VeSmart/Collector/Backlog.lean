import VeSmart.Collector.Config
import VeSmart.Collector.Deliveries

set_option autoImplicit false

/-! # The bound on the spool

`maximum_spool_batches` and `maximum_spool_age_days` bound what `prune_spool` leaves, and the
collector never prunes: a batch leaves the spool when its delivery has settled it and in no other
way. `spool_bounded_iff` says when the spool is within the two bounds all the same. -/

namespace VeSmart.Collector

open VeSmart.Lib VeSmart.Domain VeSmart.Service
open VeSmart.Storage (Db SpoolRow Bumped deliveredTotal droppedTotal)

/-! ## The history of a spool -/

/-- A batch was committed, or it was delivered or given up. -/
inductive SpoolEvent where
  | enqueued (id createdAtMs : Int)
  | settled (id : Int)
  deriving DecidableEq

def SpoolEvent.isEnqueued : SpoolEvent → Bool
  | .enqueued _ _ => true
  | .settled _ => false

def SpoolEvent.isSettled : SpoolEvent → Bool
  | .enqueued _ _ => false
  | .settled _ => true

/-- The batches left by one event. -/
def SpoolEvent.apply (batches : List (Int × Int)) : SpoolEvent → List (Int × Int)
  | .enqueued id createdAtMs => batches ++ [(id, createdAtMs)]
  | .settled id => batches.filter fun b => !decide (b.1 = id)

/-- The batches of a history that are not settled. -/
def unsettled (history : List SpoolEvent) : List (Int × Int) :=
  history.foldl SpoolEvent.apply []

theorem unsettled_append (history : List SpoolEvent) (e : SpoolEvent) :
    unsettled (history ++ [e]) = e.apply (unsettled history) := by
  unfold unsettled
  rw [List.foldl_append]
  rfl

/-- A batch is unsettled if no event after its commit has settled it; by induction from the last
event. -/
theorem mem_unsettled {history : List SpoolEvent} {b : Int × Int} :
    b ∈ unsettled history ↔ ∃ before after,
      history = before ++ .enqueued b.1 b.2 :: after ∧ .settled b.1 ∉ after := by
  induction history using List.reverseRecOn with
  | nil => simp [unsettled]
  | append_singleton history e ih =>
      rw [unsettled_append]
      -- the event `e` is the commit of the batch itself, or comes after it
      have hlast : (∃ before after, history ++ [e] = before ++ .enqueued b.1 b.2 :: after ∧
          SpoolEvent.settled b.1 ∉ after) ↔
          e = .enqueued b.1 b.2 ∨ b ∈ unsettled history ∧ e ≠ .settled b.1 := by
        rw [ih]
        constructor
        · rintro ⟨before, after, heq, hnot⟩
          rcases List.eq_nil_or_concat after with rfl | ⟨after', e', rfl⟩
          · exact .inl (List.append_inj_right' heq rfl |> List.singleton_inj.mp)
          · right
            rw [List.concat_eq_append] at heq hnot
            rw [← List.cons_append, ← List.append_assoc] at heq
            obtain ⟨hhistory, he⟩ := List.append_inj' heq rfl
            obtain rfl := List.singleton_inj.mp he
            refine ⟨⟨before, after', hhistory, ?_⟩, ?_⟩
            · exact fun hmem => hnot (List.mem_append_left _ hmem)
            · rintro rfl
              exact hnot (by simp)
        · rintro (rfl | ⟨⟨before, after, rfl, hnot⟩, hne⟩)
          · exact ⟨history, [], rfl, by simp⟩
          · refine ⟨before, after ++ [e], by simp, ?_⟩
            rw [List.mem_append, List.mem_singleton]
            rintro (hmem | heq)
            · exact hnot hmem
            · exact hne heq.symm
      rw [hlast]
      cases e with
      | enqueued id createdAtMs =>
          have hb : SpoolEvent.enqueued id createdAtMs = .enqueued b.1 b.2 ↔
              b = (id, createdAtMs) := by
            rw [SpoolEvent.enqueued.injEq, Prod.ext_iff]
            constructor <;> exact fun h => ⟨h.1.symm, h.2.symm⟩
          show b ∈ unsettled history ++ [(id, createdAtMs)] ↔ _
          have hne : SpoolEvent.enqueued id createdAtMs ≠ .settled b.1 := nofun
          rw [hb, List.mem_append, List.mem_singleton, or_comm, and_iff_left hne]
      | settled id =>
          show b ∈ (unsettled history).filter _ ↔ _
          have hne : SpoolEvent.settled id ≠ .enqueued b.1 b.2 := nofun
          rw [List.mem_filter, or_iff_right hne]
          refine and_congr_right fun _ => ?_
          rw [Bool.not_eq_true', decide_eq_false_iff_not, ne_eq, SpoolEvent.settled.injEq,
            eq_comm]

section

variable {ω : Type}

/-- The events of a commit, by its answer. The batch gets the next id of the spool. -/
def commitEvents (w : SqliteWorld) (commit : Service.AcquisitionCommit) :
    Except Service.StorageError Service.AcquisitionCommitOutcome → List SpoolEvent
  | .ok .committed => [.enqueued (w.db.spool.seq + 1) commit.observedAt.asMillis]
  | _ => []

/-- The events of `spool_complete` and `spool_drop`, by their answer. -/
def removalEvents (claim : ClaimedBatch) : Except Service.StorageError Unit → List SpoolEvent
  | .ok () => [.settled claim.id.toNat]
  | .error _ => []

/-- The events of `spool_retry`, by its answer. -/
def retryEvents (claim : ClaimedBatch) :
    Except Service.StorageError Service.RetryOutcome → List SpoolEvent
  | .ok (.dropped _) => [.settled claim.id.toNat]
  | _ => []

/-- The events of a step, by the storage call that it makes. -/
inductive Logged (k : Service.Collector ω SqliteWorld) (l l' : Life SqliteWorld) :
    List SpoolEvent → Prop
  | idle (h : l'.store = l.store) : Logged k l l' []
  | read (h : ReadStep k.ports.storage l.store l'.store) : Logged k l l' []
  | claim (now : SystemTime)
      (h : l'.store = (k.ports.storage.spoolClaimNext k.config.spoolClaimTtl now l.store).2) :
      Logged k l l' []
  | commit (commit : Service.AcquisitionCommit)
      (h : l'.store = (k.ports.storage.commitAcquisition commit l.store).2) :
      Logged k l l'
        (commitEvents l.store commit (k.ports.storage.commitAcquisition commit l.store).1)
  | complete (claim : ClaimedBatch)
      (h : l'.store = (k.ports.storage.spoolComplete claim l.store).2) :
      Logged k l l' (removalEvents claim (k.ports.storage.spoolComplete claim l.store).1)
  | drop (claim : ClaimedBatch) (h : l'.store = (k.ports.storage.spoolDrop claim l.store).2) :
      Logged k l l' (removalEvents claim (k.ports.storage.spoolDrop claim l.store).1)
  | retry (claim : ClaimedBatch) (now : SystemTime)
      (h : l'.store = (k.ports.storage.spoolRetry claim now l.store).2) :
      Logged k l l' (retryEvents claim (k.ports.storage.spoolRetry claim now l.store).1)

/-- A run of the service from `l₀`, with its history. -/
inductive Ran (k : Service.Collector ω SqliteWorld) (l₀ : Life SqliteWorld) :
    List SpoolEvent → Life SqliteWorld → Prop
  | start : Ran k l₀ [] l₀
  | step (history events : List SpoolEvent) (l l' : Life SqliteWorld) (h : Ran k l₀ history l)
      (hstep : LifeStep k l l') (hlogged : Logged k l l' events) : Ran k l₀ (history ++ events) l'

variable {k : Service.Collector ω SqliteWorld} {s : SqliteStorage} {l₀ l l' : Life SqliteWorld}
  {history events : List SpoolEvent}

theorem logged_exists (hstep : LifeStep k l l') : ∃ events, Logged k l l' events := by
  cases hstep with
  | read store hpoint hread => exact ⟨_, .read hread⟩
  | commit commit hpoint => exact ⟨_, .commit commit rfl⟩
  | claim now hpoint => exact ⟨_, .claim now rfl⟩
  | deliver claim env hpoint => exact ⟨_, .idle rfl⟩
  | complete claim hpoint => exact ⟨_, .complete claim rfl⟩
  | drop claim e hpoint hgive => exact ⟨_, .drop claim rfl⟩
  | retry claim e now hpoint hretry hleft => exact ⟨_, .retry claim now rfl⟩
  | crash => exact ⟨_, .idle rfl⟩

/-- Every run of await steps has a history. -/
theorem Ran.extend (h : Ran k l₀ history l) (hsteps : Relation.ReflTransGen (LifeStep k) l l') :
    ∃ events, Ran k l₀ (history ++ events) l' := by
  induction hsteps with
  | refl => exact ⟨[], by simpa using h⟩
  | tail _ hstep ih =>
      obtain ⟨before, hran⟩ := ih
      obtain ⟨events, hlogged⟩ := logged_exists hstep
      refine ⟨before ++ events, ?_⟩
      rw [← List.append_assoc]
      exact .step _ _ _ _ hran hstep hlogged

theorem Ran.steps (h : Ran k l₀ history l) : Relation.ReflTransGen (LifeStep k) l₀ l := by
  induction h with
  | start => exact .refl
  | step _ _ _ _ _ hstep _ ih => exact ih.tail hstep

/-- A drain or a cycle continues a run. -/
theorem Ran.program (h : Ran k l₀ history l) (program : SpoolProgram)
    {c : CycleContext ω SqliteWorld} (hpoint : l.point = .between) (hstore : c.store = l.store)
    (htally : c.health.tally = l.tally) :
    ∃ events l', Ran k l₀ (history ++ events) l' ∧ l'.point = .between ∧
      l'.store = (program.exec k c).store ∧ l'.tally = (program.exec k c).health.tally := by
  obtain ⟨l', hsteps, hstore', htally', hpoint'⟩ :=
    program.lives (k := k) ⟨l, .refl, hstore.symm, htally.symm, hpoint⟩
  obtain ⟨events, hran⟩ := h.extend hsteps
  exact ⟨events, l', hran, hpoint', hstore', htally'⟩

/-! ## The rows are the unsettled batches -/

/-- **The invariant of a run**: the rows of the spool are the unsettled batches, and a settlement
has removed exactly one. -/
structure Accounts (history : List SpoolEvent) (d : Db) : Prop where
  rows : d.spool.rows.map (fun r => (r.id, r.createdAtMs)) = unsettled history
  count : d.spool.rows.length + history.countP SpoolEvent.isSettled =
    history.countP SpoolEvent.isEnqueued

variable {d d' : Db}

theorem Accounts.empty : Accounts [] Db.empty := ⟨rfl, rfl⟩

/-- A call that keeps the ids and times of all rows. -/
theorem Accounts.keep (h : Accounts history d)
    (hrows : d'.spool.rows.map (fun r => (r.id, r.createdAtMs)) =
      d.spool.rows.map fun r => (r.id, r.createdAtMs)) : Accounts (history ++ []) d' := by
  have hlength : d'.spool.rows.length = d.spool.rows.length := by
    have hmapped := congrArg List.length hrows
    simpa using hmapped
  rw [List.append_nil]
  exact ⟨hrows.trans h.rows, by rw [hlength]; exact h.count⟩

theorem Accounts.enqueue (h : Accounts history d) {row : SpoolRow}
    (hrows : d'.spool.rows = d.spool.rows ++ [row]) :
    Accounts (history ++ [.enqueued row.id row.createdAtMs]) d' := by
  refine ⟨?_, ?_⟩
  · rw [hrows, List.map_append, h.rows, unsettled_append]
    rfl
  · have hcount := h.count
    rw [hrows, List.length_append, List.countP_append, List.countP_append]
    simp only [List.length_singleton, List.countP_singleton, SpoolEvent.isSettled,
      SpoolEvent.isEnqueued, if_true, Bool.false_eq_true, if_false]
    omega

/-- A settled batch was in the spool, and is the only row that is removed. -/
theorem Accounts.settle (h : Accounts history d) {id : Int} {row : SpoolRow}
    (hrow : d.spool.find id = some row)
    (hspool : d'.spool = (d.spool.deleteWhere fun r => r.id = id).2) :
    Accounts (history ++ [.settled id]) d' := by
  refine ⟨?_, ?_⟩
  · rw [hspool, Storage.SpoolTable.deleteWhere_rows, unsettled_append, ← h.rows]
    show _ = List.filter _ (List.map _ _)
    rw [List.filter_map]
    rfl
  · have hone : (d.spool.deleteWhere fun r => r.id = id).1 = 1 := by
      rw [Storage.SpoolTable.deleteWhere_count, Storage.SpoolTable.countP_id, hrow]
      rfl
    have hlength := d.spool.deleteWhere_length fun r => r.id = id
    have hcount := h.count
    rw [hspool, List.countP_append, List.countP_append]
    simp only [List.countP_singleton, SpoolEvent.isSettled, SpoolEvent.isEnqueued, if_true,
      Bool.false_eq_true, if_false]
    omega

theorem Accounts.commit (h : Accounts history l.store.db) (commit : Service.AcquisitionCommit) :
    Accounts (history ++
        commitEvents l.store commit (exec (commitAcquisition s commit) l.store).1)
      (exec (commitAcquisition s commit) l.store).2.db := by
  have hsame : ∀ {w : SqliteWorld}, w.db = l.store.db → Accounts (history ++ []) w.db := by
    intro w hdb
    exact h.keep (by rw [hdb])
  rcases port_commit_cases s commit l.store with ⟨e, -, hexec⟩ | ⟨c, hc, hcases⟩
  · rw [hexec]
    exact hsame rfl
  rcases hcases with ⟨e, w, hexec, hdb, -⟩ | ⟨v, w, hexec, hdb, -⟩ | ⟨id, w, hexec, heffect⟩
  · rw [hexec]
    exact hsame hdb
  · rw [hexec]
    exact hsame hdb
  · rw [hexec]
    obtain ⟨hid, -, row, hrows, hrow, -, hcreated, -⟩ := Storage.SpoolTable.insert_ok heffect.spool
    have hevent : commitEvents l.store commit (.ok .committed) =
        [.enqueued row.id row.createdAtMs] := by
      rw [hrow, hid, hcreated, (sqliteCommit_ok hc).2.1]
      rfl
    rw [hevent]
    exact h.enqueue hrows

theorem Accounts.remove {counter : String} {result : Except Service.StorageError Unit}
    {claim : ClaimedBatch} (h : Accounts history d)
    (hends : Settles counter claim.id.toNat d result d') :
    Accounts (history ++ removalEvents claim result) d' := by
  cases hends with
  | refused e => exact h.keep rfl
  | removed kv' row hrow hkv => exact h.settle hrow rfl

theorem Accounts.retry {cfg : Storage.StorageConfig} {claim : ClaimedBatch}
    {result : Except Service.StorageError Service.RetryOutcome} (h : Accounts history d)
    (hends : Retries cfg claim.id.toNat d result d') :
    Accounts (history ++ retryEvents claim result) d' := by
  cases hends with
  | refused e => exact h.keep rfl
  | dropped kv' row attempts hrow hspent hkv => exact h.settle hrow rfl
  | retried t attempts next hnext hrows =>
      refine h.keep ?_
      show t.rows.map _ = _
      rw [hrows, Storage.retryRows, List.map_map]
      refine List.map_congr_left fun r _ => ?_
      simp only [Function.comp_apply]
      split <;> rfl

theorem Accounts.claim {cfg : Storage.StorageConfig}
    {result : Except Service.StorageError (Option ClaimedBatch)} (h : Accounts history d)
    (hends : Claims cfg d result d') : Accounts (history ++ []) d' := by
  cases hends with
  | refused e => exact h.keep rfl
  | idle => exact h.keep rfl
  | leased t row next hnext hrow hleft hrows =>
      refine h.keep ?_
      show t.rows.map _ = _
      rw [hrows, Storage.leaseRows, List.map_map]
      refine List.map_congr_left fun r _ => ?_
      simp only [Function.comp_apply]
      split <;> rfl

/-- **The step of the accounts.** -/
theorem Accounts.step (hstorage : k.ports.storage = s.port) (hbooks : Books k s l)
    (h : Accounts history l.store.db) (hlogged : Logged k l l' events) :
    Accounts (history ++ events) l'.store.db := by
  have hready := hbooks.sound.ready
  cases hlogged with
  | idle hstore => exact h.keep (by rw [hstore])
  | read hread =>
      rw [hstorage] at hread
      exact h.keep (by rw [SqliteStorage.port_read hread])
  | claim now hstore =>
      rw [hstore, hstorage]
      exact h.claim (spoolClaimNext_ends _ now l.store hready hbooks.sound.ids)
  | commit commit hstore =>
      rw [hstore, hstorage]
      exact h.commit commit
  | complete claim hstore =>
      rw [hstore, hstorage]
      exact h.remove (spoolComplete_ends claim l.store hready)
  | drop claim hstore =>
      rw [hstore, hstorage]
      exact h.remove (spoolDrop_ends claim l.store hready)
  | retry claim now hstore =>
      rw [hstore, hstorage]
      exact h.retry (spoolRetry_ends claim now l.store hready)

/-- The run of the accounts, by induction on the steps. -/
theorem Ran.accounts (hstorage : k.ports.storage = s.port) (hbooks : Books k s l₀)
    (hstart : Accounts [] l₀.store.db) (h : Ran k l₀ history l) : Accounts history l.store.db := by
  induction h with
  | start => exact hstart
  | step history events l l' hran hstep hlogged ih =>
      exact ih.step hstorage (hbooks.run hstorage hran.steps) hlogged

/-! ## The bounds -/

/-- The batch is older than the configured age. -/
def tooOld (cfg : Config) (now : SystemTime) (createdAtMs : Int) : Prop :=
  createdAtMs < now.asMillis - cfg.storage.maximumSpoolAgeDays.toNat * (24 * 60 * 60 * 1000)

/-- The spool is as the configuration says, by the clock `now`. -/
structure SpoolBounded (cfg : Config) (now : SystemTime) (d : Db) : Prop where
  count : d.spool.rows.length ≤ cfg.storage.maximumSpoolBatches.toNat
  age : ∀ r ∈ d.spool.rows, ¬ tooOld cfg now r.createdAtMs

/-- The deliveries have kept up with the commits: these are ahead by the configured number of
batches at most, and every batch that is older than the configured age has been settled since its
commit. -/
structure KeptUp (cfg : Config) (now : SystemTime) (history : List SpoolEvent) : Prop where
  count : history.countP SpoolEvent.isEnqueued ≤
    history.countP SpoolEvent.isSettled + cfg.storage.maximumSpoolBatches.toNat
  age : ∀ before after id createdAtMs, history = before ++ .enqueued id createdAtMs :: after →
    tooOld cfg now createdAtMs → .settled id ∈ after

theorem Accounts.bounded_iff (h : Accounts history d) (cfg : Config) (now : SystemTime) :
    SpoolBounded cfg now d ↔ KeptUp cfg now history := by
  have hcount := h.count
  constructor
  · intro hbounded
    refine ⟨?_, ?_⟩
    · have hle := hbounded.count
      omega
    · intro before after id createdAtMs heq hold
      by_contra hnot
      have hmem : (id, createdAtMs) ∈ unsettled history :=
        mem_unsettled.mpr ⟨before, after, heq, hnot⟩
      rw [← h.rows] at hmem
      obtain ⟨r, hr, hpair⟩ := List.mem_map.mp hmem
      obtain ⟨-, hcreated⟩ := Prod.mk.inj hpair
      exact hbounded.age r hr (hcreated ▸ hold)
  · intro hkept
    refine ⟨?_, ?_⟩
    · have hle := hkept.count
      omega
    · intro r hr hold
      have hmem : (r.id, r.createdAtMs) ∈ unsettled history := by
        rw [← h.rows]
        exact List.mem_map_of_mem hr
      obtain ⟨before, after, heq, hnot⟩ := mem_unsettled.mp hmem
      exact hnot (hkept.age before after _ _ heq hold)

/-- **When the spool is bounded**: in every run of the service over a fresh SQLite spool, with any
answers of the network, failing calls and restarts, the spool is within its two bounds at a moment
exactly if the deliveries have kept up until then. Every drain and every cycle is such a run. -/
theorem spool_bounded_iff (cfg : Config) (k : Service.Collector ω SqliteWorld) (s : SqliteStorage)
    (hstorage : k.ports.storage = s.port) (calls : List CallEnv) (history : List SpoolEvent)
    (l : Life SqliteWorld) (hrun : Ran k (.start ⟨Db.empty, calls⟩) history l) :
    (∀ now, SpoolBounded cfg now l.store.db ↔ KeptUp cfg now history) ∧
      ∀ (program : SpoolProgram) (c : CycleContext ω SqliteWorld), l.point = .between →
        c.store = l.store → c.health.tally = l.tally →
        ∃ events l', Ran k (.start ⟨Db.empty, calls⟩) (history ++ events) l' ∧
          l'.point = .between ∧ l'.store = (program.exec k c).store ∧
          l'.tally = (program.exec k c).health.tally := by
  have hbooks : Books k s (.start ⟨Db.empty, calls⟩) := Books.start (SpoolSound.empty s.config.1)
  have hempty : Accounts [] (Life.start (⟨Db.empty, calls⟩ : SqliteWorld)).store.db :=
    Accounts.empty
  have haccounts := hrun.accounts hstorage hbooks hempty
  refine ⟨haccounts.bounded_iff cfg, ?_⟩
  intro program c hpoint hstore htally
  exact hrun.program program hpoint hstore htally

end

/-! ## A full spool -/

/-- Storage calls without a fault, a second after the epoch. -/
def faultless : List CallEnv := List.replicate 40 ⟨[], ms 1000⟩

/-- A cycle of the scripted collector, whose batch is delivered: the spool is within the bounds of
the deployment plan, and the deliveries have kept up. -/
theorem scripted_keptUp : ∃ history l, Ran scripted (.start ⟨Db.empty, faultless⟩) history l ∧
    l.store = (SpoolProgram.exec scripted (.new (sunny 1000000000) ⟨Db.empty, faultless⟩) .cycle).store ∧
    SpoolBounded (planned 12) ⟨2000000000⟩ l.store.db ∧
    KeptUp (planned 12) ⟨2000000000⟩ history := by
  obtain ⟨events, l, hran, -, hstore, -⟩ :=
    (spool_bounded_iff (planned 12) scripted scriptedStorage rfl faultless [] _ .start).2 .cycle
      (.new (sunny 1000000000) ⟨Db.empty, faultless⟩) rfl rfl rfl
  have hrows : (SpoolProgram.exec scripted (.new (sunny 1000000000) ⟨Db.empty, faultless⟩)
      .cycle).store.db.spool.rows = [] := by
    decide +kernel
  have hbounded : SpoolBounded (planned 12) ⟨2000000000⟩ l.store.db := by
    rw [hstore]
    refine ⟨?_, ?_⟩
    · rw [hrows]
      exact Nat.zero_le _
    · rw [hrows]
      exact nofun
  refine ⟨_, l, hran, hstore, hbounded, ?_⟩
  exact ((spool_bounded_iff (planned 12) scripted scriptedStorage rfl faultless _ l hran).1 _).mp hbounded

/-- The deployment plan with a spool of one batch. -/
def smallPlan : Config := { planned 12 with storage := ⟨1, 7⟩ }

def smallStorage : SqliteStorage :=
  { scriptedStorage with config := ⟨storageConfig smallPlan smallPlan.toService, by decide +kernel⟩ }

/-- The collector under this plan, with a server that cannot be reached. -/
def unreachable : Service.Collector Sample SqliteWorld where
  config := smallPlan.toService
  device := ⟨solarCharger, 3⟩
  resolves := by rfl
  ports := { scriptedPorts smallStorage scriptedRenderer with
    deliver := fun _ env => (.error .timeout, env) }
  energy := ⟨smallPlan.toService.maximumEnergyGap⟩
  backoff := smallPlan.toService.backoff.delay
  interval := SolarActivityPolicy.kind

/-- A cycle of the collector, and a drain after it. -/
def firstCycle : CycleContext Sample SqliteWorld :=
  SpoolProgram.exec unreachable
    (SpoolProgram.exec unreachable (.new (sunny 1000000000) ⟨Db.empty, faultless⟩) .cycle) (.drain 3)

/-- A second cycle, and a drain after it. -/
def secondCycle : CycleContext Sample SqliteWorld :=
  SpoolProgram.exec unreachable
    (SpoolProgram.exec unreachable { firstCycle with env := sunny 2000000000 } .cycle) (.drain 3)

/-- Two batches are in the spool of one when the third cycle starts. -/
theorem unreachable_overflows : smallPlan.validate = .ok () ∧
    ∃ history l, Ran unreachable (.start ⟨Db.empty, faultless⟩) history l ∧ l.point = .between ∧
      l.store = secondCycle.store ∧
      l.store.db.spool.rows.length = 2 ∧ ¬ SpoolBounded smallPlan ⟨3000000000⟩ l.store.db := by
  refine ⟨by decide +kernel, ?_⟩
  have hstart : Ran unreachable (.start ⟨Db.empty, faultless⟩) [] (.start ⟨Db.empty, faultless⟩) :=
    .start
  obtain ⟨_, l₁, hran₁, hpoint₁, hstore₁, htally₁⟩ :=
    hstart.program .cycle
      (c := .new (sunny 1000000000) ⟨Db.empty, faultless⟩) rfl rfl rfl
  obtain ⟨_, l₂, hran₂, hpoint₂, hstore₂, htally₂⟩ :=
    hran₁.program (.drain 3) hpoint₁ hstore₁.symm htally₁.symm
  obtain ⟨_, l₃, hran₃, hpoint₃, hstore₃, htally₃⟩ :=
    hran₂.program .cycle (c := { firstCycle with env := sunny 2000000000 }) hpoint₂ hstore₂.symm
      htally₂.symm
  obtain ⟨_, l₄, hran₄, hpoint₄, hstore₄, -⟩ :=
    hran₃.program (.drain 3) hpoint₃ hstore₃.symm htally₃.symm
  have hlength : l₄.store.db.spool.rows.length = 2 := by
    rw [hstore₄]
    decide +kernel
  refine ⟨_, l₄, hran₄, hpoint₄, hstore₄, hlength, ?_⟩
  intro hbounded
  have htwo := hbounded.count
  rw [hlength] at htwo
  exact absurd htwo (by decide)

end VeSmart.Collector
