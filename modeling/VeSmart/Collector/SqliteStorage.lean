import VeSmart.Service.Durable
import VeSmart.Storage.CommitRuns

set_option autoImplicit false

/-! # The SQLite storage adapter (`victron-collector/src/adapters/storage.rs`)

The adapter converts between the `SystemTime` of the service and the milliseconds of the
database, rounding down, and maps the errors of the storage crate. `SqliteStorage.contract`
connects the layers: the adapter satisfies the commit contract that the service relies on,
whichever statements fail. -/

namespace VeSmart.Collector

open VeSmart.Lib VeSmart.Domain
open VeSmart.Service (StoragePort EnergyState StoredEnergy Durable CommitContract)

/-- The adapter. `sqliteText` is the message of an SQLite error. -/
structure SqliteStorage where
  device : DeviceId
  config : Storage.ValidConfig
  sqliteText : Storage.SqliteError → String

/-- What the environment decides about one call: which statements fail, and what the wall clock
of the storage crate shows. -/
structure CallEnv where
  faults : List Bool
  wallMs : I64

/-- The database, and the environment of the calls to come. -/
structure SqliteWorld where
  db : Storage.Db
  calls : List CallEnv

def SqliteWorld.call (w : SqliteWorld) : CallEnv := w.calls.headD ⟨[], ⟨0, by decide⟩⟩

section

variable {α : Type}

/-! ## Conversions -/

def mapError (text : Storage.SqliteError → String) : Storage.StorageError → Service.StorageError
  | .databaseTooNew found supported =>
      .schema ("database schema " ++ toString found ++ " is newer than supported " ++
        toString supported)
  | .energyAnchorConflict => .energyAnchorConflict
  | .inconsistent _ => .corrupt
  | .sqlite e => .io (text e)
  | .invalidArgument message => .schema message

theorem inI64_of_asMillis {time : SystemTime}
    (h : ¬ (time.asMillis ≤ 0 ∨ i64Max < time.asMillis)) : InI64 time.asMillis := by
  simp only [InI64, i64Min, i64Max] at h ⊢
  omega

def timeToMs (time : SystemTime) : Except Service.StorageError I64 :=
  if time < SystemTime.unixEpoch then .error (.invalidTimestamp time)
  else if h : time.asMillis ≤ 0 ∨ i64Max < time.asMillis then .error (.invalidTimestamp time)
  else .ok ⟨time.asMillis, inI64_of_asMillis h⟩

def msToTime (ms : Int) : Except Service.StorageError SystemTime :=
  if ms ≤ 0 then .error .corrupt else .ok (SystemTime.fromMillis ms)

def durationToMs (duration : Duration) : Except Service.StorageError Int :=
  if 0 < duration.asMillis ∧ (duration.asMillis : Int) ≤ i64Max then .ok duration.asMillis
  else .error (.schema "claim TTL must fit in positive milliseconds")

/-- An optional value through a conversion that may fail (`map(..).transpose()`). -/
def transposeMap {β ε : Type} (f : α → Except ε β) : Option α → Except ε (Option β)
  | none => .ok none
  | some a => (f a).map some

def energyFromSqlite (state : Storage.AcquisitionEnergyState) :
    Except Service.StorageError EnergyState := do
  let lastSampleAt ← transposeMap msToTime state.lastSampleAtMs
  return ⟨state.totalKwh, state.lastPowerWatts, lastSampleAt⟩

def serviceEnergyToSqlite (state : EnergyState) :
    Except Service.StorageError Storage.AcquisitionEnergyState := do
  let lastSampleAt ← transposeMap timeToMs state.lastSampleAt
  return ⟨state.totalKwh, state.lastPowerWatts, lastSampleAt.map Subtype.val⟩

def claimId (id : UInt64) : Except Service.StorageError Int :=
  if (id.toNat : Int) ≤ i64Max then .ok id.toNat else .error .corrupt

def requireChanged (changed : Bool) (id : UInt64) (operation : String) :
    Except Service.StorageError Unit :=
  if changed then .ok ()
  else .error (.io ("spool batch " ++ toString id.toNat ++ " disappeared before " ++ operation))

def claimedBatch (batch : Storage.SpoolBatch) :
    Except Service.StorageError Service.ClaimedBatch :=
  if 0 ≤ batch.id ∧ batch.id ≤ u64Max then
    .ok ⟨UInt64.ofNat batch.id.toNat, batch.payload, batch.attempts⟩
  else .error .corrupt

/-- The commit of the storage crate. -/
def sqliteCommit (commit : Service.AcquisitionCommit) :
    Except Service.StorageError Storage.AcquisitionCommit := do
  let observedAtMs ← timeToMs commit.observedAt
  let expectedEnergy ← transposeMap serviceEnergyToSqlite commit.expectedEnergy
  let nextEnergy ← serviceEnergyToSqlite commit.nextEnergy
  return ⟨commit.device.asStr, observedAtMs, expectedEnergy, nextEnergy, commit.payload⟩

/-! ## The port -/

/-- An operation on the storage world that may fail. -/
abbrev Call (α : Type) := Prog SqliteWorld Service.StorageError α

/-- Run an operation of the storage crate on the blocking pool. -/
def blocking (s : SqliteStorage) (operation : Storage.Sql α) : Call α :=
  ofFun fun w =>
    ((exec operation ⟨w.db, none, w.call.faults⟩).1.mapError (mapError s.sqliteText),
      ⟨(exec operation ⟨w.db, none, w.call.faults⟩).2.committed, w.calls.tail⟩)

/-- The wall clock that the storage crate reads in its next call. -/
def wallClock : Call I64 := ofFun fun w => (.ok w.call.wallMs, w)

def lastSuccess (s : SqliteStorage) : Call (Option SystemTime) := do
  let ms ← blocking s (Storage.lastSuccess s.device.asStr)
  fromExcept (transposeMap msToTime ms)

def energyState (s : SqliteStorage) : Call (Option EnergyState) := do
  let state ← blocking s (Storage.readEnergy s.device.asStr)
  fromExcept (transposeMap energyFromSqlite state)

def commitAcquisition (s : SqliteStorage) (commit : Service.AcquisitionCommit) :
    Call Service.AcquisitionCommitOutcome := do
  let commit ← fromExcept (sqliteCommit commit)
  match ← blocking s (Storage.commitAcquisition commit) with
  | .committed _ => pure .committed
  | .alreadyCommitted => pure .alreadyCommitted

def spoolHealth (s : SqliteStorage) (now : SystemTime) : Call Service.SpoolHealth := do
  let nowMs ← fromExcept (timeToMs now)
  let stats ← blocking s Storage.stats
  pure {
    depth := stats.queuedBatches
    oldestAge := stats.oldestCreatedAtMs.map fun oldest =>
      Duration.fromMillis (max (satI64 (nowMs.1 - oldest)) 0).toNat }

def spoolClaimNext (s : SqliteStorage) (claimTtl : Duration) (now : SystemTime) :
    Call (Option Service.ClaimedBatch) := do
  let nowMs ← fromExcept (timeToMs now)
  let claimMs ← fromExcept (durationToMs claimTtl)
  if claimMs ≠ s.config.1.spoolInflightMs.1 then
    throw (.schema ("service claim TTL (" ++ toString claimMs ++
      " ms) differs from SQLite spool TTL (" ++ toString s.config.1.spoolInflightMs.1 ++ " ms)"))
  else do
    let batch ← blocking s (Storage.claimOldest s.config.1 nowMs)
    fromExcept (transposeMap claimedBatch batch)

def spoolComplete (s : SqliteStorage) (claim : Service.ClaimedBatch) : Call Unit := do
  let id ← fromExcept (claimId claim.id)
  let changed ← blocking s (Storage.markDelivered id (← wallClock))
  fromExcept (requireChanged changed claim.id "complete")

def spoolRetry (s : SqliteStorage) (claim : Service.ClaimedBatch) (now : SystemTime) :
    Call Service.RetryOutcome := do
  let id ← fromExcept (claimId claim.id)
  let nowMs ← fromExcept (timeToMs now)
  match ← blocking s (Storage.recordRetry s.config.1 id nowMs) with
  | .retried _ attempts => pure (.retried attempts)
  | .dropped attempts => pure (.dropped attempts)

def spoolDrop (s : SqliteStorage) (claim : Service.ClaimedBatch) : Call Unit := do
  let id ← fromExcept (claimId claim.id)
  let changed ← blocking s (Storage.dropBatch id (← wallClock))
  fromExcept (requireChanged changed claim.id "drop")

/-- The adapter as the storage port of the service. -/
def SqliteStorage.port (s : SqliteStorage) : StoragePort SqliteWorld where
  lastSuccess := exec (lastSuccess s)
  energyState := exec (energyState s)
  commitAcquisition commit := exec (commitAcquisition s commit)
  spoolHealth now := exec (spoolHealth s now)
  spoolClaimNext ttl now := exec (spoolClaimNext s ttl now)
  spoolComplete claim := exec (spoolComplete s claim)
  spoolRetry claim now := exec (spoolRetry s claim now)
  spoolDrop claim := exec (spoolDrop s claim)

/-! ## What a call does to the database -/

variable {s : SqliteStorage} {d : Storage.Db}

theorem exec_blocking (operation : Storage.Sql α) (w : SqliteWorld) :
    exec (blocking s operation) w =
      ((exec operation ⟨w.db, none, w.call.faults⟩).1.mapError (mapError s.sqliteText),
        ⟨(exec operation ⟨w.db, none, w.call.faults⟩).2.committed, w.calls.tail⟩) := rfl

/-- The database satisfies `P` before and after a call. -/
def Keeps (P : Storage.Db → Prop) (x : Call α) : Prop :=
  Triple (fun w => P w.db) x (fun _ w => P w.db) (fun _ w => P w.db)

variable {P : Storage.Db → Prop}

theorem Keeps.fromExcept (v : Except Service.StorageError α) : Keeps P (Lib.fromExcept v) := by
  intro w h
  rw [exec_fromExcept]
  cases v with
  | ok a => exact h
  | error e => exact h

theorem Keeps.bind {β : Type} {x : Call α} {f : α → Call β} (hx : Keeps P x)
    (hf : ∀ a, Keeps P (f a)) : Keeps P (x >>= f) :=
  Triple.bind hx hf

theorem Keeps.pure (a : α) : Keeps P (Pure.pure a) := Triple.pure fun _ h => h

theorem Keeps.wallClock : Keeps P wallClock := fun _ h => h

theorem Keeps.blocking {operation : Storage.Sql α} (h : Preserves P operation) :
    Keeps P (blocking s operation) := by
  apply Triple.of_exec (S := fun _ (w : SqliteWorld) => P w.db)
  intro w hw
  rw [exec_blocking]
  exact h.committed hw _

theorem Keeps.exec {x : Call α} (h : Keeps P x) {w : SqliteWorld} (hw : P w.db) :
    P (Lib.exec x w).2.db :=
  h.to_exec (S := fun _ (w : SqliteWorld) => P w.db) hw

/-- The reads of the port leave the database alone. -/
theorem SqliteStorage.port_read {w w' : SqliteWorld} (h : Service.ReadStep s.port w w') :
    w'.db = w.db := by
  have hread : ∀ {α : Type} {x : Call α}, Keeps (fun d => d = w.db) x → (exec x w).2.db = w.db :=
    fun hx => hx.exec rfl
  cases h with
  | energyState =>
      exact hread (Keeps.bind (Keeps.blocking (Storage.Preserves.query _)) fun _ => Keeps.fromExcept _)
  | lastSuccess =>
      exact hread (Keeps.bind (Keeps.blocking (Storage.lastSuccess_reads _)) fun _ =>
        Keeps.fromExcept _)
  | spoolHealth now =>
      exact hread (Keeps.bind (Keeps.fromExcept _) fun _ =>
        Keeps.bind (Keeps.blocking Storage.stats_reads) fun _ => Keeps.pure _)

/-- The spool operations of the port keep energy and identity. -/
theorem SqliteStorage.port_spool {w w' : SqliteWorld} (h : Service.SpoolCallStep s.port w w') :
    Storage.SameAcquisitions w.db w'.db := by
  have hwork : ∀ {α : Type} {x : Call α}, Keeps (Storage.SameAcquisitions w.db) x →
      Storage.SameAcquisitions w.db (exec x w).2.db :=
    fun hx => hx.exec ⟨rfl, fun _ => rfl⟩
  cases h with
  | claim ttl now =>
      apply hwork
      apply Keeps.bind (Keeps.fromExcept _); intro nowMs
      apply Keeps.bind (Keeps.fromExcept _); intro claimMs
      split
      · exact Triple.throw fun _ h => h
      · exact Keeps.bind (Keeps.blocking (Storage.claimOldest_acquisitions _ _)) fun _ =>
          Keeps.fromExcept _
  | complete claim =>
      apply hwork
      apply Keeps.bind (Keeps.fromExcept _); intro id
      apply Keeps.bind Keeps.wallClock; intro wallMs
      exact Keeps.bind (Keeps.blocking (Storage.removeBatch_acquisitions
        (fun device => Storage.lastSuccessKey_ne_spool device "delivered_total") _ _)) fun _ =>
          Keeps.fromExcept _
  | retry claim now =>
      apply hwork
      apply Keeps.bind (Keeps.fromExcept _); intro id
      apply Keeps.bind (Keeps.fromExcept _); intro nowMs
      apply Keeps.bind (Keeps.blocking (Storage.recordRetry_acquisitions _ _ _)); intro outcome
      cases outcome with
      | retried next attempts => exact Keeps.pure _
      | dropped attempts => exact Keeps.pure _
  | drop claim =>
      apply hwork
      apply Keeps.bind (Keeps.fromExcept _); intro id
      apply Keeps.bind Keeps.wallClock; intro wallMs
      exact Keeps.bind (Keeps.blocking (Storage.removeBatch_acquisitions
        (fun device => Storage.lastSuccessKey_ne_spool device "dropped_total") _ _)) fun _ =>
          Keeps.fromExcept _

/-! ## The commit contract -/

/-- What a row of `energy_state` stands for. -/
def storedEnergy (row : Storage.EnergyRow) : StoredEnergy where
  totalKwh := row.totalKwh
  lastPowerWatts := row.lastPowerWatts
  lastSampleAtMs := row.lastSampleAtMs

/-- The durable view of the adapter's device; an identity that cannot be read is none. -/
def SqliteStorage.view (s : SqliteStorage) (w : SqliteWorld) : Durable where
  energy := (w.db.energy s.device.asStr).map storedEnergy
  lastSuccessMs := (Storage.storedSuccess w.db s.device.asStr).toOption.join
  batches := w.db.spool.rows.map fun r => (r.id, r.payload)

theorem view_of_same {w w' : SqliteWorld} (h : w'.db = w.db) : s.view w' = s.view w := by
  unfold SqliteStorage.view
  rw [h]

theorem claimedBatch_ok {batch : Storage.SpoolBatch} (h : 0 ≤ batch.id ∧ batch.id ≤ u64Max) :
    claimedBatch batch = .ok ⟨UInt64.ofNat batch.id.toNat, batch.payload, batch.attempts⟩ :=
  if_pos h

theorem msToTime_ok {ms : Int} {t : SystemTime} (h : msToTime ms = .ok t) :
    t = SystemTime.fromMillis ms := by
  unfold msToTime at h
  split at h
  · cases h
  · cases h; rfl

theorem transposeMap_ok {β ε : Type} {f : α → Except ε β} {g : α → β}
    (hf : ∀ a b, f a = .ok b → b = g a) {o : Option α} {r : Option β}
    (h : transposeMap f o = .ok r) : r = o.map g := by
  cases o with
  | none => cases h; rfl
  | some a =>
      cases hfa : f a with
      | error e => simp [transposeMap, hfa, Except.map] at h
      | ok b =>
          simp only [transposeMap, hfa, Except.map, Except.ok.injEq] at h
          rw [← h, hf a b hfa]
          rfl

theorem energyFromSqlite_ok {state : Storage.AcquisitionEnergyState} {e : EnergyState}
    (h : energyFromSqlite state = .ok e) : e = ⟨state.totalKwh, state.lastPowerWatts,
      state.lastSampleAtMs.map SystemTime.fromMillis⟩ := by
  unfold energyFromSqlite at h
  cases ht : transposeMap msToTime state.lastSampleAtMs with
  | error err => rw [ht] at h; cases h
  | ok t =>
      rw [ht] at h
      cases h
      rw [transposeMap_ok (fun _ _ => msToTime_ok) ht]

theorem toState_storedEnergy (row : Storage.EnergyRow) :
    (storedEnergy row).toState = ⟨row.toState.totalKwh, row.toState.lastPowerWatts,
      row.toState.lastSampleAtMs.map SystemTime.fromMillis⟩ := rfl

theorem timeToMs_ok {t : SystemTime} {ms : I64} (h : timeToMs t = .ok ms) :
    ms.1 = t.asMillis ∧ 0 < t.asMillis := by
  unfold timeToMs at h
  split at h
  · cases h
  · split at h
    · cases h
    · rename_i hbounds
      cases h
      exact ⟨rfl, by omega⟩

/-- The values of a state at the resolution of the database. -/
def atMillis (state : EnergyState) : Storage.AcquisitionEnergyState where
  totalKwh := state.totalKwh
  lastPowerWatts := state.lastPowerWatts
  lastSampleAtMs := state.lastSampleAt.map SystemTime.asMillis

theorem serviceEnergyToSqlite_ok {state : EnergyState} {r : Storage.AcquisitionEnergyState}
    (h : serviceEnergyToSqlite state = .ok r) : r = atMillis state := by
  unfold serviceEnergyToSqlite at h
  cases hanchor : state.lastSampleAt with
  | none =>
      rw [hanchor] at h
      cases h
      simp [atMillis, hanchor]
  | some t =>
      rw [hanchor] at h
      cases ht : timeToMs t with
      | error e => simp [transposeMap, ht, Except.map, bind, Except.bind] at h
      | ok ms =>
          simp only [transposeMap, ht, Except.map, bind, Except.bind, pure, Except.pure,
            Except.ok.injEq] at h
          rw [← h]
          simp [atMillis, hanchor, (timeToMs_ok ht).1]

theorem sqliteCommit_ok {commit : Service.AcquisitionCommit} {c : Storage.AcquisitionCommit}
    (h : sqliteCommit commit = .ok c) : c.device = commit.device.asStr ∧
      c.observedAtMs.1 = commit.observedAt.asMillis ∧
      c.expectedEnergy = commit.expectedEnergy.map atMillis ∧
      c.nextEnergy = atMillis commit.nextEnergy ∧ c.payload = commit.payload := by
  unfold sqliteCommit at h
  cases hobs : timeToMs commit.observedAt with
  | error e => rw [hobs] at h; cases h
  | ok ms =>
  cases hexp : transposeMap serviceEnergyToSqlite commit.expectedEnergy with
  | error e => rw [hobs, hexp] at h; cases h
  | ok expected =>
  cases hnext : serviceEnergyToSqlite commit.nextEnergy with
  | error e => rw [hobs, hexp, hnext] at h; cases h
  | ok next =>
      rw [hobs, hexp, hnext] at h
      cases h
      exact ⟨rfl, (timeToMs_ok hobs).1, transposeMap_ok (fun _ _ => serviceEnergyToSqlite_ok) hexp,
        serviceEnergyToSqlite_ok hnext, rfl⟩

/-- **What a commit through the adapter can do**: the conversion refuses it, a statement fails,
the storage crate refuses it, it was committed before, or it is committed. -/
theorem port_commit_cases (s : SqliteStorage) (commit : Service.AcquisitionCommit)
    (w : SqliteWorld) :
    (∃ e, sqliteCommit commit = .error e ∧ exec (commitAcquisition s commit) w = (.error e, w)) ∨
      ∃ c, sqliteCommit commit = .ok c ∧
        ((∃ e w', exec (commitAcquisition s commit) w = (.error (mapError s.sqliteText e), w') ∧
            w'.db = w.db ∧ (e = Storage.sqlIo ∨ Storage.CommitRefused c w.db e)) ∨
          (∃ v w', exec (commitAcquisition s commit) w = (.ok .alreadyCommitted, w') ∧
            w'.db = w.db ∧ Storage.storedSuccess w.db c.device = .ok (some v) ∧
            c.observedAtMs.1 ≤ v) ∨
          ∃ id w', exec (commitAcquisition s commit) w = (.ok .committed, w') ∧
            Storage.CommitEffect c w.db w'.db id) := by
  unfold commitAcquisition
  cases hconv : sqliteCommit commit with
  | error e =>
      left
      exact ⟨e, rfl, exec_bind_error (exec_fromExcept _ _)⟩
  | ok c =>
      right
      refine ⟨c, rfl, ?_⟩
      rw [exec_bind_ok (exec_fromExcept _ _), exec_bind, exec_blocking]
      obtain ⟨fs', h | h⟩ :=
        (Storage.commit_allOrNothing c).exec_cases w.db w.call.faults
      · rw [h]
        rcases Storage.quiet_commit_cases c w.db with
          ⟨e, hq, hrefused⟩ | ⟨hq, v, hv, hle⟩ | ⟨id, d', hq, heffect⟩
        · rw [hq]
          exact .inl ⟨e, _, rfl, rfl, .inr hrefused⟩
        · rw [hq]
          exact .inr (.inl ⟨v, _, rfl, rfl, hv, hle⟩)
        · rw [hq]
          exact .inr (.inr ⟨id, _, rfl, heffect⟩)
      · rw [h]
        exact .inl ⟨_, _, rfl, rfl, .inl rfl⟩

theorem storedEnergy_holds {row : Storage.EnergyRow} {state : EnergyState}
    (h : row.Holds (atMillis state)) : (storedEnergy row).Holds state :=
  ⟨h.total, h.power, h.sample⟩

/-- The effect of a commit on the view. -/
theorem view_committed {commit : Service.AcquisitionCommit} {c : Storage.AcquisitionCommit}
    {w w' : SqliteWorld} {id : Int} (hdev : commit.device = s.device)
    (hconv : sqliteCommit commit = .ok c) (h : Storage.CommitEffect c w.db w'.db id) :
    Service.CommittedOnce commit (s.view w) (s.view w') := by
  obtain ⟨hdevice, hobs, -, hnext, hpayload⟩ := sqliteCommit_ok hconv
  rw [hdev] at hdevice
  obtain ⟨stored, hstored, hnewer⟩ := h.newer
  have hexact := h.exactly
  obtain ⟨row, hrow, hholds, -⟩ := hexact.energy
  obtain ⟨batch, hrows, hid, -, hpay, -, -⟩ := hexact.batch
  rw [hdevice] at hstored hrow
  have hidentity := hexact.identity
  rw [hdevice] at hidentity
  refine ⟨?_, ⟨storedEnergy row, ?_, storedEnergy_holds (hnext ▸ hholds)⟩, ?_, id, ?_, ?_⟩
  · intro ms hms
    rw [← hobs]
    apply hnewer
    simpa [SqliteStorage.view, hstored, Except.toOption] using hms
  · simp [SqliteStorage.view, hrow]
  · simp [SqliteStorage.view, hidentity, Except.toOption, hobs]
  · -- the ids of a table increase, so the last one is new
    intro b hb
    obtain ⟨r, hr, rfl⟩ := List.mem_map.mp hb
    have hinc := w'.db.spool.ids_increasing
    rw [hrows, List.pairwise_append] at hinc
    have hlt := hinc.2.2 r hr batch (by simp)
    rw [hid] at hlt
    exact ne_of_lt hlt
  · simp [SqliteStorage.view, hrows, hid, hpay, hpayload]

/-- What the answer of a commit says of the database it leaves. -/
theorem port_commit_answer {commit : Service.AcquisitionCommit} {w w' : SqliteWorld}
    {answer : Except Service.StorageError Service.AcquisitionCommitOutcome}
    (h : exec (commitAcquisition s commit) w = (answer, w')) :
    (∀ e, answer = .error e → w'.db = w.db) ∧
      (answer = .ok .alreadyCommitted → ∃ c v, sqliteCommit commit = .ok c ∧ w'.db = w.db ∧
        Storage.storedSuccess w.db c.device = .ok (some v) ∧ c.observedAtMs.1 ≤ v) ∧
      (answer = .ok .committed → ∃ c id, sqliteCommit commit = .ok c ∧
        Storage.CommitEffect c w.db w'.db id) := by
  rcases port_commit_cases s commit w with ⟨e, -, hexec⟩ | ⟨c, hconv, hcases⟩
  · rw [h] at hexec
    cases hexec
    exact ⟨fun _ _ => rfl, by simp, by simp⟩
  rcases hcases with ⟨e, w₁, hexec, hdb, -⟩ | ⟨v, w₁, hexec, hdb, hv, hle⟩ | ⟨id, w₁, hexec, heffect⟩
  · rw [h] at hexec
    cases hexec
    exact ⟨fun _ _ => hdb, by simp, by simp⟩
  · rw [h] at hexec
    cases hexec
    exact ⟨by simp, fun _ => ⟨c, v, hconv, hdb, hv, hle⟩, by simp⟩
  · rw [h] at hexec
    cases hexec
    exact ⟨by simp, by simp, fun _ => ⟨c, id, hconv, heffect⟩⟩

/-- **The adapter satisfies the commit contract.** -/
theorem SqliteStorage.contract (s : SqliteStorage) : CommitContract s.port s.device s.view where
  energyState w e h := by
    rcases hx : exec (energyState s) w with ⟨r, w'⟩
    have hr : r = .ok e := by rw [← h]; exact (congrArg Prod.fst hx).symm
    rw [hr] at hx
    obtain ⟨state, w₁, hblocking, hrest⟩ := exec_bind_inv hx
    have hstate := mapError_ok (congrArg Prod.fst hblocking)
    rcases hq : exec (Storage.readEnergy s.device.asStr) ⟨w.db, none, w.call.faults⟩ with ⟨q, c'⟩
    rw [hq] at hstate
    dsimp only at hstate
    rw [hstate] at hq
    have hread := Storage.exec_query_ok hq
    have hmap := transposeMap_ok (fun _ _ => energyFromSqlite_ok) (congrArg Prod.fst hrest)
    rw [hmap, hread]
    cases henergy : w.db.energy s.device.asStr with
    | none => simp [SqliteStorage.view, henergy]
    | some row => simp [SqliteStorage.view, henergy, toState_storedEnergy]
  lastSuccess w t h := by
    rcases hx : exec (lastSuccess s) w with ⟨r, w'⟩
    have hr : r = .ok t := by rw [← h]; exact (congrArg Prod.fst hx).symm
    rw [hr] at hx
    obtain ⟨ms, w₁, hblocking, hrest⟩ := exec_bind_inv hx
    have hms := mapError_ok (congrArg Prod.fst hblocking)
    rcases hq : exec (Storage.lastSuccess s.device.asStr) ⟨w.db, none, w.call.faults⟩ with ⟨q, c'⟩
    rw [hq] at hms
    dsimp only at hms
    rw [hms] at hq
    have hread := Storage.exec_lastSuccess_ok hq
    have hmap := transposeMap_ok (fun _ _ => msToTime_ok) (congrArg Prod.fst hrest)
    rw [hmap]
    simp [SqliteStorage.view, hread, Except.toOption]
  read w w' h := view_of_same (SqliteStorage.port_read h)
  error c w w' e h := view_of_same ((port_commit_answer h).1 e rfl)
  already c w w' hdev h := by
    obtain ⟨c', v, hconv, hdb, hv, hle⟩ := (port_commit_answer h).2.1 rfl
    obtain ⟨hdevice, hobs, -⟩ := sqliteCommit_ok hconv
    rw [hdevice, hdev] at hv
    refine ⟨view_of_same hdb, v, ?_, by rwa [← hobs]⟩
    simp [SqliteStorage.view, hv, Except.toOption]
  committed c w w' hdev h := by
    obtain ⟨c', id, hconv, heffect⟩ := (port_commit_answer h).2.2 rfl
    exact view_committed hdev hconv heffect
  spool w w' h := by
    obtain ⟨henergy, hidentity⟩ := SqliteStorage.port_spool h
    simp [SqliteStorage.view, henergy, hidentity]

end

end VeSmart.Collector
