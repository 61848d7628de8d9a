import VeSmart.Storage.Acquisition

set_option autoImplicit false

/-! # Sequences of acquisition commits

`commitTrace` records every call of a sequence of `commit_acquisition` calls, for any devices
and with any faults, together with the database before and after it. `commit_atomic` is the
contract of such a sequence, from any database: a call changes everything or nothing, and the
committed observation times of each device increase. -/

namespace VeSmart.Storage

open VeSmart.Lib

/-- A call, and the statements of it that fail. -/
structure CommitCall where
  commit : AcquisitionCommit
  faults : List Bool

structure CommitRecord where
  commit : AcquisitionCommit
  before : Db
  result : Except StorageError AcquisitionCommitOutcome
  after : Db

def CommitCall.record (call : CommitCall) (d : Db) : CommitRecord where
  commit := call.commit
  before := d
  result := (exec (commitAcquisition call.commit) ⟨d, none, call.faults⟩).1
  after := (exec (commitAcquisition call.commit) ⟨d, none, call.faults⟩).2.committed

/-- The calls of a sequence, each made of the database that the one before it has left. -/
def commitTrace : Db → List CommitCall → List CommitRecord
  | _, [] => []
  | d, call :: calls => call.record d :: commitTrace (call.record d).after calls

/-- The database at the end of a sequence. -/
def commitRun : Db → List CommitCall → Db
  | d, [] => d
  | d, call :: calls => commitRun (call.record d).after calls

/-- The call returned `Committed`. -/
def CommitRecord.isCommitted (r : CommitRecord) : Bool :=
  match r.result with
  | .ok (.committed _) => true
  | _ => false

/-- The row holds the values of the state. -/
structure EnergyRow.Holds (row : EnergyRow) (state : AcquisitionEnergyState) : Prop where
  total : state.totalKwh.toRat? = some row.totalKwh
  power : state.lastPowerWatts.map F64.toRat? = row.lastPowerWatts.map some
  sample : row.lastSampleAtMs = state.lastSampleAtMs

/-- The writes of one commit, and nothing else. -/
structure CommittedExactly (c : AcquisitionCommit) (d d' : Db) (batchId : Int) : Prop where
  energy : ∃ row, d'.energy c.device = some row ∧ row.Holds c.nextEnergy ∧
    row.updatedAtMs = c.observedAtMs.1
  identity : storedSuccess d' c.device = .ok (some c.observedAtMs.1)
  batch : ∃ row, d'.spool.rows = d.spool.rows ++ [row] ∧ row.id = batchId ∧
    row.device = c.device ∧ row.payload = c.payload ∧ row.createdAtMs = c.observedAtMs.1 ∧
    row.attempts = 0
  others : ∀ device, device ≠ c.device →
    d'.energy device = d.energy device ∧ storedSuccess d' device = storedSuccess d device

/-- What the contract says of one call. -/
def CommitRecord.Atomic (r : CommitRecord) : Prop :=
  match r.result with
  | .error _ => r.after = r.before
  | .ok .alreadyCommitted => r.after = r.before
  | .ok (.committed id) => CommittedExactly r.commit r.before r.after id

/-! ## One call -/

theorem lastSuccessKey_injective {a b : String} (h : lastSuccessKey a = lastSuccessKey b) :
    a = b := by
  exact (String.append_right_inj _).mp h

theorem EnergyRow.ofState_holds {state : AcquisitionEnergyState} {nowMs : Int} {row : EnergyRow}
    (h : EnergyRow.ofState state nowMs = some row) (hvalid : state.Valid nowMs) :
    row.Holds state ∧ row.updatedAtMs = nowMs := by
  obtain ⟨q, hq, -, -⟩ := hvalid.total
  unfold EnergyRow.ofState at h
  rw [hq] at h
  dsimp only at h
  split at h
  · cases h
    refine ⟨⟨hq, ?_, rfl⟩, rfl⟩
    cases hp : state.lastPowerWatts with
    | none => rfl
    | some p =>
        have hfinite := hvalid.power p hp
        obtain ⟨x, hx⟩ := Option.isSome_iff_exists.mp hfinite
        simp [hx]
  · cases h

theorem CommitEffect.exactly {c : AcquisitionCommit} {d d' : Db} {id : Int}
    (h : CommitEffect c d d' id) : CommittedExactly c d d' id := by
  obtain ⟨row, hrow, henergy⟩ := h.energy
  obtain ⟨hpos, hkv⟩ := h.kv
  obtain ⟨-, -, batch, hrows, hid, hdev, hcreated, hpay, hzero, -⟩ := SpoolTable.insert_ok h.spool
  obtain ⟨hholds, hupdated⟩ := EnergyRow.ofState_holds hrow h.valid
  refine ⟨⟨row, ?_, hholds, hupdated⟩, ?_, ⟨batch, hrows, hid, hdev, hpay, hcreated, hzero⟩, ?_⟩
  · rw [henergy, Function.update_self]
  · unfold storedSuccess
    rw [hkv, Function.update_self]
    exact readI64_toString _ c.observedAtMs.2
  · intro device hne
    refine ⟨?_, ?_⟩
    · rw [henergy, Function.update_of_ne hne]
    · have hkey : lastSuccessKey device ≠ lastSuccessKey c.device :=
        fun heq => hne (lastSuccessKey_injective heq)
      unfold storedSuccess
      rw [hkv, Function.update_of_ne hkey]

/-- What a call can do, whichever of its statements fail. -/
theorem CommitCall.record_cases (call : CommitCall) (d : Db) :
    (∃ e, (call.record d).result = .error e ∧ (call.record d).after = d) ∨
      ((call.record d).result = .ok .alreadyCommitted ∧ (call.record d).after = d) ∨
      ∃ id, (call.record d).result = .ok (.committed id) ∧
        CommitEffect call.commit d (call.record d).after id := by
  obtain ⟨fs', h | h⟩ := (commit_allOrNothing call.commit).exec_cases d call.faults
  · simp only [CommitCall.record, h]
    rcases quiet_commit_cases call.commit d with ⟨e, hq, -⟩ | ⟨hq, -⟩ | ⟨id, d', hq, heffect⟩
    · rw [hq]; exact .inl ⟨e, rfl, rfl⟩
    · rw [hq]; exact .inr (.inl ⟨rfl, rfl⟩)
    · rw [hq]; exact .inr (.inr ⟨id, rfl, heffect⟩)
  · simp only [CommitCall.record, h]
    exact .inl ⟨_, rfl, trivial⟩

theorem CommitCall.record_atomic (call : CommitCall) (d : Db) : (call.record d).Atomic := by
  unfold CommitRecord.Atomic
  rcases call.record_cases d with ⟨e, hr, ha⟩ | ⟨hr, ha⟩ | ⟨id, hr, heffect⟩
  · rw [hr]; exact ha
  · rw [hr]; exact ha
  · rw [hr]; exact heffect.exactly

/-- A call that is not committed, or is another device's, leaves the identity of a device. -/
theorem CommitCall.record_identity (call : CommitCall) (d : Db) (device : String)
    (h : (call.record d).isCommitted = false ∨ call.commit.device ≠ device) :
    storedSuccess (call.record d).after device = storedSuccess d device := by
  rcases call.record_cases d with ⟨e, -, ha⟩ | ⟨-, ha⟩ | ⟨id, hr, heffect⟩
  · rw [ha]
  · rw [ha]
  · have hne : call.commit.device ≠ device := by
      rcases h with h | h
      · rw [CommitRecord.isCommitted, hr] at h
        cases h
      · exact h
    exact (heffect.exactly.others device (Ne.symm hne)).2

/-! ## A sequence of calls -/

/-- The observation times of the commits of one device, in order. -/
def committedTimes (device : String) (trace : List CommitRecord) : List Int :=
  (trace.filter fun r => r.isCommitted && r.commit.device = device).map fun r => r.commit.observedAtMs.1

/-- The stored identity, if any, is earlier than `x`. -/
def Before (d : Db) (device : String) (x : Int) : Prop :=
  ∀ v, storedSuccess d device = .ok (some v) → v < x

/-- Every committed time is later than the identity stored at the start, and the times
increase. -/
theorem committedTimes_increasing (device : String) (calls : List CommitCall) (d : Db) :
    (∀ x ∈ committedTimes device (commitTrace d calls), Before d device x) ∧
      (committedTimes device (commitTrace d calls)).Pairwise (· < ·) := by
  induction calls generalizing d with
  | nil => exact ⟨by simp [committedTimes, commitTrace], List.Pairwise.nil⟩
  | cons call calls ih =>
      obtain ⟨hlater, hpairwise⟩ := ih (call.record d).after
      by_cases hthis : ((call.record d).isCommitted && call.commit.device = device) = true
      · -- this call is a commit of the device: it stores its own time
        have htrace : committedTimes device (commitTrace d (call :: calls)) =
            call.commit.observedAtMs.1 ::
              committedTimes device (commitTrace (call.record d).after calls) := by
          have hfilter : ((call.record d).isCommitted &&
              decide ((call.record d).commit.device = device)) = true := hthis
          simp only [committedTimes, commitTrace, List.filter_cons, hfilter, if_true, List.map_cons]
          rfl
        rw [Bool.and_eq_true, decide_eq_true_eq] at hthis
        obtain ⟨hcommitted, rfl⟩ := hthis
        obtain ⟨id, hr, heffect⟩ : ∃ id, (call.record d).result = .ok (.committed id) ∧
            CommitEffect call.commit d (call.record d).after id := by
          rcases call.record_cases d with ⟨e, hr, -⟩ | ⟨hr, -⟩ | h
          · rw [CommitRecord.isCommitted, hr] at hcommitted; cases hcommitted
          · rw [CommitRecord.isCommitted, hr] at hcommitted; cases hcommitted
          · exact h
        have hafter : ∀ x ∈ committedTimes call.commit.device
            (commitTrace (call.record d).after calls), call.commit.observedAtMs.1 < x :=
          fun x hx => hlater x hx _ heffect.exactly.identity
        have hbefore : Before d call.commit.device call.commit.observedAtMs.1 := by
          obtain ⟨stored, hstored, hnewer⟩ := heffect.newer
          intro v hv
          rw [hstored] at hv
          cases hv
          exact hnewer v rfl
        rw [htrace]
        refine ⟨?_, List.pairwise_cons.mpr ⟨hafter, hpairwise⟩⟩
        intro x hx
        rcases List.mem_cons.mp hx with rfl | hx
        · exact hbefore
        · intro v hv
          exact lt_trans (hbefore v hv) (hafter x hx)
      · -- any other call leaves the identity of the device
        have htrace : committedTimes device (commitTrace d (call :: calls)) =
            committedTimes device (commitTrace (call.record d).after calls) := by
          have hfilter : ¬ ((call.record d).isCommitted &&
              decide ((call.record d).commit.device = device)) = true := hthis
          simp only [committedTimes, commitTrace, List.filter_cons, hfilter]
          rfl
        have hsame := call.record_identity d device (by
          by_cases hc : (call.record d).isCommitted = true
          · right
            intro hdev
            exact hthis (by simp [hc, hdev])
          · left
            simpa using hc)
        rw [htrace]
        refine ⟨fun x hx v hv => hlater x hx v (by rw [hsame]; exact hv), hpairwise⟩

/-- Commits append to the queue, one batch each. -/
theorem commitRun_rows (calls : List CommitCall) (d : Db) :
    (commitRun d calls).spool.rows.length =
      d.spool.rows.length + (commitTrace d calls).countP CommitRecord.isCommitted := by
  induction calls generalizing d with
  | nil => rfl
  | cons call calls ih =>
      have hstep : (call.record d).after.spool.rows.length =
          d.spool.rows.length + if (call.record d).isCommitted then 1 else 0 := by
        rcases call.record_cases d with ⟨e, hr, ha⟩ | ⟨hr, ha⟩ | ⟨id, hr, heffect⟩
        · simp [CommitRecord.isCommitted, hr, ha]
        · simp [CommitRecord.isCommitted, hr, ha]
        · obtain ⟨row, hrows, -⟩ := heffect.exactly.batch
          simp [CommitRecord.isCommitted, hr, hrows]
      rw [commitRun, ih, hstep, commitTrace, List.countP_cons]
      omega

/-- **The contract of `commit_acquisition`**, for every database and every sequence of calls:
each call is atomic, the committed times of each device strictly increase, and as many batches
have been added as calls have returned `Committed`. -/
theorem commit_atomic (d : Db) (calls : List CommitCall) :
    (∀ r ∈ commitTrace d calls, r.Atomic) ∧
      (∀ device, (committedTimes device (commitTrace d calls)).Pairwise (· < ·)) ∧
      (commitRun d calls).spool.rows.length =
        d.spool.rows.length + (commitTrace d calls).countP CommitRecord.isCommitted := by
  refine ⟨?_, fun device => (committedTimes_increasing device calls d).2, commitRun_rows calls d⟩
  induction calls generalizing d with
  | nil => intro r hr; cases hr
  | cons call calls ih =>
      intro r hr
      rcases List.mem_cons.mp hr with rfl | hr
      · exact call.record_atomic d
      · exact ih _ r hr

end VeSmart.Storage
