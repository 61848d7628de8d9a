import VeSmart.Storage.Spool

set_option autoImplicit false

/-! # The acquisition commit (`victron-storage/src/acquisition.rs`)

Energy state, the per-device acquisition identity and one spool batch are written in one
transaction; the observation timestamp is the idempotency key. `commit_allOrNothing` is the
rollback half of the contract, and `quiet_commit_cases` says what a commit without faults can
do: be refused, find itself already done, or perform all three writes. -/

namespace VeSmart.Storage

open VeSmart.Lib

/-- The optimistic energy anchor of a commit. -/
structure AcquisitionEnergyState where
  totalKwh : F64
  lastPowerWatts : Option F64
  lastSampleAtMs : Option Int
  deriving DecidableEq

/-- All durable writes produced by one acquisition. -/
structure AcquisitionCommit where
  device : String
  observedAtMs : I64
  expectedEnergy : Option AcquisitionEnergyState
  nextEnergy : AcquisitionEnergyState
  payload : List UInt8

inductive AcquisitionCommitOutcome where
  | committed (batchId : Int)
  | alreadyCommitted
  deriving DecidableEq

def maxEnergyKwh : ℚ := 1000000000

def lastSuccessKey (device : String) : String := "acquisition.last_success." ++ device

/-! ## Validation -/

def validateDevice (device : String) : Except StorageError Unit :=
  if device = "" then .error (.invalidArgument "device must not be empty") else .ok ()

def validateIdentity (c : AcquisitionCommit) : Except StorageError Unit := do
  validateDevice c.device
  if c.observedAtMs.1 ≤ 0 then .error (.invalidArgument "observed_at_ms must be > 0") else .ok ()

/-- The state is consistent with an observation at `observedAtMs`; `field` names it in errors. -/
def validateEnergy (state : AcquisitionEnergyState) (observedAtMs : Int) (field : String) :
    Except StorageError Unit :=
  if !(state.totalKwh.between 0 maxEnergyKwh) then
    .error (.invalidArgument (field ++ ".total_kwh must be finite and between 0 and 1000000000"))
  else if state.lastPowerWatts.any (fun power => !power.isFinite) then
    .error (.invalidArgument (field ++ ".last_power_watts must be finite"))
  else if state.lastSampleAtMs.any (fun timestamp => timestamp ≤ 0 || observedAtMs < timestamp) then
    .error (.invalidArgument
      (field ++ ".last_sample_at_ms must be positive and no later than observed_at_ms"))
  else .ok ()

def validateStateAndPayload (c : AcquisitionCommit) : Except StorageError Unit :=
  if c.payload = [] then .error (.invalidArgument "payload must not be empty")
  else do
    match c.expectedEnergy with
    | some expected => validateEnergy expected c.observedAtMs.1 "expected_energy"
    | none => .ok ()
    validateEnergy c.nextEnergy c.observedAtMs.1 "next_energy"

/-- The stored and the expected anchor are the same, bit by bit. -/
def sameAnchor (stored expected : Option AcquisitionEnergyState) : Bool := stored = expected

/-! ## The commit -/

/-- The columns of a stored row. -/
def EnergyRow.toState (r : EnergyRow) : AcquisitionEnergyState where
  totalKwh := .finite r.totalKwh
  lastPowerWatts := r.lastPowerWatts.map .finite
  lastSampleAtMs := r.lastSampleAtMs

/-- The row that `state` is stored as, if it meets the `CHECK` constraints. A NaN is stored as
`NULL`; infinities are excluded by the validation. -/
def EnergyRow.ofState (state : AcquisitionEnergyState) (nowMs : Int) : Option EnergyRow :=
  match state.totalKwh.toRat? with
  | none => none
  | some total =>
      if h : (0 ≤ total ∧ total ≤ 1000000000) ∧ 0 < nowMs then
        some {
          totalKwh := total
          lastPowerWatts := state.lastPowerWatts.bind F64.toRat?
          lastSampleAtMs := state.lastSampleAtMs
          updatedAtMs := nowMs
          total_bounds := h.1
          updated_pos := h.2 }
      else none

/-- `INSERT INTO energy_state ... ON CONFLICT(device) DO UPDATE SET ...`. -/
def Db.upsertEnergy (d : Db) (device : String) (state : AcquisitionEnergyState) (nowMs : Int) :
    Except StorageError (Unit × Db) :=
  match EnergyRow.ofState state nowMs with
  | none => .error (.sqlite .constraint)
  | some row => .ok ((), { d with energy := Function.update d.energy device (some row) })

def readEnergy (device : String) : Sql (Option AcquisitionEnergyState) :=
  query fun d => (d.energy device).map EnergyRow.toState

def lastSuccess (device : String) : Sql (Option Int) := do
  fromExcept (validateDevice device)
  getKvI64 (lastSuccessKey device)

/-- The three writes of a commit: energy state, identity and batch. -/
def writeAcquisition (c : AcquisitionCommit) : Sql Int := do
  statement sqlIo fun d => d.upsertEnergy c.device c.nextEnergy c.observedAtMs.1
  setKv (lastSuccessKey c.device) (toString c.observedAtMs.1) c.observedAtMs.1
  enqueue c.device c.payload c.observedAtMs

def commitAcquisition (c : AcquisitionCommit) : Sql AcquisitionCommitOutcome := do
  fromExcept (validateIdentity c)
  transaction sqlIo do
    let stored ← getKvI64 (lastSuccessKey c.device)
    if stored.any (fun stored => c.observedAtMs.1 ≤ stored) then do
      commitTx sqlIo
      pure .alreadyCommitted
    else do
      fromExcept (validateStateAndPayload c)
      let current ← readEnergy c.device
      if sameAnchor current c.expectedEnergy then do
        let batchId ← writeAcquisition c
        commitTx sqlIo
        pure (.committed batchId)
      else throw .energyAnchorConflict

/-! ## All or nothing -/

theorem writeAcquisition_fragment (c : AcquisitionCommit) :
    Fragment sqlIo (writeAcquisition c) := by
  unfold writeAcquisition
  apply Fragment.bind (Fragment.statement _); intro _
  apply Fragment.bind (setKv_fragment _ _ _); intro _
  exact enqueue_fragment _ _ _

theorem commit_allOrNothing (c : AcquisitionCommit) :
    AllOrNothing sqlIo (commitAcquisition c) := by
  apply AllOrNothing.fromExcept_bind
  intro _
  apply transaction_allOrNothing
  apply Body.bind (getKvI64_fragment _)
  intro stored
  show Body sqlIo (ite _ _ _)
  split
  · exact Body.commit_pure _
  · apply Body.bind (Fragment.fromExcept _); intro _
    apply Body.bind (Fragment.query _); intro current
    show Body sqlIo (ite _ _ _)
    split
    · apply Body.bind (writeAcquisition_fragment _); intro batchId
      exact Body.commit_pure _
    · exact (Fragment.throw _).body

/-! ## What validation promises -/

theorem validateIdentity_ok {c : AcquisitionCommit} :
    validateIdentity c = .ok () ↔ c.device ≠ "" ∧ 0 < c.observedAtMs.1 := by
  unfold validateIdentity validateDevice
  by_cases hdev : c.device = ""
  · simp [hdev, bind, Except.bind]
  · by_cases hobs : c.observedAtMs.1 ≤ 0
    · simp [hdev, hobs, bind, Except.bind]
    · simp only [hdev, hobs, bind, Except.bind, if_false, ne_eq, not_false_eq_true, true_and,
        true_iff]
      omega

/-- What `validateEnergy` accepts. -/
structure AcquisitionEnergyState.Valid (state : AcquisitionEnergyState) (observedAtMs : Int) :
    Prop where
  total : ∃ q, state.totalKwh.toRat? = some q ∧ 0 ≤ q ∧ q ≤ 1000000000
  power : ∀ p ∈ state.lastPowerWatts, p.isFinite = true
  anchor : ∀ t ∈ state.lastSampleAtMs, 0 < t ∧ t ≤ observedAtMs

theorem validateEnergy_ok {state : AcquisitionEnergyState} {observedAtMs : Int}
    (field : String) :
    validateEnergy state observedAtMs field = .ok () ↔ state.Valid observedAtMs := by
  have htotal : state.totalKwh.between 0 maxEnergyKwh = true ↔
      ∃ q, state.totalKwh.toRat? = some q ∧ 0 ≤ q ∧ q ≤ 1000000000 := F64.between_iff
  unfold validateEnergy
  constructor
  · intro h
    split at h; · cases h
    rename_i h₁
    split at h; · cases h
    rename_i h₂
    split at h; · cases h
    rename_i h₃
    refine ⟨htotal.mp (by simpa using h₁), ?_, ?_⟩
    · intro p hp
      simp only [Option.mem_def] at hp
      simpa [hp] using h₂
    · intro t ht
      simp only [Option.mem_def] at ht
      simp only [ht, Option.any_some, Bool.or_eq_true, decide_eq_true_eq, not_or] at h₃
      omega
  · rintro ⟨h₁, h₂, h₃⟩
    rw [if_neg (by simpa using htotal.mpr h₁), if_neg, if_neg]
    · cases ht : state.lastSampleAtMs with
      | none => simp
      | some t =>
          have := h₃ t (by simp [ht])
          simp only [Option.any_some, Bool.or_eq_true, decide_eq_true_eq, not_or]
          omega
    · cases hp : state.lastPowerWatts with
      | none => simp
      | some p => simp [h₂ p (by simp [hp])]

theorem validateStateAndPayload_ok {c : AcquisitionCommit} :
    validateStateAndPayload c = .ok () ↔ c.payload ≠ [] ∧
      (∀ e ∈ c.expectedEnergy, e.Valid c.observedAtMs.1) ∧ c.nextEnergy.Valid c.observedAtMs.1 := by
  unfold validateStateAndPayload
  by_cases hpay : c.payload = []
  · simp [hpay]
  rw [if_neg hpay]
  cases he : c.expectedEnergy with
  | none =>
      simp [hpay, bind, Except.bind, validateEnergy_ok]
  | some e =>
      cases hv : validateEnergy e c.observedAtMs.1 "expected_energy" with
      | error err =>
          have : ¬ e.Valid c.observedAtMs.1 := by
            rw [← validateEnergy_ok "expected_energy", hv]
            simp
          simp [hv, hpay, bind, Except.bind, this]
      | ok u =>
          have : e.Valid c.observedAtMs.1 := (validateEnergy_ok _).mp hv
          simp [hv, hpay, bind, Except.bind, this, validateEnergy_ok]

/-! ## What a commit does when no statement fails -/

/-- The acquisition identity of a device, as `last_success` reads it. -/
def storedSuccess (d : Db) (device : String) : Except StorageError (Option Int) :=
  readI64 (lastSuccessKey device) ((d.kv (lastSuccessKey device)).map KvRow.value)

/-- The change that a `Committed` result reports. -/
structure CommitEffect (c : AcquisitionCommit) (d d' : Db) (batchId : Int) : Prop where
  identity : c.device ≠ "" ∧ 0 < c.observedAtMs.1
  newer : ∃ stored, storedSuccess d c.device = .ok stored ∧ ∀ v ∈ stored, v < c.observedAtMs.1
  valid : c.nextEnergy.Valid c.observedAtMs.1
  anchor : (d.energy c.device).map EnergyRow.toState = c.expectedEnergy
  energy : ∃ row, EnergyRow.ofState c.nextEnergy c.observedAtMs.1 = some row ∧
    d'.energy = Function.update d.energy c.device (some row)
  kv : ∃ h, d'.kv = Function.update d.kv (lastSuccessKey c.device)
    (some ⟨toString c.observedAtMs.1, c.observedAtMs.1, h⟩)
  spool : d.spool.insert c.device c.observedAtMs.1 c.payload = .ok (batchId, d'.spool)

theorem lastSuccessKey_ne (device : String) : lastSuccessKey device ≠ "" := by
  intro h
  have hhead := (String.append_eq_empty_iff.mp h).1
  exact absurd hhead (by decide)

theorem head_acquisition (s : String) :
    ("acquisition.last_success." ++ s).toList.head? = some 'a' := by
  rw [String.toList_append]
  rfl

theorem head_spool (s : String) : ("spool." ++ s).toList.head? = some 's' := by
  rw [String.toList_append]
  rfl

/-- An identity key starts with another letter than the counters. -/
theorem lastSuccessKey_ne_spool (device rest : String) :
    lastSuccessKey device ≠ "spool." ++ rest := by
  intro h
  have hhead := head_acquisition device
  have hkey : lastSuccessKey device = "acquisition.last_success." ++ device := rfl
  rw [← hkey, h, head_spool] at hhead
  exact absurd hhead (by decide)

theorem exec_enqueue {device : String} {payload : List UInt8} {nowMs : I64}
    (hdev : device ≠ "") (hpay : payload ≠ []) (hnow : 0 < nowMs.1) (d w : Db) :
    exec (enqueue device payload nowMs) ⟨d, some w, []⟩ =
      match w.spool.insert device nowMs.1 payload with
      | .error e => (.error e, ⟨d, some w, []⟩)
      | .ok (id, t) => (.ok id, ⟨d, some { w with spool := t }, []⟩) := by
  have hensure : ∀ (p : Prop) [Decidable p] (e : StorageError), p →
      exec (ensure p e : Sql Unit) ⟨d, some w, []⟩ = (.ok (), ⟨d, some w, []⟩) := by
    intro p _ e hp
    rw [exec_ensure, if_pos hp]
  rw [enqueue, exec_bind_ok (hensure _ _ hdev), exec_bind_ok (hensure _ _ hpay),
    exec_bind_ok (hensure _ _ hnow), exec_onSpool]
  cases w.spool.insert device nowMs.1 payload <;> rfl

/-- A validated state can be stored. -/
theorem EnergyRow.ofState_valid {state : AcquisitionEnergyState} {observedAtMs : Int}
    (h : state.Valid observedAtMs) (hobs : 0 < observedAtMs) :
    ∃ row, EnergyRow.ofState state observedAtMs = some row := by
  obtain ⟨q, hq, hlo, hhi⟩ := h.total
  unfold EnergyRow.ofState
  rw [hq]
  exact ⟨_, dif_pos ⟨⟨hlo, hhi⟩, hobs⟩⟩

/-- The insertion of a batch fails only when the ids are used up. -/
theorem SpoolTable.insert_cases (t : SpoolTable) (device : String) {createdAtMs : Int}
    (hc : 0 < createdAtMs) {payload : List UInt8} (hp : payload ≠ []) :
    (t.seq = i64Max ∧ t.insert device createdAtMs payload = .error (.sqlite .full)) ∨
      ∃ id t', t.insert device createdAtMs payload = .ok (id, t') := by
  unfold SpoolTable.insert
  by_cases hseq : t.seq = i64Max
  · exact .inl ⟨hseq, by rw [dif_pos hseq]⟩
  · right
    rw [dif_neg hseq, dif_pos ⟨hc, hp⟩]
    exact ⟨_, _, rfl⟩

/-- The writes of a validated commit: all three, unless the batch ids are used up. -/
theorem exec_writeAcquisition {c : AcquisitionCommit} (hid : c.device ≠ "" ∧ 0 < c.observedAtMs.1)
    (hpay : c.payload ≠ []) (hvalid : c.nextEnergy.Valid c.observedAtMs.1) (d : Db) :
    (d.spool.seq = i64Max ∧ ∃ w', exec (writeAcquisition c) ⟨d, some d, []⟩ =
        (.error (.sqlite .full), ⟨d, some w', []⟩)) ∨
      ∃ id d' row, exec (writeAcquisition c) ⟨d, some d, []⟩ = (.ok id, ⟨d, some d', []⟩) ∧
        EnergyRow.ofState c.nextEnergy c.observedAtMs.1 = some row ∧
        d'.energy = Function.update d.energy c.device (some row) ∧
        (∃ h, d'.kv = Function.update d.kv (lastSuccessKey c.device)
          (some ⟨toString c.observedAtMs.1, c.observedAtMs.1, h⟩)) ∧
        d.spool.insert c.device c.observedAtMs.1 c.payload = .ok (id, d'.spool) := by
  obtain ⟨row, hrow⟩ := EnergyRow.ofState_valid hvalid hid.2
  have hup : d.upsertEnergy c.device c.nextEnergy c.observedAtMs.1 =
      .ok ((), { d with energy := Function.update d.energy c.device (some row) }) := by
    unfold Db.upsertEnergy
    rw [hrow]
  have hkv := exec_setKv (lastSuccessKey_ne c.device) (toString c.observedAtMs.1) hid.2 d
    { d with energy := Function.update d.energy c.device (some row) }
  have hq := exec_enqueue hid.1 hpay hid.2 d
    { d with
      energy := Function.update d.energy c.device (some row)
      kv := Function.update d.kv (lastSuccessKey c.device)
        (some ⟨toString c.observedAtMs.1, c.observedAtMs.1, hid.2⟩) }
  have hrun : exec (writeAcquisition c) ⟨d, some d, []⟩ =
      exec (enqueue c.device c.payload c.observedAtMs) ⟨d, some { d with
        energy := Function.update d.energy c.device (some row)
        kv := Function.update d.kv (lastSuccessKey c.device)
          (some ⟨toString c.observedAtMs.1, c.observedAtMs.1, hid.2⟩) }, []⟩ := by
    unfold writeAcquisition
    rw [exec_bind_ok (by rw [exec_statement_open, hup]), exec_bind_ok hkv]
  rw [hrun, hq]
  rcases d.spool.insert_cases c.device hid.2 hpay with ⟨hseq, hfull⟩ | ⟨id, t, hins⟩
  · left
    rw [hfull]
    exact ⟨hseq, _, rfl⟩
  · right
    rw [hins]
    exact ⟨id, _, row, rfl, hrow, rfl, ⟨hid.2, rfl⟩, rfl⟩

/-- Why a commit is refused when no statement meets an I/O error. -/
inductive CommitRefused (c : AcquisitionCommit) (d : Db) : StorageError → Prop
  | identity {e : StorageError} (h : validateIdentity c = .error e) : CommitRefused c d e
  | unreadable {e : StorageError} (h : storedSuccess d c.device = .error e) : CommitRefused c d e
  | invalid {e : StorageError} {stored : Option Int} (hstored : storedSuccess d c.device = .ok stored)
      (hnewer : ∀ v ∈ stored, v < c.observedAtMs.1)
      (h : validateStateAndPayload c = .error e) : CommitRefused c d e
  | conflict (h : (d.energy c.device).map EnergyRow.toState ≠ c.expectedEnergy) :
      CommitRefused c d .energyAnchorConflict
  | full (h : d.spool.seq = i64Max) : CommitRefused c d (.sqlite .full)

/-- **What a commit can do**: it is refused and changes nothing, it finds the observation (or a
later one) already committed and changes nothing, or it performs all three writes. -/
theorem quiet_commit_cases (c : AcquisitionCommit) (d : Db) :
    (∃ e, quiet (commitAcquisition c) d = (.error e, d) ∧ CommitRefused c d e) ∨
      (quiet (commitAcquisition c) d = (.ok .alreadyCommitted, d) ∧
        ∃ v, storedSuccess d c.device = .ok (some v) ∧ c.observedAtMs.1 ≤ v) ∨
      ∃ id d', quiet (commitAcquisition c) d = (.ok (.committed id), d') ∧
        CommitEffect c d d' id := by
  unfold commitAcquisition
  rw [quiet_fromExcept_bind]
  cases hid : validateIdentity c with
  | error e => exact .inl ⟨e, rfl, .identity hid⟩
  | ok u =>
      have hident := validateIdentity_ok.mp hid
      have hget := exec_getKvI64 (lastSuccessKey c.device) d d
      dsimp only
      rw [quiet_transaction]
      cases hs : storedSuccess d c.device with
      | error e =>
          have hs' := hs
          rw [storedSuccess] at hs'
          rw [hs'] at hget
          rw [exec_bind_error hget]
          exact .inl ⟨e, rfl, .unreadable hs⟩
      | ok stored =>
          have hs' := hs
          rw [storedSuccess] at hs'
          rw [hs'] at hget
          rw [exec_bind_ok hget]
          by_cases hold : stored.any (fun stored => decide (c.observedAtMs.1 ≤ stored)) = true
          · rw [if_pos hold]
            right; left
            have hcommit : exec (commitTx sqlIo) ⟨d, some d, []⟩ =
                (.ok (), (⟨d, none, []⟩ : Connection Db)) := exec_commitTx d d
            rw [exec_bind_ok hcommit]
            rw [Option.any_eq_true] at hold
            obtain ⟨v, rfl, hv⟩ := hold
            exact ⟨rfl, v, rfl, by simpa using hv⟩
          · rw [if_neg hold]
            have hnewer : ∀ v ∈ stored, v < c.observedAtMs.1 := by
              intro v hv
              simp only [Option.mem_def] at hv
              simpa [hv] using hold
            cases hval : validateStateAndPayload c with
            | error e =>
                rw [exec_bind_error (exec_fromExcept _ _)]
                exact .inl ⟨e, rfl, .invalid hs hnewer hval⟩
            | ok u =>
                rw [exec_bind_ok (exec_fromExcept _ _), readEnergy,
                  exec_bind_ok (exec_query _ d d)]
                obtain ⟨hpay, -, hnext⟩ := validateStateAndPayload_ok.mp hval
                by_cases hanchor : (d.energy c.device).map EnergyRow.toState = c.expectedEnergy
                · rw [if_pos (by simpa [sameAnchor] using hanchor)]
                  rcases exec_writeAcquisition hident hpay hnext d with
                    ⟨hfull, w', hw⟩ | ⟨id, d', row, hw, hrow, henergy, hkv, hins⟩
                  · rw [exec_bind_error hw]
                    exact .inl ⟨_, rfl, .full hfull⟩
                  · rw [exec_bind_ok hw]
                    exact .inr (.inr ⟨id, d', rfl, hident, ⟨stored, hs, hnewer⟩, hnext, hanchor,
                      ⟨row, hrow, henergy⟩, hkv, hins⟩)
                · rw [if_neg (by simpa [sameAnchor] using hanchor)]
                  exact .inl ⟨_, rfl, .conflict hanchor⟩

/-! ## Reads, and spool work, which keeps the acquisitions -/

variable {d : Db}

theorem lastSuccess_reads (device : String) :
    Preserves (fun d' => d' = d) (lastSuccess device) := by
  apply Preserves.bind (Preserves.fromExcept _); intro _
  exact Preserves.bind (Preserves.query _) fun _ => Preserves.fromExcept _

theorem stats_reads : Preserves (fun d' => d' = d) stats := by
  apply Preserves.bind (Preserves.query _); intro _
  apply Preserves.bind (Preserves.query _); intro _
  exact Preserves.bind (Preserves.query _) fun _ => Preserves.pure _

/-- A read that succeeds returns what it reads. -/
theorem exec_query_ok {α : Type} {f : Db → α} {fs : List Bool} {a : α} {c : Connection Db}
    (h : exec (query f) ⟨d, none, fs⟩ = (.ok a, c)) : a = f d := by
  have hwhole : AllOrNothing sqlIo (statement sqlIo fun d : Db => Except.ok (f d, d)) :=
    statement_allOrNothing _
  obtain ⟨fs', hexec | hexec⟩ := hwhole.exec_cases d fs
  · rw [quiet_statement] at hexec
    have heq := h.symm.trans hexec
    simpa using congrArg Prod.fst heq
  · have heq := h.symm.trans hexec
    cases congrArg Prod.fst heq

/-- The statistics count the rows. -/
theorem exec_stats_ok {fs : List Bool} {stats : SpoolStats} {c : Connection Db}
    (h : exec Storage.stats ⟨d, none, fs⟩ = (.ok stats, c)) :
    stats.queuedBatches = d.spool.rows.length := by
  obtain ⟨queued, c₁, hqueued, h⟩ := exec_bind_inv h
  obtain ⟨oldest, c₂, -, h⟩ := exec_bind_inv h
  obtain ⟨attempts, c₃, -, h⟩ := exec_bind_inv h
  cases h
  exact exec_query_ok hqueued

/-- The identity that `lastSuccess` returns is the stored one. -/
theorem exec_lastSuccess_ok {device : String} {fs : List Bool} {stored : Option Int}
    {c : Connection Db} (h : exec (lastSuccess device) ⟨d, none, fs⟩ = (.ok stored, c)) :
    storedSuccess d device = .ok stored := by
  unfold lastSuccess at h
  cases hdev : validateDevice device with
  | error e =>
      rw [hdev, exec_bind_error (exec_fromExcept _ _)] at h
      cases h
  | ok u =>
      rw [hdev, exec_bind_ok (exec_fromExcept _ _)] at h
      unfold getKvI64 getKv at h
      rcases hq : exec (query fun d : Db => (d.kv (lastSuccessKey device)).map KvRow.value)
        ⟨d, none, fs⟩ with ⟨r, c'⟩
      cases r with
      | error e =>
          rw [exec_bind_error hq] at h
          cases h
      | ok raw =>
          rw [exec_bind_ok hq, exec_fromExcept, exec_query_ok hq] at h
          exact congrArg Prod.fst h

/-- Energy and identity of every device are those of `d`. -/
def SameAcquisitions (d d' : Db) : Prop :=
  d'.energy = d.energy ∧ ∀ device, storedSuccess d' device = storedSuccess d device

/-- Energy and identity are not in the spool. -/
theorem onSpool_acquisitions {α : Type} (f : SpoolTable → Except StorageError (α × SpoolTable)) :
    Preserves (SameAcquisitions d) (onSpool f) :=
  Preserves.onSpool fun _ _ _ h _ => h

theorem setKv_acquisitions {key : String} (hkey : ∀ device, lastSuccessKey device ≠ key)
    (value : String) (nowMs : Int) : Preserves (SameAcquisitions d) (setKv key value nowMs) := by
  apply Preserves.bind (Preserves.fromExcept _); intro _
  apply Preserves.bind (Preserves.fromExcept _); intro _
  apply Preserves.statement
  intro w a w' h hw
  unfold Db.upsertKv at hw
  split at hw
  · cases hw
    refine ⟨h.1, fun device => ?_⟩
    rw [← h.2 device]
    unfold storedSuccess
    dsimp only
    rw [Function.update_of_ne (hkey device)]
  · cases hw

theorem bumpCounter_acquisitions {key : String} (hkey : ∀ device, lastSuccessKey device ≠ key)
    (nowMs : Int) : Preserves (SameAcquisitions d) (bumpCounter key nowMs) := by
  apply Preserves.bind
  · exact Preserves.bind (Preserves.query _) fun _ => Preserves.fromExcept _
  · intro current
    exact setKv_acquisitions hkey _ _

theorem claimOldest_acquisitions (cfg : StorageConfig) (nowMs : I64) :
    Preserves (SameAcquisitions d) (claimOldest cfg nowMs) := by
  apply Preserves.transaction
  apply Preserves.bind (Preserves.query _)
  intro candidate
  cases candidate with
  | none => exact Preserves.bind Preserves.commitTx fun _ => Preserves.pure _
  | some batch =>
      apply Preserves.bind (onSpool_acquisitions _)
      intro changed
      split
      · exact Preserves.bind Preserves.commitTx fun _ => Preserves.pure _
      · exact Preserves.bind Preserves.commitTx fun _ => Preserves.pure _

theorem removeBatch_acquisitions {counter : String}
    (hkey : ∀ device, lastSuccessKey device ≠ counter) (id : Int) (nowMs : I64) :
    Preserves (SameAcquisitions d) (removeBatch counter id nowMs) := by
  apply Preserves.transaction
  apply Preserves.bind (onSpool_acquisitions _)
  intro changed
  show Preserves _ (ite _ _ _)
  split
  · exact Preserves.bind (bumpCounter_acquisitions hkey _) fun _ =>
      Preserves.bind Preserves.commitTx fun _ => Preserves.pure _
  · exact Preserves.bind Preserves.commitTx fun _ => Preserves.pure _

theorem recordRetry_acquisitions (cfg : StorageConfig) (id : Int) (nowMs : I64) :
    Preserves (SameAcquisitions d) (recordRetry cfg id nowMs) := by
  apply Preserves.transaction
  apply Preserves.bind (Preserves.query _)
  intro attempts
  cases attempts with
  | none => exact Preserves.bind Preserves.commitTx fun _ => Preserves.throw _
  | some attempts =>
      show Preserves _ (ite _ _ _)
      split
      · apply Preserves.bind (onSpool_acquisitions _); intro _
        apply Preserves.bind (bumpCounter_acquisitions
          (fun device => lastSuccessKey_ne_spool device "dropped_total") _); intro _
        exact Preserves.bind Preserves.commitTx fun _ => Preserves.pure _
      · apply Preserves.bind (onSpool_acquisitions _); intro _
        exact Preserves.bind Preserves.commitTx fun _ => Preserves.pure _

end VeSmart.Storage
