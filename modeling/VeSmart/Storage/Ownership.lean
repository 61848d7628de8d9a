import VeSmart.Storage.Budget

set_option autoImplicit false

/-! # Who owns a claimed batch

Several owners share one spool. The database stores no owner, so the ownership lives in an
observer's state: `OwnerState` remembers the most recent claim of every batch, who made it and
when, and whether that owner has released it by recording a retry. A claim `respects` a lease
that is neither released nor expired if it does not return its batch.

An owner whose claim has expired may still record a retry of the batch it no longer owns. That
retry replaces the deadline that the newer claim relies on. `exclusive_iff` says for which
configurations this breaks a lease: for those in which the delay after a second attempt is
shorter than the lease. -/

namespace VeSmart.Storage

open VeSmart.Lib

/-- The most recent claim of a batch. -/
structure Lease where
  owner : Nat
  since : Int
  released : Bool
  deriving DecidableEq

/-- The observer's note of a recorded retry: the lease is released if it is the owner's. -/
def Lease.release (owner : Nat) (l : Lease) : Lease :=
  if l.owner = owner then { l with released := true } else l

structure OwnedCall where
  owner : Nat
  call : SpoolCall

structure OwnerState where
  db : Db
  leases : Int → Option Lease
  claimed : List (Nat × Int)
  clock : Int

def OwnerState.start : OwnerState := ⟨Db.empty, fun _ => none, [], i64Min⟩

/-- What the observer notes when `owner` gets the result of an operation. -/
def OwnerState.observe (s : OwnerState) (owner : Nat) (d' : Db) :
    SpoolOp → Except StorageError SpoolResult → OwnerState
  | .claim nowMs, .ok (.claimed (some batch)) =>
      { db := d'
        leases := Function.update s.leases batch.id (some ⟨owner, nowMs.1, false⟩)
        claimed := (owner, batch.id) :: s.claimed
        clock := nowMs.1 }
  | .claim nowMs, _ => { s with db := d', clock := nowMs.1 }
  | .recordRetry id nowMs, .ok (.retry _) =>
      { s with
        db := d'
        leases := Function.update s.leases id ((s.leases id).map (Lease.release owner))
        clock := nowMs.1 }
  | .recordRetry _ nowMs, _ => { s with db := d', clock := nowMs.1 }
  | _, _ => { s with db := d' }

def OwnerState.next (cfg : StorageConfig) (s : OwnerState) (c : OwnedCall) : OwnerState :=
  s.observe c.owner (c.call.exec cfg s.db).2 c.call.op (c.call.exec cfg s.db).1

/-- The clock does not run backwards, and an owner finishes only batches it once claimed. -/
def OwnerState.permits (s : OwnerState) (owner : Nat) : SpoolOp → Bool
  | .claim nowMs => s.clock ≤ nowMs.1
  | .recordRetry id nowMs => s.clock ≤ nowMs.1 && (owner, id) ∈ s.claimed
  | .markDelivered id _ => (owner, id) ∈ s.claimed
  | .dropBatch id _ => (owner, id) ∈ s.claimed
  | _ => true

/-- A claim returns no batch whose most recent claim is still running and not released. -/
def OwnerState.respects (cfg : StorageConfig) (s : OwnerState) :
    SpoolOp → Except StorageError SpoolResult → Bool
  | .claim nowMs, .ok (.claimed (some batch)) =>
      (s.leases batch.id).all fun l =>
        l.released || l.since + cfg.spoolInflightMs.1 ≤ nowMs.1
  | _, _ => true

/-- Every call of the sequence is permitted. -/
def behaves (cfg : StorageConfig) : OwnerState → List OwnedCall → Bool
  | _, [] => true
  | s, c :: cs => s.permits c.owner c.call.op && behaves cfg (s.next cfg c) cs

/-- Every claim of the sequence respects the leases. -/
def exclusive (cfg : StorageConfig) : OwnerState → List OwnedCall → Bool
  | _, [] => true
  | s, c :: cs => s.respects cfg c.call.op (c.call.exec cfg s.db).1 && exclusive cfg (s.next cfg c) cs

/-! ## The retry delay -/

theorem retryDelay_mono {cfg : StorageConfig} (hbase : 0 < cfg.spoolRetryBaseMs.1)
    {a b : UInt32} (h : a.toNat ≤ b.toNat) : retryDelay cfg a ≤ retryDelay cfg b := by
  unfold retryDelay
  have hexp : min (a.toNat - 1) 20 ≤ min (b.toNat - 1) 20 := by omega
  have hpow : (2 : Int) ^ min (a.toNat - 1) 20 ≤ 2 ^ min (b.toNat - 1) 20 :=
    pow_le_pow_right₀ (by norm_num) hexp
  have hmul : cfg.spoolRetryBaseMs.1 * 2 ^ min (a.toNat - 1) 20 ≤
      cfg.spoolRetryBaseMs.1 * 2 ^ min (b.toNat - 1) 20 :=
    mul_le_mul_of_nonneg_left hpow (le_of_lt hbase)
  exact min_le_min_right _ (satI64_mono hmul)

theorem retryDelay_one {cfg : StorageConfig} (hb : cfg.Bounds) :
    retryDelay cfg 1 = cfg.spoolRetryBaseMs.1 := by
  have hexp : min ((1 : UInt32).toNat - 1) 20 = 0 := by decide
  have hsat := satI64_of_inI64 cfg.spoolRetryBaseMs.2
  show min (satI64 (cfg.spoolRetryBaseMs.1 * 2 ^ min ((1 : UInt32).toNat - 1) 20))
    cfg.spoolRetryMaxMs.1 = _
  rw [hexp, pow_zero, mul_one, hsat]
  exact min_eq_left hb.base_le_max

/-- The delay of a batch that has been claimed is at least the base delay. -/
theorem base_le_retryDelay {cfg : StorageConfig} (hb : cfg.Bounds) {a : UInt32}
    (h : 1 ≤ a.toNat) : cfg.spoolRetryBaseMs.1 ≤ retryDelay cfg a := by
  rw [← retryDelay_one hb]
  exact retryDelay_mono hb.base_pos h

theorem satI64_lower {x y : Int} (h : x ≤ y) (hx : x ≤ i64Max) : x ≤ satI64 y := by
  simp only [satI64, i64Min, i64Max] at *
  omega

/-- A time that saturates leaves no room for a lease. -/
theorem satI64_room {x y : Int} (h : x ≤ y) : x ≤ satI64 y ∨ satI64 y = i64Max := by
  simp only [satI64, i64Min, i64Max] at *
  omega

/-! ## The invariant -/

/-- What is known of a queued row whose most recent claim is `l`. -/
structure LeaseInv (cfg : StorageConfig) (s : OwnerState) (r : SpoolRow) (l : Lease) : Prop where
  attempts_pos : 1 ≤ r.attempts
  sole : r.attempts = 1 → ∀ o, (o, r.id) ∈ s.claimed → o = l.owner
  since_pos : 1 ≤ l.since
  since_le : l.since ≤ s.clock
  fits : l.since + cfg.spoolInflightMs.1 ≤ i64Max
  guarded : l.released = false → l.since + cfg.spoolInflightMs.1 ≤ r.nextAttemptAtMs ∨
    i64Max < r.nextAttemptAtMs + cfg.spoolInflightMs.1
  next_low : 1 + cfg.spoolRetryBaseMs.1 ≤ r.nextAttemptAtMs ∨
    1 + cfg.spoolInflightMs.1 ≤ r.nextAttemptAtMs ∨
    i64Max < r.nextAttemptAtMs + cfg.spoolInflightMs.1
  since_low : 2 ≤ r.attempts →
    1 + cfg.spoolRetryBaseMs.1 ≤ l.since ∨ 1 + cfg.spoolInflightMs.1 ≤ l.since

structure RowInv (cfg : StorageConfig) (s : OwnerState) (r : SpoolRow) : Prop where
  next_pos : 1 ≤ r.nextAttemptAtMs
  unclaimed : s.leases r.id = none → r.attempts = 0 ∧ ∀ o, (o, r.id) ∉ s.claimed
  leased : ∀ l, s.leases r.id = some l → LeaseInv cfg s r l

structure OwnersInv (cfg : StorageConfig) (s : OwnerState) : Prop where
  balanced : ∃ h, Balanced s.db h
  within : WithinBudget cfg s.db
  issued : ∀ id, s.db.spool.seq < id → s.leases id = none ∧ ∀ o, (o, id) ∉ s.claimed
  rows : ∀ r ∈ s.db.spool.rows, RowInv cfg s r

theorem OwnersInv.start (cfg : StorageConfig) : OwnersInv cfg OwnerState.start where
  balanced := ⟨_, Balanced.empty⟩
  within := by intro r hr; cases hr
  issued := by simp [OwnerState.start]
  rows := by intro r hr; cases hr

/-- What is known of a row depends on the observer's notes about that row only. -/
theorem RowInv.frame {cfg : StorageConfig} {s s' : OwnerState} {r : SpoolRow}
    (h : RowInv cfg s r) (hl : s'.leases r.id = s.leases r.id)
    (hc : ∀ o, (o, r.id) ∈ s'.claimed ↔ (o, r.id) ∈ s.claimed) (hk : s.clock ≤ s'.clock) :
    RowInv cfg s' r where
  next_pos := h.next_pos
  unclaimed hnone := by
    obtain ⟨hzero, hno⟩ := h.unclaimed (hl ▸ hnone)
    exact ⟨hzero, fun o ho => hno o ((hc o).mp ho)⟩
  leased l hsome := by
    have hi := h.leased l (hl ▸ hsome)
    exact ⟨hi.attempts_pos, fun hone o ho => hi.sole hone o ((hc o).mp ho), hi.since_pos,
      le_trans hi.since_le hk, hi.fits, hi.guarded, hi.next_low, hi.since_low⟩

/-- Calls that add no row and note nothing but the time. -/
theorem OwnersInv.frame {cfg : StorageConfig} {s s' : OwnerState} (h : OwnersInv cfg s)
    (hb : ∃ h, Balanced s'.db h) (hw : WithinBudget cfg s'.db)
    (hseq : s'.db.spool.seq = s.db.spool.seq) (hrows : s'.db.spool.rows ⊆ s.db.spool.rows)
    (hl : s'.leases = s.leases) (hc : s'.claimed = s.claimed) (hk : s.clock ≤ s'.clock) :
    OwnersInv cfg s' where
  balanced := hb
  within := hw
  issued := by rw [hseq, hl, hc]; exact h.issued
  rows r hr := (h.rows r (hrows hr)).frame (by rw [hl]) (fun o => by rw [hc]) hk

/-- A new batch has not been claimed by anyone. -/
theorem OwnersInv.insert {cfg : StorageConfig} {s : OwnerState} (h : OwnersInv cfg s) {d' : Db}
    (hb : ∃ h, Balanced d' h) (hw : WithinBudget cfg d') {device : String}
    {createdAtMs id : Int} {payload : List UInt8}
    (hins : s.db.spool.insert device createdAtMs payload = .ok (id, d'.spool)) :
    OwnersInv cfg { s with db := d' } := by
  obtain ⟨rfl, hseq, row, hrows, hid, -, hcreated, -, hzero, hnext⟩ := SpoolTable.insert_ok hins
  refine ⟨hb, hw, ?_, ?_⟩
  · intro x hx
    have hx' : d'.spool.seq < x := hx
    exact h.issued x (by omega)
  · intro r hr
    have hr' : r ∈ d'.spool.rows := hr
    rw [hrows] at hr'
    rcases List.mem_append.mp hr' with hr' | hr'
    · exact (h.rows r hr').frame rfl (fun o => Iff.rfl) (le_refl _)
    · rw [List.mem_singleton] at hr'
      subst hr'
      obtain ⟨hfree, hno⟩ := h.issued r.id (by omega)
      have hpos := r.created_pos
      refine ⟨by omega, fun _ => ⟨hzero, hno⟩, ?_⟩
      intro l hl
      have hl' : s.leases r.id = some l := hl
      rw [hfree] at hl'
      cases hl'

/-- The configurations under which a late retry cannot end a newer lease: a batch is dropped
before it has two attempts to retry, or the delay after two attempts outlasts a lease, or the
times at which it would matter are not representable. -/
def RetryOutlastsLease (cfg : StorageConfig) : Prop :=
  cfg.maxSpoolAttempts.toNat ≤ 2 ∨ cfg.spoolInflightMs.1 ≤ retryDelay cfg 2 ∨
    i64Max < 1 + cfg.spoolRetryBaseMs.1 + retryDelay cfg 2 + cfg.spoolInflightMs.1

/-- A claim returns a batch whose lease has run out or been released. -/
theorem OwnersInv.claim_respects {cfg : StorageConfig} {s : OwnerState} (h : OwnersInv cfg s)
    {nowMs : I64} {row : SpoolRow}
    (hsel : s.db.spool.selectReady nowMs.1 cfg.maxSpoolAttempts = some row)
    (hfit : nowMs.1 + cfg.spoolInflightMs.1 ≤ i64Max) :
    ((s.leases row.id).all fun l =>
      l.released || decide (l.since + cfg.spoolInflightMs.1 ≤ nowMs.1)) = true := by
  obtain ⟨hrow, hdue, -⟩ := SpoolTable.selectReady_mem hsel
  cases hl : s.leases row.id with
  | none => rfl
  | some l =>
      have hi := ((h.rows row hrow).leased l hl).guarded
      rw [Option.all_some, Bool.or_eq_true, decide_eq_true_eq]
      cases hr : l.released with
      | true => exact .inl rfl
      | false =>
          right
          rcases hi hr with hle | hover
          · omega
          · omega

/-- The state after a claim. -/
theorem OwnersInv.lease {cfg : StorageConfig} (hcfg : cfg.Bounds) {s : OwnerState}
    (h : OwnersInv cfg s) {owner : Nat} {nowMs : I64} {row : SpoolRow} {t : SpoolTable}
    (hsel : s.db.spool.selectReady nowMs.1 cfg.maxSpoolAttempts = some row)
    (hfit : nowMs.1 + cfg.spoolInflightMs.1 ≤ i64Max) (hclock : s.clock ≤ nowMs.1)
    (hseq : t.seq = s.db.spool.seq) {hnext : 0 ≤ nowMs.1 + cfg.spoolInflightMs.1}
    (hrows : t.rows = leaseRows s.db.spool.rows row.id (nowMs.1 + cfg.spoolInflightMs.1) hnext)
    (hb : ∃ h, Balanced { s.db with spool := t } h)
    (hw : WithinBudget cfg { s.db with spool := t }) :
    OwnersInv cfg
      { db := { s.db with spool := t }
        leases := Function.update s.leases row.id (some ⟨owner, nowMs.1, false⟩)
        claimed := (owner, row.id) :: s.claimed
        clock := nowMs.1 } := by
  obtain ⟨hrow, hdue, -⟩ := SpoolTable.selectReady_mem hsel
  have hinv := h.rows row hrow
  have hpos := hinv.next_pos
  have hinflight := hcfg.inflight_pos
  have hissued : row.id ≤ s.db.spool.seq := s.db.spool.ids_le_seq row hrow
  refine ⟨hb, hw, ?_, ?_⟩
  · intro x hx
    have hx' : t.seq < x := hx
    have hne : x ≠ row.id := by omega
    obtain ⟨hfree, hno⟩ := h.issued x (by omega)
    refine ⟨?_, ?_⟩
    · show Function.update s.leases row.id _ x = none
      rw [Function.update_of_ne hne]
      exact hfree
    · intro o ho
      rcases List.mem_cons.mp ho with heq | ho
      · exact hne (congrArg Prod.snd heq)
      · exact hno o ho
  · intro r hr
    have hr' : r ∈ t.rows := hr
    rw [hrows] at hr'
    obtain ⟨a, ha, rfl⟩ := List.mem_map.mp hr'
    by_cases hid : a.id = row.id
    · have harow : a = row := SpoolTable.eq_of_id ha hrow hid
      subst harow
      rw [if_pos rfl]
      refine ⟨?_, ?_, ?_⟩
      · show 1 ≤ nowMs.1 + cfg.spoolInflightMs.1
        omega
      · intro hnone
        have hnone' : Function.update s.leases a.id (some ⟨owner, nowMs.1, false⟩) a.id = none :=
          hnone
        rw [Function.update_self] at hnone'
        cases hnone'
      · intro l hl
        have hl' : Function.update s.leases a.id (some ⟨owner, nowMs.1, false⟩) a.id = some l := hl
        rw [Function.update_self] at hl'
        cases hl'
        refine ⟨?_, ?_, ?_, le_refl _, hfit, ?_, ?_, ?_⟩
        · show 1 ≤ a.attempts + 1
          omega
        · -- one attempt: nobody had claimed the batch before
          intro hone o ho
          have hzero : a.attempts = 0 := by
            have : a.attempts + 1 = 1 := hone
            omega
          rcases List.mem_cons.mp ho with heq | ho
          · exact congrArg Prod.fst heq
          · exfalso
            cases hla : s.leases a.id with
            | none => exact (hinv.unclaimed hla).2 o ho
            | some l' =>
                have := (hinv.leased l' hla).attempts_pos
                omega
        · show 1 ≤ nowMs.1
          omega
        · exact fun _ => .inl (le_refl _)
        · right; left
          show 1 + cfg.spoolInflightMs.1 ≤ nowMs.1 + cfg.spoolInflightMs.1
          omega
        · -- two attempts: the batch had been claimed before, so its deadline was late
          intro htwo
          have hone : 1 ≤ a.attempts := by
            have : 2 ≤ a.attempts + 1 := htwo
            omega
          cases hla : s.leases a.id with
          | none =>
              have := (hinv.unclaimed hla).1
              omega
          | some l' =>
              show 1 + cfg.spoolRetryBaseMs.1 ≤ nowMs.1 ∨ 1 + cfg.spoolInflightMs.1 ≤ nowMs.1
              rcases (hinv.leased l' hla).next_low with hlow | hlow | hover
              · exact .inl (by omega)
              · exact .inr (by omega)
              · omega
    · rw [if_neg hid]
      refine (h.rows a ha).frame ?_ ?_ hclock
      · exact Function.update_of_ne hid _ _
      · intro o
        show (o, a.id) ∈ (owner, row.id) :: s.claimed ↔ _
        rw [List.mem_cons]
        constructor
        · rintro (heq | ho)
          · exact absurd (congrArg Prod.snd heq) hid
          · exact ho
        · exact .inr

/-- The deadline that a retry sets does not end the lease of another owner. -/
theorem retry_keeps_lease {cfg : StorageConfig} (hcfg : cfg.Bounds)
    (hcond : RetryOutlastsLease cfg) {s : OwnerState} {row : SpoolRow} {l : Lease}
    (hi : LeaseInv cfg s row l) (hw : row.attempts ≤ cfg.maxSpoolAttempts.toNat)
    (hleft : ¬ cfg.maxSpoolAttempts ≤ UInt32.ofNat row.attempts) (htwo : 2 ≤ row.attempts)
    {nowMs : I64} (hclock : s.clock ≤ nowMs.1) :
    l.since + cfg.spoolInflightMs.1 ≤ retryAt cfg nowMs row ∨
      i64Max < retryAt cfg nowMs row + cfg.spoolInflightMs.1 := by
  have hlt : row.attempts < cfg.maxSpoolAttempts.toNat := by
    rw [budget_le_iff hw] at hleft
    omega
  have hsize : UInt32.size = 4294967296 := rfl
  have hmax := cfg.maxSpoolAttempts.toNat_lt
  have hatt : (UInt32.ofNat row.attempts).toNat = row.attempts :=
    UInt32.toNat_ofNat_of_lt' (by omega)
  have hdelay : retryDelay cfg 2 ≤ retryDelay cfg (UInt32.ofNat row.attempts) := by
    apply retryDelay_mono hcfg.base_pos
    rw [hatt]
    exact htwo
  have hbase : cfg.spoolRetryBaseMs.1 ≤ retryDelay cfg 2 := base_le_retryDelay hcfg (by decide)
  have hsince := hi.since_le
  by_cases hlong : cfg.spoolInflightMs.1 ≤ retryDelay cfg 2
  · left
    exact satI64_lower (by omega) hi.fits
  · right
    have hover : i64Max < 1 + cfg.spoolRetryBaseMs.1 + retryDelay cfg 2 + cfg.spoolInflightMs.1 := by
      rcases hcond with h | h | h
      · omega
      · exact absurd h hlong
      · exact h
    have hlow : 1 + cfg.spoolRetryBaseMs.1 ≤ l.since := by
      rcases hi.since_low htwo with h | h
      · exact h
      · omega
    have hnext : 1 + cfg.spoolRetryBaseMs.1 + retryDelay cfg 2 ≤
        nowMs.1 + retryDelay cfg (UInt32.ofNat row.attempts) := by omega
    have hinflight := hcfg.inflight_pos
    show i64Max < satI64 _ + _
    rcases satI64_room hnext with h | h
    · omega
    · omega

theorem Lease.release_since (owner : Nat) (l : Lease) : (l.release owner).since = l.since := by
  unfold Lease.release
  split <;> rfl

theorem Lease.release_owner (owner : Nat) (l : Lease) : (l.release owner).owner = l.owner := by
  unfold Lease.release
  split <;> rfl

theorem Lease.release_false {owner : Nat} {l : Lease} (h : (l.release owner).released = false) :
    l.released = false ∧ l.owner ≠ owner := by
  unfold Lease.release at h
  split at h
  · cases h
  · exact ⟨h, by assumption⟩

theorem issued_after_retry {s : OwnerState} {id seq : Int} {owner : Nat}
    (h : ∀ x, seq < x → s.leases x = none ∧ ∀ o, (o, x) ∉ s.claimed) :
    ∀ x, seq < x → Function.update s.leases id ((s.leases id).map (Lease.release owner)) x = none ∧
      ∀ o, (o, x) ∉ s.claimed := by
  intro x hx
  refine ⟨?_, (h x hx).2⟩
  by_cases hid : x = id
  · subst hid
    rw [Function.update_self, (h x hx).1]
    rfl
  · rw [Function.update_of_ne hid]
    exact (h x hx).1

/-- The state after a retry that keeps the batch. -/
theorem OwnersInv.retry {cfg : StorageConfig} (hcfg : cfg.Bounds) (hcond : RetryOutlastsLease cfg)
    {s : OwnerState} (h : OwnersInv cfg s) {owner : Nat} {id : Int} {nowMs : I64}
    {row : SpoolRow} {t : SpoolTable} (hf : s.db.spool.find id = some row)
    (hleft : ¬ cfg.maxSpoolAttempts ≤ UInt32.ofNat row.attempts)
    (hclock : s.clock ≤ nowMs.1) (hclaimed : (owner, id) ∈ s.claimed)
    (hseq : t.seq = s.db.spool.seq) {hnext : 0 ≤ retryAt cfg nowMs row}
    (hrows : t.rows = retryRows s.db.spool.rows id (retryAt cfg nowMs row) hnext)
    (hb : ∃ h, Balanced { s.db with spool := t } h)
    (hw : WithinBudget cfg { s.db with spool := t }) :
    OwnersInv cfg
      { s with
        db := { s.db with spool := t }
        leases := Function.update s.leases id ((s.leases id).map (Lease.release owner))
        clock := nowMs.1 } := by
  obtain ⟨hrow, hid⟩ := SpoolTable.find_mem hf
  subst hid
  have hinv := h.rows row hrow
  refine ⟨hb, hw, ?_, ?_⟩
  · show ∀ x, t.seq < x → _
    rw [hseq]
    exact issued_after_retry h.issued
  · intro r hr
    have hr' : r ∈ t.rows := hr
    rw [hrows] at hr'
    obtain ⟨a, ha, rfl⟩ := List.mem_map.mp hr'
    by_cases hida : a.id = row.id
    · have harow : a = row := SpoolTable.eq_of_id ha hrow hida
      subst harow
      rw [if_pos rfl]
      cases hla : s.leases a.id with
      | none => exact absurd hclaimed ((hinv.unclaimed hla).2 owner)
      | some l =>
          have hi := hinv.leased l hla
          have hsince := hi.since_le
          have hpos := hi.since_pos
          have hbase := hcfg.base_pos
          have hatt : (UInt32.ofNat a.attempts).toNat = a.attempts := by
            have hsize : UInt32.size = 4294967296 := rfl
            have hmax := cfg.maxSpoolAttempts.toNat_lt
            have hle := h.within a hrow
            exact UInt32.toNat_ofNat_of_lt' (by omega)
          have hdelay : cfg.spoolRetryBaseMs.1 ≤ retryDelay cfg (UInt32.ofNat a.attempts) :=
            base_le_retryDelay hcfg (by rw [hatt]; exact hi.attempts_pos)
          refine ⟨?_, ?_, ?_⟩
          · show 1 ≤ retryAt cfg nowMs a
            exact satI64_lower (by omega) (by decide)
          · intro hnone
            have hnone' : Function.update s.leases a.id
                ((some l).map (Lease.release owner)) a.id = none := hnone
            rw [Function.update_self] at hnone'
            cases hnone'
          · intro l' hl'
            have hl : Function.update s.leases a.id
                ((some l).map (Lease.release owner)) a.id = some l' := hl'
            rw [Function.update_self] at hl
            cases hl
            refine ⟨hi.attempts_pos, ?_, ?_, ?_, ?_, ?_, ?_, ?_⟩
            · intro hone o ho
              rw [Lease.release_owner]
              exact hi.sole hone o ho
            · rw [Lease.release_since]
              exact hpos
            · rw [Lease.release_since]
              exact le_trans hsince hclock
            · rw [Lease.release_since]
              exact hi.fits
            · -- a lease that stays is another owner's, so the batch had been claimed twice
              intro hrel
              obtain ⟨-, hother⟩ := Lease.release_false hrel
              have htwo : 2 ≤ a.attempts := by
                by_contra hlt
                have hone : a.attempts = 1 := by
                  have := hi.attempts_pos
                  omega
                exact hother (hi.sole hone owner hclaimed).symm
              rw [Lease.release_since]
              exact retry_keeps_lease hcfg hcond hi (h.within a hrow) hleft htwo hclock
            · have hinflight := hcfg.inflight_pos
              have hle : 1 + cfg.spoolRetryBaseMs.1 ≤
                  nowMs.1 + retryDelay cfg (UInt32.ofNat a.attempts) := by omega
              show 1 + cfg.spoolRetryBaseMs.1 ≤ satI64 _ ∨ _ ∨ i64Max < satI64 _ + _
              rcases satI64_room hle with hlow | hsat
              · exact .inl hlow
              · right; right
                omega
            · intro htwo
              rw [Lease.release_since]
              exact hi.since_low htwo
    · rw [if_neg hida]
      exact (h.rows a ha).frame (Function.update_of_ne hida _ _) (fun o => Iff.rfl) hclock

/-- The state after a retry that drops the batch. -/
theorem OwnersInv.dropAtRetry {cfg : StorageConfig} {s : OwnerState} (h : OwnersInv cfg s)
    {owner : Nat} {id : Int} {nowMs : I64} (hclock : s.clock ≤ nowMs.1)
    {kv' : String → Option KvRow}
    (hb : ∃ h, Balanced
      { s.db with kv := kv', spool := (s.db.spool.deleteWhere fun r => r.id = id).2 } h)
    (hw : WithinBudget cfg
      { s.db with kv := kv', spool := (s.db.spool.deleteWhere fun r => r.id = id).2 }) :
    OwnersInv cfg
      { s with
        db := { s.db with kv := kv', spool := (s.db.spool.deleteWhere fun r => r.id = id).2 }
        leases := Function.update s.leases id ((s.leases id).map (Lease.release owner))
        clock := nowMs.1 } := by
  refine ⟨hb, hw, issued_after_retry h.issued, ?_⟩
  intro r hr
  have hr' : r ∈ s.db.spool.rows.filter (fun r => !decide (r.id = id)) := hr
  rw [List.mem_filter] at hr'
  have hne : r.id ≠ id := by simpa using hr'.2
  exact (h.rows r hr'.1).frame (Function.update_of_ne hne _ _) (fun o => Iff.rfl) hclock

/-- **One call**: it respects the leases and keeps the invariant. -/
theorem OwnersInv.step {cfg : StorageConfig} (hcfg : cfg.Bounds) (hcond : RetryOutlastsLease cfg)
    {s : OwnerState} (h : OwnersInv cfg s) {owner : Nat} {op : SpoolOp}
    (hperm : s.permits owner op = true) {r : Except StorageError SpoolResult} {d' : Db}
    (hstep : SpoolStep cfg s.db op r d') :
    s.respects cfg op r = true ∧ OwnersInv cfg (s.observe owner d' op r) := by
  have hb : ∃ h, Balanced d' h := by
    obtain ⟨hist, hb⟩ := h.balanced
    exact ⟨_, hb.step hstep⟩
  have hw := h.within.step hstep
  cases hstep with
  | failed op e =>
      have hsame : ∀ clock, s.clock ≤ clock → OwnersInv cfg { s with clock := clock } :=
        fun clock hk => h.frame hb hw rfl (fun r hr => hr) rfl rfl hk
      cases op with
      | claim nowMs => exact ⟨rfl, hsame _ (by simpa [OwnerState.permits] using hperm)⟩
      | recordRetry id nowMs =>
          have hk : s.clock ≤ nowMs.1 ∧ (owner, id) ∈ s.claimed := by
            simpa [OwnerState.permits] using hperm
          exact ⟨rfl, hsame _ hk.1⟩
      | enqueue | commit | peek | markDelivered | dropBatch | prune => exact ⟨rfl, h⟩
  | already | peeked | unknownDelivered | unknownDropped => exact ⟨rfl, h⟩
  | enqueued device payload nowMs id t hins => exact ⟨rfl, h.insert hb hw hins⟩
  | committed c id d' heffect => exact ⟨rfl, h.insert hb hw heffect.spool⟩
  | idle nowMs =>
      have hclock : s.clock ≤ nowMs.1 := by simpa [OwnerState.permits] using hperm
      exact ⟨rfl, h.frame hb hw rfl (fun r hr => hr) rfl rfl hclock⟩
  | leased nowMs row t hnext hsel hfit hseq hrows =>
      have hclock : s.clock ≤ nowMs.1 := by simpa [OwnerState.permits] using hperm
      exact ⟨h.claim_respects hsel hfit, h.lease hcfg hsel hfit hclock hseq hrows hb hw⟩
  | delivered id wallMs row kv' hf hkv =>
      exact ⟨rfl, h.frame hb hw rfl (List.filter_sublist).subset rfl rfl (le_refl _)⟩
  | dropped id wallMs row kv' hf hkv =>
      exact ⟨rfl, h.frame hb hw rfl (List.filter_sublist).subset rfl rfl (le_refl _)⟩
  | exhausted id nowMs row kv' hf hatt hkv =>
      have hk : s.clock ≤ nowMs.1 ∧ (owner, id) ∈ s.claimed := by
        simpa [OwnerState.permits] using hperm
      exact ⟨rfl, h.dropAtRetry hk.1 hb hw⟩
  | retried id nowMs row t hnext hf hatt hseq hrows =>
      have hk : s.clock ≤ nowMs.1 ∧ (owner, id) ∈ s.claimed := by
        simpa [OwnerState.permits] using hperm
      exact ⟨rfl, h.retry hcfg hcond hf hatt hk.1 hk.2 hseq hrows hb hw⟩
  | pruned nowMs =>
      exact ⟨rfl, h.frame hb hw rfl (pruned_sublist cfg nowMs s.db.spool).subset rfl rfl
        (le_refl _)⟩

/-- **One run**: every claim respects the leases. -/
theorem OwnersInv.exclusive {cfg : ValidConfig} (hcond : RetryOutlastsLease cfg.1)
    {s : OwnerState} (h : OwnersInv cfg.1 s) (calls : List OwnedCall)
    (hbehaves : behaves cfg.1 s calls = true) : Storage.exclusive cfg.1 s calls = true := by
  induction calls generalizing s with
  | nil => rfl
  | cons c cs ih =>
      unfold behaves at hbehaves
      rw [Bool.and_eq_true] at hbehaves
      obtain ⟨hist, hbal⟩ := h.balanced
      obtain ⟨hrespects, hnext⟩ :=
        h.step cfg.bounds hcond hbehaves.1 (c.call.step cfg hbal.ready)
      unfold Storage.exclusive
      rw [Bool.and_eq_true]
      exact ⟨hrespects, ih hnext hbehaves.2⟩

/-! ## The run that ends a lease early -/

/-- A claim of the only batch. -/
theorem claim_single (cfg : ValidConfig) (nowMs : I64) {d : Db} {r : SpoolRow}
    (hrows : d.spool.rows = [r]) (hdue : r.nextAttemptAtMs ≤ nowMs.1)
    (hleft : r.attempts < cfg.1.maxSpoolAttempts.toNat)
    (hfit : nowMs.1 + cfg.1.spoolInflightMs.1 ≤ i64Max) :
    ∃ d' r' batch, SpoolCall.exec cfg.1 ⟨.claim nowMs, []⟩ d = (.ok (.claimed (some batch)), d') ∧
      batch.id = r.id ∧ d'.spool.rows = [r'] ∧ r'.id = r.id ∧ r'.attempts = r.attempts + 1 ∧
      r'.nextAttemptAtMs = nowMs.1 + cfg.1.spoolInflightMs.1 := by
  have hsel : d.spool.selectReady nowMs.1 cfg.1.maxSpoolAttempts = some r := by
    simp [SpoolTable.selectReady, hrows, SpoolRow.ready, hdue, hleft]
  obtain ⟨t, hnext, hq, -, ht⟩ := quiet_claimOldest_some hsel cfg.bounds.inflight_pos hfit
  have hexec := SpoolCall.exec_quiet cfg.1 (.claim nowMs) d
  rw [SpoolOp.program, quiet_map, hq] at hexec
  have hrow : t.rows = [r.reschedule 1 (nowMs.1 + cfg.1.spoolInflightMs.1) hnext] := by
    rw [ht, hrows]
    simp [leaseRows]
  exact ⟨_, _, _, hexec, rfl, hrow, rfl, rfl, rfl⟩

/-- A retry of the only batch. -/
theorem retry_single (cfg : ValidConfig) (nowMs : I64) {d : Db} {r : SpoolRow}
    (hrows : d.spool.rows = [r]) (hleft : ¬ cfg.1.maxSpoolAttempts ≤ UInt32.ofNat r.attempts)
    (hnext : 0 ≤ retryAt cfg.1 nowMs r) :
    ∃ d' r' outcome, SpoolCall.exec cfg.1 ⟨.recordRetry r.id nowMs, []⟩ d =
        (.ok (.retry outcome), d') ∧
      d'.spool.rows = [r'] ∧ r'.id = r.id ∧ r'.attempts = r.attempts ∧
      r'.nextAttemptAtMs = retryAt cfg.1 nowMs r := by
  have hf : d.spool.find r.id = some r := by
    simp [SpoolTable.find, hrows]
  obtain ⟨t, hq, -, ht⟩ := quiet_recordRetry_retried hf hleft hnext
  have hexec := SpoolCall.exec_quiet cfg.1 (.recordRetry r.id nowMs) d
  rw [SpoolOp.program, quiet_map, hq] at hexec
  have hrow : t.rows = [r.reschedule 0 (retryAt cfg.1 nowMs r) hnext] := by
    rw [ht, hrows]
    simp [retryRows]
  exact ⟨_, _, _, hexec, hrow, rfl, rfl, rfl⟩

/-- The first batch of an empty database. -/
theorem enqueue_first (cfg : ValidConfig) :
    ∃ d r, SpoolCall.exec cfg.1 ⟨.enqueue "mppt" [1] (ms 1), []⟩ Db.empty =
        (.ok (.enqueued 1), d) ∧
      d.spool.rows = [r] ∧ r.id = 1 ∧ r.attempts = 0 ∧ r.nextAttemptAtMs = 1 := by
  have hq := quiet_enqueue "mppt" [1] (ms 1) Db.empty
  rw [if_neg (by decide), if_neg (by decide), if_neg (by decide)] at hq
  have hcreated : 0 < (ms 1).1 := by decide
  have hpayload : ([1] : List UInt8) ≠ [] := by decide
  rcases Db.empty.spool.insert_cases "mppt" hcreated hpayload with ⟨hfull, -⟩ | ⟨id, t, hins⟩
  · exact absurd hfull (by decide)
  · obtain ⟨rfl, -, row, hrows, hid, -, -, -, hzero, hnext⟩ := SpoolTable.insert_ok hins
    rw [hins] at hq
    refine ⟨{ Db.empty with spool := t }, row, ?_, hrows, hid, hzero, hnext⟩
    rw [SpoolCall.exec_quiet, SpoolOp.program, quiet_map, hq]
    rfl

/-- Owner 0 claims the batch and releases it; owner 1 claims it; owner 0 records another retry;
owner 2 claims the batch at the deadline which that retry has set. -/
def lateRetry (t₁ t₂ : I64) : List OwnedCall :=
  [⟨0, ⟨.enqueue "mppt" [1] (ms 1), []⟩⟩, ⟨0, ⟨.claim (ms 1), []⟩⟩,
    ⟨0, ⟨.recordRetry 1 (ms 1), []⟩⟩, ⟨1, ⟨.claim t₁, []⟩⟩, ⟨0, ⟨.recordRetry 1 t₁, []⟩⟩,
    ⟨2, ⟨.claim t₂, []⟩⟩]

/-- What the observer makes of the six results. -/
theorem lateRetry_observed {cfg : StorageConfig} {t₁ t₂ : I64} {d₁ d₂ d₃ d₄ d₅ d₆ : Db}
    {b₂ b₄ b₆ : SpoolBatch} {o₃ o₅ : RetryOutcome}
    (h₁ : SpoolCall.exec cfg ⟨.enqueue "mppt" [1] (ms 1), []⟩ Db.empty = (.ok (.enqueued 1), d₁))
    (h₂ : SpoolCall.exec cfg ⟨.claim (ms 1), []⟩ d₁ = (.ok (.claimed (some b₂)), d₂))
    (h₃ : SpoolCall.exec cfg ⟨.recordRetry 1 (ms 1), []⟩ d₂ = (.ok (.retry o₃), d₃))
    (h₄ : SpoolCall.exec cfg ⟨.claim t₁, []⟩ d₃ = (.ok (.claimed (some b₄)), d₄))
    (h₅ : SpoolCall.exec cfg ⟨.recordRetry 1 t₁, []⟩ d₄ = (.ok (.retry o₅), d₅))
    (h₆ : SpoolCall.exec cfg ⟨.claim t₂, []⟩ d₅ = (.ok (.claimed (some b₆)), d₆))
    (hb₂ : b₂.id = 1) (hb₄ : b₄.id = 1) (hb₆ : b₆.id = 1) (ht₁ : 1 ≤ t₁.1) (ht₂ : t₁.1 ≤ t₂.1)
    (hearly : t₂.1 < t₁.1 + cfg.spoolInflightMs.1) :
    behaves cfg .start (lateRetry t₁ t₂) = true ∧
      exclusive cfg .start (lateRetry t₁ t₂) = false := by
  have hms : (ms 1).1 = 1 := rfl
  have hmin : i64Min ≤ 1 := by decide
  constructor
  · simp [lateRetry, behaves, OwnerState.next, OwnerState.start, OwnerState.observe,
      OwnerState.permits, h₁, h₂, h₃, h₄, h₅, hb₂, hb₄, hms, hmin, ht₁, ht₂]
  · simp [lateRetry, exclusive, OwnerState.next, OwnerState.start, OwnerState.observe,
      OwnerState.respects, Lease.release, h₁, h₂, h₃, h₄, h₅, h₆, hb₂, hb₄, hb₆, hearly]

/-- Where a late retry can end a lease, it does. -/
theorem lateRetry_breaks (cfg : ValidConfig) (hcond : ¬ RetryOutlastsLease cfg.1) :
    ∃ calls, behaves cfg.1 .start calls = true ∧ exclusive cfg.1 .start calls = false := by
  simp only [RetryOutlastsLease, not_or, not_le, not_lt] at hcond
  obtain ⟨hmax, hshort, hroom⟩ := hcond
  have hb := cfg.bounds
  have hbase := hb.base_pos
  have hinflight := hb.inflight_pos
  have hdelay : cfg.1.spoolRetryBaseMs.1 ≤ retryDelay cfg.1 2 := base_le_retryDelay hb (by decide)
  have hin : ∀ x, 1 ≤ x → x ≤ 1 + cfg.1.spoolRetryBaseMs.1 + retryDelay cfg.1 2 → InI64 x := by
    intro x hx hle
    simp only [InI64, i64Min, i64Max] at hroom ⊢
    omega
  -- the times of the second and the third claim
  obtain ⟨t₁, ht₁⟩ : ∃ t : I64, t.1 = 1 + cfg.1.spoolRetryBaseMs.1 :=
    ⟨⟨_, hin _ (by omega) (by omega)⟩, rfl⟩
  obtain ⟨t₂, ht₂⟩ : ∃ t : I64, t.1 = 1 + cfg.1.spoolRetryBaseMs.1 + retryDelay cfg.1 2 :=
    ⟨⟨_, hin _ (by omega) (by omega)⟩, rfl⟩
  have hbudget : ∀ n : Nat, n ≤ 2 → ¬ cfg.1.maxSpoolAttempts ≤ UInt32.ofNat n := by
    intro n hn hle
    rw [budget_le_iff (by omega)] at hle
    omega
  have hone : (ms 1).1 = 1 := rfl
  obtain ⟨d₁, r₁, h₁, hrows₁, hid₁, hatt₁, hnext₁⟩ := enqueue_first cfg
  obtain ⟨d₂, r₂, b₂, h₂, hb₂, hrows₂, hid₂, hatt₂, -⟩ :=
    claim_single cfg (ms 1) hrows₁ (by omega) (by omega) (by omega)
  have hretry₂ : retryAt cfg.1 (ms 1) r₂ = 1 + cfg.1.spoolRetryBaseMs.1 := by
    unfold retryAt
    rw [hatt₂, hatt₁]
    show satI64 (1 + retryDelay cfg.1 1) = _
    rw [retryDelay_one hb]
    exact satI64_of_inI64 (hin _ (by omega) (by omega))
  obtain ⟨d₃, r₃, o₃, h₃, hrows₃, hid₃, hatt₃, hnext₃⟩ :=
    retry_single cfg (ms 1) hrows₂ (hbudget _ (by omega)) (by omega)
  obtain ⟨d₄, r₄, b₄, h₄, hb₄, hrows₄, hid₄, hatt₄, -⟩ :=
    claim_single cfg t₁ hrows₃ (by omega) (by omega) (by omega)
  have hretry₄ : retryAt cfg.1 t₁ r₄ = 1 + cfg.1.spoolRetryBaseMs.1 + retryDelay cfg.1 2 := by
    unfold retryAt
    rw [hatt₄, hatt₃, hatt₂, hatt₁, ht₁]
    show satI64 (1 + cfg.1.spoolRetryBaseMs.1 + retryDelay cfg.1 2) = _
    exact satI64_of_inI64 (hin _ (by omega) (le_refl _))
  obtain ⟨d₅, r₅, o₅, h₅, hrows₅, hid₅, hatt₅, hnext₅⟩ :=
    retry_single cfg t₁ hrows₄ (hbudget _ (by omega)) (by omega)
  obtain ⟨d₆, r₆, b₆, h₆, hb₆, -⟩ :=
    claim_single cfg t₂ hrows₅ (by omega) (by omega) (by omega)
  rw [hid₂, hid₁] at h₃
  rw [hid₄, hid₃, hid₂, hid₁] at h₅
  exact ⟨lateRetry t₁ t₂, lateRetry_observed h₁ h₂ h₃ h₄ h₅ h₆ (by omega) (by omega) (by omega)
    (by omega) (by omega) (by omega)⟩

/-- **Exclusive ownership**: every claim of every permitted run respects the leases exactly when
the configuration lets no late retry end a lease. -/
theorem exclusive_ownership_iff (cfg : ValidConfig) :
    (∀ calls, behaves cfg.1 .start calls = true → exclusive cfg.1 .start calls = true) ↔
      RetryOutlastsLease cfg.1 := by
  constructor
  · intro h
    by_contra hcond
    obtain ⟨calls, hbehaves, hbroken⟩ := lateRetry_breaks cfg hcond
    rw [h calls hbehaves] at hbroken
    cases hbroken
  · intro hcond calls hbehaves
    exact (OwnersInv.start cfg.1).exclusive hcond calls hbehaves

/-- The configuration of the collector: a claim lasts as long as `spool_claim_ttl`, two minutes. -/
def collectorConfig : StorageConfig :=
  { StorageConfig.conservative with spoolInflightMs := ms 120000 }

/-- With it, the batch that owner 1 claimed at 30001 is returned to owner 2 at 90001. -/
theorem lateRetry_collector :
    collectorConfig.validate = .ok () ∧
      behaves collectorConfig .start (lateRetry (ms 30001) (ms 90001)) = true ∧
      exclusive collectorConfig .start (lateRetry (ms 30001) (ms 90001)) = false := by
  decide

end VeSmart.Storage
