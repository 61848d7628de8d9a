import VeSmart.Service.ClaimLog
import VeSmart.Storage.Attempts
import VeSmart.Collector.Cycles

set_option autoImplicit false

/-! # A drain ends

`drain_spool` has no counter: it goes on until the spool hands out nothing. What ends it is the
attempt budget of the spool, since every pass that goes on has used up one attempt of a batch,
whatever the clock, the network and the bookkeeping calls do (`drain_bounded`). -/

namespace VeSmart.Collector

open VeSmart.Lib VeSmart.Domain VeSmart.Service
open VeSmart.Storage (Db SpoolRow Shortens)

section

variable {ω ε : Type} {s : SqliteStorage} {q : List ((Int × List UInt8) × Nat)}

/-- The attempts that the batches of the spool have left. -/
def SqliteStorage.attemptsLeft (s : SqliteStorage) (d : Db) : Nat :=
  (d.spool.rows.map fun r => s.config.1.maxSpoolAttempts.toNat - r.attempts).sum

/-- The entry of the queue that a claim names. -/
def claimEntry (claim : ClaimedBatch) : Int × List UInt8 := (claim.id.toNat, claim.payload)

theorem attemptsLeft_queue (s : SqliteStorage) (d : Db) :
    Lib.attemptsLeft s.config.1.maxSpoolAttempts.toNat d.spool.queue = s.attemptsLeft d := by
  unfold Lib.attemptsLeft SqliteStorage.attemptsLeft Storage.SpoolTable.queue
  rw [List.map_map]
  rfl

/-! ## The calls of the adapter on the queue -/

/-- A batch that could be converted is named by its id. -/
theorem claimedBatch_inv {batch : Storage.SpoolBatch} {claim : ClaimedBatch}
    (h : claimedBatch batch = .ok claim) : 0 ≤ batch.id ∧
      claimEntry claim = (batch.id, batch.payload) := by
  unfold claimedBatch at h
  split at h
  · rename_i hrange
    simp only [u64Max] at hrange
    cases h
    have hid : ((UInt64.ofNat batch.id.toNat).toNat : Int) = batch.id := by
      rw [UInt64.toNat_ofNat_of_lt' (by simp only [UInt64.size]; omega)]
      omega
    unfold claimEntry
    rw [hid]
    exact ⟨hrange.1, rfl⟩
  · cases h

/-- A claim that hands out a batch has passed the conversions and the claim of the storage crate. -/
theorem spoolClaimNext_inv {ttl : Duration} {now : SystemTime} {w w' : SqliteWorld}
    {claim : ClaimedBatch} (h : exec (spoolClaimNext s ttl now) w = (.ok (some claim), w')) :
    ∃ nowMs batch, timeToMs now = .ok nowMs ∧
      durationToMs ttl = .ok s.config.1.spoolInflightMs.1 ∧ claimedBatch batch = .ok claim ∧
      (exec (Storage.claimOldest s.config.1 nowMs) ⟨w.db, none, w.call.faults⟩).1 =
        .ok (some batch) ∧
      (exec (Storage.claimOldest s.config.1 nowMs) ⟨w.db, none, w.call.faults⟩).2.committed =
        w'.db := by
  obtain ⟨nowMs, w₁, hnow, h⟩ := exec_bind_inv h
  obtain ⟨ttlMs, w₂, httl, h⟩ := exec_bind_inv h
  -- the conversions do not touch the database
  obtain rfl : w = w₁ := congrArg Prod.snd hnow
  obtain rfl : w = w₂ := congrArg Prod.snd httl
  by_cases hsame : ttlMs ≠ s.config.1.spoolInflightMs.1
  · rw [if_pos hsame] at h
    cases h
  rw [if_neg hsame] at h
  obtain ⟨batch, w₃, hclaim, h⟩ := exec_bind_inv h
  obtain rfl : w₃ = w' := congrArg Prod.snd h
  have hdb : (exec (Storage.claimOldest s.config.1 nowMs) ⟨w.db, none, w.call.faults⟩).2.committed =
      w₃.db := congrArg (fun r => r.2.db) hclaim
  have hduration : durationToMs ttl = .ok ttlMs := congrArg Prod.fst httl
  cases batch with
  | none => cases h
  | some batch =>
      have hconverted : claimedBatch batch = .ok claim := by
        have hsome : Except.map some (claimedBatch batch) = .ok (some claim) :=
          congrArg Prod.fst h
        cases hbatch : claimedBatch batch with
        | error e => rw [hbatch] at hsome; cases hsome
        | ok claim' => rw [hbatch] at hsome; cases hsome; rfl
      exact ⟨nowMs, batch, congrArg Prod.fst hnow, by rw [hduration, not_not.mp hsame], hconverted,
        mapError_ok (congrArg Prod.fst hclaim), hdb⟩

theorem spoolClaimNext_attempts {ttl : Duration} {now : SystemTime} {w w' : SqliteWorld}
    {claim : ClaimedBatch} (h : exec (spoolClaimNext s ttl now) w = (.ok (some claim), w')) :
    ∃ row ∈ w.db.spool.rows, claimEntry claim = (row.id, row.payload) ∧
      row.attempts < s.config.1.maxSpoolAttempts.toNat ∧
      w'.db.spool.queue = attempted (claimEntry claim) w.db.spool.queue := by
  obtain ⟨nowMs, batch, -, -, hconverted, hbatch, hdb⟩ := spoolClaimNext_inv h
  obtain ⟨row, hrow, hid, hpayload, hleft, hqueue⟩ :=
    Storage.claimOldest_attempts s.config.bounds nowMs w.db w.call.faults hbatch
  have hentry : claimEntry claim = (row.id, row.payload) := by
    rw [(claimedBatch_inv hconverted).2, hid, hpayload]
  exact ⟨row, hrow, hentry, hleft, by rw [← hdb, hqueue, hentry]⟩

theorem claimEnds_shortens {claim : ClaimedBatch} {w w' : SqliteWorld} {status : DeliveryStatus}
    (h : ClaimEnds s.port claim w status w') : w'.db.spool.queue.Sublist w.db.spool.queue := by
  have hwork : ∀ {α : Type} {x : Call α}, Keeps (Shortens w.db.spool.queue) x →
      (exec x w).2.db.spool.queue.Sublist w.db.spool.queue :=
    fun hx => hx.exec (P := Shortens w.db.spool.queue) (List.Sublist.refl _)
  cases h with
  | delivered | incomplete =>
      apply hwork
      apply Keeps.bind (Keeps.fromExcept _); intro id
      apply Keeps.bind Keeps.wallClock; intro wallMs
      exact Keeps.bind (Keeps.blocking (Storage.removeBatch_shortens _ _ _)) fun _ =>
        Keeps.fromExcept _
  | retried now | spent now | unretried now =>
      apply hwork
      apply Keeps.bind (Keeps.fromExcept _); intro id
      apply Keeps.bind (Keeps.fromExcept _); intro nowMs
      apply Keeps.bind (Keeps.blocking (Storage.recordRetry_shortens _ _ _)); intro outcome
      cases outcome <;> exact Keeps.pure _
  | dropped | undropped =>
      apply hwork
      apply Keeps.bind (Keeps.fromExcept _); intro id
      apply Keeps.bind Keeps.wallClock; intro wallMs
      exact Keeps.bind (Keeps.blocking (Storage.removeBatch_shortens _ _ _)) fun _ =>
        Keeps.fromExcept _

/-! ## The drain -/

variable {k : Service.Collector ω SqliteWorld}

/-- A logged drain over the SQLite spool from `c`: it ends in `c'` with the same result, whatever
number of passes above the attempts left it is given, and its claims are attempts of the queue. -/
structure Drained (ε : Type) (k : Service.Collector ω SqliteWorld) (s : SqliteStorage)
    (delivered : UInt32) (c c' : CycleContext ω (SqliteWorld × List ClaimedBatch))
    (result : DrainResult) (claims : List ClaimedBatch) : Prop where
  ends : ∀ fuel, s.attemptsLeft c.store.1.db < fuel →
    exec (drainSpool k.logged fuel delivered : Cycle ω _ ε _) c = (.ok (some result), c')
  logged : c'.claims = c.claims ++ claims
  attempts : Attempts s.config.1.maxSpoolAttempts.toNat c.store.1.db.spool.queue
    (claims.map claimEntry)
  deliveries : c'.deliveries = c.deliveries ++ claims.map ClaimedBatch.payload

/-- The step of the drain: a pass that claims a batch has made a permitted attempt of it. -/
theorem pass_attempt (hstorage : k.ports.storage = s.port)
    {c c' : CycleContext ω (SqliteWorld × List ClaimedBatch)} {next : PassEnd}
    {claims : List ClaimedBatch} (h : Pass k.logged c next claims c') :
    c'.claims = c.claims ++ claims ∧
      c'.deliveries = c.deliveries ++ claims.map ClaimedBatch.payload ∧
      ((∃ result, next = .ended result ∧ claims = []) ∨
        ∃ claim row, claims = [claim] ∧ row ∈ c.store.1.db.spool.rows ∧
          claimEntry claim = (row.id, row.payload) ∧
          row.attempts < s.config.1.maxSpoolAttempts.toNat ∧
          c'.store.1.db.spool.queue.Sublist
            (attempted (claimEntry claim) c.store.1.db.spool.queue)) := by
  have hport : k.logged.ports.storage = s.port.logged := congrArg StoragePort.logged hstorage
  cases h with
  | stopped hstore hdeliveries =>
      refine ⟨?_, by simpa using hdeliveries, .inl ⟨_, rfl, rfl⟩⟩
      unfold CycleContext.claims
      rw [hstore, List.append_nil]
  | @unclaimed _ result now hclaim hstore hdeliveries =>
      refine ⟨?_, by simpa using hdeliveries, .inl ⟨_, rfl, rfl⟩⟩
      unfold CycleContext.claims
      rw [hstore]
      exact congrArg (c.store.2 ++ ·) hclaim
  | @delivered _ claim now next status hclaim hends hdeliveries =>
      rw [hport] at hclaim hends
      obtain ⟨hsettled, hlog⟩ := hends.unlogged
      have hexec : exec (spoolClaimNext s k.logged.config.spoolClaimTtl now) c.store.1 =
          (.ok (some claim),
            (exec (spoolClaimNext s k.logged.config.spoolClaimTtl now) c.store.1).2) :=
        Prod.ext hclaim rfl
      obtain ⟨row, hrow, hentry, hleft, hqueue⟩ := spoolClaimNext_attempts hexec
      refine ⟨?_, hdeliveries, .inr ⟨claim, row, rfl, hrow, hentry, hleft, ?_⟩⟩
      · unfold CycleContext.claims
        rw [hlog]
        exact congrArg (fun r => c.store.2 ++ claimedNow r) hclaim
      · rw [← hqueue]
        exact claimEnds_shortens hsettled

/-- **The run of the drain**, by induction on the attempts left. -/
theorem drain_runs (hstorage : k.ports.storage = s.port) (delivered : UInt32)
    (c : CycleContext ω (SqliteWorld × List ClaimedBatch)) :
    ∃ c' result claims, Drained ε k s delivered c c' result claims := by
  induction hleft : s.attemptsLeft c.store.1.db using Nat.strong_induction_on
    generalizing c delivered with
  | _ left ih =>
  subst hleft
  obtain ⟨next, claims, c₁, hpass, hrest⟩ := drainSpool_pass (ε := ε) k.logged delivered c
  obtain ⟨hclaims, hdeliveries, hattempt⟩ := pass_attempt hstorage hpass
  -- one pass is one unit of fuel
  have hpassed : ∀ fuel, s.attemptsLeft c.store.1.db < fuel →
      exec (drainSpool k.logged fuel delivered : Cycle ω _ ε _) c =
        exec (next.rest k.logged (fuel - 1)) c₁ := by
    intro fuel hfuel
    obtain ⟨n, rfl⟩ : ∃ n, fuel = n + 1 := ⟨fuel - 1, by omega⟩
    exact hrest n
  rcases hattempt with ⟨result, rfl, rfl⟩ | ⟨claim, row, rfl, hrow, hentry, hpermitted, hqueue⟩
  · exact ⟨c₁, result, [], hpassed, hclaims, .done _, hdeliveries⟩
  have hmem : (claimEntry claim, row.attempts) ∈ c.store.1.db.spool.queue := by
    rw [hentry]
    exact List.mem_map.mpr ⟨row, hrow, rfl⟩
  cases next with
  | ended result =>
      exact ⟨c₁, result, [claim], hpassed, hclaims, .next hmem hpermitted hqueue (.done _),
        hdeliveries⟩
  | again n =>
      have hless : s.attemptsLeft c₁.store.1.db + 1 ≤ s.attemptsLeft c.store.1.db := by
        rw [← attemptsLeft_queue, ← attemptsLeft_queue]
        calc Lib.attemptsLeft s.config.1.maxSpoolAttempts.toNat c₁.store.1.db.spool.queue + 1
            ≤ Lib.attemptsLeft s.config.1.maxSpoolAttempts.toNat
                (attempted (claimEntry claim) c.store.1.db.spool.queue) + 1 :=
              Nat.succ_le_succ (attemptsLeft_sublist hqueue)
          _ ≤ Lib.attemptsLeft s.config.1.maxSpoolAttempts.toNat c.store.1.db.spool.queue :=
              attemptsLeft_attempted hmem hpermitted
      obtain ⟨c', result, claims, hdrained⟩ := ih _ (by omega) n c₁ rfl
      refine ⟨c', result, claim :: claims, fun fuel hfuel => ?_, ?_,
        .next hmem hpermitted hqueue hdrained.attempts, ?_⟩
      · rw [hpassed fuel hfuel]
        exact hdrained.ends (fuel - 1) (by omega)
      · rw [hdrained.logged, hclaims, List.append_assoc]
        rfl
      · rw [hdrained.deliveries, hdeliveries, List.append_assoc]
        rfl

/-- **A drain ends within the attempt budget of the spool.** With any spool, clock, network and
failing bookkeeping calls: however many passes above the attempts left the drain is given, it ends
with the same result; it claims and delivers no more batches than there are attempts left, and none
more often than its own attempts left. -/
theorem drain_bounded (k : Service.Collector ω SqliteWorld) (s : SqliteStorage)
    (hstorage : k.ports.storage = s.port) (delivered : UInt32) (c : CycleContext ω SqliteWorld) :
    ∃ c' result, (∀ fuel, s.attemptsLeft c.store.db < fuel →
        exec (drainSpool k.logged fuel delivered : Cycle ω _ ε _) (c.withLog []) =
          (.ok (some result), c') ∧
        exec (drainSpool k fuel delivered : Cycle ω _ ε _) c = (.ok (some result), c'.unlogged)) ∧
      c'.unlogged.deliveries = c.deliveries ++ c'.claims.map ClaimedBatch.payload ∧
      c'.claims.length ≤ s.attemptsLeft c.store.db ∧
      (∀ claim ∈ c'.claims, ∃ row ∈ c.store.db.spool.rows, (claim.id.toNat : Int) = row.id ∧
        claim.payload = row.payload) ∧
      ∀ row ∈ c.store.db.spool.rows,
        c'.claims.countP (fun claim => (claim.id.toNat : Int) = row.id) ≤
          s.config.1.maxSpoolAttempts.toNat - row.attempts := by
  obtain ⟨c', result, claims, h⟩ := drain_runs (ε := ε) hstorage delivered (c.withLog [])
  obtain rfl : claims = c'.claims := h.logged.symm
  have hqueue : Attempts s.config.1.maxSpoolAttempts.toNat c.store.db.spool.queue
      (c'.claims.map claimEntry) := h.attempts
  have hrows : ∀ claim ∈ c'.claims, ∃ row ∈ c.store.db.spool.rows, claimEntry claim =
      (row.id, row.payload) := by
    intro claim hclaim
    obtain ⟨n, hn⟩ := hqueue.mem _ (List.mem_map_of_mem hclaim)
    obtain ⟨row, hrow, heq⟩ := List.mem_map.mp hn
    exact ⟨row, hrow, (congrArg Prod.fst heq).symm⟩
  refine ⟨c', result, fun fuel hfuel => ⟨h.ends fuel hfuel, ?_⟩, ?_, ?_, ?_, ?_⟩
  · have herased := drainSpool_unlogs (ε := ε) (k := k) fuel delivered (c.withLog [])
    rw [CycleContext.unlogged_withLog, h.ends fuel hfuel] at herased
    exact herased
  · have hstart : (c.withLog []).deliveries = c.deliveries := by
      rw [← deliveries_unlogged, CycleContext.unlogged_withLog]
    rw [deliveries_unlogged, h.deliveries, hstart]
  · rw [← attemptsLeft_queue, ← List.length_map (f := claimEntry)]
    exact hqueue.length_le
  · intro claim hclaim
    obtain ⟨row, hrow, hentry⟩ := hrows claim hclaim
    exact ⟨row, hrow, congrArg Prod.fst hentry, congrArg Prod.snd hentry⟩
  · intro row hrow
    have hcount : c'.claims.countP (fun claim => (claim.id.toNat : Int) = row.id) =
        (c'.claims.map claimEntry).countP fun entry => entry = (row.id, row.payload) := by
      rw [List.countP_map]
      apply List.countP_congr
      intro claim hclaim
      -- a claim with the id of the row has its payload
      obtain ⟨row', hrow', hentry⟩ := hrows claim hclaim
      have hid : (claim.id.toNat : Int) = row'.id := congrArg Prod.fst hentry
      have hiff : (claim.id.toNat : Int) = row.id ↔ claimEntry claim = (row.id, row.payload) := by
        constructor
        · intro hsame
          rw [hentry, Storage.SpoolTable.eq_of_id hrow' hrow (hid.symm.trans hsame)]
        · exact congrArg Prod.fst
      simpa using hiff
    rw [hcount, ← Storage.attemptsLeftOf_row hrow]
    exact hqueue.count_le _

end

/-! ## A network that is down and a clock that runs away -/

/-- The scripted collector without a network. The clock jumps by eleven days at every reading, so
that a batch is due again as soon as it has been put back. -/
def stormy : Service.Collector Sample SqliteWorld :=
  { scripted with ports := { scripted.ports with
      deliver := fun _ env => (.error .timeout, env)
      now := fun env =>
        (env.observedAt, { env with observedAt := ⟨env.observedAt.1 + 1000000000000000⟩ }) } }

/-- A call without faults. -/
def stormyCall : CallEnv := ⟨[], ⟨1300, by decide⟩⟩

/-- A spool with one batch. -/
def stormyWorld : SqliteWorld where
  db := (quiet (Storage.enqueue "solar" [1, 2] stormyCall.wallMs) Db.empty).2
  calls := List.replicate 20 stormyCall

/-- The batch is claimed over and over again, until its five attempts are used up. -/
theorem stormy_bounded : ∃ c' result, exec (drainSpool stormy 6 0 : Cycle _ _ Unit _)
      (.new (sunny 2000000000) stormyWorld) = (.ok (some result), c') ∧
    c'.deliveries.length = 5 ∧ c'.store.db.spool.rows = [] := by
  obtain ⟨c', result, hends, -⟩ := drain_bounded (ε := Unit) stormy scriptedStorage rfl 0
    (.new (sunny 2000000000) stormyWorld)
  have hrun := (hends 6 (by decide +kernel)).2
  have hend : (exec (drainSpool stormy 6 0 : Cycle _ _ Unit _)
      (.new (sunny 2000000000) stormyWorld)).2 = c'.unlogged := congrArg Prod.snd hrun
  refine ⟨c'.unlogged, result, hrun, ?_, ?_⟩
  · rw [← hend]
    decide +kernel
  · rw [← hend]
    decide +kernel

end VeSmart.Collector
