import VeSmart.Collector.Memory

set_option autoImplicit false

/-! # The counters of the loop

A failed cycle is counted in three places: by the class of its error, in `cycles_total` and in
`consecutive_failures`. `Counted` says that all of them are read off the history of the cycles;
`failures_counted` proves it for every moment between two cycles. The counters are 64-bit words:
one that stands at its maximum wraps to zero, and nothing else lowers it. -/

namespace VeSmart.Collector

open VeSmart.Lib VeSmart.Domain VeSmart.Service

/-! ## Classes of failures -/

/-- The counters of `record_failure_health`. -/
inductive FailureClass where
  | discover
  | connect
  | session
  | protocol
  | dropped
  deriving DecidableEq

def FailureClass.counter : FailureClass → HealthSnapshot → UInt64
  | .discover => HealthSnapshot.bleDiscoverFailuresTotal
  | .connect => HealthSnapshot.bleConnectFailuresTotal
  | .session => HealthSnapshot.bleSessionFailuresTotal
  | .protocol => HealthSnapshot.protocolErrorsTotal
  | .dropped => HealthSnapshot.samplesDroppedTotal

/-- The class of an error; an internal failure of the state machine has none. -/
def failureClass? : CycleError → Option FailureClass
  | .discover _ => some .discover
  | .connect _ => some .connect
  | .negotiate _ => some .session
  | .subscribe _ => some .session
  | .request _ => some .session
  | .disconnect _ => some .session
  | .plan _ => some .protocol
  | .parse _ => some .protocol
  | .persist _ => some .dropped
  | .render _ => some .dropped
  | .state _ => none

section

variable {ω σ : Type}

/-! ## The history of the cycles -/

def failedCycle (rec : CycleRecord ω σ) : Bool := rec.outcome.isFailure

def failedIn (cls : FailureClass) (rec : CycleRecord ω σ) : Bool :=
  match rec.outcome with
  | .failure _ e => failureClass? e = some cls
  | _ => false

/-- The length of the current streak of failed cycles. -/
def failureStreak (records : List (CycleRecord ω σ)) : Nat :=
  (records.reverse.takeWhile failedCycle).length

/-- The counters are those of the history. -/
structure CountedHealth (records : List (CycleRecord ω σ)) (h : HealthSnapshot) : Prop where
  total : h.cyclesTotal = .ofNat records.length
  succeeded : h.cyclesSucceeded = .ofNat (records.countP fun rec => !failedCycle rec)
  classes : ∀ cls : FailureClass, cls.counter h = .ofNat (records.countP (failedIn cls))
  streak : h.consecutiveFailures = .ofNat (min 4294967295 (failureStreak records))

/-- The counters and the loop's own counts are those of the history. -/
structure Counted (r : Runner ω σ) : Prop where
  health : CountedHealth r.records r.ctx.health
  cycles : r.cycles = .ofNat r.records.length
  cyclesSucceeded : r.cyclesSucceeded = .ofNat (r.records.countP fun rec => !failedCycle rec)

/-! ## Changes of the counters -/

/-- The counters that are only ever added to. -/
def growing : List (HealthSnapshot → UInt64) :=
  [HealthSnapshot.cyclesTotal, HealthSnapshot.cyclesSucceeded,
    HealthSnapshot.bleDiscoverFailuresTotal, HealthSnapshot.bleConnectFailuresTotal,
    HealthSnapshot.bleSessionFailuresTotal, HealthSnapshot.protocolErrorsTotal,
    HealthSnapshot.samplesDroppedTotal, HealthSnapshot.deliveriesSucceededTotal,
    HealthSnapshot.deliveriesFailedTotal, HealthSnapshot.spoolDroppedTotal,
    HealthSnapshot.energyGapSkippedSeconds]

/-- The time of the last success has not moved back. -/
def SuccessKept (h h' : HealthSnapshot) : Prop :=
  ∀ t ∈ h.lastSuccess, ∃ t' ∈ h'.lastSuccess, t ≤ t'

/-- Nothing decreases. -/
structure NotLower (h h' : HealthSnapshot) : Prop where
  counters : ∀ total ∈ growing, total h ≤ total h'
  success : SuccessKept h h'

/-- Nothing decreases, except that a counter at `u64::MAX` wraps to zero. -/
structure Advances (h h' : HealthSnapshot) : Prop where
  counters : ∀ total ∈ growing, total h ≤ total h' ∨ total h = 18446744073709551615 ∧ total h' = 0
  success : SuccessKept h h'

/-- A change that a cycle or a drain makes besides the accounts of the cycles. -/
inductive Tick (h : HealthSnapshot) : HealthSnapshot → Prop
  | delivery (ok : Bool) : Tick h (h.recordDelivery ok)
  | dropped : Tick h h.recordSpoolDropped
  | gap (gap : Duration) : Tick h (h.recordEnergyGap gap)

abbrev Ticks := Relation.ReflTransGen Tick

theorem advance_refl (x : UInt64) : x ≤ x ∨ x = 18446744073709551615 ∧ x = 0 :=
  .inl (UInt64.le_refl x)

theorem advance_succ (x : UInt64) : x ≤ x + 1 ∨ x = 18446744073709551615 ∧ x + 1 = 0 := by
  by_cases hmax : x = 18446744073709551615
  · subst hmax
    exact .inr ⟨rfl, rfl⟩
  · left
    have hlt : x.toNat < 2 ^ 64 := x.toNat_lt
    have hne : x.toNat ≠ 18446744073709551615 := fun h => hmax (UInt64.toNat.inj h)
    rw [UInt64.le_iff_toNat_le, UInt64.toNat_add]
    show x.toNat ≤ (x.toNat + 1) % 2 ^ 64
    omega

theorem SuccessKept.of_eq {h h' : HealthSnapshot} (heq : h'.lastSuccess = h.lastSuccess) :
    SuccessKept h h' := by
  intro t ht
  exact ⟨t, by rw [heq]; exact ht, le_refl t⟩

/-- A saturating addition lowers nothing. -/
theorem advance_gap (h : HealthSnapshot) (gap : Duration) :
    h.energyGapSkippedSeconds ≤ (h.recordEnergyGap gap).energyGapSkippedSeconds := by
  rw [UInt64.le_iff_toNat_le, HealthSnapshot.recordEnergyGap_gap]
  have hlt : h.energyGapSkippedSeconds.toNat < 2 ^ 64 := h.energyGapSkippedSeconds.toNat_lt
  unfold u64Max
  omega

/-- A change of the health that leaves the counters alone, or adds one to some of them. -/
theorem Advances.of_succ {h h' : HealthSnapshot}
    (hcounters : ∀ total ∈ growing, total h' = total h ∨ total h' = total h + 1)
    (hsuccess : SuccessKept h h') : Advances h h' := by
  refine ⟨fun total hmem => ?_, hsuccess⟩
  rcases hcounters total hmem with heq | heq
  · rw [heq]
    exact advance_refl _
  · rw [heq]
    exact advance_succ _

theorem Tick.advances {h h' : HealthSnapshot} (htick : Tick h h') : Advances h h' := by
  cases htick with
  | delivery ok =>
      cases ok with
      | true => exact .of_succ (by simp [growing, HealthSnapshot.recordDelivery]) (.of_eq rfl)
      | false => exact .of_succ (by simp [growing, HealthSnapshot.recordDelivery]) (.of_eq rfl)
  | dropped => exact .of_succ (by simp [growing, HealthSnapshot.recordSpoolDropped]) (.of_eq rfl)
  | gap gap =>
      refine ⟨?_, .of_eq rfl⟩
      have hgap := advance_gap h gap
      simp only [growing, List.forall_mem_cons]
      refine ⟨?_, ?_, ?_, ?_, ?_, ?_, ?_, ?_, ?_, ?_, .inl hgap, by simp⟩ <;> exact advance_refl _

theorem recordFailureHealth_advances (e : CycleError) (h : HealthSnapshot) :
    Advances h (recordFailureHealth e h) := by
  apply Advances.of_succ _ (.of_eq (recordFailureHealth_lastSuccess e h))
  cases e <;> simp [growing, recordFailureHealth, HealthSnapshot.recordBleDiscoverFailure,
    HealthSnapshot.recordBleConnectFailure, HealthSnapshot.recordBleSessionFailure,
    HealthSnapshot.recordProtocolError, HealthSnapshot.recordSampleDropped]

theorem recordCycle_advances (h : HealthSnapshot) (ok : Bool) : Advances h (h.recordCycle ok) := by
  cases ok with
  | true => exact .of_succ (by simp [growing, HealthSnapshot.recordCycle]) (.of_eq rfl)
  | false => exact .of_succ (by simp [growing, HealthSnapshot.recordCycle]) (.of_eq rfl)

theorem setLastSuccess_advances (h : HealthSnapshot) (t : SystemTime) :
    Advances h (h.setLastSuccess t) := by
  apply Advances.of_succ
  · unfold HealthSnapshot.setLastSuccess
    split <;> simp [growing]
  · intro latest hlatest
    rw [setLastSuccess_latest]
    simp only [Option.mem_def] at hlatest
    rw [hlatest]
    exact ⟨_, rfl, le_max_left latest t⟩

/-! ## The accounts of the cycles -/

/-- The accounts of the cycles are the same. -/
structure SameAccounts (h h' : HealthSnapshot) : Prop where
  total : h'.cyclesTotal = h.cyclesTotal
  succeeded : h'.cyclesSucceeded = h.cyclesSucceeded
  classes : ∀ cls : FailureClass, cls.counter h' = cls.counter h
  streak : h'.consecutiveFailures = h.consecutiveFailures

theorem Tick.accounts {h h' : HealthSnapshot} (htick : Tick h h') : SameAccounts h h' := by
  cases htick with
  | delivery ok => cases ok <;> exact ⟨rfl, rfl, fun cls => by cases cls <;> rfl, rfl⟩
  | dropped => exact ⟨rfl, rfl, fun cls => by cases cls <;> rfl, rfl⟩
  | gap gap => exact ⟨rfl, rfl, fun cls => by cases cls <;> rfl, rfl⟩

theorem Ticks.accounts {h h' : HealthSnapshot} (hticks : Ticks h h') : SameAccounts h h' := by
  induction hticks with
  | refl => exact ⟨rfl, rfl, fun _ => rfl, rfl⟩
  | tail _ htick ih =>
      have hlast := htick.accounts
      exact ⟨hlast.total.trans ih.total, hlast.succeeded.trans ih.succeeded,
        fun cls => (hlast.classes cls).trans (ih.classes cls), hlast.streak.trans ih.streak⟩

theorem Ticks.advances {h h' : HealthSnapshot} (hticks : Ticks h h') :
    Relation.ReflTransGen Advances h h' :=
  Relation.ReflTransGen.mono (fun _ _ => Tick.advances) _ _ hticks

/-- A failed cycle is counted in the class of its error. -/
theorem recordFailureHealth_counter (e : CycleError) (h : HealthSnapshot) (cls : FailureClass) :
    cls.counter (recordFailureHealth e h) =
      if failureClass? e = some cls then cls.counter h + 1 else cls.counter h := by
  cases e <;> cases cls <;> rfl

/-- What the loop does to the health after a cycle. -/
def accountHealth (outcome : CycleOutcome) (h : HealthSnapshot) : HealthSnapshot :=
  match outcome with
  | .success result => (h.recordCycle true).setLastSuccess result.sample.observedAt
  | .failure _ _ => h.recordCycle false
  | .shutdownGraceful _ sample => (h.recordCycle true).setLastSuccess sample.observedAt

/-- What a cycle that ends with `outcome` has counted at its end. -/
def settleHealth (outcome : CycleOutcome) (h : HealthSnapshot) : HealthSnapshot :=
  match outcome with
  | .failure _ e => recordFailureHealth e h
  | _ => h

/-! ## A cycle only ticks -/

variable {k : Service.Collector ω σ} {start c : CycleContext ω σ} {ε α ε' : Type}

/-- The health has only ticked since `start`. -/
def Ticked (start c : CycleContext ω σ) : Prop := Ticks start.health c.health

theorem Ticked.of_eq (h : c.health = start.health) : Ticked start c := by
  unfold Ticked
  rw [h]

/-- The steps around the durable one only tick. -/
theorem tickedInvariant (start : CycleContext ω σ) : StepInvariant k (Ticked start) where
  env _ _ h := h
  store _ _ h _ := h
  delivery _ ok h := h.tail (.delivery ok)
  dropped _ h := h.tail .dropped
  progress _ h := h
  deliver _ _ h := h
  moved _ _ _ h _ := h

theorem persist_ticked {sample : Sample}
    {r : Except (CyclePhase × CycleError) (Service.EnergyOutcome × Bool)}
    (h : PersistStep k sample start r c) : Ticked start c := by
  cases h with
  | refused _ _ _ _ hhealth _ _ => exact .of_eq hhealth
  | duplicate _ _ _ _ _ _ _ hhealth _ _ => exact .of_eq hhealth
  | commit prev _ _ _ _ _ _ _ _ _ _ _ _ _ _ result _ _ _ hhealth _ _ =>
      unfold Ticked
      rw [hhealth]
      unfold commitHealth
      split
      · cases (k.energy.apply prev sample).skippedGapSeconds with
        | none => exact .refl
        | some gap => exact .single (.gap gap)
      · exact .refl

/-- Up to its end a walk from `Idle` ticks, however it ends. -/
theorem cycleStates_ticked (hidle : start.state.current = .idle) :
    Ticked start (exec (cycleStates k) start).2 := by
  apply Triple.to_exec (P := Reached start .idle) (S := fun _ => Ticked start) (Reached.refl hidle)
  apply Triple.bind (Q := fun _ => Reached start .collecting)
  · exact acquire_steps.conseq (fun _ h => h) (fun _ _ h => h)
      fun e c h => .of_eq h.2.2.health
  intro sample
  apply Triple.of_state
  intro mid hmid
  have hbefore : Ticked start mid := .of_eq hmid.health
  apply Triple.bind (Q := fun _ => Ticked start)
  · apply Triple.of_exec (S := fun _ => Ticked start)
    rintro _ rfl
    exact hbefore.trans (persist_ticked (persist_steps sample _ hmid.current))
  rintro ⟨energy, duplicate⟩
  apply Triple.bind (Q := fun _ => Ticked start)
  · exact (tickedInvariant (k := k) start).onEnv _
  intro stop
  cases stop with
  | true => exact Triple.pure fun _ hc => hc
  | false =>
      apply Triple.bind ((tickedInvariant start).deliverFresh duplicate)
      intro delivery
      apply Triple.bind (tickedInvariant start).release
      intro _
      exact Triple.pure fun _ hc => hc

/-- A cycle from `Idle` ticks and, if it fails, counts its failure once. -/
theorem runCycle_health {outcome : CycleOutcome} (hidle : start.state.current = .idle)
    (hexec : exec (runCycle k : Cycle ω σ RunError CycleOutcome) start = (.ok outcome, c)) :
    ∃ h, Ticks start.health h ∧ c.health = settleHealth outcome h := by
  have hticked := cycleStates_ticked (k := k) hidle
  have hwalk := cycleStates_steps (k := k) hidle
  rcases hstates : exec (cycleStates k) start with ⟨result, stop⟩
  rw [hstates] at hticked hwalk
  unfold runCycle at hexec
  rw [exec_bind_ok (exec_attempt _ _), hstates] at hexec
  dsimp only at hticked hwalk hexec
  rcases result with ⟨p, e⟩ | result | ⟨p, sample⟩
  · -- the walk has failed: its error is counted before the teardown
    obtain ⟨c', hdown, htorn⟩ := teardownAfterFailure_steps (k := k)
      { stop with health := recordFailureHealth e stop.health } hwalk.error_legal
    have hfailed : exec (finishFailed k p e : Cycle ω σ RunError CycleOutcome) stop =
        (.ok (.failure p e), c') := by
      unfold finishFailed updateHealth
      rw [exec_bind_ok (exec_modify _ _), exec_bind_ok (exec_attempt _ _), hdown]
      rfl
    cases hfailed.symm.trans hexec
    exact ⟨stop.health, hticked, htorn.health⟩
  · cases hexec
    exact ⟨_, hticked, rfl⟩
  · have hlegal : stop.state.current.canTransitionTo .disconnecting = true := by
      cases hwalk with
      | interrupted _ _ _ mid late _ _ hpersist =>
          show late.state.current.canTransitionTo .disconnecting = true
          rw [hpersist.current]
          rfl
    obtain ⟨c', hdown, htorn⟩ := teardownToShutdown_steps (k := k) stop hlegal
    have hgraceful : exec (finishGracefully k p sample : Cycle ω σ RunError CycleOutcome) stop =
        (.ok (.shutdownGraceful p sample), c') := by
      unfold finishGracefully
      rw [exec_bind_ok (exec_attempt _ _), hdown]
      rfl
    cases hgraceful.symm.trans hexec
    exact ⟨stop.health, hticked, htorn.health⟩

/-! ## The accounts of the loop -/

theorem countP_concat (p : CycleRecord ω σ → Bool) (records : List (CycleRecord ω σ))
    (rec : CycleRecord ω σ) :
    (records ++ [rec]).countP p = records.countP p + if p rec then 1 else 0 := by
  rw [List.countP_append, List.countP_singleton]

theorem failureStreak_concat (records : List (CycleRecord ω σ)) (rec : CycleRecord ω σ) :
    failureStreak (records ++ [rec]) =
      if failedCycle rec then failureStreak records + 1 else 0 := by
  unfold failureStreak
  rw [List.reverse_append]
  cases h : failedCycle rec <;> simp [h]

/-- What the loop does to its variables after a cycle. -/
structure Booked (r r' : Runner ω σ) (rec : CycleRecord ω σ) : Prop where
  entry : rec.entry = r.ctx
  records : r'.records = r.records ++ [rec]
  cycles : r'.cycles = r.cycles + 1
  cyclesSucceeded : r'.cyclesSucceeded =
    if failedCycle rec then r.cyclesSucceeded else r.cyclesSucceeded + 1
  health : r'.ctx.health = accountHealth rec.outcome rec.exit.health

/-- The cycle of an iteration is booked; storage and trace are those it has left. -/
theorem runOnce_booked {flow : Flow} {r r' : Runner ω σ}
    (h : exec (runOnce k) r = (.ok flow, r')) : ∃ rec, Booked r r' rec ∧
      r'.ctx.store = rec.exit.store ∧ r'.ctx.trace = rec.exit.trace := by
  unfold runOnce at h
  rw [exec_bind_ok (exec_get _)] at h
  dsimp only at h
  have hcycle := exec_onCycle (runCycle k) r
  rcases hexec : exec (runCycle k : Cycle ω σ RunError CycleOutcome) r.ctx with
    ⟨e | outcome, c⟩
  · rw [hexec] at hcycle
    rw [exec_bind_error hcycle] at h
    cases h
  rw [hexec] at hcycle
  rw [exec_bind_ok hcycle, exec_bind_ok (exec_modify _ _)] at h
  refine ⟨⟨r.ctx, outcome, c⟩, ?_⟩
  cases outcome with
  | success result =>
      cases h
      exact ⟨⟨rfl, rfl, rfl, rfl, rfl⟩, rfl, rfl⟩
  | failure p e =>
      cases h
      exact ⟨⟨rfl, rfl, rfl, rfl, rfl⟩, rfl, rfl⟩
  | shutdownGraceful p sample =>
      cases h
      exact ⟨⟨rfl, rfl, rfl, rfl, rfl⟩, rfl, rfl⟩

theorem setLastSuccess_accounts (h : HealthSnapshot) (t : SystemTime) :
    SameAccounts h (h.setLastSuccess t) := by
  unfold HealthSnapshot.setLastSuccess
  split
  · exact ⟨rfl, rfl, fun cls => by cases cls <;> rfl, rfl⟩
  · exact ⟨rfl, rfl, fun _ => rfl, rfl⟩

/-- What a failure leaves alone. -/
theorem recordFailureHealth_rest (e : CycleError) (h : HealthSnapshot) :
    (recordFailureHealth e h).cyclesTotal = h.cyclesTotal ∧
      (recordFailureHealth e h).cyclesSucceeded = h.cyclesSucceeded ∧
      (recordFailureHealth e h).consecutiveFailures = h.consecutiveFailures := by
  cases e <;> exact ⟨rfl, rfl, rfl⟩

theorem CountedHealth.same {records : List (CycleRecord ω σ)} {h h' : HealthSnapshot}
    (hcounted : CountedHealth records h) (hsame : SameAccounts h h') : CountedHealth records h' :=
  ⟨hsame.total.trans hcounted.total, hsame.succeeded.trans hcounted.succeeded,
    fun cls => (hsame.classes cls).trans (hcounted.classes cls),
    hsame.streak.trans hcounted.streak⟩

/-- The next streak after a failure, saturated. -/
theorem saturated_succ (n : Nat) :
    UInt32.ofNat (min 4294967295 ((UInt32.ofNat (min 4294967295 n)).toNat + 1)) =
      UInt32.ofNat (min 4294967295 (n + 1)) := by
  have hsmall : (UInt32.ofNat (min 4294967295 n)).toNat = min 4294967295 n := by
    rw [UInt32.toNat_ofNat']
    omega
  rw [hsmall]
  congr 1
  omega

/-- A cycle that has not failed is booked among the succeeded. -/
theorem CountedHealth.succeeds {records : List (CycleRecord ω σ)} {h : HealthSnapshot}
    {rec : CycleRecord ω σ} (hcounted : CountedHealth records h) (hok : failedCycle rec = false)
    (hclass : ∀ cls, failedIn cls rec = false) :
    CountedHealth (records ++ [rec]) (h.recordCycle true) := by
  refine ⟨?_, ?_, ?_, ?_⟩
  · show h.cyclesTotal + 1 = _
    rw [hcounted.total, List.length_append, List.length_singleton, UInt64.ofNat_add]
    rfl
  · show h.cyclesSucceeded + 1 = _
    rw [hcounted.succeeded, countP_concat, hok, UInt64.ofNat_add]
    rfl
  · intro cls
    have hsame : cls.counter (h.recordCycle true) = cls.counter h := by cases cls <;> rfl
    rw [hsame, hcounted.classes, countP_concat, hclass cls]
    rfl
  · rw [failureStreak_concat, hok]
    rfl

/-- A failed cycle is booked in the total and in the class of its error. -/
theorem CountedHealth.fails {records : List (CycleRecord ω σ)} {h : HealthSnapshot}
    {rec : CycleRecord ω σ} {p : CyclePhase} {e : CycleError}
    (hcounted : CountedHealth records h) (hfailure : rec.outcome = .failure p e) :
    CountedHealth (records ++ [rec]) ((recordFailureHealth e h).recordCycle false) := by
  have hfailed : failedCycle rec = true := by simp [failedCycle, hfailure, CycleOutcome.isFailure]
  obtain ⟨htotal, hsucceeded, hstreak⟩ := recordFailureHealth_rest e h
  refine ⟨?_, ?_, ?_, ?_⟩
  · show (recordFailureHealth e h).cyclesTotal + 1 = _
    rw [htotal, hcounted.total, List.length_append, List.length_singleton, UInt64.ofNat_add]
    rfl
  · show (recordFailureHealth e h).cyclesSucceeded = _
    rw [hsucceeded, hcounted.succeeded, countP_concat, hfailed]
    rfl
  · intro cls
    have hsame : cls.counter ((recordFailureHealth e h).recordCycle false) =
        cls.counter (recordFailureHealth e h) := by cases cls <;> rfl
    have hclass : failedIn cls rec = decide (failureClass? e = some cls) := by
      simp [failedIn, hfailure]
    rw [hsame, recordFailureHealth_counter, hcounted.classes, countP_concat, hclass]
    by_cases hcls : failureClass? e = some cls
    · rw [if_pos hcls, if_pos (by simpa using hcls), UInt64.ofNat_add]
      rfl
    · rw [if_neg hcls, if_neg (by simpa using hcls)]
      rfl
  · show UInt32.ofNat (min 4294967295 ((recordFailureHealth e h).consecutiveFailures.toNat + 1)) = _
    rw [hstreak, hcounted.streak, failureStreak_concat, if_pos hfailed]
    exact saturated_succ _

/-- A cycle is booked once: in the total, and in the class of its error or among the succeeded. -/
theorem CountedHealth.cycle {records : List (CycleRecord ω σ)} {h : HealthSnapshot}
    {rec : CycleRecord ω σ} (hcounted : CountedHealth records h) :
    CountedHealth (records ++ [rec]) (accountHealth rec.outcome (settleHealth rec.outcome h)) := by
  cases houtcome : rec.outcome with
  | success result =>
      apply (hcounted.succeeds _ _).same (setLastSuccess_accounts _ _)
      · simp [failedCycle, houtcome, CycleOutcome.isFailure]
      · simp [failedIn, houtcome]
  | failure p e => exact hcounted.fails houtcome
  | shutdownGraceful p sample =>
      apply (hcounted.succeeds _ _).same (setLastSuccess_accounts _ _)
      · simp [failedCycle, houtcome, CycleOutcome.isFailure]
      · simp [failedIn, houtcome]

theorem settleHealth_advances (outcome : CycleOutcome) (h : HealthSnapshot) :
    Relation.ReflTransGen Advances h (settleHealth outcome h) := by
  cases outcome with
  | success result => exact .refl
  | failure p e => exact .single (recordFailureHealth_advances e h)
  | shutdownGraceful p sample => exact .refl

theorem accountHealth_advances (outcome : CycleOutcome) (h : HealthSnapshot) :
    Relation.ReflTransGen Advances h (accountHealth outcome h) := by
  cases outcome with
  | success result =>
      exact (Relation.ReflTransGen.single (recordCycle_advances h true)).tail
        (setLastSuccess_advances _ _)
  | failure p e => exact .single (recordCycle_advances h false)
  | shutdownGraceful p sample =>
      exact (Relation.ReflTransGen.single (recordCycle_advances h true)).tail
        (setLastSuccess_advances _ _)

/-- Waiting keeps the accounts. -/
theorem Counted.waits {r t : Runner ω σ} (h : Counted r) (hwaited : Carried r (Ticked r.ctx) t) :
    Counted t := by
  refine ⟨?_, ?_, ?_⟩
  · rw [hwaited.records]
    exact h.health.same (Ticks.accounts hwaited.context)
  · rw [hwaited.cycles, hwaited.records]
    exact h.cycles
  · rw [hwaited.cyclesSucceeded, hwaited.records]
    exact h.cyclesSucceeded

/-- A booked cycle keeps the accounts, and lowers no counter. -/
theorem Booked.counted {r r' : Runner ω σ} {rec : CycleRecord ω σ} (h : Counted r)
    (hbooked : Booked r r' rec) (hlegal : rec.Legal k) :
    Counted r' ∧ Relation.ReflTransGen Advances r.ctx.health r'.ctx.health := by
  obtain ⟨health, hticks, hsettled⟩ := runCycle_health hlegal.entered hlegal.ran
  rw [hbooked.entry] at hticks
  have hend : r'.ctx.health = accountHealth rec.outcome (settleHealth rec.outcome health) := by
    rw [hbooked.health, hsettled]
  refine ⟨⟨?_, ?_, ?_⟩, ?_⟩
  · rw [hbooked.records, hend]
    exact (h.health.same hticks.accounts).cycle
  · rw [hbooked.cycles, h.cycles, hbooked.records, List.length_append, List.length_singleton,
      UInt64.ofNat_add]
    rfl
  · rw [hbooked.cyclesSucceeded, h.cyclesSucceeded, hbooked.records, countP_concat]
    cases failedCycle rec with
    | true => rfl
    | false =>
        rw [if_neg (by decide), if_pos (by decide), UInt64.ofNat_add]
        rfl
  · rw [hend]
    exact (hticks.advances.trans (settleHealth_advances _ _)).trans (accountHealth_advances _ _)

/-- One iteration, however it ends. -/
theorem iteration_counted {r r' : Runner ω σ} {drains : Nat} {flow : Flow}
    (hrests : RunnerAt k (fun p => p.resting = true) r) (h : Counted r)
    (hexec : exec (Service.iteration k drains) r = (.ok flow, r')) :
    Counted r' ∧ Relation.ReflTransGen Advances r.ctx.health r'.ctx.health := by
  rcases iteration_cases (tickedInvariant r.ctx) .refl hexec with ⟨-, hwaited⟩ | ⟨mid, hmid, hrun⟩
  · exact ⟨h.waits hwaited, Ticks.advances hwaited.context⟩
  · obtain ⟨rec, hbooked, -, -⟩ := runOnce_booked hrun
    have hlegal : rec.Legal k := (((iteration_rule drains).ok hrests hexec).1 rec (by
      rw [hbooked.records]
      exact List.mem_append_right _ (List.mem_singleton_self rec)))
    obtain ⟨hcounted, hadvances⟩ := hbooked.counted (h.waits hmid) hlegal
    exact ⟨hcounted, (Ticks.advances hmid.context).trans hadvances⟩

/-! ## Runs -/

theorem Looped.counted {r : Runner ω σ} (h : Looped k r) : Counted r := by
  induction h with
  | start env store => exact ⟨⟨rfl, rfl, fun cls => by cases cls <;> rfl, rfl⟩, rfl, rfl⟩
  | next r r' drains h hexec ih => exact (iteration_counted h.legal ih hexec).1

/-- A moment between two cycles: before an iteration, after its drain, or at the end of the
run. -/
inductive Moment (k : Service.Collector ω σ) : Runner ω σ → Prop
  | looped (r : Runner ω σ) (h : Looped k r) : Moment k r
  | drained (r r' : Runner ω σ) (drains : Nat) (ready : Option Bool) (h : Looped k r)
      (hexec : exec (prepare k drains) r = (.ok ready, r')) : Moment k r'
  | ended (r r' : Runner ω σ) (drains : Nat) (h : Looped k r)
      (hexec : exec (Service.iteration k drains) r = (.ok .stop, r')) : Moment k r'

theorem Moment.counted {r : Runner ω σ} (h : Moment k r) : Counted r := by
  cases h with
  | looped _ h => exact h.counted
  | drained r₀ _ drains ready h hexec =>
      exact h.counted.waits ((prepare_carried (tickedInvariant r₀.ctx) drains).ok
        ⟨rfl, rfl, rfl, rfl, .refl⟩ hexec)
  | ended r₀ _ drains h hexec => exact (iteration_counted h.legal h.counted hexec).1

/-- The cycles so far are legal at every moment. -/
theorem Moment.legal {r : Runner ω σ} (h : Moment k r) : ∀ rec ∈ r.records, rec.Legal k := by
  cases h with
  | looped _ h => exact h.legal.1
  | drained r₀ _ drains ready h hexec =>
      have hkept : Kept r₀ r := (prepare_kept r₀ drains).ok rfl hexec
      rw [hkept.records]
      exact h.legal.1
  | ended r₀ _ drains h hexec => exact ((iteration_rule drains).ok h.legal hexec).1

/-- The failures of all classes. -/
def failuresTotal (h : HealthSnapshot) : UInt64 :=
  h.bleDiscoverFailuresTotal + h.bleConnectFailuresTotal + h.bleSessionFailuresTotal +
    h.protocolErrorsTotal + h.samplesDroppedTotal

/-- A failed cycle that is no failure of the state machine has exactly one class. -/
theorem failed_classes {records : List (CycleRecord ω σ)}
    (hlegal : ∀ rec ∈ records, ∀ p e, rec.outcome ≠ .failure p (.state e)) :
    records.countP failedCycle = records.countP (failedIn .discover) +
      records.countP (failedIn .connect) + records.countP (failedIn .session) +
      records.countP (failedIn .protocol) + records.countP (failedIn .dropped) := by
  induction records with
  | nil => rfl
  | cons rec rest ih =>
      have hrest := ih fun r hr => hlegal r (List.mem_cons_of_mem _ hr)
      have hrec := hlegal rec List.mem_cons_self
      simp only [List.countP_cons, hrest]
      cases houtcome : rec.outcome with
      | success result => simp [failedCycle, failedIn, houtcome, CycleOutcome.isFailure]
      | shutdownGraceful p sample =>
          simp [failedCycle, failedIn, houtcome, CycleOutcome.isFailure]
      | failure p e =>
          cases e with
          | state e => exact absurd houtcome (hrec p e)
          | _ =>
              simp [failedCycle, failedIn, houtcome, CycleOutcome.isFailure, failureClass?]
              omega

theorem CountedHealth.balance {records : List (CycleRecord ω σ)} {h : HealthSnapshot}
    (hcounted : CountedHealth records h)
    (hlegal : ∀ rec ∈ records, ∀ p e, rec.outcome ≠ .failure p (.state e)) :
    h.cyclesTotal - h.cyclesSucceeded = failuresTotal h := by
  have hsplit : records.length =
      records.countP failedCycle + records.countP fun rec => !failedCycle rec := by
    simpa using List.length_eq_countP_add_countP failedCycle (l := records)
  have hfailed : failuresTotal h = .ofNat (records.countP failedCycle) := by
    have hclasses := hcounted.classes
    have hdiscover := hclasses .discover
    have hconnect := hclasses .connect
    have hsession := hclasses .session
    have hprotocol := hclasses .protocol
    have hdropped := hclasses .dropped
    dsimp only [FailureClass.counter] at hdiscover hconnect hsession hprotocol hdropped
    unfold failuresTotal
    rw [hdiscover, hconnect, hsession, hprotocol, hdropped, failed_classes hlegal,
      UInt64.ofNat_add, UInt64.ofNat_add, UInt64.ofNat_add, UInt64.ofNat_add]
  rw [hfailed, hcounted.total, hcounted.succeeded, hsplit, UInt64.ofNat_add]
  exact UInt64.add_sub_cancel _ _

/-- A run that returns has ended at a moment whose counts it reports. -/
theorem run_ended {drains iterations : Nat} {r r' : Runner ω σ} {summary : RunSummary}
    (h : Looped k r) (hexec : exec (run k drains iterations) r = (.ok (some summary), r')) :
    Moment k r' ∧ summary = ⟨r'.cycles, r'.cyclesSucceeded, true, r'.ctx.health⟩ := by
  induction iterations generalizing r with
  | zero => cases hexec
  | succ iterations ih =>
      unfold run at hexec
      rcases hiteration : exec (Service.iteration k drains) r with ⟨e | flow, t⟩
      · rw [exec_bind_error hiteration] at hexec
        cases hexec
      rw [exec_bind_ok hiteration] at hexec
      cases flow with
      | next => exact ih (.next r t drains h hiteration) hexec
      | stop =>
          cases hexec
          exact ⟨.ended r _ drains h hiteration, rfl⟩
      | unfinished => cases hexec

/-- What is claimed of the counters of a collector. -/
structure FailuresCounted (k : Service.Collector ω σ) : Prop where
  /-- Every cycle is booked once. -/
  counted : ∀ r, Moment k r → Counted r
  balance : ∀ r, Moment k r →
    r.ctx.health.cyclesTotal - r.ctx.health.cyclesSucceeded = failuresTotal r.ctx.health
  summary : ∀ env store drains iterations summary r,
    exec (run k drains iterations) (Runner.new env store) = (.ok (some summary), r) →
      summary.health.cyclesTotal = summary.cycles ∧
        summary.health.cyclesSucceeded = summary.cyclesSucceeded
  advances : ∀ r r' drains flow, Looped k r →
    exec (Service.iteration k drains) r = (.ok flow, r') →
      Relation.ReflTransGen Advances r.ctx.health r'.ctx.health

end

/-- **Every failed cycle is counted exactly once**: for every port behaviour and any number of
cycles, at every moment between two cycles. -/
theorem failures_counted {ω σ : Type} (k : Service.Collector ω σ) : FailuresCounted k := by
  refine ⟨fun r h => h.counted, fun r h => ?_, ?_, ?_⟩
  · exact h.counted.health.balance fun rec hrec => (h.legal rec hrec).noStateError
  · intro env store drains iterations summary r hexec
    obtain ⟨hmoment, rfl⟩ := run_ended (.start env store) hexec
    have hcounted := hmoment.counted
    exact ⟨hcounted.health.total.trans hcounted.cycles.symm,
      hcounted.health.succeeded.trans hcounted.cyclesSucceeded.symm⟩
  · intro r r' drains flow h hexec
    exact (iteration_counted h.legal h.counted hexec).2

/-! ## A counter at its maximum -/

/-- A collector that never finds its device, over an empty storage. -/
def deaf : Service.Collector Unit Unit where
  config := .default
  device := scripted.device
  resolves := scripted.resolves
  ports := {
    ble := {
      discover := fun _ env => (some (.error .disconnected), env)
      connect := fun _ env => (some (.ok ()), env)
      negotiate := fun _ _ env => (some (.ok ()), env)
      subscribe := fun _ _ _ env => (some (.ok ()), env)
      requestValues := fun _ _ _ env => (some (.ok []), env)
      finishCycle := fun _ env => (some (.ok ()), env)
      disconnect := fun _ env => (some (.ok ()), env) }
    protocol := {
      vregs := fun env => ([], env)
      acquirePlan := fun _ _ env => (.ok ⟨[], [], []⟩, env)
      parseResponse := fun _ _ env => (.ok [], env)
      translate := fun _ _ env => (.error .emptyResponse, env) }
    storage := {
      lastSuccess := fun s => (.ok none, s)
      energyState := fun s => (.ok none, s)
      commitAcquisition := fun _ s => (.ok .committed, s)
      spoolHealth := fun _ s => (.ok ⟨0, none⟩, s)
      spoolClaimNext := fun _ _ s => (.ok none, s)
      spoolComplete := fun _ s => (.ok (), s)
      spoolRetry := fun _ _ s => (.ok (.retried 1), s)
      spoolDrop := fun _ s => (.ok (), s) }
    deliver := fun _ env => (.ok (), env)
    render := fun _ env => (.ok [], env)
    now := fun env => (⟨1000000000⟩, env)
    shutdownRequested := fun env => (false, env)
    wait := fun _ env => env }
  energy := ⟨ServiceConfig.default.maximumEnergyGap⟩
  backoff := fun _ => 0
  interval := fun _ => .active

theorem deaf_prepare {r : Runner Unit Unit} (hrests : r.ctx.state.current.resting = true) :
    ∃ c, exec (prepare deaf 1) r = (.ok (some false), { r with ctx := c }) ∧
      c.state.current = .idle := by
  obtain ⟨⟨env, store, ⟨phase, n⟩, health, trace⟩, cycles, succeeded, solar, records⟩ := r
  have hphase : phase = .idle ∨ phase = .backoff := by
    revert hrests
    cases phase <;> simp [CyclePhase.resting]
  rcases hphase with rfl | rfl
  · exact ⟨_, rfl, rfl⟩
  · exact ⟨_, rfl, rfl⟩

theorem deaf_await (r : Runner Unit Unit) : exec (awaitNext deaf) r = (.ok false, r) := by
  unfold awaitNext
  rw [exec_bind_ok (exec_get _)]
  by_cases hfirst : r.cycles = 0
  · rw [if_pos hfirst]
    rfl
  · rw [if_neg hfirst]
    rfl

theorem deaf_cycle {r : Runner Unit Unit} (hidle : r.ctx.state.current = .idle) :
    ∃ r', exec (runOnce deaf) r = (.ok .next, r') ∧ r'.records.length = r.records.length + 1 := by
  obtain ⟨⟨env, store, ⟨phase, n⟩, health, trace⟩, cycles, succeeded, solar, records⟩ := r
  dsimp only at hidle
  subst hidle
  exact ⟨_, rfl, by simp⟩

/-- Every iteration goes on after one more failed cycle. -/
theorem deaf_next {r : Runner Unit Unit} (hrests : r.ctx.state.current.resting = true) :
    ∃ r', exec (Service.iteration deaf 1) r = (.ok .next, r') ∧
      r'.records.length = r.records.length + 1 := by
  obtain ⟨c, hprepare, hidle⟩ := deaf_prepare hrests
  obtain ⟨r', hcycle, hlength⟩ := @deaf_cycle { r with ctx := c } hidle
  refine ⟨r', ?_, hlength⟩
  rw [iteration_prepare, exec_bind_ok hprepare]
  dsimp only
  unfold proceed
  rw [exec_bind_ok (deaf_await _)]
  exact hcycle

theorem deaf_reaches (n : Nat) : ∃ r, Looped deaf r ∧ r.records.length = n := by
  induction n with
  | zero => exact ⟨_, .start () (), rfl⟩
  | succ n ih =>
      obtain ⟨r, hlooped, hlength⟩ := ih
      obtain ⟨r', hnext, hlength'⟩ := deaf_next hlooped.legal.2
      exact ⟨r', .next r r' 1 hlooped hnext, by rw [hlength', hlength]⟩

/-- After 2^64 - 1 failed cycles the next one takes `cycles_total` back to zero. -/
theorem deaf_wraps : ∃ r r', Looped deaf r ∧
    exec (Service.iteration deaf 1) r = (.ok .next, r') ∧
    ¬ NotLower r.ctx.health r'.ctx.health := by
  obtain ⟨r, hlooped, hlength⟩ := deaf_reaches 18446744073709551615
  obtain ⟨r', hnext, hlength'⟩ := deaf_next hlooped.legal.2
  refine ⟨r, r', hlooped, hnext, fun h => ?_⟩
  have hle := h.counters HealthSnapshot.cyclesTotal (by simp [growing])
  have hbefore := hlooped.counted.health.total
  have hafter := (Looped.next r r' 1 hlooped hnext).counted.health.total
  rw [hlength] at hbefore
  rw [hlength', hlength] at hafter
  rw [hbefore, hafter] at hle
  exact absurd hle (by decide)

end VeSmart.Collector
