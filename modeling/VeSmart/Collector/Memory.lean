import VeSmart.Collector.Cycles
import VeSmart.Service.Endings

set_option autoImplicit false

/-! # The scheduler's memory

The loop keeps two things for the interval policy: the solar activity of a sample and the time of
the last success. `loop_remembers` says when they are those of the committed samples: in runs
whose cycles tell by their outcome what they have committed. -/

namespace VeSmart.Collector

open VeSmart.Lib VeSmart.Domain VeSmart.Service

section

variable {ω σ : Type}

/-! ## The point at which the loop picks an interval -/

/-- An iteration up to the choice of the interval: it stops (`true`), goes on (`false`), or its
drain has run out of fuel. -/
def prepare (k : Service.Collector ω σ) (drains : Nat) :
    Prog (Runner ω σ) RunError (Option Bool) := do
  onCycle reportProgress
  match ← onCycle (drainSpool k drains 0) with
  | none => pure none
  | some _ => do
      onCycle reportProgress
      if ← onCycle (onEnv k.ports.shutdownRequested) then pure (some true)
      else do
        onCycle (do if (← get).state.current = .idle then pure () else gotoIdle)
        pure (some false)

def stopLoop (k : Service.Collector ω σ) : Prog (Runner ω σ) RunError Flow := do
  onCycle (disconnectForShutdown k)
  onCycle gotoIdleOrShutdown
  pure .stop

/-- The rest of the iteration: the wait for the selected interval, and one cycle. -/
def proceed (k : Service.Collector ω σ) : Prog (Runner ω σ) RunError Flow := do
  if ← awaitNext k then stopLoop k
  else runOnce k

theorem iteration_prepare (k : Service.Collector ω σ) (drains : Nat) :
    Service.iteration k drains = (do
      match ← prepare k drains with
      | none => pure .unfinished
      | some true => stopLoop k
      | some false => proceed k) := by
  unfold Service.iteration prepare stopLoop proceed
  simp only [bind_assoc]
  congr 1
  funext _
  congr 1
  funext drained
  cases drained with
  | none => rfl
  | some result =>
      simp only [bind_assoc]
      congr 1
      funext _
      congr 1
      funext stop
      cases stop with
      | true => rfl
      | false =>
          simp only [Bool.false_eq_true, if_false, bind_assoc]
          rfl

/-- The states of the loop between two iterations. -/
inductive Looped (k : Service.Collector ω σ) : Runner ω σ → Prop
  | start (env : ω) (store : σ) : Looped k (Runner.new env store)
  | next (r r' : Runner ω σ) (drains : Nat) (h : Looped k r)
      (hexec : exec (Service.iteration k drains) r = (.ok .next, r')) : Looped k r'

/-! ## What the loop should remember -/

/-- The sample that a cycle has committed: the one it acquired, if a commit returned
`Committed`. -/
def committedSample? (k : Service.Collector ω σ) (rec : CycleRecord ω σ) : Option Sample :=
  if (committedCycles (rec.exit.trace.drop rec.entry.trace.length)).isEmpty then none
  else (exec (acquire k) rec.entry).1.toOption

/-- The samples that the process has committed, in order. -/
def committedSamples (k : Service.Collector ω σ) (records : List (CycleRecord ω σ)) :
    List Sample :=
  records.filterMap (committedSample? k)

/-- The memory follows the committed samples. -/
structure Remembers (k : Service.Collector ω σ) (r : Runner ω σ) : Prop where
  solar : r.lastSolar = (committedSamples k r.records).getLast?.map fun sample =>
    solarActivity sample k.config.solarActiveThresholdWatts
  success : r.ctx.health.lastSuccess =
    ((committedSamples k r.records).map Sample.observedAt).max?

variable {k : Service.Collector ω σ} {r r' : Runner ω σ}

theorem max?_concat (times : List SystemTime) (t : SystemTime) :
    (times ++ [t]).max? = some (times.max?.elim t fun latest => max latest t) := by
  cases times with
  | nil => rfl
  | cons first rest =>
      rw [List.cons_append, List.max?_cons', List.max?_cons', List.foldl_append]
      rfl

theorem setLastSuccess_latest (h : HealthSnapshot) (t : SystemTime) :
    (h.setLastSuccess t).lastSuccess =
      some (h.lastSuccess.elim t fun latest => max latest t) := by
  unfold HealthSnapshot.setLastSuccess
  cases hlast : h.lastSuccess with
  | none => simp
  | some latest =>
      by_cases hlt : latest < t
      · simp [hlt, max_eq_right hlt.le]
      · simp [hlt, hlast, max_eq_left (not_lt.mp hlt)]

/-- A record of a legal cycle: what it committed is what `committing` says. -/
theorem committedSample?_eq {rec : CycleRecord ω σ} (hlegal : rec.Legal k) :
    committedSample? k rec = committing k rec.entry ∧
      rec.exit.health.lastSuccess = rec.entry.health.lastSuccess ∧
      (committedCycles rec.exit.trace).map (fun cycle => cycle.commit.observedAt) =
        (committedCycles rec.entry.trace).map (fun cycle => cycle.commit.observedAt) ++
          (committedSample? k rec).toList.map Sample.observedAt := by
  obtain ⟨events, htrace, -⟩ := hlegal.disconnected
  obtain ⟨hsuccess, hcommits⟩ := (runCycle_ends hlegal.entered hlegal.ran).committing hlegal.entered
  have hsample : committedSample? k rec =
      if (committedCycles events).isEmpty then none
      else (exec (acquire k) rec.entry).1.toOption := by
    unfold committedSample?
    rw [htrace, List.drop_left]
  rw [htrace, committedCycles_append] at hcommits
  rw [hsample, htrace, committedCycles_append]
  cases hcommitting : committing k rec.entry with
  | none =>
      rw [hcommitting] at hcommits
      have hnone : committedCycles events = [] := List.append_right_eq_self.mp hcommits
      rw [hnone]
      exact ⟨rfl, hsuccess, by simp⟩
  | some sample =>
      rw [hcommitting] at hcommits
      obtain ⟨hacquired, cycle, hobserved, hone⟩ := hcommits
      rw [List.append_cancel_left hone, hacquired]
      exact ⟨rfl, hsuccess, by simp [hobserved, Except.toOption]⟩

/-! ## One iteration -/

/-- The memory, the history and the commits are those of `r`. -/
structure Kept (r t : Runner ω σ) : Prop where
  solar : t.lastSolar = r.lastSolar
  records : t.records = r.records
  context : Unremarked r.ctx t.ctx

/-- The loop's own variables are those of `r`, and its context satisfies `I`. -/
structure Carried (r : Runner ω σ) (I : CycleContext ω σ → Prop) (t : Runner ω σ) : Prop where
  cycles : t.cycles = r.cycles
  cyclesSucceeded : t.cyclesSucceeded = r.cyclesSucceeded
  solar : t.lastSolar = r.lastSolar
  records : t.records = r.records
  context : I t.ctx

variable {I : CycleContext ω σ → Prop} {start : Runner ω σ}

theorem onCycle_carried {α : Type} {x : Cycle ω σ RunError α}
    (h : Triple I x (fun _ => I) (fun _ => I)) :
    Triple (Carried start I) (onCycle x) (fun _ => Carried start I) (fun _ => Carried start I) := by
  apply Triple.zoom
  rintro t ⟨hcycles, hsucceeded, hsolar, hrecords, hcontext⟩
  apply h.conseq
  · rintro _ rfl
    exact hcontext
  · intro _ c hc
    exact ⟨hcycles, hsucceeded, hsolar, hrecords, hc⟩
  · intro _ c hc
    exact ⟨hcycles, hsucceeded, hsolar, hrecords, hc⟩

theorem prepare_carried (h : StepInvariant k I) (drains : Nat) :
    Triple (Carried start I) (prepare k drains) (fun _ => Carried start I)
      (fun _ => Carried start I) := by
  apply Triple.bind (onCycle_carried h.reportProgress)
  intro _
  apply Triple.bind (onCycle_carried (h.drainSpool drains 0))
  intro drained
  cases drained with
  | none => exact Triple.pure fun _ h => h
  | some result =>
      apply Triple.bind (onCycle_carried h.reportProgress)
      intro _
      apply Triple.bind (onCycle_carried (h.onEnv _))
      intro stop
      cases stop with
      | true => exact Triple.pure fun _ h => h
      | false =>
          apply Triple.bind (onCycle_carried h.enterIdle)
          intro _
          exact Triple.pure fun _ h => h

theorem awaitNext_carried (h : StepInvariant k I) :
    Triple (Carried start I) (awaitNext k) (fun _ => Carried start I)
      (fun _ => Carried start I) := by
  apply Triple.bind (Q := fun _ => Carried start I)
  · exact Triple.getState fun _ h => h
  intro r
  split
  · exact Triple.pure fun _ h => h
  apply Triple.bind (onCycle_carried (h.onEnv _))
  intro now
  extract_lets wait
  split
  · exact Triple.pure fun _ h => h
  apply Triple.bind (onCycle_carried (h.onEnv _))
  intro _
  exact onCycle_carried (h.onEnv _)

/-- An iteration that is stopped before its cycle. -/
theorem stopLoop_carried (h : StepInvariant k I) :
    Triple (Carried start I) (stopLoop k) (fun flow t => flow = .stop ∧ Carried start I t)
      (fun _ => Carried start I) := by
  apply Triple.bind (onCycle_carried h.disconnectForShutdown)
  intro _
  apply Triple.bind (onCycle_carried h.gotoIdleOrShutdown)
  intro _
  exact Triple.pure fun _ h => ⟨rfl, h⟩

theorem Carried.kept (h : Carried r (Unremarked r.ctx) r') : Kept r r' :=
  ⟨h.solar, h.records, h.context⟩

theorem prepare_kept (start : Runner ω σ) (drains : Nat) :
    Triple (fun t => t = start) (prepare k drains) (fun _ => Kept start) (fun _ => Kept start) :=
  (prepare_carried (unremarkedInvariant start.ctx) drains).conseq
    (by rintro _ rfl; exact ⟨rfl, rfl, rfl, rfl, .refl _⟩) (fun _ _ h => h.kept) fun _ _ h => h.kept

/-- A cycle after which the loop goes on: what it records, and what it remembers. -/
structure Accounted (k : Service.Collector ω σ) (r r' : Runner ω σ) (rec : CycleRecord ω σ) :
    Prop where
  entry : rec.entry = r.ctx
  goes : rec.outcome.isShutdown = false
  records : r'.records = r.records ++ [rec]
  trace : r'.ctx.trace = rec.exit.trace
  solar : r'.lastSolar = (rec.outcome.told?.map fun sample =>
    solarActivity sample k.config.solarActiveThresholdWatts).or r.lastSolar
  success : r'.ctx.health.lastSuccess = (rec.outcome.told?.map fun sample =>
    rec.exit.health.lastSuccess.elim sample.observedAt
      fun latest => max latest sample.observedAt).or rec.exit.health.lastSuccess

theorem exec_onCycle {α : Type} (x : Cycle ω σ RunError α) (r : Runner ω σ) :
    exec (onCycle x) r = ((exec x r.ctx).1, { r with ctx := (exec x r.ctx).2 }) := rfl

theorem runOnce_next (h : exec (runOnce k) r = (.ok .next, r')) : ∃ rec, Accounted k r r' rec := by
  unfold runOnce at h
  rw [exec_bind_ok (exec_get _)] at h
  dsimp only at h
  have hcycle := exec_onCycle (runCycle k) r
  rcases hexec : exec (runCycle k : Cycle ω σ RunError CycleOutcome) r.ctx with
    ⟨e | outcome, c⟩
  · rw [hexec] at hcycle
    rw [exec_bind_error hcycle] at h
    cases h
  rw [hexec] at hcycle
  rw [exec_bind_ok hcycle, exec_bind_ok (exec_modify _ _)] at h
  refine ⟨⟨r.ctx, outcome, c⟩, ?_⟩
  cases outcome with
  | success result =>
      cases h
      exact ⟨rfl, rfl, rfl, rfl, rfl, setLastSuccess_latest _ _⟩
  | failure p e =>
      cases h
      exact ⟨rfl, rfl, rfl, rfl, rfl, rfl⟩
  | shutdownGraceful p sample => cases h

/-- An iteration that ends with `flow` has stopped before its cycle, or has run it. -/
theorem iteration_cases {drains : Nat} {flow : Flow} (hI : StepInvariant k I) (hr : I r.ctx)
    (h : exec (Service.iteration k drains) r = (.ok flow, r')) :
    flow ≠ .next ∧ Carried r I r' ∨
      ∃ mid, Carried r I mid ∧ exec (runOnce k) mid = (.ok flow, r') := by
  have hcarried : Carried r I r := ⟨rfl, rfl, rfl, rfl, hr⟩
  rw [iteration_prepare] at h
  rcases hprepare : exec (prepare k drains) r with ⟨e | ready, r₁⟩
  · rw [exec_bind_error hprepare] at h
    cases h
  have hr₁ := (prepare_carried hI drains).ok hcarried hprepare
  rw [exec_bind_ok hprepare] at h
  have hstopped : ∀ {s : Runner ω σ}, Carried r I s → exec (stopLoop k) s = (.ok flow, r') →
      flow ≠ .next ∧ Carried r I r' := by
    intro s hs hstop
    obtain ⟨rfl, hend⟩ := (stopLoop_carried hI).ok hs hstop
    exact ⟨(by intro h; cases h), hend⟩
  rcases ready with _ | _ | _
  · cases h
    exact .inl ⟨(by intro h; cases h), hr₁⟩
  · unfold proceed at h
    rcases hawait : exec (awaitNext k) r₁ with ⟨e | stop, r₂⟩
    · rw [exec_bind_error hawait] at h
      cases h
    have hr₂ := (awaitNext_carried hI).ok hr₁ hawait
    rw [exec_bind_ok hawait] at h
    cases stop with
    | true => exact .inl (hstopped hr₂ h)
    | false => exact .inr ⟨r₂, hr₂, h⟩
  · exact .inl (hstopped hr₁ h)

/-- An iteration after which the loop goes on runs one cycle. -/
theorem iteration_next {drains : Nat}
    (h : exec (Service.iteration k drains) r = (.ok .next, r')) :
    ∃ mid rec, Kept r mid ∧ Accounted k mid r' rec := by
  rcases iteration_cases (unremarkedInvariant r.ctx) (.refl _) h with ⟨hno, -⟩ | ⟨mid, hmid, hrun⟩
  · exact absurd rfl hno
  · obtain ⟨rec, hrec⟩ := runOnce_next hrun
    exact ⟨mid, rec, hmid.kept, hrec⟩

/-! ## Runs -/

theorem Looped.legal (h : Looped k r) : RunnerAt k (fun p => p.resting = true) r := by
  induction h with
  | start env store => exact ⟨fun _ h => (nomatch h), rfl⟩
  | next r r' drains _ hexec ih => exact (iteration_rule drains).ok ih hexec

/-- The committed samples are those of the commits in the trace of the process. -/
theorem Looped.commits (h : Looped k r) :
    (committedCycles r.ctx.trace).map (fun cycle => cycle.commit.observedAt) =
      (committedSamples k r.records).map Sample.observedAt := by
  induction h with
  | start env store => rfl
  | next r r' drains h hexec ih =>
      obtain ⟨mid, rec, hkept, haccount⟩ := iteration_next hexec
      have hlegal : rec.Legal k := (Looped.next r r' drains h hexec).legal.1 rec (by
        rw [haccount.records]
        exact List.mem_append_right _ (List.mem_singleton_self rec))
      obtain ⟨-, -, hcommits⟩ := committedSample?_eq hlegal
      calc (committedCycles r'.ctx.trace).map (fun cycle => cycle.commit.observedAt)
          = (committedCycles mid.ctx.trace).map (fun cycle => cycle.commit.observedAt) ++
              (committedSample? k rec).toList.map Sample.observedAt := by
            rw [haccount.trace, hcommits, haccount.entry]
        _ = (committedSamples k r.records).map Sample.observedAt ++
              (committedSample? k rec).toList.map Sample.observedAt := by
            rw [hkept.context.commits, ih]
        _ = (committedSamples k r'.records).map Sample.observedAt := by
            rw [haccount.records, hkept.records, committedSamples, committedSamples,
              List.filterMap_append, List.map_append]
            cases hsample : committedSample? k rec <;> simp [hsample]

/-- The step of a run: the memory takes up what the cycle has committed. -/
theorem Remembers.next {mid : Runner ω σ} {rec : CycleRecord ω σ} (h : Remembers k r)
    (hkept : Kept r mid) (haccount : Accounted k mid r' rec) (hlegal : rec.Legal k)
    (hagrees : agrees k rec.entry = true) : Remembers k r' := by
  obtain ⟨hsample, hsuccess, -⟩ := committedSample?_eq hlegal
  have htold : rec.outcome.told? = committedSample? k rec := by
    rw [hsample]
    exact (runCycle_ends hlegal.entered hlegal.ran).told hagrees haccount.goes
  have hsamples : committedSamples k r'.records =
      committedSamples k r.records ++ (committedSample? k rec).toList := by
    rw [haccount.records, hkept.records, committedSamples, committedSamples,
      List.filterMap_append]
    cases hsample : committedSample? k rec <;> simp [hsample]
  have hbefore : rec.exit.health.lastSuccess =
      ((committedSamples k r.records).map Sample.observedAt).max? := by
    rw [hsuccess, haccount.entry, hkept.context.success, h.success]
  have hsolar := haccount.solar
  have hlatest := haccount.success
  rw [htold, hkept.solar, h.solar] at hsolar
  rw [htold, hbefore] at hlatest
  cases hcommitted : committedSample? k rec with
  | none =>
      rw [hcommitted] at hsolar hlatest hsamples
      rw [Option.toList_none, List.append_nil] at hsamples
      exact ⟨by rw [hsamples]; exact hsolar, by rw [hsamples]; exact hlatest⟩
  | some sample =>
      rw [hcommitted] at hsolar hlatest hsamples
      rw [Option.toList_some] at hsamples
      refine ⟨?_, ?_⟩
      · rw [hsamples, List.getLast?_concat]
        exact hsolar
      · rw [hsamples, List.map_append, List.map_singleton, max?_concat]
        exact hlatest

/-- By induction on the iterations. -/
theorem Looped.remembers (h : Looped k r) (hagrees : ∀ rec ∈ r.records, agrees k rec.entry = true) :
    Remembers k r := by
  induction h with
  | start env store => exact ⟨rfl, rfl⟩
  | next r r' drains h hexec ih =>
      obtain ⟨mid, rec, hkept, haccount⟩ := iteration_next hexec
      have hrecords : r'.records = r.records ++ [rec] := by
        rw [haccount.records, hkept.records]
      have hmem : rec ∈ r'.records := by
        rw [hrecords]
        exact List.mem_append_right _ (List.mem_singleton_self rec)
      have hearlier : ∀ rec ∈ r.records, agrees k rec.entry = true := by
        intro rec hrec
        exact hagrees rec (by rw [hrecords]; exact List.mem_append_left _ hrec)
      exact (ih hearlier).next hkept haccount ((Looped.next r r' drains h hexec).legal.1 rec hmem)
        (hagrees rec hmem)

/-- **The scheduler's memory follows the committed samples** in every run whose cycles tell by
their outcome what they have committed: whenever the loop picks the next interval, it remembers
the solar activity of the last committed sample and the latest time of a commit. -/
theorem loop_remembers (k : Service.Collector ω σ) (r r' : Runner ω σ) (drains : Nat)
    (hrun : Looped k r) (hagrees : ∀ rec ∈ r.records, agrees k rec.entry = true)
    (hpick : exec (prepare k drains) r = (.ok (some false), r')) : Remembers k r' := by
  have hremembers := hrun.remembers hagrees
  have hkept : Kept r r' := (prepare_kept r drains).ok rfl hpick
  refine ⟨?_, ?_⟩
  · rw [hkept.solar, hkept.records]
    exact hremembers.solar
  · rw [hkept.context.success, hkept.records]
    exact hremembers.success

end

/-! ## A scripted loop -/

/-- The first iteration over a fresh database, and the second one up to the choice of the
interval. -/
def firstIteration (k : Service.Collector Sample SqliteWorld) :
    Except RunError Flow × Runner Sample SqliteWorld :=
  exec (Service.iteration k 3) (Runner.new (sunny 1000000000) ⟨Storage.Db.empty, []⟩)

def firstPick (k : Service.Collector Sample SqliteWorld) :
    Except RunError (Option Bool) × Runner Sample SqliteWorld :=
  exec (prepare k 3) (firstIteration k).2

/-- The loop goes on after its first cycle, and picks an interval. -/
def picks (k : Service.Collector Sample SqliteWorld) : Bool :=
  match (firstIteration k).1, (firstPick k).1 with
  | .ok .next, .ok (some false) => true
  | _, _ => false

theorem picks_looped {k : Service.Collector Sample SqliteWorld} (h : picks k = true) :
    Looped k (firstIteration k).2 ∧
      exec (prepare k 3) (firstIteration k).2 = (.ok (some false), (firstPick k).2) := by
  unfold picks at h
  split at h
  · rename_i hnext hpick
    refine ⟨.next _ _ 3 (.start _ _) (Prod.ext hnext rfl), Prod.ext hpick rfl⟩
  · cases h

/-- The scripted collector, after one cycle. -/
theorem scripted_remembers : Remembers scripted (firstPick scripted).2 ∧
    (firstPick scripted).2.lastSolar = some .active := by
  have hpicks := picks_looped (k := scripted) (by decide +kernel)
  have hagrees : (firstIteration scripted).2.records.all
      (fun rec => agrees scripted rec.entry) = true := by decide +kernel
  exact ⟨loop_remembers scripted _ _ 3 hpicks.1 (fun rec hrec => List.all_eq_true.mp hagrees rec hrec)
    hpicks.2, by decide +kernel⟩

/-- A collector whose session cannot release the link. -/
def clinging : Service.Collector Sample SqliteWorld :=
  { scripted with ports := { scripted.ports with
      ble := { scripted.ports.ble with
        finishCycle := fun _ env => (some (.error .disconnected), env) } } }

/-- A sample that was committed before the cycle failed is forgotten: the loop picks the next
interval as if nothing had been committed. -/
theorem clinging_forgets : ∃ r r', Looped clinging r ∧
    exec (prepare clinging 3) r = (.ok (some false), r') ∧ ¬ Remembers clinging r' := by
  have hpicks := picks_looped (k := clinging) (by decide +kernel)
  refine ⟨_, _, hpicks.1, hpicks.2, ?_⟩
  rintro ⟨hsolar, -⟩
  have hnone : (firstPick clinging).2.lastSolar = none := by decide +kernel
  have hone : (committedSamples clinging (firstPick clinging).2.records).length = 1 := by
    decide +kernel
  rw [hnone] at hsolar
  cases hlast : (committedSamples clinging (firstPick clinging).2.records).getLast? with
  | none => simp [List.getLast?_eq_none_iff.mp hlast] at hone
  | some sample =>
      rw [hlast] at hsolar
      cases hsolar

end VeSmart.Collector
