import VeSmart.Service.ClaimLog
import VeSmart.Service.CycleSteps

set_option autoImplicit false

/-! # The delivery inside a cycle

A cycle that has committed its batch claims one batch from the spool, and `CycleResult.delivery` is
what has become of the batch that was claimed. This file follows a successful cycle up to its claim
(`runCycle_arrives`), and extends the log of the claims to whole cycles (`runCycle_unlogs`). -/

namespace VeSmart.Service

open VeSmart.Lib VeSmart.Domain

section

variable {ω σ ε α : Type} {k : Collector ω σ}

/-! ## The log decides nothing in a cycle -/

theorem mapErr_unlogs {ε' : Type} (f : ε' → ε) (result : Except ε' α) :
    Unlogs (mapErr f result : Cycle ω (σ × List ClaimedBatch) ε α) (mapErr f result) :=
  fun _ => rfl

theorem goto_unlogs (p : CyclePhase) :
    Unlogs (goto p : Cycle ω (σ × List ClaimedBatch) ε _) (goto p) := by
  intro c
  unfold goto
  rw [exec_ofFun, exec_ofFun]
  have hstate : c.unlogged.state = c.state := rfl
  rw [hstate]
  cases c.state.transition p with
  | error e => rfl
  | ok state =>
      unfold CycleContext.unlogged CycleContext.mapStore
      simp [Event.mapStore]

theorem gotoPhase_unlogs (p : CyclePhase) :
    Unlogs (gotoPhase p : Cycle ω (σ × List ClaimedBatch) _ Unit) (gotoPhase p) :=
  Projects.bind (goto_unlogs p) fun _ => mapErr_unlogs _ _

theorem callBle_unlogs (call : BleCall) (op : Duration → ω → Timed α × ω) :
    Unlogs (callBle k.logged call op : Cycle _ _ ε _) (callBle k call op) :=
  Projects.bind record_unlogs fun _ => onEnv_unlogs _

theorem phase_unlogs (call : BleCall) (op : Duration → ω → Timed α × ω) :
    Unlogs (phase k.logged call op : Cycle _ _ ε _) (phase k call op) := by
  refine Projects.bind (callBle_unlogs call op) fun result => ?_
  cases result <;> exact Projects.pure _

theorem acquire_unlogs : Unlogs (acquire k.logged) (acquire k) := by
  refine Projects.bind (gotoPhase_unlogs _) fun _ => ?_
  refine Projects.bind (phase_unlogs _ _) fun _ => Projects.bind (mapErr_unlogs _ _) fun _ => ?_
  refine Projects.bind (gotoPhase_unlogs _) fun _ => ?_
  refine Projects.bind (phase_unlogs _ _) fun _ => Projects.bind (mapErr_unlogs _ _) fun _ => ?_
  refine Projects.bind (gotoPhase_unlogs _) fun _ => ?_
  refine Projects.bind (onEnv_unlogs _) fun vregs => ?_
  refine Projects.bind (onEnv_unlogs _) fun _ => Projects.bind (mapErr_unlogs _ _) fun plan => ?_
  refine Projects.bind (phase_unlogs _ _) fun _ => Projects.bind (mapErr_unlogs _ _) fun _ => ?_
  refine Projects.bind (gotoPhase_unlogs _) fun _ => ?_
  refine Projects.bind (phase_unlogs _ _) fun _ => Projects.bind (mapErr_unlogs _ _) fun _ => ?_
  refine Projects.bind (gotoPhase_unlogs _) fun _ => ?_
  refine Projects.bind (phase_unlogs _ _) fun _ => Projects.bind (mapErr_unlogs _ _) fun raw => ?_
  refine Projects.bind (gotoPhase_unlogs _) fun _ => ?_
  refine Projects.bind (onEnv_unlogs _) fun _ => Projects.bind (mapErr_unlogs _ _) fun values => ?_
  refine Projects.bind (onEnv_unlogs _) fun _ => Projects.bind (mapErr_unlogs _ _) fun sample => ?_
  exact Projects.ite (fun _ => rfl) (Projects.pure _)

theorem commitSample_unlogs (sample : Sample) (prev : Option EnergyState)
    (energy : EnergyOutcome) :
    Unlogs (commitSample k.logged sample prev energy) (commitSample k sample prev energy) := by
  refine Projects.bind (onEnv_unlogs _) fun now => ?_
  refine Projects.bind (onStore_unlogs fun _ => rfl) fun _ => ?_
  refine Projects.bind (mapErr_unlogs _ _) fun spool => ?_
  refine Projects.bind (onEnv_unlogs _) fun now' => Projects.getThen fun c => ?_
  refine Projects.bind (onEnv_unlogs _) fun _ => Projects.bind (mapErr_unlogs _ _) fun payload => ?_
  refine Projects.bind (onStore_unlogs fun _ => rfl) fun result => ?_
  refine Projects.bind record_unlogs fun _ => Projects.bind (mapErr_unlogs _ _) fun outcome => ?_
  cases outcome with
  | committed => exact Projects.bind (updateHealth_unlogs _) fun _ => Projects.pure _
  | alreadyCommitted => exact Projects.pure _

theorem persist_unlogs (sample : Sample) : Unlogs (persist k.logged sample) (persist k sample) := by
  refine Projects.bind (gotoPhase_unlogs _) fun _ => Projects.ite (fun _ => rfl) ?_
  refine Projects.bind (onStore_unlogs fun _ => rfl) fun _ => ?_
  refine Projects.bind (mapErr_unlogs _ _) fun prev => ?_
  refine Projects.bind (onStore_unlogs fun _ => rfl) fun _ => ?_
  refine Projects.bind (mapErr_unlogs _ _) fun success => ?_
  exact Projects.ite (Projects.pure _) (commitSample_unlogs sample prev _)

theorem deliverFresh_unlogs (duplicate : Bool) :
    Unlogs (deliverFresh k.logged duplicate) (deliverFresh k duplicate) := by
  refine Projects.ite (Projects.pure _) ?_
  refine Projects.bind (gotoPhase_unlogs _) fun _ => Projects.bind (onEnv_unlogs _) fun now => ?_
  refine Projects.bind (onStore_unlogs fun _ => rfl) fun claimed => ?_
  rcases claimed with e | _ | claim
  · exact Projects.pure _
  · exact Projects.pure _
  · exact deliverClaim_unlogs claim

theorem release_unlogs : Unlogs (release k.logged) (release k) := by
  refine Projects.bind (gotoPhase_unlogs _) fun _ => ?_
  refine Projects.bind (phase_unlogs _ _) fun _ => Projects.bind (mapErr_unlogs _ _) fun _ => ?_
  exact gotoPhase_unlogs _

theorem cycleStates_unlogs : Unlogs (cycleStates k.logged) (cycleStates k) := by
  refine Projects.bind acquire_unlogs fun sample => ?_
  refine Projects.bind (persist_unlogs sample) fun persisted => ?_
  refine Projects.bind (onEnv_unlogs _) fun stop => Projects.ite (Projects.pure _) ?_
  refine Projects.bind (deliverFresh_unlogs _) fun delivery => ?_
  exact Projects.bind release_unlogs fun _ => Projects.pure _

theorem finishGracefully_unlogs (p : CyclePhase) (sample : Sample) :
    Unlogs (finishGracefully k.logged p sample : Cycle _ _ ε _) (finishGracefully k p sample) := by
  refine Projects.bind (Projects.attempt ?_) fun result => ?_
  · refine Projects.bind (goto_unlogs _) fun _ => Projects.bind (mapErr_unlogs _ _) fun _ => ?_
    refine Projects.bind (callBle_unlogs _ _) fun _ => ?_
    exact Projects.bind (goto_unlogs _) fun _ => mapErr_unlogs _ _
  · cases result <;> exact Projects.pure _

theorem finishFailed_unlogs (p : CyclePhase) (error : CycleError) :
    Unlogs (finishFailed k.logged p error : Cycle _ _ ε _) (finishFailed k p error) := by
  refine Projects.bind (updateHealth_unlogs _) fun _ => ?_
  refine Projects.bind (Projects.attempt ?_) fun result => ?_
  · refine Projects.getThen fun c => ?_
    have hrest : Unlogs (do
        let _ ← callBle k.logged .disconnect k.logged.ports.ble.disconnect
        mapErr CycleError.state (← goto .backoff)) (do
        let _ ← callBle k .disconnect k.ports.ble.disconnect
        mapErr CycleError.state (← goto .backoff)) :=
      Projects.bind (callBle_unlogs _ _) fun _ =>
        Projects.bind (goto_unlogs _) fun _ => mapErr_unlogs _ _
    refine Projects.ite ?_ hrest
    exact Projects.bind (goto_unlogs _) fun _ => Projects.bind (mapErr_unlogs _ _) fun _ => hrest
  · cases result <;> exact Projects.pure _

/-- **The log is not in the way of a cycle.** -/
theorem runCycle_unlogs : Unlogs (runCycle k.logged : Cycle _ _ ε _) (runCycle k) := by
  refine Projects.bind (Projects.attempt cycleStates_unlogs) fun result => ?_
  rcases result with ⟨p, error⟩ | result | ⟨p, sample⟩
  · exact finishFailed_unlogs p error
  · exact Projects.pure _
  · exact finishGracefully_unlogs p sample

/-! ## Up to the claim -/

/-- A successful cycle up to the clock reading of its delivery. -/
def arrive (k : Collector ω σ) : Cycle ω σ (CyclePhase × CycleError) (Sample × SystemTime) := do
  let sample ← acquire k
  let _ ← persist k sample
  let _ ← onEnv k.ports.shutdownRequested
  gotoPhase .delivering
  let now ← onEnv k.ports.now
  pure (sample, now)

theorem arrive_unlogs : Unlogs (arrive k.logged) (arrive k) := by
  refine Projects.bind acquire_unlogs fun sample => ?_
  refine Projects.bind (persist_unlogs sample) fun _ => Projects.bind (onEnv_unlogs _) fun _ => ?_
  refine Projects.bind (gotoPhase_unlogs _) fun _ => ?_
  exact Projects.bind (onEnv_unlogs _) fun now => Projects.pure _

/-- Nothing has been stored or delivered since `start`. -/
def Untouched (start c : CycleContext ω σ) : Prop :=
  c.store = start.store ∧ c.deliveries = start.deliveries

variable {start : CycleContext ω σ}

theorem Untouched.record {c : CycleContext ω σ} (h : Untouched start c) {e : Event σ}
    (he : e.delivered? = none) : Untouched start { c with trace := c.trace ++ [e] } := by
  refine ⟨h.1, ?_⟩
  rw [deliveries_record, he, h.2]
  exact List.append_nil _

theorem gotoPhase_untouched (p : CyclePhase) :
    Triple (Untouched start) (gotoPhase p)
      (fun _ c => Untouched start c ∧ c.state.current = p) (fun _ _ => True) := by
  intro c h
  by_cases hlegal : c.state.current.canTransitionTo p = true
  · rw [exec_gotoPhase c hlegal]
    exact ⟨h.record rfl, rfl⟩
  · have hrefused : c.state.transition p = .error ⟨c.state.current, p⟩ := by
      simp [StateMachine.transition, hlegal]
    unfold gotoPhase goto
    rw [exec_bind, exec_ofFun, hrefused]
    trivial

theorem phase_untouched {p : CyclePhase} (call : BleCall) (op : Duration → ω → Timed α × ω) :
    Triple (fun c => Untouched start c ∧ c.state.current = p)
      (phase k call op : Cycle ω σ ε (Except BleError α))
      (fun _ c => Untouched start c ∧ c.state.current = p) (fun _ _ => True) :=
  phase_rule fun _ _ _ h => ⟨h.1.record rfl, h.2⟩

theorem onEnv_untouched {p : CyclePhase} (f : ω → α × ω) :
    Triple (fun c => Untouched start c ∧ c.state.current = p) (onEnv f : Cycle ω σ ε α)
      (fun _ c => Untouched start c ∧ c.state.current = p) (fun _ _ => True) :=
  onEnv_rule fun _ _ _ h => h

theorem mapErr_untouched {ε' : Type} {p : CyclePhase} (f : ε' → ε) (result : Except ε' α) :
    Triple (fun c => Untouched start c ∧ c.state.current = p) (mapErr f result : Cycle ω σ ε α)
      (fun _ c => Untouched start c ∧ c.state.current = p) (fun _ _ => True) :=
  mapErr_rule (fun _ _ h _ => h) fun _ _ _ _ => trivial

/-- An acquisition from any phase stores and delivers nothing. -/
theorem acquire_untouched : Triple (Untouched start) (acquire k)
    (fun _ c => Untouched start c ∧ c.state.current = .collecting) (fun _ _ => True) := by
  have hgoto : ∀ {p q : CyclePhase}, Triple (fun c => Untouched start c ∧ c.state.current = p)
      (gotoPhase q) (fun _ c => Untouched start c ∧ c.state.current = q) (fun _ _ => True) :=
    fun {p q} => (gotoPhase_untouched q).conseq (fun _ h => h.1) (fun _ _ h => h) fun _ _ h => h
  refine Triple.bind (gotoPhase_untouched _) fun _ => ?_
  refine Triple.bind (phase_untouched _ _) fun _ => Triple.bind (mapErr_untouched _ _) fun _ => ?_
  refine Triple.bind hgoto fun _ => ?_
  refine Triple.bind (phase_untouched _ _) fun _ => Triple.bind (mapErr_untouched _ _) fun _ => ?_
  refine Triple.bind hgoto fun _ => Triple.bind (onEnv_untouched _) fun vregs => ?_
  refine Triple.bind (onEnv_untouched _) fun _ => Triple.bind (mapErr_untouched _ _) fun plan => ?_
  refine Triple.bind (phase_untouched _ _) fun _ => Triple.bind (mapErr_untouched _ _) fun _ => ?_
  refine Triple.bind hgoto fun _ => ?_
  refine Triple.bind (phase_untouched _ _) fun _ => Triple.bind (mapErr_untouched _ _) fun _ => ?_
  refine Triple.bind hgoto fun _ => ?_
  refine Triple.bind (phase_untouched _ _) fun _ => Triple.bind (mapErr_untouched _ _) fun raw => ?_
  refine Triple.bind hgoto fun _ => Triple.bind (onEnv_untouched _) fun _ => ?_
  refine Triple.bind (mapErr_untouched _ _) fun values => Triple.bind (onEnv_untouched _) fun _ => ?_
  refine Triple.bind (mapErr_untouched _ _) fun sample => ?_
  split
  · exact Triple.throw fun _ _ => trivial
  · exact Triple.pure fun _ h => h

/-- How the delivery of a cycle ends that claims at `now`. -/
inductive FreshEnds (k : Collector ω σ) (now : SystemTime) (mid : CycleContext ω σ) :
    DeliveryStatus → CycleContext ω σ → Prop
  | failed (e : StorageError) (hclaim :
      (k.ports.storage.spoolClaimNext k.config.spoolClaimTtl now mid.store).1 = .error e) :
      FreshEnds k now mid (.failed e) { mid with
        store := (k.ports.storage.spoolClaimNext k.config.spoolClaimTtl now mid.store).2 }
  | unclaimed (hclaim :
      (k.ports.storage.spoolClaimNext k.config.spoolClaimTtl now mid.store).1 = .ok none) :
      FreshEnds k now mid (.queued 0) { mid with
        store := (k.ports.storage.spoolClaimNext k.config.spoolClaimTtl now mid.store).2 }
  | claimed (claim : ClaimedBatch) (status : DeliveryStatus) (last : CycleContext ω σ) (hclaim :
      (k.ports.storage.spoolClaimNext k.config.spoolClaimTtl now mid.store).1 = .ok (some claim))
      (hdeliver : exec (deliverClaim k claim : Cycle ω σ (CyclePhase × CycleError) _) { mid with
        store := (k.ports.storage.spoolClaimNext k.config.spoolClaimTtl now mid.store).2 } =
          (.ok status, last)) : FreshEnds k now mid status last

/-- The durable step delivers nothing. -/
theorem PersistStep.deliveries {sample : Sample}
    {r : Except (CyclePhase × CycleError) (EnergyOutcome × Bool)} {c : CycleContext ω σ}
    (h : PersistStep k sample start r c) : c.deliveries = start.deliveries := by
  have hevents : ∀ events : List (Event σ), (∀ e ∈ events, e.delivered? = none) →
      c.trace = start.trace ++ events → c.deliveries = start.deliveries := by
    intro events hnone htrace
    unfold CycleContext.deliveries
    rw [htrace, List.filterMap_append, List.filterMap_eq_nil_iff.mpr hnone, List.append_nil]
  cases h with
  | refused _ _ _ _ _ _ htrace => exact hevents _ (by simp [Event.delivered?]) htrace
  | duplicate _ _ _ _ _ _ _ _ _ htrace => exact hevents _ (by simp [Event.delivered?]) htrace
  | commit =>
      rename_i htrace
      exact hevents _ (by simp [Event.delivered?]) htrace

theorem release_untouched : Triple (Untouched start) (release k) (fun _ => Untouched start)
    (fun _ _ => True) := by
  refine Triple.bind (gotoPhase_untouched _) fun _ => ?_
  refine Triple.bind (phase_untouched _ _) fun _ => Triple.bind (mapErr_untouched _ _) fun _ => ?_
  exact (gotoPhase_untouched _).conseq (fun _ h => h.1) (fun _ _ h => h.1) fun _ _ h => h

/-- **A successful cycle that is no duplicate arrives at its claim** with the storage that the
commit has left, and ends with what the claim has come to. -/
theorem cycleStates_arrives {c : CycleContext ω σ} {result : CycleResult}
    (h : exec (cycleStates k) start = (.ok (.done result), c))
    (hfresh : result.duplicate = false) :
    ∃ now mid persisted energy late last, exec (arrive k) start = (.ok (result.sample, now), mid) ∧
      persisted.store = start.store ∧
      PersistStep k result.sample persisted (.ok (energy, false)) late ∧
      mid.store = late.store ∧ mid.deliveries = start.deliveries ∧
      FreshEnds k now mid result.delivery last ∧ c.store = last.store ∧
      c.deliveries = last.deliveries := by
  obtain ⟨sample, c₁, hacquire, h⟩ := exec_bind_inv h
  obtain ⟨⟨energy, duplicate⟩, late, hpersist, h⟩ := exec_bind_inv h
  obtain ⟨stop, c₂, hstop, h⟩ := exec_bind_inv h
  cases stop with
  | true => cases h
  | false =>
  obtain ⟨delivery, last, hdeliver, h⟩ := exec_bind_inv h
  obtain ⟨_, c₃, hrelease, h⟩ := exec_bind_inv h
  obtain rfl : c₃ = c := congrArg Prod.snd h
  obtain rfl : doneResult k sample energy duplicate delivery = result :=
    Step.done.inj (Except.ok.inj (congrArg Prod.fst h))
  obtain rfl : duplicate = false := hfresh
  -- the delivery step of a sample that is no duplicate
  obtain ⟨_, c₄, hgoto, hdeliver⟩ := exec_bind_inv hdeliver
  obtain ⟨now, mid, hnow, hdeliver⟩ := exec_bind_inv hdeliver
  obtain ⟨claimed, c₅, hclaim, hdeliver⟩ := exec_bind_inv hdeliver
  have harrive : exec (arrive k) start = (.ok (sample, now), mid) := by
    unfold arrive
    rw [exec_bind_ok hacquire, exec_bind_ok hpersist, exec_bind_ok hstop, exec_bind_ok hgoto,
      exec_bind_ok hnow]
    rfl
  obtain ⟨huntouched, hcurrent⟩ := acquire_untouched.ok ⟨rfl, rfl⟩ hacquire
  have hstep := persist_steps (k := k) sample c₁ hcurrent
  rw [hpersist] at hstep
  -- the calls of the environment and the phases in between leave the storage alone
  obtain rfl : { late with env := (k.ports.shutdownRequested late.env).2 } = c₂ :=
    congrArg Prod.snd hstop
  obtain ⟨⟨hstored, hdelivered⟩, -⟩ := (gotoPhase_untouched _).ok ⟨rfl, rfl⟩ hgoto
  obtain rfl : { c₄ with env := (k.ports.now c₄.env).2 } = mid := congrArg Prod.snd hnow
  obtain ⟨hreleased, hquiet⟩ := release_untouched.ok ⟨rfl, rfl⟩ hrelease
  refine ⟨now, _, c₁, energy, late, last, harrive, huntouched.1, hstep, ?_, ?_, ?_, hreleased,
    hquiet⟩
  · exact hstored
  · calc c₄.deliveries = late.deliveries := hdelivered
      _ = c₁.deliveries := hstep.deliveries
      _ = start.deliveries := huntouched.2
  · have hclaimed : (k.ports.storage.spoolClaimNext k.config.spoolClaimTtl now c₄.store).1 =
        claimed := Except.ok.inj (congrArg Prod.fst hclaim)
    obtain rfl : { c₄ with
        env := (k.ports.now c₄.env).2
        store := (k.ports.storage.spoolClaimNext k.config.spoolClaimTtl now c₄.store).2 } = c₅ :=
      congrArg Prod.snd hclaim
    rcases claimed with e | _ | claim
    · cases hdeliver
      exact .failed e hclaimed
    · cases hdeliver
      exact .unclaimed hclaimed
    · exact .claimed claim delivery last hclaimed hdeliver

/-- Only a walk that has gone to its end is a success. -/
theorem runCycle_success {c : CycleContext ω σ} {result : CycleResult}
    (h : exec (runCycle k : Cycle ω σ ε _) start = (.ok (.success result), c)) :
    exec (cycleStates k) start = (.ok (.done result), c) := by
  obtain ⟨walk, c₁, hwalk, h⟩ := exec_bind_inv h
  rw [exec_attempt] at hwalk
  obtain rfl : (exec (cycleStates k) start).2 = c₁ := congrArg Prod.snd hwalk
  have hresult : (exec (cycleStates k) start).1 = walk := Except.ok.inj (congrArg Prod.fst hwalk)
  rcases walk with ⟨p, error⟩ | result' | ⟨p, sample⟩
  · -- a failed walk is torn down, and reported as a failure
    obtain ⟨_, c₂, -, h⟩ := exec_bind_inv h
    obtain ⟨torn, c₃, -, h⟩ := exec_bind_inv h
    cases torn <;> cases h
  · cases h
    exact Prod.ext hresult rfl
  · obtain ⟨torn, c₂, -, h⟩ := exec_bind_inv h
    cases torn <;> cases h

end

end VeSmart.Service
