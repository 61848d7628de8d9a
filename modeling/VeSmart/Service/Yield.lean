import VeSmart.Service.Integration

set_option autoImplicit false

/-! # The reported yield along a run of samples

`EnergyPolicy.apply` is threaded through a sequence of samples: the next state of one is the
durable state of the next one. The reported total of a sample is its native yield, or the
accumulator if it has none. The accumulator never falls, and it does not follow the native
counter; `yield_nondecreasing_iff` says what that means for the reported totals. -/

namespace VeSmart.Service

open VeSmart.Lib VeSmart.Domain

/-- The outcomes of a sequence of samples, from a durable state. -/
def energyRun (policy : EnergyPolicy) : Option EnergyState → List Sample → List EnergyOutcome
  | _, [] => []
  | prev, sample :: rest =>
      policy.apply prev sample ::
        energyRun policy (some (policy.apply prev sample).nextState) rest

/-- The value in kWh. -/
def kwh (x : F64) : ℚ := x.toRat?.getD 0

/-- The energy of the interval from the anchor of the state to the sample, if it is integrated. -/
def attributed (policy : EnergyPolicy) (state : EnergyState) (sample : Sample) : ℚ :=
  match state.lastSampleAt with
  | none => 0
  | some anchor =>
      let gap := (sample.observedAt.durationSince anchor).getD 0
      if sample.observedAt ≤ anchor ∨ policy.maximumGap < gap then 0
      else area state.lastPowerWatts (confirmedPvPower sample) gap

/-- The sample `next`, which meets the state `state` that `sample` has left, continues the
series. -/
def Continues (policy : EnergyPolicy) (sample : Sample) (state : EnergyState) (next : Sample) :
    Prop :=
  match confirmedYield sample, confirmedYield next with
  -- the native counter goes on
  | some _, some _ => True
  -- the native counter disappears: the accumulator has to have reached its last reading
  | some native, none => kwh native ≤ kwh state.totalKwh + attributed policy state next
  -- the native counter appears: it has to have reached the accumulator
  | none, some native => kwh state.totalKwh ≤ kwh native
  -- the accumulator goes on: it falls only after a durable anchor of negative power
  | none, none => 0 ≤ attributed policy state next

/-- Every sample continues the series of the one before it. -/
def Seamless (policy : EnergyPolicy) : Option EnergyState → List Sample → Prop
  | prev, sample :: next :: rest =>
      Continues policy sample (policy.apply prev sample).nextState next ∧
        Seamless policy (some (policy.apply prev sample).nextState) (next :: rest)
  | _, _ => True

/-- The total and the power of the anchor are numbers. -/
structure EnergyState.Finite (state : EnergyState) : Prop where
  total : state.totalKwh.isFinite = true
  power : ∀ p ∈ state.lastPowerWatts, p.isFinite = true

section

variable {policy : EnergyPolicy} {prev : Option EnergyState} {state : EnergyState}
  {sample next : Sample}

theorem kwh_eq {x : F64} {q : ℚ} (h : x.toRat? = some q) : kwh x = q := by
  simp only [kwh, h, Option.getD_some]

theorem toRat?_kwh {x : F64} (h : x.isFinite = true) : x.toRat? = some (kwh x) := by
  obtain ⟨q, hq⟩ := Option.isSome_iff_exists.mp h
  rw [kwh_eq hq, hq]

theorem le_iff_kwh {x y : F64} (hx : x.isFinite = true) (hy : y.isFinite = true) :
    x.le y = true ↔ kwh x ≤ kwh y :=
  F64.le_iff (toRat?_kwh hx) (toRat?_kwh hy)

theorem StoredEnergy.toState_finite (stored : StoredEnergy) : stored.toState.Finite where
  total := rfl
  power := by
    intro p hp
    obtain ⟨q, -, rfl⟩ := Option.map_eq_some_iff.mp hp
    rfl

theorem confirmedPvPower_isFinite {power : F64} (h : confirmedPvPower sample = some power) :
    power.isFinite = true := by
  obtain ⟨q, hq, -, -⟩ := confirmedPvPower_finite h
  rw [F64.isFinite, hq]
  rfl

theorem confirmedYield_finite {native : F64} (h : confirmedYield sample = some native) :
    native.isFinite = true := by
  unfold confirmedYield at h
  obtain ⟨reading, -, rfl⟩ := Option.map_eq_some_iff.mp h
  exact reading.finite

/-- The state after a sample is made of numbers again. -/
theorem EnergyPolicy.apply_finite (policy : EnergyPolicy) (hprev : ∀ s ∈ prev, s.Finite)
    (sample : Sample) : (policy.apply prev sample).nextState.Finite := by
  have hconfirmed : ∀ p ∈ confirmedPvPower sample, p.isFinite = true :=
    fun p hp => confirmedPvPower_isFinite hp
  have hstep := policy.apply_cases prev sample
  generalize policy.apply prev sample = energy at hstep ⊢
  cases hstep with
  | anchored kind total gap hkind hgap =>
      refine ⟨?_, hconfirmed⟩
      cases prev with
      | none => rfl
      | some state => exact (hprev state rfl).total
  | kept state anchor hstate hanchor => exact hprev state hstate
  | integrated state anchor prevPower curPower hstate hanchor hlt hprevPower hcurPower =>
      have hfinite := hprev state hstate
      have hpower := toRat?_kwh (hfinite.power prevPower hprevPower)
      have hcur := toRat?_kwh (hconfirmed curPower hcurPower)
      have hsum := F64.toRat?_add (toRat?_kwh hfinite.total) (trapezoid_toRat hpower hcur
        (sample.observedAt.nanos - anchor.nanos).toNat)
      refine ⟨?_, hconfirmed⟩
      rw [F64.isFinite, hsum]
      rfl

/-- Without a native counter the policy reports the accumulator that it leaves. -/
theorem EnergyPolicy.apply_reports (h : confirmedYield sample = none) :
    (policy.apply prev sample).totalKwh = (policy.apply prev sample).nextState.totalKwh := by
  cases prev with
  | none =>
      rw [apply_fresh h]
      rfl
  | some state =>
  cases hanchor : state.lastSampleAt with
  | none =>
      rw [apply_unanchored h hanchor]
      rfl
  | some anchor =>
  by_cases hback : sample.observedAt ≤ anchor
  · rw [apply_backward h hanchor hback]
  cases hpower : confirmedPvPower sample with
  | none => rw [apply_powerless h hanchor hback hpower]
  | some power =>
  cases hprev : state.lastPowerWatts with
  | none =>
      rw [apply_unpowered h hanchor hback hpower hprev]
      rfl
  | some prevPower =>
  by_cases hlong : policy.maximumGap < (sample.observedAt.durationSince anchor).getD 0
  · rw [apply_long h hanchor hback hpower hprev rfl hlong]
    rfl
  · rw [apply_within h hanchor hback hpower hprev rfl hlong]

/-- Without a native counter the accumulator grows by the attributed energy. One case per branch of
the fallback. -/
theorem EnergyPolicy.apply_accumulates (h : confirmedYield sample = none) (hstate : state.Finite) :
    kwh (policy.apply (some state) sample).nextState.totalKwh =
      kwh state.totalKwh + attributed policy state sample := by
  unfold attributed
  cases hanchor : state.lastSampleAt with
  | none =>
      rw [apply_unanchored h hanchor]
      exact (add_zero _).symm
  | some anchor =>
  dsimp only
  by_cases hback : sample.observedAt ≤ anchor
  · rw [apply_backward h hanchor hback, if_pos (.inl hback)]
    exact (add_zero _).symm
  cases hpower : confirmedPvPower sample with
  | none =>
      rw [apply_powerless h hanchor hback hpower]
      simp [area]
  | some power =>
  cases hprev : state.lastPowerWatts with
  | none =>
      rw [apply_unpowered h hanchor hback hpower hprev]
      simp [area, updatedState]
  | some prevPower =>
  by_cases hlong : policy.maximumGap < (sample.observedAt.durationSince anchor).getD 0
  · rw [apply_long h hanchor hback hpower hprev rfl hlong, if_pos (.inr hlong)]
    exact (add_zero _).symm
  · rw [apply_within h hanchor hback hpower hprev rfl hlong,
      if_neg (not_or.mpr ⟨hback, hlong⟩)]
    have hz := trapezoid_toRat (toRat?_kwh (hstate.power prevPower hprev))
      (toRat?_kwh (confirmedPvPower_isFinite hpower))
      ((sample.observedAt.durationSince anchor).getD 0)
    have hsum := F64.toRat?_add (toRat?_kwh hstate.total) hz
    calc kwh (state.totalKwh.add (trapezoid prevPower power
          ((sample.observedAt.durationSince anchor).getD 0)))
        = kwh state.totalKwh + kwh (trapezoid prevPower power
            ((sample.observedAt.durationSince anchor).getD 0)) := by
          rw [kwh_eq hsum, kwh_eq hz]
      _ = kwh state.totalKwh + area (some prevPower) (some power)
            ((sample.observedAt.durationSince anchor).getD 0) := rfl

/-- Two consecutive outcomes, the second from the state that the first has left. -/
theorem continues_iff (policy : EnergyPolicy) (hprev : ∀ s ∈ prev, s.Finite)
    (hnative : ∀ a ∈ confirmedYield sample, ∀ b ∈ confirmedYield next, kwh a ≤ kwh b) :
    (policy.apply prev sample).totalKwh.le
        (policy.apply (some (policy.apply prev sample).nextState) next).totalKwh = true ↔
      Continues policy sample (policy.apply prev sample).nextState next := by
  have hstate : (policy.apply prev sample).nextState.Finite := policy.apply_finite hprev sample
  have hafter : (policy.apply (some (policy.apply prev sample).nextState) next).nextState.Finite :=
    policy.apply_finite (by rintro s ⟨⟩; exact hstate) next
  unfold Continues
  cases hs : confirmedYield sample with
  | some a =>
      have ha : (policy.apply prev sample).totalKwh = a := by rw [EnergyPolicy.apply_native hs]
      rw [ha]
      cases hn : confirmedYield next with
      | some b =>
          rw [EnergyPolicy.apply_native hn,
            le_iff_kwh (confirmedYield_finite hs) (confirmedYield_finite hn)]
          exact iff_true_intro (hnative a hs b hn)
      | none =>
          rw [EnergyPolicy.apply_reports hn, le_iff_kwh (confirmedYield_finite hs) hafter.total,
            EnergyPolicy.apply_accumulates hn hstate]
  | none =>
      rw [EnergyPolicy.apply_reports hs]
      cases hn : confirmedYield next with
      | some b =>
          rw [EnergyPolicy.apply_native hn, le_iff_kwh hstate.total (confirmedYield_finite hn)]
      | none =>
          rw [EnergyPolicy.apply_reports hn, le_iff_kwh hstate.total hafter.total,
            EnergyPolicy.apply_accumulates hn hstate]
          exact le_add_iff_nonneg_right _

/-- By induction on the samples: the outcomes form a chain exactly when every sample continues the
one before it. -/
theorem energyRun_chain_iff (samples : List Sample) (hprev : ∀ s ∈ prev, s.Finite)
    (hnative : (samples.filterMap confirmedYield).Pairwise (fun a b => kwh a ≤ kwh b)) :
    (energyRun policy prev samples).IsChain (fun a b => a.totalKwh.le b.totalKwh = true) ↔
      Seamless policy prev samples := by
  induction samples generalizing prev with
  | nil => simp [energyRun, Seamless]
  | cons sample rest ih =>
      cases rest with
      | nil => simp [energyRun, Seamless]
      | cons next rest =>
          have hstate : (policy.apply prev sample).nextState.Finite :=
            policy.apply_finite hprev sample
          have hrest : ((next :: rest).filterMap confirmedYield).Pairwise
              (fun a b => kwh a ≤ kwh b) :=
            hnative.sublist ((List.sublist_cons_self sample (next :: rest)).filterMap _)
          have hpair : ∀ a ∈ confirmedYield sample, ∀ b ∈ confirmedYield next, kwh a ≤ kwh b := by
            intro a ha b hb
            rw [List.filterMap_cons_some ha] at hnative
            exact List.rel_of_pairwise_cons hnative
              (List.mem_filterMap.mpr ⟨next, List.mem_cons_self, hb⟩)
          have hstep := continues_iff policy hprev hpair
          have hnext : ∀ s ∈ some (policy.apply prev sample).nextState, s.Finite := by
            rintro s ⟨⟩
            exact hstate
          have hrun := ih hnext hrest
          simp only [energyRun] at hrun ⊢
          rw [List.isChain_cons_cons, hrun, hstep]
          rfl

end

/-- **When the reported yield never decreases**, from any durable state and for any samples whose
confirmed native readings do not decrease: exactly when, at every change between the native counter
and the fallback, the series continues. -/
theorem yield_nondecreasing_iff (policy : EnergyPolicy) (durable : Option StoredEnergy)
    (samples : List Sample)
    (hnative : (samples.filterMap confirmedYield).Pairwise (fun a b => kwh a ≤ kwh b)) :
    (energyRun policy (durable.map StoredEnergy.toState) samples).IsChain
        (fun a b => a.totalKwh.le b.totalKwh = true) ↔
      Seamless policy (durable.map StoredEnergy.toState) samples := by
  apply energyRun_chain_iff samples ?_ hnative
  intro state hstate
  obtain ⟨stored, -, rfl⟩ := Option.map_eq_some_iff.mp hstate
  exact stored.toState_finite

/-- A sample with 100 W of confirmed PV power and the native yield `native`. -/
def yieldSample (native : Option (Reading yieldTotalKwh)) (nanos : Int) : Sample where
  device := solarCharger
  observedAt := ⟨nanos⟩
  pvVoltageVolts := none
  pvCurrentAmperes := none
  pvPowerWatts := some hundredWatts
  batteryVoltageVolts := none
  batteryCurrentAmperes := none
  loadCurrentAmperes := none
  loadPowerWatts := none
  yieldTotalKwh := native
  yieldTodayKwh := none
  bleRssiDbm := none
  chargerState := none
  loadState := none
  connectionHealth := none

/-- A confirmed native yield of 12345 kWh. -/
def nativeYield : Reading yieldTotalKwh :=
  ⟨⟨.finite 12345, .confirmedNative, by decide⟩, by decide +kernel⟩

theorem fallback_nondecreasing :
    (energyRun ⟨.fromSecs 300⟩ (Option.map StoredEnergy.toState (some ⟨7, some 40, some 500⟩))
      [yieldSample none 1000000000, yieldSample none 61000000000]).IsChain
        (fun a b => a.totalKwh.le b.totalKwh = true) :=
  (yield_nondecreasing_iff ⟨.fromSecs 300⟩ (some ⟨7, some 40, some 500⟩)
    [yieldSample none 1000000000, yieldSample none 61000000000]
    (show List.Pairwise _ [] from .nil)).mpr
      ⟨show (0 : ℚ) ≤ attributed _ _ _ by decide +kernel, trivial⟩

/-- The native counter is at 12345 kWh and is missing a minute later: the reported total falls to
the energy of one minute. -/
theorem lostCounter_decreases :
    [yieldSample (some nativeYield) 1000000000, yieldSample none 61000000000].Pairwise
        (fun s t => s.observedAt < t.observedAt) ∧
      ([yieldSample (some nativeYield) 1000000000, yieldSample none 61000000000].filterMap
        confirmedYield).Pairwise (fun a b => kwh a ≤ kwh b) ∧
      ¬ (energyRun ⟨.fromSecs 300⟩ (Option.map StoredEnergy.toState none)
        [yieldSample (some nativeYield) 1000000000, yieldSample none 61000000000]).IsChain
          (fun a b => a.totalKwh.le b.totalKwh = true) := by
  refine ⟨by decide +kernel, List.pairwise_singleton _ _, ?_⟩
  intro h
  have hstep := List.isChain_cons_cons.mp h
  exact absurd hstep.1 (by decide +kernel)

end VeSmart.Service
