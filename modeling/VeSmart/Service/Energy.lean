import VeSmart.Domain.Sample

set_option autoImplicit false

/-! # Durable energy fallback integration (`victron-service/src/energy.rs`)

A cycle resolves the cumulative energy of its sample: from the native lifetime yield when the
device confirms it, otherwise by the trapezoid rule from the durable anchor. Arithmetic is
exact. `EnergyPolicy.apply_cases` says once what the policy can do. -/

namespace VeSmart.Service

open VeSmart.Lib VeSmart.Domain

/-- Durable local energy integration state. -/
structure EnergyState where
  totalKwh : F64
  lastPowerWatts : Option F64
  lastSampleAt : Option SystemTime
  deriving DecidableEq

/-- How the resolved cumulative energy was produced this cycle. -/
inductive EnergyKind where
  | native
  | integrated
  | started
  | skipped
  deriving DecidableEq

structure EnergyOutcome where
  kind : EnergyKind
  totalKwh : F64
  skippedGapSeconds : Option Duration
  nextState : EnergyState

/-- Trapezoidal integration policy. -/
structure EnergyPolicy where
  maximumGap : Duration

/-- Confirmed PV power only. -/
def confirmedPvPower (sample : Sample) : Option F64 :=
  (sample.pvPowerWatts.filter (fun m => m.quality = .confirmedNative)).map (fun m => m.value)

/-- The native lifetime yield, if it is confirmed. -/
def confirmedYield (sample : Sample) : Option F64 :=
  (sample.yieldTotalKwh.filter (fun m => m.quality = .confirmedNative)).map (fun m => m.value)

/-- The anchor moves to the observation time of the sample. -/
def updatedState (prev : Option EnergyState) (sample : Sample) : EnergyState where
  totalKwh := (prev.map EnergyState.totalKwh).getD (.finite 0)
  lastPowerWatts := confirmedPvPower sample
  lastSampleAt := some sample.observedAt

/-- The energy in kWh between two power readings `gap` apart: `(prev + cur) / 2` over the
seconds of the gap. -/
def trapezoid (prevPower curPower : F64) (gap : Duration) : F64 :=
  (((prevPower.add curPower).scale (1 / 2)).scale gap.asSecsRat).scale (1 / 3600000)

def EnergyPolicy.apply (policy : EnergyPolicy) (prev : Option EnergyState) (sample : Sample) :
    EnergyOutcome :=
  match confirmedYield sample with
  | some native => ⟨.native, native, none, updatedState prev sample⟩
  | none =>
  match prev with
  | none => ⟨.started, .finite 0, none, updatedState none sample⟩
  | some prev =>
  match prev.lastSampleAt with
  | none => ⟨.started, prev.totalKwh, none, updatedState (some prev) sample⟩
  | some prevAt =>
  -- backward clock or duplicate timestamp: the anchor does not move
  if sample.observedAt ≤ prevAt then ⟨.skipped, prev.totalKwh, none, prev⟩ else
  match confirmedPvPower sample with
  | none => ⟨.skipped, prev.totalKwh, none, prev⟩
  | some curPower =>
  match prev.lastPowerWatts with
  | none => ⟨.started, prev.totalKwh, none, updatedState (some prev) sample⟩
  | some prevPower =>
  let gap := (sample.observedAt.durationSince prevAt).getD 0
  if policy.maximumGap < gap then
    ⟨.skipped, prev.totalKwh, some gap, updatedState (some prev) sample⟩
  else
    let next := { updatedState (some prev) sample with
      totalKwh := prev.totalKwh.add (trapezoid prevPower curPower gap) }
    ⟨.integrated, next.totalKwh, none, next⟩

/-! ## The branches without a native counter -/

section

variable {policy : EnergyPolicy} {prev : EnergyState} {sample : Sample} {anchor : SystemTime}
  {power prevPower : F64}

theorem EnergyPolicy.apply_native {prev : Option EnergyState} {native : F64}
    (h : confirmedYield sample = some native) :
    policy.apply prev sample = ⟨.native, native, none, updatedState prev sample⟩ := by
  simp only [apply, h]

theorem EnergyPolicy.apply_fresh (h : confirmedYield sample = none) :
    policy.apply none sample = ⟨.started, .finite 0, none, updatedState none sample⟩ := by
  simp only [apply, h]

theorem EnergyPolicy.apply_unanchored (h : confirmedYield sample = none)
    (hanchor : prev.lastSampleAt = none) :
    policy.apply (some prev) sample =
      ⟨.started, prev.totalKwh, none, updatedState (some prev) sample⟩ := by
  simp only [apply, h, hanchor]

theorem EnergyPolicy.apply_backward (h : confirmedYield sample = none)
    (hanchor : prev.lastSampleAt = some anchor) (hback : sample.observedAt ≤ anchor) :
    policy.apply (some prev) sample = ⟨.skipped, prev.totalKwh, none, prev⟩ := by
  simp only [apply, h, hanchor, if_pos hback]

theorem EnergyPolicy.apply_powerless (h : confirmedYield sample = none)
    (hanchor : prev.lastSampleAt = some anchor) (hlater : ¬ sample.observedAt ≤ anchor)
    (hpower : confirmedPvPower sample = none) :
    policy.apply (some prev) sample = ⟨.skipped, prev.totalKwh, none, prev⟩ := by
  simp only [apply, h, hanchor, if_neg hlater, hpower]

theorem EnergyPolicy.apply_unpowered (h : confirmedYield sample = none)
    (hanchor : prev.lastSampleAt = some anchor) (hlater : ¬ sample.observedAt ≤ anchor)
    (hpower : confirmedPvPower sample = some power) (hprev : prev.lastPowerWatts = none) :
    policy.apply (some prev) sample =
      ⟨.started, prev.totalKwh, none, updatedState (some prev) sample⟩ := by
  simp only [apply, h, hanchor, if_neg hlater, hpower, hprev]

theorem EnergyPolicy.apply_long (h : confirmedYield sample = none)
    (hanchor : prev.lastSampleAt = some anchor) (hlater : ¬ sample.observedAt ≤ anchor)
    (hpower : confirmedPvPower sample = some power) (hprev : prev.lastPowerWatts = some prevPower)
    {gap : Duration} (hgap : (sample.observedAt.durationSince anchor).getD 0 = gap)
    (hlong : policy.maximumGap < gap) :
    policy.apply (some prev) sample =
      ⟨.skipped, prev.totalKwh, some gap, updatedState (some prev) sample⟩ := by
  simp only [apply, h, hanchor, if_neg hlater, hpower, hprev, hgap, if_pos hlong]

theorem EnergyPolicy.apply_within (h : confirmedYield sample = none)
    (hanchor : prev.lastSampleAt = some anchor) (hlater : ¬ sample.observedAt ≤ anchor)
    (hpower : confirmedPvPower sample = some power) (hprev : prev.lastPowerWatts = some prevPower)
    {gap : Duration} (hgap : (sample.observedAt.durationSince anchor).getD 0 = gap)
    (hshort : ¬ policy.maximumGap < gap) :
    policy.apply (some prev) sample =
      ⟨.integrated, prev.totalKwh.add (trapezoid prevPower power gap), none,
        { updatedState (some prev) sample with
          totalKwh := prev.totalKwh.add (trapezoid prevPower power gap) }⟩ := by
  simp only [apply, h, hanchor, if_neg hlater, hpower, hprev, hgap, if_neg hshort]

end

/-- What an application of the policy can do to the durable state. -/
inductive EnergyStep (prev : Option EnergyState) (sample : Sample) : EnergyOutcome → Prop
  /-- The anchor moves to the sample, and no energy is attributed. -/
  | anchored (kind : EnergyKind) (total : F64) (gap : Option Duration)
      (hkind : kind ≠ .integrated) (hgap : kind = .skipped ↔ gap ≠ none) :
      EnergyStep prev sample ⟨kind, total, gap, updatedState prev sample⟩
  /-- The durable state is kept. -/
  | kept (state : EnergyState) (anchor : SystemTime) (hprev : prev = some state)
      (hanchor : state.lastSampleAt = some anchor) :
      EnergyStep prev sample ⟨.skipped, state.totalKwh, none, state⟩
  /-- The interval from the anchor to the sample is integrated. -/
  | integrated (state : EnergyState) (anchor : SystemTime) (prevPower curPower : F64)
      (hprev : prev = some state) (hanchor : state.lastSampleAt = some anchor)
      (hlt : anchor < sample.observedAt) (hprevPower : state.lastPowerWatts = some prevPower)
      (hcurPower : confirmedPvPower sample = some curPower) :
      EnergyStep prev sample ⟨.integrated,
        state.totalKwh.add (trapezoid prevPower curPower
          (sample.observedAt.nanos - anchor.nanos).toNat), none,
        { updatedState (some state) sample with
          totalKwh := state.totalKwh.add (trapezoid prevPower curPower
            (sample.observedAt.nanos - anchor.nanos).toNat) }⟩

theorem EnergyPolicy.apply_cases (policy : EnergyPolicy) (prev : Option EnergyState)
    (sample : Sample) : EnergyStep prev sample (policy.apply prev sample) := by
  unfold EnergyPolicy.apply
  cases confirmedYield sample with
  | some native => exact .anchored _ _ _ (by decide) (by simp)
  | none =>
  cases prev with
  | none => exact .anchored _ _ _ (by decide) (by simp)
  | some state =>
  dsimp only
  cases hanchor : state.lastSampleAt with
  | none => exact .anchored _ _ _ (by decide) (by simp)
  | some anchor =>
  dsimp only
  by_cases hback : sample.observedAt ≤ anchor
  · rw [if_pos hback]
    exact .kept state anchor rfl hanchor
  rw [if_neg hback]
  have hlt : anchor < sample.observedAt := lt_of_not_ge hback
  cases hcur : confirmedPvPower sample with
  | none => exact .kept state anchor rfl hanchor
  | some curPower =>
  dsimp only
  cases hpower : state.lastPowerWatts with
  | none => exact .anchored _ _ _ (by decide) (by simp)
  | some prevPower =>
  have hgap : (sample.observedAt.durationSince anchor).getD 0 =
      (sample.observedAt.nanos - anchor.nanos).toNat := by
    simp [SystemTime.durationSince, le_of_lt hlt]
  dsimp only
  rw [hgap]
  split
  · exact .anchored _ _ _ (by decide) (by simp)
  · exact .integrated state anchor prevPower curPower rfl hanchor hlt hpower hcur

/-- Unless it is the device's own counter, the resolved total is the one that is stored. -/
theorem EnergyPolicy.apply_total (policy : EnergyPolicy) (prev : Option EnergyState)
    (sample : Sample) (h : (policy.apply prev sample).kind ≠ .native) :
    (policy.apply prev sample).totalKwh = (policy.apply prev sample).nextState.totalKwh := by
  revert h
  unfold EnergyPolicy.apply
  cases confirmedYield sample with
  | some native => exact fun h => absurd rfl h
  | none =>
  cases prev with
  | none => exact fun _ => rfl
  | some state =>
  dsimp only
  repeat' split
  all_goals exact fun _ => rfl

/-- Without a counter in the sample, no counter is resolved. -/
theorem EnergyPolicy.apply_uncounted (policy : EnergyPolicy) (prev : Option EnergyState)
    {sample : Sample} (h : sample.yieldTotalKwh = none) :
    (policy.apply prev sample).kind ≠ .native := by
  have hnone : confirmedYield sample = none := by
    unfold confirmedYield
    rw [h]
    rfl
  unfold EnergyPolicy.apply
  rw [hnone]
  cases prev with
  | none => exact fun hkind => nomatch hkind
  | some state =>
  dsimp only
  repeat' split
  all_goals exact fun hkind => nomatch hkind

/-- What an application of the policy does to the anchor. -/
inductive AnchorStep (prev : Option EnergyState) (sample : Sample) (o : EnergyOutcome) : Prop
  | moved (hgap : o.skippedGapSeconds = none)
      (hanchor : o.nextState.lastSampleAt = some sample.observedAt)
  | kept (hgap : o.skippedGapSeconds = none) (hprev : prev = some o.nextState)
      (anchor : SystemTime) (hanchor : o.nextState.lastSampleAt = some anchor)
  /-- The gap since the anchor is skipped. -/
  | skipped (state : EnergyState) (anchor : SystemTime) (hprev : prev = some state)
      (hfrom : state.lastSampleAt = some anchor) (hlt : anchor < sample.observedAt)
      (hgap : o.skippedGapSeconds = some (sample.observedAt.nanos - anchor.nanos).toNat)
      (hanchor : o.nextState.lastSampleAt = some sample.observedAt)

theorem EnergyPolicy.apply_anchor (policy : EnergyPolicy) (prev : Option EnergyState)
    (sample : Sample) : AnchorStep prev sample (policy.apply prev sample) := by
  unfold EnergyPolicy.apply
  cases confirmedYield sample with
  | some native => exact .moved rfl rfl
  | none =>
  cases prev with
  | none => exact .moved rfl rfl
  | some state =>
  dsimp only
  cases hanchor : state.lastSampleAt with
  | none => exact .moved rfl rfl
  | some anchor =>
  dsimp only
  by_cases hback : sample.observedAt ≤ anchor
  · rw [if_pos hback]
    exact .kept rfl rfl anchor hanchor
  rw [if_neg hback]
  have hlt : anchor < sample.observedAt := lt_of_not_ge hback
  have hgap : (sample.observedAt.durationSince anchor).getD 0 =
      (sample.observedAt.nanos - anchor.nanos).toNat := by
    simp [SystemTime.durationSince, le_of_lt hlt]
  cases confirmedPvPower sample with
  | none => exact .kept rfl rfl anchor hanchor
  | some curPower =>
  dsimp only
  cases state.lastPowerWatts with
  | none => exact .moved rfl rfl
  | some prevPower =>
  dsimp only
  rw [hgap]
  split
  · exact .skipped state anchor rfl hanchor hlt rfl rfl
  · exact .moved rfl rfl

end VeSmart.Service
