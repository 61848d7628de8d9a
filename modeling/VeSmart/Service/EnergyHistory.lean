import VeSmart.Service.Yield

set_option autoImplicit false

/-! # The anchor and the intervals along a run of samples

The fallback keeps the anchor where it is when the clock has gone backward; a confirmed native
yield moves it to the observation time of its sample, whatever that is. `energyHistory_iff` says
that nothing else can move the anchor back or make integrated intervals overlap. -/

namespace VeSmart.Service

open VeSmart.Lib VeSmart.Domain

def anchorOf (prev : Option EnergyState) : Option SystemTime := prev.bind EnergyState.lastSampleAt

/-- The durable states of a run, the first one included. -/
def energyStates (policy : EnergyPolicy) :
    Option EnergyState → List Sample → List (Option EnergyState)
  | prev, [] => [prev]
  | prev, sample :: rest =>
      prev :: energyStates policy (some (policy.apply prev sample).nextState) rest

/-- The interval that is integrated at a sample: from the anchor to the observation time. -/
def integratedAt (policy : EnergyPolicy) (prev : Option EnergyState) (sample : Sample) :
    Option (SystemTime × SystemTime) :=
  if (policy.apply prev sample).kind = .integrated then
    (anchorOf prev).map fun anchor => (anchor, sample.observedAt)
  else none

def integratedIntervals (policy : EnergyPolicy) :
    Option EnergyState → List Sample → List (SystemTime × SystemTime)
  | _, [] => []
  | prev, sample :: rest =>
      (integratedAt policy prev sample).toList ++
        integratedIntervals policy (some (policy.apply prev sample).nextState) rest

/-- A time that is set stays set and does not move back. -/
def Forward (a b : Option SystemTime) : Prop := ∀ s ∈ a, ∃ t ∈ b, s ≤ t

/-- The power of the anchor, if there is one, is not negative. -/
def NonnegativePower (prev : Option EnergyState) : Prop :=
  ∀ state ∈ prev, ∀ p ∈ state.lastPowerWatts, 0 ≤ kwh p

/-- What a history of samples does to the anchor, to the accumulator and to the intervals. -/
structure Orderly (policy : EnergyPolicy) (prev : Option EnergyState) (samples : List Sample) :
    Prop where
  anchors : (energyStates policy prev samples).IsChain fun a b =>
    Forward (anchorOf a) (anchorOf b)
  accumulator : NonnegativePower prev → (energyStates policy prev samples).IsChain fun a b =>
    ∀ s ∈ a, ∀ t ∈ b, s.totalKwh.le t.totalKwh = true
  disjoint : (integratedIntervals policy prev samples).Pairwise NonOverlapping
  bounded : ∀ x ∈ integratedIntervals policy prev samples,
    x.2.nanos - x.1.nanos ≤ policy.maximumGap

/-- No sample with a confirmed native yield is observed before the anchor that it meets. -/
def NativeForward (policy : EnergyPolicy) : Option EnergyState → List Sample → Prop
  | _, [] => True
  | prev, sample :: rest =>
      (confirmedYield sample ≠ none → ∀ anchor ∈ anchorOf prev, anchor ≤ sample.observedAt) ∧
        NativeForward policy (some (policy.apply prev sample).nextState) rest

section

variable {policy : EnergyPolicy} {prev : Option EnergyState} {state : EnergyState}
  {sample : Sample} {samples : List Sample} {anchor : SystemTime}

/-! ## One sample -/

/-- Without a native yield the anchor does not move back. -/
theorem EnergyPolicy.apply_forward (h : confirmedYield sample = none) :
    Forward (anchorOf prev) (policy.apply prev sample).nextState.lastSampleAt := by
  intro anchor hanchor
  obtain ⟨state, rfl, hanchor⟩ := Option.bind_eq_some_iff.mp hanchor
  by_cases hback : sample.observedAt ≤ anchor
  · rw [apply_backward h hanchor hback]
    exact ⟨anchor, hanchor, le_refl _⟩
  have hmoved : anchor ≤ sample.observedAt := le_of_not_ge hback
  cases hpower : confirmedPvPower sample with
  | none =>
      rw [apply_powerless h hanchor hback hpower]
      exact ⟨anchor, hanchor, le_refl _⟩
  | some power =>
  cases hprev : state.lastPowerWatts with
  | none =>
      rw [apply_unpowered h hanchor hback hpower hprev]
      exact ⟨sample.observedAt, rfl, hmoved⟩
  | some prevPower =>
  by_cases hlong : policy.maximumGap < (sample.observedAt.durationSince anchor).getD 0
  · rw [apply_long h hanchor hback hpower hprev rfl hlong]
    exact ⟨sample.observedAt, rfl, hmoved⟩
  · rw [apply_within h hanchor hback hpower hprev rfl hlong]
    exact ⟨sample.observedAt, rfl, hmoved⟩

/-- The anchor moves back exactly if a native yield is observed before it. -/
theorem forward_iff : Forward (anchorOf prev) (policy.apply prev sample).nextState.lastSampleAt ↔
    (confirmedYield sample ≠ none → ∀ anchor ∈ anchorOf prev, anchor ≤ sample.observedAt) := by
  cases h : confirmedYield sample with
  | none => exact iff_of_true (EnergyPolicy.apply_forward h) fun hne => absurd rfl hne
  | some native =>
      rw [EnergyPolicy.apply_native h]
      constructor
      · intro hforward _ anchor hanchor
        obtain ⟨t, ht, hle⟩ := hforward anchor hanchor
        cases ht
        exact hle
      · intro hle anchor hanchor
        exact ⟨sample.observedAt, rfl, hle (by simp) anchor hanchor⟩

/-- A sample is integrated only in the last branch of the fallback. -/
theorem integrated_within (hanchor : state.lastSampleAt = some anchor)
    (hkind : (policy.apply (some state) sample).kind = .integrated) :
    anchor < sample.observedAt ∧ ¬ policy.maximumGap <
      (sample.observedAt.durationSince anchor).getD 0 ∧
        (policy.apply (some state) sample).nextState.lastSampleAt = some sample.observedAt := by
  cases h : confirmedYield sample with
  | some native =>
      rw [EnergyPolicy.apply_native h] at hkind
      cases hkind
  | none =>
  by_cases hback : sample.observedAt ≤ anchor
  · rw [EnergyPolicy.apply_backward h hanchor hback] at hkind
    cases hkind
  cases hpower : confirmedPvPower sample with
  | none =>
      rw [EnergyPolicy.apply_powerless h hanchor hback hpower] at hkind
      cases hkind
  | some power =>
  cases hprev : state.lastPowerWatts with
  | none =>
      rw [EnergyPolicy.apply_unpowered h hanchor hback hpower hprev] at hkind
      cases hkind
  | some prevPower =>
  by_cases hlong : policy.maximumGap < (sample.observedAt.durationSince anchor).getD 0
  · rw [EnergyPolicy.apply_long h hanchor hback hpower hprev rfl hlong] at hkind
    cases hkind
  · rw [EnergyPolicy.apply_within h hanchor hback hpower hprev rfl hlong]
    exact ⟨lt_of_not_ge hback, hlong, rfl⟩

/-- An integrated interval starts at the anchor, is not longer than the maximum gap, and its end
is the next anchor. -/
theorem integratedAt_some {x : SystemTime × SystemTime}
    (h : integratedAt policy prev sample = some x) : anchorOf prev = some x.1 ∧
      x.2.nanos - x.1.nanos ≤ policy.maximumGap ∧
        (policy.apply prev sample).nextState.lastSampleAt = some x.2 := by
  unfold integratedAt at h
  split_ifs at h with hkind
  obtain ⟨anchor, hanchor, rfl⟩ := Option.map_eq_some_iff.mp h
  obtain ⟨state, rfl, hstate⟩ := Option.bind_eq_some_iff.mp hanchor
  obtain ⟨hlater, hgap, hnext⟩ := integrated_within hstate hkind
  refine ⟨hanchor, ?_, hnext⟩
  have hsince : (sample.observedAt.durationSince anchor).getD 0 =
      (sample.observedAt.nanos - anchor.nanos).toNat := by
    simp [SystemTime.durationSince, le_of_lt hlater]
  rw [hsince] at hgap
  have hnanos : anchor.nanos < sample.observedAt.nanos := hlater
  have hshort : (sample.observedAt.nanos - anchor.nanos).toNat ≤ policy.maximumGap :=
    not_lt.mp hgap
  show sample.observedAt.nanos - anchor.nanos ≤ (policy.maximumGap : Int)
  omega

theorem confirmedPvPower_nonneg {p : F64} (h : confirmedPvPower sample = some p) : 0 ≤ kwh p := by
  obtain ⟨q, hq, hle, -⟩ := confirmedPvPower_finite h
  rw [kwh_eq hq]
  exact hle

/-- The accumulator does not fall at a sample, and the power of the anchor stays nonnegative. -/
theorem EnergyPolicy.apply_grows (hfinite : ∀ s ∈ prev, s.Finite) (hpower : NonnegativePower prev) :
    (∀ s ∈ prev, s.totalKwh.le (policy.apply prev sample).nextState.totalKwh = true) ∧
      NonnegativePower (some (policy.apply prev sample).nextState) := by
  have hnext := policy.apply_finite hfinite sample
  have hcurrent : ∀ p ∈ confirmedPvPower sample, 0 ≤ kwh p := fun p hp => confirmedPvPower_nonneg hp
  have hstep := policy.apply_cases prev sample
  generalize policy.apply prev sample = outcome at hnext hstep
  cases hstep with
  | anchored kind total gap hkind hgap =>
      refine ⟨?_, by rintro state ⟨⟩; exact hcurrent⟩
      rintro s rfl
      exact (le_iff_kwh (hfinite s rfl).total hnext.total).mpr (le_refl _)
  | kept state anchor hprev hanchor =>
      subst hprev
      refine ⟨?_, hpower⟩
      rintro s ⟨⟩
      exact (le_iff_kwh (hfinite state rfl).total hnext.total).mpr (le_refl _)
  | integrated state anchor prevPower curPower hprev hanchor hlt hprevPower hcurPower =>
      subst hprev
      refine ⟨?_, by rintro state ⟨⟩; exact hcurrent⟩
      rintro s ⟨⟩
      have hfin := hfinite state rfl
      have hp := hpower state rfl prevPower hprevPower
      have hq := hcurrent curPower hcurPower
      have hadded := trapezoid_toRat (toRat?_kwh (hfin.power prevPower hprevPower))
        (toRat?_kwh (confirmedPvPower_isFinite hcurPower))
        (sample.observedAt.nanos - anchor.nanos).toNat
      have hsum := F64.toRat?_add (toRat?_kwh hfin.total) hadded
      have hnonneg : 0 ≤ (kwh prevPower + kwh curPower) * (1 / 2) *
          Duration.asSecsRat (sample.observedAt.nanos - anchor.nanos).toNat * (1 / 3600000) := by
        unfold Duration.asSecsRat
        positivity
      rw [le_iff_kwh hfin.total hnext.total]
      calc kwh state.totalKwh
          ≤ kwh state.totalKwh + _ := le_add_of_nonneg_right hnonneg
        _ = _ := (kwh_eq hsum).symm

/-! ## Histories -/

theorem energyStates_head (samples : List Sample) :
    ∃ rest, energyStates policy prev samples = prev :: rest := by
  cases samples with
  | nil => exact ⟨[], rfl⟩
  | cons sample rest => exact ⟨_, rfl⟩

/-- The states of a run form a chain if each step does. -/
theorem energyStates_chain {R : Option EnergyState → Option EnergyState → Prop} {rest : List Sample} :
    (energyStates policy prev (sample :: rest)).IsChain R ↔
      R prev (some (policy.apply prev sample).nextState) ∧
        (energyStates policy (some (policy.apply prev sample).nextState) rest).IsChain R := by
  obtain ⟨tail, htail⟩ :=
    @energyStates_head policy (some (policy.apply prev sample).nextState) rest
  rw [energyStates, htail, List.isChain_cons_cons]

/-- The anchor never moves back exactly if no native yield is observed before it. -/
theorem anchors_iff : (energyStates policy prev samples).IsChain
    (fun a b => Forward (anchorOf a) (anchorOf b)) ↔ NativeForward policy prev samples := by
  induction samples generalizing prev with
  | nil => exact iff_of_true (List.isChain_singleton _) trivial
  | cons sample rest ih =>
      rw [energyStates_chain, ih, NativeForward, ← forward_iff]
      rfl

theorem accumulator_grows (hfinite : ∀ s ∈ prev, s.Finite) (hpower : NonnegativePower prev) :
    (energyStates policy prev samples).IsChain
      fun a b => ∀ s ∈ a, ∀ t ∈ b, s.totalKwh.le t.totalKwh = true := by
  induction samples generalizing prev with
  | nil => exact List.isChain_singleton _
  | cons sample rest ih =>
      obtain ⟨hgrows, hnonneg⟩ := @EnergyPolicy.apply_grows policy prev sample hfinite hpower
      rw [energyStates_chain]
      refine ⟨fun s hs t ht => ?_, ih ?_ hnonneg⟩
      · cases ht
        exact hgrows s hs
      · rintro s ⟨⟩
        exact policy.apply_finite hfinite sample

/-- No interval of a run is longer than the maximum gap. -/
theorem intervals_bounded {x : SystemTime × SystemTime}
    (h : x ∈ integratedIntervals policy prev samples) :
    x.2.nanos - x.1.nanos ≤ policy.maximumGap := by
  induction samples generalizing prev with
  | nil => cases h
  | cons sample rest ih =>
      rcases List.mem_append.mp h with hhere | hrest
      · exact (integratedAt_some (Option.mem_toList.mp hhere)).2.1
      · exact ih hrest

/-- In a run whose anchor does not move back no interval starts before the anchor. -/
theorem intervals_later (hforward : NativeForward policy prev samples)
    (hanchor : anchorOf prev = some anchor) {x : SystemTime × SystemTime}
    (h : x ∈ integratedIntervals policy prev samples) : anchor ≤ x.1 := by
  induction samples generalizing prev anchor with
  | nil => cases h
  | cons sample rest ih =>
      obtain ⟨hhere, hrest⟩ := hforward
      rcases List.mem_append.mp h with hx | hx
      · have hstart := (integratedAt_some (Option.mem_toList.mp hx)).1
        rw [hanchor] at hstart
        cases hstart
        exact le_refl _
      · obtain ⟨next, hnext, hle⟩ := forward_iff.mpr hhere anchor hanchor
        exact hle.trans (ih hrest hnext hx)

theorem intervals_disjoint (hforward : NativeForward policy prev samples) :
    (integratedIntervals policy prev samples).Pairwise NonOverlapping := by
  induction samples generalizing prev with
  | nil => exact .nil
  | cons sample rest ih =>
      obtain ⟨-, hrest⟩ := hforward
      rw [integratedIntervals]
      cases hx : integratedAt policy prev sample with
      | none => exact ih hrest
      | some x =>
          refine List.pairwise_cons.mpr ⟨fun y hy => Or.inl ?_, ih hrest⟩
          exact intervals_later hrest (integratedAt_some hx).2.2 hy

end

/-- **When a history is orderly**: exactly when no confirmed native yield is observed before the
anchor that it meets. -/
theorem energyHistory_iff (policy : EnergyPolicy) (durable : Option StoredEnergy)
    (samples : List Sample) : Orderly policy (durable.map StoredEnergy.toState) samples ↔
      NativeForward policy (durable.map StoredEnergy.toState) samples := by
  have hfinite : ∀ s ∈ durable.map StoredEnergy.toState, s.Finite := by
    intro s hs
    obtain ⟨stored, -, rfl⟩ := Option.map_eq_some_iff.mp hs
    exact stored.toState_finite
  constructor
  · intro h
    exact anchors_iff.mp h.anchors
  · intro h
    exact ⟨anchors_iff.mpr h, accumulator_grows hfinite, intervals_disjoint h,
      fun x hx => intervals_bounded hx⟩

/-- A native yield that is observed half a minute back: the anchor moves back, and that half minute
is integrated twice. -/
theorem nativeBackward_disorderly :
    ¬ Orderly ⟨.fromSecs 300⟩ none [yieldSample none 0, yieldSample none 60000000000,
      yieldSample (some nativeYield) 30000000000, yieldSample none 60000000000] := by
  intro h
  have hdisjoint := h.disjoint
  have htwice : integratedIntervals ⟨.fromSecs 300⟩ none [yieldSample none 0,
      yieldSample none 60000000000, yieldSample (some nativeYield) 30000000000,
      yieldSample none 60000000000] =
        [(⟨0⟩, ⟨60000000000⟩), (⟨30000000000⟩, ⟨60000000000⟩)] := by
    decide
  rw [htwice] at hdisjoint
  have hpair := List.rel_of_pairwise_cons hdisjoint (List.mem_singleton_self _)
  rcases hpair with hle | hle
  · exact absurd hle (by decide)
  · exact absurd hle (by decide)

end VeSmart.Service
