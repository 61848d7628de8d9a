import VeSmart.Lib.Anchor
import VeSmart.Service.Commits

set_option autoImplicit false

/-! # The intervals that committed cycles integrate

A committed cycle moves the durable anchor to its observation time, keeps it, or integrates
power from the anchor to its observation time and moves it there. The anchor that the next
cycle reads back is `rounded`: the storage keeps whole milliseconds. -/

namespace VeSmart.Service

open VeSmart.Lib VeSmart.Domain

/-- The time as it is read back from the storage. -/
def rounded (t : SystemTime) : SystemTime := .fromMillis t.asMillis

theorem rounded_le (t : SystemTime) : rounded t ≤ t := SystemTime.fromMillis_asMillis_le t

/-- What a committed cycle does to the anchor. The interval that it integrates starts at the
anchor that it has read back and ends at its observation time. -/
def CommittedCycle.move (c : CommittedCycle) : Move SystemTime :=
  match c.energy.kind, c.commit.expectedEnergy.bind EnergyState.lastSampleAt with
  | .integrated, some anchor => .integrated anchor c.commit.observedAt
  | .skipped, _ =>
      if c.energy.skippedGapSeconds.isSome then .anchored c.commit.observedAt
      else .kept c.commit.observedAt
  | _, _ => .anchored c.commit.observedAt

/-- The energy under the power line of two readings at the ends of an interval. -/
def area (anchorPower power : Option F64) (gap : Duration) : ℚ :=
  match anchorPower, power with
  | some p, some q => ((trapezoid p q gap).toRat?).getD 0
  | _, _ => 0

/-- The trapezoid that a committed cycle adds: over the interval that it integrates. -/
def CommittedCycle.area (c : CommittedCycle) : ℚ :=
  match c.move with
  | .integrated start stop =>
      Service.area (c.commit.expectedEnergy.bind EnergyState.lastPowerWatts)
        c.commit.nextEnergy.lastPowerWatts (stop.nanos - start.nanos).toNat
  | _ => 0

/-- The anchor that is read back. -/
def Durable.anchor (v : Durable) : Option SystemTime :=
  v.energy.bind fun e => e.lastSampleAtMs.map SystemTime.fromMillis

def Durable.totalKwh (v : Durable) : ℚ := (v.energy.map StoredEnergy.totalKwh).getD 0

section

variable {ω σ : Type} {k : Collector ω σ} {view : σ → Durable} {store : σ} {sample : Sample}

/-- The cycle that commits `sample`. -/
def cycleOf (k : Collector ω σ) (view : σ → Durable) (store : σ) (sample : Sample)
    (payload : List UInt8) : CommittedCycle :=
  ⟨cycleEnergy k view store sample, cycleCommit k view store sample payload⟩

theorem CommittedCycle.move_integrated {c : CommittedCycle} {anchor : SystemTime}
    (hkind : c.energy.kind = .integrated)
    (hanchor : c.commit.expectedEnergy.bind EnergyState.lastSampleAt = some anchor) :
    c.move = .integrated anchor c.commit.observedAt := by
  simp only [move, hkind, hanchor]

theorem CommittedCycle.move_kept {c : CommittedCycle} (hkind : c.energy.kind = .skipped)
    (hgap : c.energy.skippedGapSeconds = none) : c.move = .kept c.commit.observedAt := by
  simp [move, hkind, hgap]

theorem CommittedCycle.move_anchored {c : CommittedCycle} (hkind : c.energy.kind ≠ .integrated)
    (hgap : c.energy.kind = .skipped → c.energy.skippedGapSeconds ≠ none) :
    c.move = .anchored c.commit.observedAt := by
  unfold move
  cases h : c.energy.kind with
  | integrated => exact absurd h hkind
  | skipped => simp [Option.isSome_iff_ne_none.mpr (hgap h)]
  | native => rfl
  | started => rfl

theorem CommittedCycle.area_integrated {c : CommittedCycle} {a t : SystemTime}
    (hmove : c.move = .integrated a t) :
    c.area = Service.area (c.commit.expectedEnergy.bind EnergyState.lastPowerWatts)
      c.commit.nextEnergy.lastPowerWatts (t.nanos - a.nanos).toNat := by
  simp only [area, hmove]

/-- The trapezoid of two finite readings, in exact arithmetic. -/
theorem trapezoid_toRat {p q : F64} {x y : ℚ} (hp : p.toRat? = some x) (hq : q.toRat? = some y)
    (gap : Duration) : (trapezoid p q gap).toRat? =
      some ((x + y) * (1 / 2) * gap.asSecsRat * (1 / 3600000)) :=
  F64.toRat?_scale _ (F64.toRat?_scale _ (F64.toRat?_scale _ (F64.toRat?_add hp hq)))

theorem confirmedPvPower_finite {power : F64} (h : confirmedPvPower sample = some power) :
    ∃ q, power.toRat? = some q ∧ 0 ≤ q ∧ q ≤ 30000 := by
  unfold confirmedPvPower at h
  obtain ⟨reading, -, rfl⟩ := Option.map_eq_some_iff.mp h
  obtain ⟨q, hq, hlo, hhi⟩ := F64.between_iff.mp reading.inRange
  exact ⟨q, hq, hlo, hhi⟩

/-- What a committed cycle does to the anchor and to the total, `stored` being the state that it
leaves: one case per case of the policy. -/
inductive CycleMove (v : Durable) (stored : StoredEnergy) (t : SystemTime) (c : CommittedCycle) :
    Prop
  | anchored (hmove : c.move = .anchored t)
      (hanchor : stored.lastSampleAtMs = some t.asMillis)
      (htotal : stored.totalKwh = v.totalKwh)
  | kept (hmove : c.move = .kept t)
      (hanchor : stored.lastSampleAtMs.map SystemTime.fromMillis = v.anchor)
      (htotal : stored.totalKwh = v.totalKwh)
  | integrated (a : SystemTime) (hmove : c.move = .integrated a t) (hstart : v.anchor = some a)
      (hlt : a < t) (hanchor : stored.lastSampleAtMs = some t.asMillis)
      (htotal : stored.totalKwh = v.totalKwh + c.area)

theorem cycleMove (payload : List UInt8) {stored : StoredEnergy}
    (h : stored.Holds (cycleEnergy k view store sample).nextState) :
    CycleMove (view store) stored sample.observedAt (cycleOf k view store sample payload) := by
  obtain ⟨htotal, -, hsample⟩ := h
  have hstep : EnergyStep _ _ (cycleEnergy k view store sample) :=
    k.energy.apply_cases ((view store).energy.map StoredEnergy.toState) sample
  generalize henergy : cycleEnergy k view store sample = energy at hstep htotal hsample
  have hcycle : (cycleOf k view store sample payload).energy = energy := henergy
  cases hstep with
  | anchored kind total gap hkind hgap =>
      refine .anchored (CommittedCycle.move_anchored ?_ ?_) hsample ?_
      · rw [hcycle]
        exact hkind
      · rw [hcycle]
        exact hgap.mp
      · -- with nothing stored the total is zero
        have hprev : (updatedState ((view store).energy.map StoredEnergy.toState) sample).totalKwh =
            .finite (view store).totalKwh := by
          unfold updatedState Durable.totalKwh
          cases (view store).energy <;> rfl
        rw [hprev] at htotal
        exact (Option.some.inj htotal).symm
  | kept state anchor hprev hanchor =>
      obtain ⟨prev, hstored, rfl⟩ := Option.map_eq_some_iff.mp hprev
      refine .kept (CommittedCycle.move_kept ?_ ?_) ?_ ?_
      · rw [hcycle]
      · rw [hcycle]
      · rw [hsample]
        simp [Durable.anchor, hstored, StoredEnergy.toState, Function.comp_def]
      · simp only [Durable.totalKwh, hstored, Option.map_some, Option.getD_some]
        exact (Option.some.inj htotal).symm
  | integrated state anchor prevPower curPower hprev hanchor hlt hprevPower hcurPower =>
      obtain ⟨prev, hstored, rfl⟩ := Option.map_eq_some_iff.mp hprev
      have hread : (cycleOf k view store sample payload).commit.expectedEnergy =
          some prev.toState := hprev
      have hnext : (cycleOf k view store sample payload).commit.nextEnergy.lastPowerWatts =
          some curPower := by
        show (cycleEnergy k view store sample).nextState.lastPowerWatts = _
        rw [henergy]
        exact hcurPower
      have hmove : (cycleOf k view store sample payload).move =
          .integrated anchor sample.observedAt := by
        apply CommittedCycle.move_integrated
        · rw [hcycle]
        · rw [hread]
          exact hanchor
      refine .integrated anchor hmove ?_ hlt hsample ?_
      · simpa [Durable.anchor, hstored, StoredEnergy.toState] using hanchor
      · obtain ⟨p, hp, rfl⟩ := Option.map_eq_some_iff.mp hprevPower
        obtain ⟨q, hq, -, -⟩ := confirmedPvPower_finite hcurPower
        have hz := trapezoid_toRat (F64.toRat?_finite p) hq
          (sample.observedAt.nanos - anchor.nanos).toNat
        have hsum := Option.some.inj (htotal.symm.trans (F64.toRat?_add (F64.toRat?_finite _) hz))
        rw [CommittedCycle.area_integrated hmove, hread, hnext]
        simp only [Option.bind_some, hprevPower, area, hz, Option.getD_some, Durable.totalKwh,
          hstored, Option.map_some, hsum]

/-! ## The state that a cycle leaves -/

/-- A stored state of one collector: no negative energy, and the power inside its range. -/
structure StoredEnergy.Sound (e : StoredEnergy) : Prop where
  total : 0 ≤ e.totalKwh
  power : ∀ p ∈ e.lastPowerWatts, 0 ≤ p ∧ p ≤ 30000

/-- A next state of the policy: it can be stored as a sound one, up to the size of the total, and
its anchor is the sample or the anchor that was stored. -/
structure SoundNext (prev : Option StoredEnergy) (sample : Sample) (next : EnergyState) : Prop where
  total : ∃ q, next.totalKwh.toRat? = some q ∧ 0 ≤ q
  power : ∀ p ∈ next.lastPowerWatts, ∃ q, p.toRat? = some q ∧ 0 ≤ q ∧ q ≤ 30000
  anchor : next.lastSampleAt = some sample.observedAt ∨
    ∃ e ∈ prev, next.lastSampleAt = e.lastSampleAtMs.map SystemTime.fromMillis

/-- Every branch of the policy leaves a sound state. -/
theorem EnergyPolicy.apply_sound (policy : EnergyPolicy) {prev : Option StoredEnergy}
    (hprev : ∀ e ∈ prev, e.Sound) (sample : Sample) :
    SoundNext prev sample (policy.apply (prev.map StoredEnergy.toState) sample).nextState := by
  have hconfirmed : ∀ p ∈ confirmedPvPower sample, ∃ q, p.toRat? = some q ∧ 0 ≤ q ∧ q ≤ 30000 :=
    fun p hp => confirmedPvPower_finite hp
  have hstep := policy.apply_cases (prev.map StoredEnergy.toState) sample
  generalize policy.apply (prev.map StoredEnergy.toState) sample = energy at hstep ⊢
  cases hstep with
  | anchored kind total gap hkind hgap =>
      refine ⟨?_, hconfirmed, .inl rfl⟩
      cases prev with
      | none => exact ⟨0, rfl, le_refl 0⟩
      | some e => exact ⟨e.totalKwh, rfl, (hprev e rfl).total⟩
  | kept state anchor hstate hanchor =>
      obtain ⟨e, rfl, rfl⟩ := Option.map_eq_some_iff.mp hstate
      refine ⟨⟨e.totalKwh, rfl, (hprev e rfl).total⟩, ?_, .inr ⟨e, rfl, rfl⟩⟩
      intro p hp
      obtain ⟨q, hq, rfl⟩ := Option.map_eq_some_iff.mp hp
      exact ⟨q, rfl, (hprev e rfl).power q hq⟩
  | integrated state anchor prevPower curPower hstate hanchor hlt hprevPower hcurPower =>
      obtain ⟨e, rfl, rfl⟩ := Option.map_eq_some_iff.mp hstate
      obtain ⟨p, hp, rfl⟩ := Option.map_eq_some_iff.mp hprevPower
      obtain ⟨q, hq, hq0, -⟩ := confirmedPvPower_finite hcurPower
      have hz := trapezoid_toRat (F64.toRat?_finite p) hq
        (sample.observedAt.nanos - anchor.nanos).toNat
      have hsum := F64.toRat?_add (F64.toRat?_finite e.totalKwh) hz
      have hp0 : 0 ≤ p := ((hprev e rfl).power p hp).1
      have htotal : 0 ≤ e.totalKwh := (hprev e rfl).total
      refine ⟨⟨_, hsum, ?_⟩, hconfirmed, .inl rfl⟩
      unfold Duration.asSecsRat
      positivity

end

end VeSmart.Service
