import VeSmart.Lib.Trapezoid
import VeSmart.Storage.Energy

set_option autoImplicit false

/-! # Histories of energy integration

A history is a sequence of `integrate` calls for any devices, each with its faults, and the
samples whose calls no fault has interrupted. `Summarised` is the invariant: the row of a device
holds the exact total and the last of its accepted samples, so it stands for the whole history.
-/

namespace VeSmart.Storage

open VeSmart.Lib

/-- A call of `integrate`, and the statements of it that fail. -/
structure EnergyCall where
  sample : EnergySample
  faults : List Bool

def EnergyCall.exec (cfg : StorageConfig) (call : EnergyCall) (d : Db) :
    Except StorageError EnergyOutcome × Db :=
  ((Lib.exec (integrate cfg call.sample) ⟨d, none, call.faults⟩).1,
    (Lib.exec (integrate cfg call.sample) ⟨d, none, call.faults⟩).2.committed)

/-- A statement of the call has failed. -/
def EnergyCall.interrupted (cfg : StorageConfig) (call : EnergyCall) (d : Db) : Bool :=
  match (call.exec cfg d).1 with
  | .error (.sqlite .io) => true
  | _ => false

/-- One call: the database it leaves, and its sample if the call was not interrupted. -/
def historyStep (cfg : StorageConfig) (s : Db × List EnergySample) (call : EnergyCall) :
    Db × List EnergySample :=
  ((call.exec cfg s.1).2,
    if call.interrupted cfg s.1 then s.2 else s.2 ++ [call.sample])

/-- The database after a sequence of calls from the empty one, and the samples they have
processed. -/
def historyRun (cfg : StorageConfig) (calls : List EnergyCall) : Db × List EnergySample :=
  calls.foldl (historyStep cfg) (Db.empty, [])

/-! ## What a history adds up to -/

/-- The sample as a reading of the device, if it belongs to the device and is in bounds. -/
def EnergySample.point? (cfg : StorageConfig) (device : String) (sample : EnergySample) :
    Option (Point Int ℚ) :=
  if sample.device = device ∧ sample.check.isOk ∧ badPower cfg sample.powerWatts = false then
    sample.powerWatts.toRat?.map fun power => ⟨sample.sampleAtMs.1, power⟩
  else none

/-- The accepted samples of a device: the in-bounds ones that are later than every sample
accepted before. -/
def acceptedOf (cfg : StorageConfig) (device : String) (samples : List EnergySample) :
    List (Point Int ℚ) :=
  accepted (samples.filterMap (EnergySample.point? cfg device))

/-- The energy between two consecutive accepted samples: none over a gap above the threshold. -/
def piece (cfg : StorageConfig) (x y : Point Int ℚ) : ℚ :=
  if cfg.energyGapThresholdMs.1 < y.time - x.time then 0
  else (x.value + y.value) / 2 * (((y.time - x.time : Int) : ℚ) / 1000) / 3600000

/-- The exact total of a device. -/
def exactTotal (cfg : StorageConfig) (device : String) (samples : List EnergySample) : ℚ :=
  consecutive (piece cfg) (acceptedOf cfg device samples)

/-- What is claimed of the database `d` after the samples `samples`. -/
structure EnergyHistory (cfg : StorageConfig) (d : Db) (samples : List EnergySample) : Prop where
  total : ∀ device, ((d.energy device).map EnergyRow.totalKwh).getD 0 =
    exactTotal cfg device samples
  replay : ∀ calls : List EnergyCall, (∀ call ∈ calls, call.sample ∈ samples) →
    calls.foldl (fun d call => (call.exec cfg d).2) d = d
  invalid : ∀ call : EnergyCall, badPower cfg call.sample.powerWatts = true →
    (call.exec cfg d).2 = d
  isolated : ∀ (call : EnergyCall) (device : String), device ≠ call.sample.device →
    (call.exec cfg d).2.energy device = d.energy device

/-- The row of the device holds the exact total and the last accepted sample. -/
def Summarised (cfg : StorageConfig) (d : Db) (samples : List EnergySample) (device : String) :
    Prop :=
  match (acceptedOf cfg device samples).getLast? with
  | none => d.energy device = none
  | some a => ∃ row, d.energy device = some row ∧ row.totalKwh = exactTotal cfg device samples ∧
      row.lastPowerWatts = some a.value ∧ row.lastSampleAtMs = some a.time

section

variable {cfg : StorageConfig} {sample : EnergySample} {samples : List EnergySample} {d : Db}
  {device : String}

/-! ## Points -/

theorem EnergySample.point?_eq_none (h : sample.device ≠ device ∨ ¬ sample.check.isOk ∨
    badPower cfg sample.powerWatts = true) : sample.point? cfg device = none := by
  unfold point?
  rw [if_neg]
  rintro ⟨hdevice, hcheck, hpower⟩
  rcases h with h | h | h
  · exact h hdevice
  · exact h hcheck
  · rw [hpower] at h
    cases h

/-- A usable sample is a point, and its power is not below the configured minimum. -/
theorem EnergySample.point?_eq_some (hcheck : sample.check = .ok ())
    (hpower : badPower cfg sample.powerWatts = false) :
    ∃ p, sample.powerWatts.toRat? = some p ∧
      (∀ m, cfg.energyMinPowerWatts.toRat? = some m → m ≤ p) ∧
      sample.point? cfg sample.device = some ⟨sample.sampleAtMs.1, p⟩ := by
  have hbounds := hpower
  simp only [badPower, Bool.or_eq_false_iff, Bool.not_eq_false'] at hbounds
  obtain ⟨p, hp⟩ := Option.isSome_iff_exists.mp hbounds.1.1
  refine ⟨p, hp, ?_, ?_⟩
  · intro m hm
    by_contra hlt
    have : sample.powerWatts.lt cfg.energyMinPowerWatts = true :=
      (F64.lt_iff hp hm).mpr (not_le.mp hlt)
    rw [this] at hbounds
    simp at hbounds
  · unfold point?
    rw [if_pos ⟨rfl, by simp [hcheck, Except.isOk, Except.toBool], hpower⟩, hp]
    rfl

theorem acceptedOf_append (samples : List EnergySample) (sample : EnergySample) :
    acceptedOf cfg device (samples ++ [sample]) =
      match sample.point? cfg device with
      | none => acceptedOf cfg device samples
      | some x => accept (acceptedOf cfg device samples) x := by
  unfold acceptedOf
  rw [List.filterMap_append]
  cases h : sample.point? cfg device with
  | none => simp [h]
  | some x => simp [h]

/-! ## One call -/

/-- What a call without faults can do. -/
inductive Integrated (cfg : StorageConfig) (sample : EnergySample) (d : Db) :
    Except StorageError EnergyOutcome × Db → Prop
  /-- Nothing is written: the sample is unusable. -/
  | refused (r : Except StorageError EnergyOutcome)
      (h : ¬ sample.check.isOk ∨ badPower cfg sample.powerWatts = true) :
      Integrated cfg sample d (r, d)
  /-- The decision of `integrateStep` is written. -/
  | decided (hcheck : sample.check = .ok ()) (hpower : badPower cfg sample.powerWatts = false) :
      Integrated cfg sample d
        (writeStep sample d (integrateStep cfg (d.energy sample.device) sample))

theorem quiet_integrate_cases (cfg : StorageConfig) (sample : EnergySample) (d : Db) :
    Integrated cfg sample d (quiet (integrate cfg sample) d) := by
  cases hcheck : sample.check with
  | error e =>
      rw [quiet_integrate_unchecked hcheck]
      exact .refused _ (.inl (by simp [hcheck, Except.isOk, Except.toBool]))
  | ok u =>
      by_cases hpower : badPower cfg sample.powerWatts = true
      · rw [quiet_integrate_badPower hcheck hpower]
        exact .refused _ (.inr hpower)
      · rw [quiet_integrate hcheck (by simpa using hpower)]
        exact .decided hcheck (by simpa using hpower)

/-- A write that fails writes nothing. -/
theorem writeStep_error {step : EnergyOutcome × Option AcquisitionEnergyState} {e : StorageError}
    (h : (writeStep sample d step).1 = .error e) : (writeStep sample d step).2 = d := by
  rcases step with ⟨outcome, _ | state⟩
  · cases h
  · cases hrow : EnergyRow.ofState state sample.sampleAtMs.1 with
    | none => rw [writeStep_refused hrow]
    | some row =>
        rw [writeStep_written hrow] at h
        cases h

/-- A write concerns the device of the sample. -/
theorem writeStep_other (step : EnergyOutcome × Option AcquisitionEnergyState)
    (h : device ≠ sample.device) :
    (writeStep sample d step).2.energy device = d.energy device := by
  rcases step with ⟨outcome, _ | state⟩
  · rfl
  · cases hrow : EnergyRow.ofState state sample.sampleAtMs.1 with
    | none => rw [writeStep_refused hrow]
    | some row => simp [writeStep_written hrow, h]

/-- A call that a fault interrupts changes nothing; any other does what it does without
faults. -/
theorem EnergyCall.exec_cases (cfg : StorageConfig) (call : EnergyCall) (d : Db) :
    (call.exec cfg d).2 = d ∧ call.interrupted cfg d = true ∨
      call.exec cfg d = quiet (integrate cfg call.sample) d ∧ call.interrupted cfg d = false := by
  have hrun : call.exec cfg d = quiet (integrate cfg call.sample) d ∨
      call.exec cfg d = (.error sqlIo, d) := by
    obtain ⟨fs', h | h⟩ := (integrate_allOrNothing cfg call.sample).exec_cases d call.faults
    · exact .inl (by rw [EnergyCall.exec, h])
    · exact .inr (by rw [EnergyCall.exec, h])
  by_cases hfault : call.interrupted cfg d = true
  · refine .inl ⟨?_, hfault⟩
    rcases hrun with h | h
    · have herror : (quiet (integrate cfg call.sample) d).1 = .error sqlIo := by
        unfold EnergyCall.interrupted at hfault
        rw [h] at hfault
        split at hfault
        · assumption
        · cases hfault
      rw [h]
      have hstep := quiet_integrate_cases cfg call.sample d
      generalize quiet (integrate cfg call.sample) d = r at hstep herror
      cases hstep with
      | refused r h => rfl
      | decided hcheck hpower => exact writeStep_error herror
    · rw [h]
  · have hno : call.interrupted cfg d = false := by simpa using hfault
    refine .inr ⟨?_, hno⟩
    rcases hrun with h | h
    · exact h
    · exact absurd (by simp [EnergyCall.interrupted, h, sqlIo]) hfault

/-- Calls for one device never affect another's row. -/
theorem EnergyCall.exec_other (call : EnergyCall) (h : device ≠ call.sample.device) :
    (call.exec cfg d).2.energy device = d.energy device := by
  rcases call.exec_cases cfg d with ⟨hsame, -⟩ | ⟨hquiet, -⟩
  · rw [hsame]
  · rw [hquiet]
    have hstep := quiet_integrate_cases cfg call.sample d
    generalize quiet (integrate cfg call.sample) d = r at hstep
    cases hstep with
    | refused r h => rfl
    | decided hcheck hpower => exact writeStep_other _ h

theorem EnergyCall.exec_badPower (call : EnergyCall)
    (h : badPower cfg call.sample.powerWatts = true) : (call.exec cfg d).2 = d := by
  rcases call.exec_cases cfg d with ⟨hsame, -⟩ | ⟨hquiet, -⟩
  · exact hsame
  · rw [hquiet]
    have hstep := quiet_integrate_cases cfg call.sample d
    generalize quiet (integrate cfg call.sample) d = r at hstep
    cases hstep with
    | refused r h => rfl
    | decided hcheck hpower =>
        rw [h] at hpower
        cases hpower

/-! ## The row summarises the history -/

/-- The configured minimum is a number that is not negative. -/
def StorageConfig.NonnegativePower (cfg : StorageConfig) : Prop :=
  ∃ m, cfg.energyMinPowerWatts.toRat? = some m ∧ 0 ≤ m

/-- A usable sample can be written as the anchor of any total that fits its column. -/
theorem EnergySample.anchor_row (total : F64) {q p : ℚ} (hcheck : sample.check = .ok ())
    (hp : sample.powerWatts.toRat? = some p) (hq : total.toRat? = some q) (hlo : 0 ≤ q)
    (hhi : q ≤ maxEnergyKwh) :
    ∃ row, EnergyRow.ofState (sample.anchor total) sample.sampleAtMs.1 = some row ∧
      row.totalKwh = q ∧ row.lastPowerWatts = some p ∧
      row.lastSampleAtMs = some sample.sampleAtMs.1 := by
  have hpos : 0 < sample.sampleAtMs.1 := EnergySample.check_pos hcheck
  unfold EnergyRow.ofState EnergySample.anchor
  rw [hq]
  dsimp only
  rw [dif_pos ⟨⟨hlo, hhi⟩, hpos⟩]
  exact ⟨_, rfl, rfl, by simp [hp], rfl⟩

theorem acceptedOf_increasing : (acceptedOf cfg device samples).Pairwise
    (fun x y => x.time < y.time) := accepted_increasing _

/-- No accepted sample has a negative power. -/
theorem acceptedOf_nonneg (hmin : cfg.NonnegativePower) {x : Point Int ℚ}
    (hx : x ∈ acceptedOf cfg device samples) : 0 ≤ x.value := by
  obtain ⟨m, hm, hm0⟩ := hmin
  obtain ⟨s, -, hs⟩ := List.mem_filterMap.mp (mem_of_mem_accepted hx)
  have hs' := hs
  unfold EnergySample.point? at hs
  split at hs
  · rename_i husable
    obtain ⟨hdevice, hcheck, hpower⟩ := husable
    have hok : s.check = .ok () := by
      cases hc : s.check with
      | ok u => rfl
      | error e => simp [hc, Except.isOk, Except.toBool] at hcheck
    obtain ⟨p, hp, hlo, hpoint⟩ := EnergySample.point?_eq_some hok hpower
    rw [← hdevice, hpoint] at hs'
    cases hs'
    exact hm0.trans (hlo m hm)
  · cases hs

theorem exactTotal_nonneg (hmin : cfg.NonnegativePower) : 0 ≤ exactTotal cfg device samples := by
  apply consecutive_nonneg ?_ acceptedOf_increasing
  intro x hx y hy hlt
  have hx0 := acceptedOf_nonneg hmin hx
  have hy0 := acceptedOf_nonneg hmin hy
  have hgap : (0 : ℚ) ≤ ((y.time - x.time : Int) : ℚ) := by
    exact_mod_cast (by omega : 0 ≤ y.time - x.time)
  unfold piece
  split
  · exact le_refl 0
  · positivity

/-- The row that `row` describes summarises the history whose last accepted sample is `x`. -/
theorem Summarised.intro {xs : List (Point Int ℚ)} {x : Point Int ℚ} {row : EnergyRow}
    (hacc : acceptedOf cfg device samples = xs ++ [x]) (hrow : d.energy device = some row)
    (htotal : row.totalKwh = consecutive (piece cfg) (xs ++ [x]))
    (hpower : row.lastPowerWatts = some x.value) (htime : row.lastSampleAtMs = some x.time) :
    Summarised cfg d samples device := by
  unfold Summarised exactTotal
  rw [hacc, List.getLast?_concat]
  exact ⟨row, hrow, htotal, hpower, htime⟩

/-- What is stored of a device depends on its row and its accepted samples. -/
theorem Summarised.congr {d' : Db} {samples' : List EnergySample}
    (h : Summarised cfg d samples device) (hrow : d'.energy device = d.energy device)
    (hacc : acceptedOf cfg device samples' = acceptedOf cfg device samples) :
    Summarised cfg d' samples' device := by
  unfold Summarised exactTotal at h ⊢
  rw [hacc, hrow]
  exact h

theorem Summarised.total (h : Summarised cfg d samples device) :
    ((d.energy device).map EnergyRow.totalKwh).getD 0 = exactTotal cfg device samples := by
  unfold Summarised at h
  cases hlast : (acceptedOf cfg device samples).getLast? with
  | none =>
      rw [hlast] at h
      rw [List.getLast?_eq_none_iff] at hlast
      simp only [h, Option.map_none, Option.getD_none, exactTotal, hlast, consecutive_nil]
  | some a =>
      rw [hlast] at h
      obtain ⟨row, hrow, htotal, -, -⟩ := h
      simp only [hrow, Option.map_some, Option.getD_some, htotal]

/-- The decision for a usable sample keeps the summary of its device, as long as the exact total
fits the column. One case per branch of `integrateStep`. -/
theorem Summarised.decided (hmin : cfg.NonnegativePower)
    (h : Summarised cfg d samples sample.device) (hcheck : sample.check = .ok ())
    (hpower : badPower cfg sample.powerWatts = false)
    (hfits : exactTotal cfg sample.device (samples ++ [sample]) ≤ maxEnergyKwh) :
    Summarised cfg (writeStep sample d (integrateStep cfg (d.energy sample.device) sample)).2
      (samples ++ [sample]) sample.device := by
  obtain ⟨p, hp, -, hpoint⟩ := EnergySample.point?_eq_some hcheck hpower
  have hacc : acceptedOf cfg sample.device (samples ++ [sample]) = _ :=
    acceptedOf_append samples sample
  rw [hpoint] at hacc
  dsimp only at hacc
  have hnonneg : 0 ≤ exactTotal cfg sample.device (samples ++ [sample]) := exactTotal_nonneg hmin
  unfold Summarised at h
  cases hlast : (acceptedOf cfg sample.device samples).getLast? with
  | none =>
      -- the first accepted sample of the device
      rw [hlast] at h
      rw [List.getLast?_eq_none_iff.mp hlast, accept_of_later (by intro y hy; cases hy)] at hacc
      obtain ⟨row, hrow, htotal, hrowPower, htime⟩ := EnergySample.anchor_row
        (.finite 0) hcheck hp rfl (le_refl 0) (by norm_num [maxEnergyKwh])
      dsimp only at h
      rw [h]
      dsimp only [integrateStep]
      rw [writeStep_written hrow]
      refine Summarised.intro hacc (by simp) ?_ hrowPower htime
      simp [htotal]
  | some a =>
      rw [hlast] at h
      obtain ⟨row, hrow, htotal, hrowPower, htime⟩ := h
      have hlater := later_iff acceptedOf_increasing hlast ⟨sample.sampleAtMs.1, p⟩
      rw [hrow]
      simp only [integrateStep, htime]
      by_cases hback : sample.sampleAtMs.1 ≤ a.time
      · -- not later than the anchor: nothing is accepted and nothing is written
        rw [if_pos hback, writeStep_unwritten]
        rw [accept_of_not_later (by rw [hlater]; simpa using hback)] at hacc
        refine Summarised.congr ?_ rfl hacc
        unfold Summarised
        rw [hlast]
        exact ⟨row, hrow, htotal, hrowPower, htime⟩
      rw [if_neg hback]
      rw [accept_of_later (by rw [hlater]; simpa using hback)] at hacc
      have hgrow : exactTotal cfg sample.device (samples ++ [sample]) =
          row.totalKwh + piece cfg a ⟨sample.sampleAtMs.1, p⟩ := by
        rw [exactTotal, hacc, consecutive_append hlast, htotal]
        rfl
      by_cases hgap : cfg.energyGapThresholdMs.1 < sample.sampleAtMs.1 - a.time
      · -- the gap is too large: the anchor moves and the total stays
        rw [if_pos hgap]
        have hpiece : piece cfg a ⟨sample.sampleAtMs.1, p⟩ = 0 := if_pos hgap
        obtain ⟨row', hrow', htotal', hpower', htime'⟩ := EnergySample.anchor_row
          (.finite row.totalKwh) hcheck hp rfl row.total_bounds.1 row.total_bounds.2
        rw [writeStep_written hrow']
        refine Summarised.intro hacc (by simp) ?_ hpower' htime'
        rw [← hacc, ← exactTotal, hgrow, hpiece, add_zero, htotal']
      · rw [if_neg hgap]
        have hprevious : ((row.lastPowerWatts.map F64.finite).getD sample.powerWatts).toRat? =
            some a.value := by
          rw [hrowPower]
          rfl
        have hdelta : (deltaKwh ((row.lastPowerWatts.map F64.finite).getD sample.powerWatts)
            sample.powerWatts (sample.sampleAtMs.1 - a.time)).toRat? =
            some (piece cfg a ⟨sample.sampleAtMs.1, p⟩) := by
          rw [deltaKwh, F64.toRat?_scale _ (F64.toRat?_scale _ (F64.toRat?_scale _
            (F64.toRat?_add hprevious hp))), piece, if_neg hgap]
          congr 1
          ring
        have hsum := F64.toRat?_add (F64.toRat?_finite row.totalKwh) hdelta
        rw [← hgrow] at hsum
        obtain ⟨row', hrow', htotal', hpower', htime'⟩ :=
          EnergySample.anchor_row _ hcheck hp hsum hnonneg hfits
        rw [writeStep_written hrow']
        refine Summarised.intro hacc (by simp) ?_ hpower' htime'
        rw [← hacc, ← exactTotal, htotal']

/-- One call keeps the summaries of all devices. -/
theorem Summarised.step {s : Db × List EnergySample} (hmin : cfg.NonnegativePower)
    (h : ∀ device, Summarised cfg s.1 s.2 device) (call : EnergyCall)
    (hfits : ∀ device, exactTotal cfg device (historyStep cfg s call).2 ≤ maxEnergyKwh)
    (device : String) :
    Summarised cfg (historyStep cfg s call).1 (historyStep cfg s call).2 device := by
  unfold historyStep at hfits ⊢
  rcases call.exec_cases cfg s.1 with ⟨hsame, hfault⟩ | ⟨hquiet, hfault⟩
  · rw [hsame, hfault]
    exact h device
  simp only [hquiet, hfault, Bool.false_eq_true, if_false] at hfits ⊢
  have hstep := quiet_integrate_cases cfg call.sample s.1
  generalize quiet (integrate cfg call.sample) s.1 = r at hstep ⊢
  cases hstep with
  | refused r hunusable =>
      have hpoint : call.sample.point? cfg device = none :=
        EnergySample.point?_eq_none (.inr hunusable)
      exact (h device).congr rfl (by rw [acceptedOf_append, hpoint])
  | decided hcheck hpower =>
      by_cases hdevice : device = call.sample.device
      · rw [hdevice]
        exact (h _).decided hmin hcheck hpower (hfits _)
      · have hpoint : call.sample.point? cfg device = none :=
          EnergySample.point?_eq_none (.inl (Ne.symm hdevice))
        exact (h device).congr (writeStep_other _ hdevice) (by rw [acceptedOf_append, hpoint])

/-- A sample that has been processed writes nothing when it is processed again. -/
theorem Summarised.replay (h : Summarised cfg d samples sample.device) (hmem : sample ∈ samples)
    (faults : List Bool) : (EnergyCall.exec cfg ⟨sample, faults⟩ d).2 = d := by
  rcases EnergyCall.exec_cases cfg ⟨sample, faults⟩ d with ⟨hsame, -⟩ | ⟨hquiet, -⟩
  · exact hsame
  rw [hquiet]
  have hstep := quiet_integrate_cases cfg sample d
  dsimp only
  generalize quiet (integrate cfg sample) d = r at hstep
  cases hstep with
  | refused r hunusable => rfl
  | decided hcheck hpower =>
      obtain ⟨p, -, -, hpoint⟩ := EnergySample.point?_eq_some hcheck hpower
      have hnot : ¬ Later (acceptedOf cfg sample.device samples) ⟨sample.sampleAtMs.1, p⟩ :=
        not_later_of_mem (List.mem_filterMap.mpr ⟨sample, hmem, hpoint⟩)
      unfold Summarised at h
      cases hlast : (acceptedOf cfg sample.device samples).getLast? with
      | none =>
          rw [List.getLast?_eq_none_iff.mp hlast] at hnot
          exact absurd (by intro y hy; cases hy) hnot
      | some a =>
          rw [hlast] at h
          obtain ⟨row, hrow, -, -, htime⟩ := h
          rw [later_iff acceptedOf_increasing hlast] at hnot
          have hback : sample.sampleAtMs.1 ≤ a.time := by simpa using hnot
          rw [hrow]
          simp only [integrateStep, htime]
          rw [if_pos hback, writeStep_unwritten]

theorem historyRun_append (calls : List EnergyCall) (call : EnergyCall) :
    historyRun cfg (calls ++ [call]) = historyStep cfg (historyRun cfg calls) call := by
  simp [historyRun, List.foldl_append]

/-- Every history keeps the summaries; by induction on the calls, from their end. -/
theorem historyRun_summarised (hmin : cfg.NonnegativePower) (calls : List EnergyCall)
    (hfits : ∀ prior, prior <+: calls → ∀ device,
      exactTotal cfg device (historyRun cfg prior).2 ≤ maxEnergyKwh) (device : String) :
    Summarised cfg (historyRun cfg calls).1 (historyRun cfg calls).2 device := by
  induction calls using List.reverseRecOn generalizing device with
  | nil => exact rfl
  | append_singleton calls call ih =>
      have hprior : ∀ device, Summarised cfg (historyRun cfg calls).1 (historyRun cfg calls).2
          device :=
        ih fun prior hprior => hfits prior (hprior.trans (List.prefix_append _ _))
      have hlast := hfits _ (List.prefix_refl _)
      rw [historyRun_append] at hlast ⊢
      exact Summarised.step hmin hprior call hlast device

end

/-- **Energy integration over any history.** From the empty database and for calls of any devices
with any samples and faults, the stored total of each device is the sum of the trapezoids between
its consecutive accepted samples, as long as no exact total exceeds the bound of its column;
replays and invalid powers change nothing, and the devices do not touch each other. -/
theorem integrate_history (cfg : ValidConfig)
    (hmin : (F64.finite 0).le cfg.1.energyMinPowerWatts = true) (calls : List EnergyCall)
    (hfits : ∀ prior, prior <+: calls → ∀ device,
      exactTotal cfg.1 device (historyRun cfg.1 prior).2 ≤ maxEnergyKwh) :
    EnergyHistory cfg.1 (historyRun cfg.1 calls).1 (historyRun cfg.1 calls).2 := by
  have hnonneg : cfg.1.NonnegativePower := by
    obtain ⟨m, hm⟩ := Option.isSome_iff_exists.mp cfg.minPower_finite
    exact ⟨m, hm, (F64.le_iff rfl hm).mp hmin⟩
  have hsummary := historyRun_summarised hnonneg calls hfits
  refine ⟨fun device => (hsummary device).total, ?_, EnergyCall.exec_badPower,
    fun call device h => call.exec_other h⟩
  intro replayed hseen
  induction replayed with
  | nil => rfl
  | cons call rest ih =>
      rw [List.foldl_cons, (hsummary _).replay (hseen call (by simp)) call.faults]
      exact ih fun c hc => hseen c (List.mem_cons_of_mem _ hc)

/-- A device without samples has no energy. -/
theorem exactTotal_absent {cfg : StorageConfig} {device : String} {samples : List EnergySample}
    (h : ∀ s ∈ samples, s.device ≠ device) : exactTotal cfg device samples = 0 := by
  have hpoints : samples.filterMap (EnergySample.point? cfg device) = [] := by
    rw [List.filterMap_eq_nil_iff]
    intro s hs
    exact EnergySample.point?_eq_none (.inl (h s hs))
  rw [exactTotal, acceptedOf, hpoints]
  rfl

/-- 100 W and a minute later 200 W, and the first sample once more. -/
def replayedMinute : List EnergyCall :=
  [⟨⟨"solar", .finite 100, ⟨1000, by decide⟩⟩, []⟩,
    ⟨⟨"solar", .finite 200, ⟨61000, by decide⟩⟩, []⟩,
    ⟨⟨"solar", .finite 100, ⟨1000, by decide⟩⟩, [true]⟩]

theorem replayedMinute_fits (prior : List EnergyCall) (h : prior <+: replayedMinute)
    (device : String) :
    exactTotal StorageConfig.conservative device
      (historyRun StorageConfig.conservative prior).2 ≤ maxEnergyKwh := by
  have hlength : prior.length ≤ 3 := h.length_le
  rw [List.prefix_iff_eq_take.mp h]
  by_cases hdevice : device = "solar"
  · rw [hdevice]
    interval_cases prior.length <;> decide +kernel
  · have habsent : exactTotal StorageConfig.conservative device
        (historyRun StorageConfig.conservative (replayedMinute.take prior.length)).2 = 0 := by
      apply exactTotal_absent
      have hsolar : ∀ s ∈ (historyRun StorageConfig.conservative
          (replayedMinute.take prior.length)).2, s.device = "solar" := by
        interval_cases prior.length <;> decide +kernel
      intro s hs
      rw [hsolar s hs]
      exact Ne.symm hdevice
    rw [habsent]
    norm_num [maxEnergyKwh]

theorem replayedMinute_total :
    (((historyRun StorageConfig.conservative replayedMinute).1.energy "solar").map
      EnergyRow.totalKwh).getD 0 = 1 / 400 :=
  ((integrate_history ⟨.conservative, StorageConfig.conservative_valid⟩ (by decide +kernel)
    replayedMinute replayedMinute_fits).total "solar").trans (by decide +kernel)

end VeSmart.Storage
