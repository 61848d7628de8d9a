import VeSmart.Storage.EnergyHistory

set_option autoImplicit false

/-! # The direction of the stored energy

The bounds of the power are configured, and `StorageConfig::validate` asks of them only that they
are finite and in order. A minimum below zero lets a negative power through, and the interval that
such a sample closes is subtracted. `neverBackwards_iff` says for which calls the totals go
backwards: those that close an interval whose two powers have a negative sum. -/

namespace VeSmart.Storage

open VeSmart.Lib

/-- The stored total of a device, `0` for a device without a row. -/
def Db.totalKwh (d : Db) (device : String) : ℚ :=
  ((d.energy device).map EnergyRow.totalKwh).getD 0

/-- The database after a sequence of `integrate` calls. -/
def afterCalls (cfg : StorageConfig) (d : Db) (calls : List EnergyCall) : Db :=
  calls.foldl (fun d call => (call.exec cfg d).2) d

/-- One call adds no negative energy and lowers no total. -/
structure EnergyCall.Forward (cfg : StorageConfig) (call : EnergyCall) (d : Db) : Prop where
  delta : ∀ delta total elapsed, (call.exec cfg d).1 = .ok (.integrated delta total elapsed) →
    (F64.finite 0).le delta = true
  total : ∀ device, d.totalKwh device ≤ (call.exec cfg d).2.totalKwh device

/-- What is claimed of a sequence of calls from the database `d`. -/
structure NeverBackwards (cfg : StorageConfig) (d : Db) (calls : List EnergyCall) : Prop where
  delta : ∀ prior call, prior ++ [call] <+: calls → ∀ delta total elapsed,
    (call.exec cfg (afterCalls cfg d prior)).1 = .ok (.integrated delta total elapsed) →
    (F64.finite 0).le delta = true
  total : ∀ prior later, prior <+: later → later <+: calls → ∀ device,
    (afterCalls cfg d prior).totalKwh device ≤ (afterCalls cfg d later).totalKwh device

/-- The energy of an interval between two powers. -/
def intervalKwh (previous power : ℚ) (gapMs : Int) : ℚ :=
  (previous + power) / 2 * ((gapMs : ℚ) / 1000) / 3600000

/-- The call meets the anchor of `row`, set at `last`, with a usable sample of the power `p`: it is
later than the anchor, and the gap is not above the threshold. -/
structure EnergyCall.Meets (cfg : StorageConfig) (call : EnergyCall) (d : Db) (row : EnergyRow)
    (last : Int) (p : ℚ) : Prop where
  stored : d.energy call.sample.device = some row
  anchored : row.lastSampleAtMs = some last
  checked : call.sample.check = .ok ()
  bounded : badPower cfg call.sample.powerWatts = false
  power : call.sample.powerWatts.toRat? = some p
  later : last < call.sample.sampleAtMs.1
  within : call.sample.sampleAtMs.1 - last ≤ cfg.energyGapThresholdMs.1

/-- None of the four statements (`BEGIN`, `SELECT`, `UPDATE`, `COMMIT`) fails. -/
def EnergyCall.Completes (call : EnergyCall) : Prop := true ∉ call.faults.take 4

/-- The call closes an interval whose powers have a negative sum, and the stored total covers what
the interval draws from it (`CHECK (total_kwh >= 0)`). -/
def EnergyCall.Draws (cfg : StorageConfig) (call : EnergyCall) (d : Db) : Prop :=
  call.Completes ∧ ∃ row last p, call.Meets cfg d row last p ∧
    row.lastPowerWatts.getD p + p < 0 ∧
    0 ≤ row.totalKwh +
      intervalKwh (row.lastPowerWatts.getD p) p (call.sample.sampleAtMs.1 - last)

section

variable {cfg : StorageConfig} {call : EnergyCall} {d : Db} {row : EnergyRow} {last : Int} {p : ℚ}

theorem intervalKwh_neg {previous power : ℚ} {gapMs : Int} (hgap : 0 < gapMs)
    (h : previous + power < 0) : intervalKwh previous power gapMs < 0 := by
  have hgap' : (0 : ℚ) < (gapMs : ℚ) / 1000 := by
    have : (0 : ℚ) < gapMs := by exact_mod_cast hgap
    positivity
  unfold intervalKwh
  have hmul : (previous + power) / 2 * ((gapMs : ℚ) / 1000) < 0 :=
    mul_neg_of_neg_of_pos (by linarith) hgap'
  linarith

theorem intervalKwh_nonneg {previous power : ℚ} {gapMs : Int} (hgap : 0 < gapMs)
    (h : 0 ≤ previous + power) : 0 ≤ intervalKwh previous power gapMs := by
  have hgap' : (0 : ℚ) < gapMs := by exact_mod_cast hgap
  unfold intervalKwh
  positivity

theorem deltaKwh_toRat {previous power : F64} {q r : ℚ} (hq : previous.toRat? = some q)
    (hr : power.toRat? = some r) (gapMs : Int) :
    (deltaKwh previous power gapMs).toRat? = some (intervalKwh q r gapMs) := by
  rw [deltaKwh, F64.toRat?_scale _ (F64.toRat?_scale _ (F64.toRat?_scale _ (F64.toRat?_add hq hr)))]
  congr 1
  unfold intervalKwh
  ring

/-! ## One call -/

/-- A call that decides to write a row takes four statements, and does what it does without faults
if none of them fails. -/
theorem EnergyCall.exec_writing {outcome : EnergyOutcome} {state : AcquisitionEnergyState}
    (hcheck : call.sample.check = .ok ()) (hpower : badPower cfg call.sample.powerWatts = false)
    (hstep : integrateStep cfg (d.energy call.sample.device) call.sample = (outcome, some state))
    (hrow : EnergyRow.ofState state call.sample.sampleAtMs.1 = some row) :
    call.exec cfg d =
      if true ∈ call.faults.take 4 then (.error sqlIo, d)
      else writeStep call.sample d (outcome, some state) := by
  obtain ⟨sample, fs⟩ := call
  dsimp only at hcheck hpower hstep hrow ⊢
  have hup : d.upsertEnergy sample.device state sample.sampleAtMs.1 =
      .ok ((), { d with energy := Function.update d.energy sample.device (some row) }) := by
    simp only [Db.upsertEnergy, hrow]
  simp only [mem_take_succ_iff, List.take_zero, List.not_mem_nil, or_false]
  unfold EnergyCall.exec integrate
  dsimp only
  rw [hcheck, exec_bind_ok (exec_fromExcept _ _), if_neg (by simp [hpower]),
    writeStep_written hrow, exec_transaction_faults]
  by_cases hbegin : fs.headD false = true
  · rw [if_pos hbegin, if_pos (.inl hbegin)]
  rw [if_neg hbegin]
  have hselect : Lib.exec (statement sqlIo fun d => .ok (d.energy sample.device, d))
      ⟨d, some d, fs.tail⟩ = _ := exec_statement_faults rfl fs.tail
  by_cases hread : fs.tail.headD false = true
  · rw [if_pos hread] at hselect
    rw [if_pos (.inr (.inl hread)), query, exec_bind_error hselect]
  rw [if_neg hread] at hselect
  rw [query, exec_bind_ok hselect, hstep]
  dsimp only
  have hwrite : Lib.exec (statement sqlIo fun d => d.upsertEnergy sample.device state
      sample.sampleAtMs.1) ⟨d, some d, fs.tail.tail⟩ = _ := exec_statement_faults hup fs.tail.tail
  by_cases hupdate : fs.tail.tail.headD false = true
  · rw [if_pos hupdate] at hwrite
    rw [if_pos (.inr (.inr (.inl hupdate))), writeEnergy, exec_bind_error hwrite]
  rw [if_neg hupdate] at hwrite
  rw [writeEnergy, exec_bind_ok hwrite, finalize, exec_bind, commitTx, exec_guarded]
  by_cases hcommit : fs.tail.tail.tail.headD false = true
  · rw [if_pos hcommit, if_pos (.inr (.inr (.inr hcommit)))]
  rw [if_neg hcommit,
    if_neg (not_or.mpr ⟨hbegin, not_or.mpr ⟨hread, not_or.mpr ⟨hupdate, hcommit⟩⟩⟩)]
  rfl

/-- The decision at an anchor within the threshold. -/
theorem EnergyCall.Meets.step (h : call.Meets cfg d row last p) :
    ∃ delta, delta.toRat? = some (intervalKwh (row.lastPowerWatts.getD p) p
        (call.sample.sampleAtMs.1 - last)) ∧
      integrateStep cfg (d.energy call.sample.device) call.sample =
        (.integrated delta ((F64.finite row.totalKwh).add delta)
          (call.sample.sampleAtMs.1 - last),
          some (call.sample.anchor ((F64.finite row.totalKwh).add delta))) := by
  have hprevious : ((row.lastPowerWatts.map F64.finite).getD call.sample.powerWatts).toRat? =
      some (row.lastPowerWatts.getD p) := by
    cases row.lastPowerWatts with
    | none => exact h.power
    | some q => rfl
  refine ⟨_, deltaKwh_toRat hprevious h.power _, ?_⟩
  rw [h.stored]
  exact integrateStep_within h.anchored h.later (not_lt.mpr h.within) rfl

/-- A call at an anchor within the threshold, when the new total fits its column, adds the energy
of the interval to the total of its device if no statement fails. -/
theorem EnergyCall.Meets.exec {q : ℚ} (h : call.Meets cfg d row last p)
    (hq : q = intervalKwh (row.lastPowerWatts.getD p) p (call.sample.sampleAtMs.1 - last))
    (hlo : 0 ≤ row.totalKwh + q) (hhi : row.totalKwh + q ≤ maxEnergyKwh) :
    ∃ delta total elapsed d', delta.toRat? = some q ∧
      d'.totalKwh call.sample.device = row.totalKwh + q ∧
      (∀ device, device ≠ call.sample.device → d'.totalKwh device = d.totalKwh device) ∧
      call.exec cfg d =
        if true ∈ call.faults.take 4 then (.error sqlIo, d)
        else (.ok (.integrated delta total elapsed), d') := by
  obtain ⟨delta, hdelta, hstep⟩ := h.step
  rw [← hq] at hdelta
  obtain ⟨row', hrow, htotal, -, -⟩ := EnergySample.anchor_row _ h.checked h.power
    (F64.toRat?_add (F64.toRat?_finite row.totalKwh) hdelta) hlo hhi
  have hexec := EnergyCall.exec_writing h.checked h.bounded hstep hrow
  rw [writeStep_written hrow] at hexec
  refine ⟨delta, _, _, _, hdelta, ?_, ?_, hexec⟩
  · simp [Db.totalKwh, htotal]
  · intro device hdevice
    simp [Db.totalKwh, hdevice]

/-- What a call can do to the energy of the devices. -/
inductive EnergyCall.Effect (cfg : StorageConfig) (call : EnergyCall) (d : Db) :
    Except StorageError EnergyOutcome × Db → Prop
  /-- No energy is added: the call fails or skips its sample. -/
  | unchanged (r : Except StorageError EnergyOutcome) (d' : Db)
      (hr : ∀ delta total elapsed, r ≠ .ok (.integrated delta total elapsed))
      (htotal : ∀ device, d'.totalKwh device = d.totalKwh device) : Effect cfg call d (r, d')
  /-- The call closes an interval with the energy `q`. -/
  | integrated (row : EnergyRow) (last : Int) (p q : ℚ) (delta total : F64) (elapsed : Int)
      (d' : Db) (hmeets : call.Meets cfg d row last p) (hcompletes : call.Completes)
      (hq : q = intervalKwh (row.lastPowerWatts.getD p) p (call.sample.sampleAtMs.1 - last))
      (hlo : 0 ≤ row.totalKwh + q) (hdelta : delta.toRat? = some q)
      (htotal : d'.totalKwh call.sample.device = row.totalKwh + q)
      (hother : ∀ device, device ≠ call.sample.device →
        d'.totalKwh device = d.totalKwh device) :
      Effect cfg call d (.ok (.integrated delta total elapsed), d')

theorem EnergyCall.Effect.of_error (e : StorageError) : call.Effect cfg d (.error e, d) :=
  .unchanged _ _ (fun _ _ _ h => by cases h) fun _ => rfl

/-- A call that without faults writes nothing and adds no energy does neither with them. -/
theorem EnergyCall.Effect.of_quiet {r : Except StorageError EnergyOutcome}
    (hquiet : quiet (integrate cfg call.sample) d = (r, d))
    (hr : ∀ delta total elapsed, r ≠ .ok (.integrated delta total elapsed)) :
    call.Effect cfg d (call.exec cfg d) := by
  obtain ⟨fs', hrun | hrun⟩ :=
    (integrate_allOrNothing cfg call.sample).exec_cases d call.faults
  · rw [EnergyCall.exec, hrun, hquiet]
    exact .unchanged r d hr fun _ => rfl
  · rw [EnergyCall.exec, hrun]
    exact .of_error sqlIo

/-- A call that writes a row with the total of before changes no total. -/
theorem EnergyCall.Effect.rewritten {reason : SkipReason} {p : ℚ}
    (hcheck : call.sample.check = .ok ()) (hpower : badPower cfg call.sample.powerWatts = false)
    (hp : call.sample.powerWatts.toRat? = some p)
    (hstep : integrateStep cfg (d.energy call.sample.device) call.sample =
      (.skipped reason, some (call.sample.anchor (.finite (d.totalKwh call.sample.device))))) :
    call.Effect cfg d (call.exec cfg d) := by
  have hbounds : 0 ≤ d.totalKwh call.sample.device ∧
      d.totalKwh call.sample.device ≤ maxEnergyKwh := by
    unfold Db.totalKwh
    cases d.energy call.sample.device with
    | none => exact ⟨le_refl 0, by norm_num [maxEnergyKwh]⟩
    | some row => exact row.total_bounds
  obtain ⟨row, hrow, htotal, -, -⟩ := EnergySample.anchor_row
    (.finite (d.totalKwh call.sample.device)) hcheck hp rfl hbounds.1 hbounds.2
  rw [EnergyCall.exec_writing hcheck hpower hstep hrow]
  by_cases hfault : true ∈ call.faults.take 4
  · rw [if_pos hfault]
    exact .of_error sqlIo
  rw [if_neg hfault, writeStep_written hrow]
  refine .unchanged _ _ (fun _ _ _ h => by cases h) ?_
  intro device
  by_cases hdevice : device = call.sample.device
  · subst hdevice
    simpa [Db.totalKwh] using htotal
  · simp [Db.totalKwh, hdevice]

/-- A total outside the bounds of its column is refused by the table. -/
theorem EnergySample.anchor_refused {sample : EnergySample} {total : F64} {q : ℚ}
    (hq : total.toRat? = some q) (h : ¬ (0 ≤ q ∧ q ≤ maxEnergyKwh)) :
    EnergyRow.ofState (sample.anchor total) sample.sampleAtMs.1 = none := by
  unfold EnergyRow.ofState EnergySample.anchor
  rw [hq]
  dsimp only
  rw [dif_neg (fun hboth => h hboth.1)]

/-- A call at an anchor within the threshold closes the interval, or fails, or is refused because
the new total does not fit its column. -/
theorem EnergyCall.Meets.effect (h : call.Meets cfg d row last p) :
    call.Effect cfg d (call.exec cfg d) := by
  by_cases hfits : 0 ≤ row.totalKwh + intervalKwh (row.lastPowerWatts.getD p) p
      (call.sample.sampleAtMs.1 - last) ∧ row.totalKwh + intervalKwh (row.lastPowerWatts.getD p) p
      (call.sample.sampleAtMs.1 - last) ≤ maxEnergyKwh
  · obtain ⟨delta, total, elapsed, d', hdelta, htotal, hother, hexec⟩ := h.exec rfl hfits.1 hfits.2
    rw [hexec]
    by_cases hfault : true ∈ call.faults.take 4
    · rw [if_pos hfault]
      exact .of_error sqlIo
    · rw [if_neg hfault]
      exact .integrated row last p _ delta total elapsed d' h hfault rfl hfits.1 hdelta htotal
        hother
  · obtain ⟨delta, hdelta, hstep⟩ := h.step
    refine .of_quiet (r := .error (.sqlite .constraint)) ?_ (by intro _ _ _ h; cases h)
    rw [quiet_integrate h.checked h.bounded, hstep, writeStep_refused (EnergySample.anchor_refused
      (F64.toRat?_add (F64.toRat?_finite row.totalKwh) hdelta) hfits)]

/-- The cases are the branches of `integrateStep`. -/
theorem EnergyCall.exec_effect (call : EnergyCall) (d : Db) :
    call.Effect cfg d (call.exec cfg d) := by
  cases hcheck : call.sample.check with
  | error e => exact .of_quiet (quiet_integrate_unchecked hcheck d) (by intro _ _ _ h; cases h)
  | ok u =>
      by_cases hbad : badPower cfg call.sample.powerWatts = true
      · exact .of_quiet (quiet_integrate_badPower hcheck hbad d) (by intro _ _ _ h; cases h)
      have hpower : badPower cfg call.sample.powerWatts = false := by simpa using hbad
      obtain ⟨p, hp, -, -⟩ := EnergySample.point?_eq_some hcheck hpower
      cases hrow : d.energy call.sample.device with
      | none =>
          have hstep : integrateStep cfg (d.energy call.sample.device) call.sample =
              (.skipped .firstSample,
                some (call.sample.anchor (.finite (d.totalKwh call.sample.device)))) := by
            simp [hrow, integrateStep, Db.totalKwh]
          exact .rewritten hcheck hpower hp hstep
      | some row =>
          have htotal : d.totalKwh call.sample.device = row.totalKwh := by simp [Db.totalKwh, hrow]
          cases hlast : row.lastSampleAtMs with
          | none =>
              exact .rewritten hcheck hpower hp (by rw [hrow, htotal, integrateStep_unanchored hlast])
          | some last =>
              by_cases hback : call.sample.sampleAtMs.1 ≤ last
              · refine .of_quiet (r := .ok (.skipped .backwardTime)) ?_ (by intro _ _ _ h; cases h)
                rw [quiet_integrate hcheck hpower, hrow, integrateStep_backward hlast hback,
                  writeStep_unwritten]
              by_cases hlong : cfg.energyGapThresholdMs.1 < call.sample.sampleAtMs.1 - last
              · have hstep := integrateStep_long hlast hlong (not_le.mp hback)
                rw [← htotal, ← hrow] at hstep
                exact .rewritten hcheck hpower hp hstep
              · exact EnergyCall.Meets.effect
                  ⟨hrow, hlast, hcheck, hpower, hp, not_le.mp hback, not_lt.mp hlong⟩

/-- **One call goes forward if and only if it does not draw.** -/
theorem EnergyCall.forward_iff (call : EnergyCall) (d : Db) :
    call.Forward cfg d ↔ ¬ call.Draws cfg d := by
  constructor
  · rintro hforward ⟨hcompletes, row, last, p, hmeets, hneg, hlo⟩
    have hnegative := intervalKwh_neg (sub_pos.mpr hmeets.later) hneg
    have hhi := row.total_bounds.2
    obtain ⟨delta, total, elapsed, d', hdelta, -, -, hexec⟩ := hmeets.exec rfl hlo
      (by unfold maxEnergyKwh; linarith)
    rw [if_neg hcompletes] at hexec
    have hle := hforward.delta delta total elapsed (by rw [hexec])
    rw [F64.le_iff (F64.toRat?_finite 0) hdelta] at hle
    linarith
  · intro hdraws
    have heffect := @EnergyCall.exec_effect cfg call d
    generalize hexec : call.exec cfg d = r at heffect
    cases heffect with
    | unchanged r d' hr htotal =>
        constructor
        · intro delta total elapsed h
          rw [hexec] at h
          exact absurd h (hr delta total elapsed)
        · intro device
          rw [hexec]
          exact (htotal device).ge
    | integrated row last p q delta total elapsed d' hmeets hcompletes hq hlo hdelta htotal hother =>
        have hsum : 0 ≤ row.lastPowerWatts.getD p + p := by
          by_contra hneg
          exact hdraws ⟨hcompletes, row, last, p, hmeets, not_le.mp hneg, hq ▸ hlo⟩
        have hnonneg : 0 ≤ q := hq ▸ intervalKwh_nonneg (sub_pos.mpr hmeets.later) hsum
        constructor
        · intro delta' total' elapsed' h
          rw [hexec] at h
          cases h
          exact (F64.le_iff (F64.toRat?_finite 0) hdelta).mpr hnonneg
        · intro device
          rw [hexec]
          by_cases hdevice : device = call.sample.device
          · have hbefore : d.totalKwh device = row.totalKwh := by
              simp [Db.totalKwh, hdevice, hmeets.stored]
            rw [hbefore, hdevice, htotal]
            linarith
          · exact (hother device hdevice).ge

/-! ## Sequences of calls -/

theorem afterCalls_append (prior : List EnergyCall) (call : EnergyCall) :
    afterCalls cfg d (prior ++ [call]) = (call.exec cfg (afterCalls cfg d prior)).2 := by
  simp [afterCalls, List.foldl_append]

/-- When every call goes forward, so do the calls after any prefix; by induction on them, from
their end. -/
theorem afterCalls_total {calls prior : List EnergyCall}
    (h : ∀ prior call, prior ++ [call] <+: calls → call.Forward cfg (afterCalls cfg d prior))
    (rest : List EnergyCall) (hrest : prior ++ rest <+: calls) (device : String) :
    (afterCalls cfg d prior).totalKwh device ≤
      (afterCalls cfg d (prior ++ rest)).totalKwh device := by
  induction rest using List.reverseRecOn with
  | nil => rw [List.append_nil]
  | append_singleton rest call ih =>
      rw [← List.append_assoc] at hrest ⊢
      have hbefore := ih ((List.prefix_append _ [call]).trans hrest)
      have hcall := (h _ call hrest).total device
      rw [afterCalls_append]
      exact hbefore.trans hcall

end

/-- **The direction of the stored energy.** From any database and for every sequence of calls with
any samples and faults, no total falls and no delta is negative if and only if no call draws:
closes an interval whose two powers have a negative sum. -/
theorem neverBackwards_iff (cfg : StorageConfig) (d : Db) (calls : List EnergyCall) :
    NeverBackwards cfg d calls ↔
      ∀ prior call, prior ++ [call] <+: calls → ¬ call.Draws cfg (afterCalls cfg d prior) := by
  constructor
  · intro h prior call hprior
    rw [← EnergyCall.forward_iff]
    refine ⟨h.delta prior call hprior, fun device => ?_⟩
    rw [← afterCalls_append]
    exact h.total prior (prior ++ [call]) (List.prefix_append _ _) hprior device
  · intro h
    have hforward : ∀ prior call, prior ++ [call] <+: calls →
        call.Forward cfg (afterCalls cfg d prior) :=
      fun prior call hprior => (EnergyCall.forward_iff call _).mpr (h prior call hprior)
    refine ⟨fun prior call hprior => (hforward prior call hprior).delta, ?_⟩
    rintro prior later ⟨rest, rfl⟩ hlater device
    exact afterCalls_total hforward rest hlater device

/-! ## A minimum that is not negative -/

/-- No stored anchor has a negative power. -/
def Db.AnchorsNonneg (d : Db) : Prop :=
  ∀ device row, d.energy device = some row → ∀ q ∈ row.lastPowerWatts, 0 ≤ q

section

variable {cfg : StorageConfig} {call : EnergyCall} {d : Db}

/-- What a call writes carries the power of its sample. -/
theorem integrateStep_power (previous : Option EnergyRow) (sample : EnergySample) :
    ∀ state ∈ (integrateStep cfg previous sample).2,
      state.lastPowerWatts = some sample.powerWatts := by
  intro state hstate
  obtain ⟨total, rfl⟩ := integrateStep_writes hstate
  rfl

theorem ofState_power {state : AcquisitionEnergyState} {nowMs : Int} {row : EnergyRow}
    (h : EnergyRow.ofState state nowMs = some row) :
    row.lastPowerWatts = state.lastPowerWatts.bind F64.toRat? := by
  unfold EnergyRow.ofState at h
  split at h
  · cases h
  · split at h
    · exact Option.some.inj h ▸ rfl
    · cases h

theorem Db.AnchorsNonneg.exec (hmin : cfg.NonnegativePower) (h : d.AnchorsNonneg) :
    (call.exec cfg d).2.AnchorsNonneg := by
  rcases call.exec_cases cfg d with ⟨hsame, -⟩ | ⟨hquiet, -⟩
  · rw [hsame]
    exact h
  rw [hquiet]
  have hstep := quiet_integrate_cases cfg call.sample d
  generalize quiet (integrate cfg call.sample) d = r at hstep ⊢
  cases hstep with
  | refused r hunusable => exact h
  | decided hcheck hpower =>
      have hstate := @integrateStep_power cfg (d.energy call.sample.device) call.sample
      generalize integrateStep cfg (d.energy call.sample.device) call.sample = step at hstate ⊢
      obtain ⟨outcome, _ | state⟩ := step
      · exact h
      cases hrow : EnergyRow.ofState state call.sample.sampleAtMs.1 with
      | none =>
          rw [writeStep_refused hrow]
          exact h
      | some row =>
          rw [writeStep_written hrow]
          intro device row' hrow' q hq
          dsimp only at hrow'
          by_cases hdevice : device = call.sample.device
          · rw [hdevice, Function.update_self] at hrow'
            cases hrow'
            rw [ofState_power hrow, hstate state rfl, Option.bind_some] at hq
            obtain ⟨m, hm, hm0⟩ := hmin
            obtain ⟨p, hp, hlo, -⟩ := EnergySample.point?_eq_some hcheck hpower
            rw [hp] at hq
            cases hq
            exact hm0.trans (hlo m hm)
          · rw [Function.update_of_ne hdevice] at hrow'
            exact h device row' hrow' q hq

/-- With a minimum that is not negative, an anchor that is not negative draws nothing. -/
theorem EnergyCall.not_draws (hmin : cfg.NonnegativePower) (h : d.AnchorsNonneg) :
    ¬ call.Draws cfg d := by
  rintro ⟨-, row, last, p, hmeets, hneg, -⟩
  obtain ⟨m, hm, hm0⟩ := hmin
  obtain ⟨p', hp', hlo, -⟩ := EnergySample.point?_eq_some hmeets.checked hmeets.bounded
  rw [hmeets.power] at hp'
  cases hp'
  have hpower : 0 ≤ p := hm0.trans (hlo m hm)
  have hanchor : 0 ≤ row.lastPowerWatts.getD p := by
    cases hlast : row.lastPowerWatts with
    | none => exact hpower
    | some q => exact h _ row hmeets.stored q hlast
  linarith

end

/-- **Under a minimum power that is not negative the energy never runs backwards**, from every
database whose anchors are not negative either: the empty one, one after resets, and any that
calls under such a minimum lead to. -/
theorem neverBackwards_of_minimum {cfg : StorageConfig} (hmin : cfg.NonnegativePower) {d : Db}
    (h : d.AnchorsNonneg) (calls : List EnergyCall) : NeverBackwards cfg d calls := by
  have hanchors : ∀ prior, (afterCalls cfg d prior).AnchorsNonneg := by
    intro prior
    induction prior using List.reverseRecOn with
    | nil => exact h
    | append_singleton prior call ih =>
        rw [afterCalls_append]
        exact Db.AnchorsNonneg.exec hmin ih
  rw [neverBackwards_iff]
  intro prior call _
  exact EnergyCall.not_draws hmin (hanchors prior)

/-- The defaults with a minimum of -100 W, which `StorageConfig::validate` accepts. -/
def importing : StorageConfig :=
  { StorageConfig.conservative with energyMinPowerWatts := .finite (-100) }

theorem importing_valid : importing.validate = .ok () := by
  decide

/-- The database after a reset of the device to 1 kWh. -/
def resetToOne : Db := (quiet (reset "grid" (.finite 1) ⟨1500, by decide⟩) Db.empty).2

/-- A minute at -60 W. -/
def importedMinute : List EnergyCall :=
  [⟨⟨"grid", .finite (-60), ⟨2000, by decide⟩⟩, []⟩,
    ⟨⟨"grid", .finite (-60), ⟨62000, by decide⟩⟩, []⟩]

/-- The total falls from 1 kWh to 0.999 kWh. -/
theorem importedMinute_backwards :
    importing.validate = .ok () ∧ ¬ NeverBackwards importing resetToOne importedMinute := by
  refine ⟨importing_valid, fun h => ?_⟩
  have htotal := h.total [] importedMinute (List.nil_prefix) (List.prefix_refl _) "grid"
  have hnot : ¬ (afterCalls importing resetToOne []).totalKwh "grid" ≤
      (afterCalls importing resetToOne importedMinute).totalKwh "grid" := by decide +kernel
  exact hnot htotal

end VeSmart.Storage
