import Mathlib.Data.List.ReduceOption
import VeSmart.Collector.Renderer
import VeSmart.Collector.SqliteStorage
import VeSmart.Domain.Builder
import VeSmart.Metrics.SampleBatch

set_option autoImplicit false

/-! # What a rendered batch says (`PrometheusRenderer` of `victron-collector/src/adapters/delivery.rs`)

A context goes through two copies, into a view and from the view into a batch, before it is
encoded. `series` lists what a reader should find, straight from the context. -/

namespace VeSmart.Collector

open VeSmart.Lib VeSmart.Domain VeSmart.Metrics VeSmart.Lib.Exposition
open VeSmart.Service (RenderContext RenderError)

/-! ## The renderer -/

/-- The seconds of a duration as a float (`as_secs_f64`). -/
def asSecsF64 (d : Duration) : F64 :=
  .plus (.ofInt (Duration.asSecs d)) (.div (.ofInt (d % nanosPerSec : Nat)) (.ofInt nanosPerSec))

def systemTimeSeconds (time : SystemTime) : Except RenderError I64 :=
  match time.durationSince SystemTime.unixEpoch with
  | none => .error (.metric "second time provided was later than self")
  | some d =>
      if h : InI64 (Duration.asSecs d) then .ok ⟨Duration.asSecs d, h⟩
      else .error (.metric "timestamp exceeds i64 seconds")

/-- The view of a context, without the readings of its sample. -/
def contextView (ctx : RenderContext) (lastSuccessUnixtime : Option I64) : SampleView where
  device := ctx.device.asStr
  observedAtMs := ms 0
  pvVoltageVolts := none
  pvCurrentAmperes := none
  pvPowerWatts := none
  batteryVoltageVolts := none
  batteryCurrentAmperes := none
  loadPowerWatts := none
  loadCurrentAmperes := none
  -- the service has resolved native or integrated energy already
  yieldTotalKwh := some ctx.resolvedYieldKwh
  yieldTodayKwh := none
  chargerState := none
  bleUp := ctx.bleUp
  bleRssiDbm := ctx.bleRssiDbm
  lastSuccessUnixtime := lastSuccessUnixtime
  sampleAgeSeconds := ctx.sampleAge.map asSecsF64
  bleConnectFailures := some ctx.health.bleConnectFailuresTotal
  protocolErrors := some ctx.health.protocolErrorsTotal
  samplesDropped := some ctx.health.samplesDroppedTotal
  energyIntegrationGapSeconds := some ctx.energyGapSkippedSeconds
  spoolBatches := some (UInt64.ofNat ctx.spoolDepth)
  spoolOldestAgeSeconds := ctx.spoolOldestAge.map asSecsF64

/-- The points of a context. `debug` is the quoting of Rust's `Debug` in the error texts. -/
def contextBatch (debug : String → String) (ctx : RenderContext) :
    Except RenderError (List MetricPoint) := do
  let lastSuccessUnixtime ← transposeMap systemTimeSeconds ctx.lastSuccess
  let batch ← (sampleToBatch ctx.device.asStr ctx.sample
    (contextView ctx lastSuccessUnixtime)).mapError fun e => .metric (e.text debug)
  pure batch.points

def prometheusRenderer (formatValue : F64 → String) (debug : String → String) :
    PrometheusRenderer where
  sampleToBatch := contextBatch debug
  formatValue := formatValue

/-! ## What is known of a context -/

/-- A sample of a series of the device at the time of the observation. -/
def seriesSample (ctx : RenderContext) (name : String) (labels : List (String × String))
    (value : F64) : Exposition.Sample F64 :=
  ⟨name, ("device", ctx.device.name) :: labels, value, ctx.sample.observedAt.asMillis⟩

def readingSample {r : Range} (ctx : RenderContext) (name : String) (m : Reading r) :
    Exposition.Sample F64 :=
  seriesSample ctx name [] m.value

/-- The known items of a context. The signal strength is a whole number of dBm, towards zero. -/
def series (ctx : RenderContext) : List (Exposition.Sample F64) := List.reduceOption
  [ctx.sample.pvVoltageVolts.map (readingSample ctx "victron_pv_voltage_volts"),
    ctx.sample.pvCurrentAmperes.map (readingSample ctx "victron_pv_current_amperes"),
    ctx.sample.pvPowerWatts.map (readingSample ctx "victron_pv_power_watts"),
    ctx.sample.batteryVoltageVolts.map (readingSample ctx "victron_battery_voltage_volts"),
    ctx.sample.batteryCurrentAmperes.map (readingSample ctx "victron_battery_current_amperes"),
    ctx.sample.loadPowerWatts.map (readingSample ctx "victron_load_power_watts"),
    ctx.sample.loadCurrentAmperes.map (readingSample ctx "victron_load_current_amperes"),
    some (seriesSample ctx "victron_yield_total_kwh" [] ctx.resolvedYieldKwh),
    ctx.sample.yieldTodayKwh.map (readingSample ctx "victron_yield_today_kwh"),
    ctx.sample.chargerState.map fun state =>
      seriesSample ctx "victron_charger_state" [("state", chargerStateLabel state)] (.finite 1),
    ctx.bleUp.map fun up => seriesSample ctx "victron_ble_up" [] (.finite (if up then 1 else 0)),
    ctx.sample.bleRssiDbm.map fun m =>
      seriesSample ctx "victron_ble_rssi_dbm" [] (.ofInt m.value.truncate),
    ctx.lastSuccess.map fun t =>
      seriesSample ctx "victron_last_success_unixtime" [] (.ofInt (t.nanos / nanosPerSec)),
    ctx.sampleAge.map fun age =>
      seriesSample ctx "victron_sample_age_seconds" [] (asSecsF64 age),
    some (seriesSample ctx "victron_ble_connect_failures_total" []
      (.ofInt ctx.health.bleConnectFailuresTotal.toNat)),
    some (seriesSample ctx "victron_protocol_errors_total" []
      (.ofInt ctx.health.protocolErrorsTotal.toNat)),
    some (seriesSample ctx "victron_samples_dropped_total" []
      (.ofInt ctx.health.samplesDroppedTotal.toNat)),
    some (seriesSample ctx "victron_energy_integration_gap_seconds_total" []
      (.ofInt ctx.energyGapSkippedSeconds.toNat)),
    some (seriesSample ctx "victron_spool_batches" [] (.ofInt ctx.spoolDepth)),
    ctx.spoolOldestAge.map fun age =>
      seriesSample ctx "victron_spool_oldest_age_seconds" [] (asSecsF64 age)]

/-- The widths of the source's types: a point in time has signed 64-bit seconds, a duration has
unsigned ones, and a depth has 64 bits. -/
structure ContextWidths (ctx : RenderContext) : Prop where
  lastSuccess : ∀ t ∈ ctx.lastSuccess, InI64 (t.nanos / nanosPerSec)
  sampleAge : ∀ age ∈ ctx.sampleAge, age ≤ Duration.maximum
  spoolOldestAge : ∀ age ∈ ctx.spoolOldestAge, age ≤ Duration.maximum
  spoolDepth : ctx.spoolDepth ≤ u64Max

section

variable {ctx : RenderContext} {formatValue : F64 → String} (debug : String → String)

/-! ## Numbers -/

theorem asSecsF64_isFinite {d : Duration} (h : d ≤ Duration.maximum) :
    (asSecsF64 d).isFinite = true := by
  have hsecs : Duration.asSecs d < 2 ^ 64 :=
    Nat.div_lt_of_lt_mul (lt_of_le_of_lt h (by decide))
  have hnanos : ((d % nanosPerSec : Nat) : Int) < (nanosPerSec : Int) := by
    simp only [nanosPerSec]
    omega
  have hpos : (0 : Int) < (nanosPerSec : Int) := by
    simp only [nanosPerSec]
    omega
  have hsecs_cast : |(((Duration.asSecs d : Nat) : Int) : ℚ)| ≤ 2 ^ 64 := by
    rw [abs_of_nonneg (by positivity)]
    exact_mod_cast hsecs.le
  have hquot : |(((d % nanosPerSec : Nat) : Int) : ℚ) / ((nanosPerSec : Int) : ℚ)| ≤ 1 := by
    rw [abs_of_nonneg (by positivity), div_le_one (by exact_mod_cast hpos)]
    exact_mod_cast hnanos.le
  have hbig : (2 : ℚ) ^ 64 < 2 ^ 1000 := pow_lt_pow_right₀ (by norm_num) (by omega)
  have hone : (1 : ℚ) < 2 ^ 1000 := one_lt_pow₀ (by norm_num) (by omega)
  obtain ⟨x, hx, hx_le⟩ := (F64.ofRat_nearest (lt_of_le_of_lt hsecs_cast hbig)).abs_le
  obtain ⟨y, hy, hy_le⟩ := (F64.ofRat_nearest (lt_of_le_of_lt hquot hone)).abs_le
  have hsmall : |(nanosPerSec : Int)| < 2 ^ 53 := by
    simp only [nanosPerSec]
    norm_num
  have hdiv : F64.div (.ofInt ((d % nanosPerSec : Nat) : Int)) (.ofInt (nanosPerSec : Int)) =
      .ofRat ((((d % nanosPerSec : Nat) : Int) : ℚ) / ((nanosPerSec : Int) : ℚ)) := by
    refine F64.div_ofInt ?_ hsmall hpos
    rw [abs_of_nonneg (by omega)]
    exact lt_of_lt_of_le hnanos (le_of_lt (lt_of_le_of_lt (le_abs_self _) hsmall))
  have hsum : |x + y| < 2 ^ 1000 := by
    calc |x + y| ≤ |x| + |y| := abs_add_le x y
      _ ≤ 2 * 2 ^ 64 + 2 * 1 := by linarith
      _ < 2 ^ 66 := by norm_num
      _ ≤ 2 ^ 1000 := pow_le_pow_right₀ (by norm_num) (by omega)
  have hadd := F64.toRat?_add hx (hdiv ▸ hy)
  rw [asSecsF64, F64.plus]
  exact F64.round_isFinite hadd hsum

theorem systemTimeSeconds_ok {t : SystemTime} (hepoch : SystemTime.unixEpoch ≤ t)
    (h : InI64 (t.nanos / nanosPerSec)) : systemTimeSeconds t = .ok ⟨t.nanos / nanosPerSec, h⟩ := by
  have hsecs : ((Duration.asSecs (t.nanos - SystemTime.unixEpoch.nanos).toNat : Nat) : Int) =
      t.nanos / nanosPerSec := by
    simp only [SystemTime.le_iff, SystemTime.unixEpoch] at hepoch
    simp only [Duration.asSecs, SystemTime.unixEpoch, nanosPerSec]
    omega
  rw [systemTimeSeconds, SystemTime.durationSince, if_pos hepoch]
  simp only [hsecs, dif_pos h]

/-- The readings of the signal strength fit in 32 bits. -/
theorem asI32_reading (m : Reading bleRssiDbm) : asI32 m.value = m.value.truncate := by
  obtain ⟨q, hq, hlo, hhi⟩ := F64.between_iff.mp m.inRange
  have htrunc : -128 ≤ m.value.truncate ∧ m.value.truncate ≤ 0 := by
    simp only [F64.truncate, hq]
    simp only [bleRssiDbm] at hlo hhi
    split_ifs with hsign
    · have hzero : q = 0 := le_antisymm hhi hsign
      simp [hzero]
    · exact ⟨Int.le_ceil_iff.mpr (by push_cast; linarith), Int.ceil_le.mpr (by exact_mod_cast hhi)⟩
  unfold asI32
  split
  · rename_i negative hinf
    rw [hinf] at hq
    cases hq
  · omega

/-! ## The batch of a context -/

theorem lastSuccess_ok (hwidths : ContextWidths ctx)
    (hlast : ∀ t ∈ ctx.lastSuccess, SystemTime.unixEpoch ≤ t) :
    ∃ last, transposeMap systemTimeSeconds ctx.lastSuccess = .ok last ∧
      last.map i64AsF64 = ctx.lastSuccess.map fun t => F64.ofInt (t.nanos / nanosPerSec) := by
  have hwidth := hwidths.lastSuccess
  generalize ctx.lastSuccess = success at hlast hwidth
  cases success with
  | none => exact ⟨none, rfl, rfl⟩
  | some t =>
      have hseconds := systemTimeSeconds_ok (hlast t rfl) (hwidth t rfl)
      exact ⟨some ⟨t.nanos / nanosPerSec, hwidth t rfl⟩, by simp [transposeMap, hseconds, Except.map],
        rfl⟩

/-- The two copies of the fields bring each item under its own name. -/
theorem series_known {last : Option I64} {observedAtMs : I64}
    (hms : observedAtMs.1 = ctx.sample.observedAt.asMillis) (hwidths : ContextWidths ctx)
    (hlast : last.map i64AsF64 =
      ctx.lastSuccess.map fun t => F64.ofInt (t.nanos / nanosPerSec)) :
    (known ((contextView ctx last).withSample ctx.device.asStr observedAtMs ctx.sample).entries).map
      (Content.sample ctx.device.asStr observedAtMs.1) = series ctx := by
  have hdepth : u64AsF64 (UInt64.ofNat ctx.spoolDepth) = .ofInt ctx.spoolDepth := by
    have hlt : ctx.spoolDepth < 2 ^ 64 := lt_of_le_of_lt hwidths.spoolDepth (by decide)
    rw [u64AsF64, UInt64.toNat_ofNat_of_lt' hlt]
  rw [known_map]
  simp only [SampleView.entries, contextView, SampleView.withSample, hlast, hms, hdepth,
    asI32_reading, Option.map_map, Option.map_some, List.map_cons, List.map_nil]
  rfl

/-- **No context is refused.** -/
theorem contextBatch_ok (hwidths : ContextWidths ctx)
    (hobserved : SystemTime.fromMillis 1 ≤ ctx.sample.observedAt)
    (hmax : ctx.sample.observedAt.asMillis ≤ i64Max)
    (hyield : ctx.resolvedYieldKwh.isFinite = true)
    (hlast : ∀ t ∈ ctx.lastSuccess, SystemTime.unixEpoch ≤ t) :
    ∃ points, contextBatch debug ctx = .ok points ∧
      points.map MetricPoint.sample = series ctx ∧ (∀ p ∈ points, p.Validated) ∧
      (points.map MetricPoint.name).Nodup := by
  have hms : 1 ≤ ctx.sample.observedAt.asMillis := by
    have hmono := SystemTime.asMillis_mono hobserved
    rwa [SystemTime.asMillis_fromMillis] at hmono
  obtain ⟨last, hseconds, hlast_eq⟩ := lastSuccess_ok hwidths hlast
  obtain ⟨hrange, htime⟩ := systemTimeToMs_ok (by omega) hmax
  obtain ⟨hne, hdevice⟩ := deviceId_label ctx.device
  have hsound : ((contextView ctx last).withSample ctx.device.asStr
      ⟨ctx.sample.observedAt.asMillis, hrange⟩ ctx.sample).Sound :=
    withSample_sound ctx.sample (by rintro v ⟨⟩; exact hyield)
      (finite_map fun age hage => asSecsF64_isFinite (hwidths.sampleAge age hage))
      (finite_map fun age hage => asSecsF64_isFinite (hwidths.spoolOldestAge age hage))
  obtain ⟨b, hview, hpoints, hvalid⟩ :=
    MetricBatchBuilder.ofView_ok hne hdevice (lt_of_lt_of_le Int.one_pos hms) hsound
  refine ⟨b.points, ?_, ?_, hvalid, known_nodup hpoints⟩
  · have hbatch : sampleToBatch ctx.device.asStr ctx.sample (contextView ctx last) = .ok b := by
      rw [sampleToBatch, htime]
      exact hview
    rw [contextBatch, hseconds]
    simp only [bind, Except.bind, hbatch]
    rfl
  · rw [hpoints]
    exact series_known rfl hwidths hlast_eq

/-! ## The text of a context -/

/-- The text has one sample for each series, and no others. -/
structure Reads (formatValue : F64 → String) (text : String)
    (expected : List (Exposition.Sample F64)) : Prop where
  reading : ∃ samples, IsText (IsNumeral formatValue) samples text.toList ∧
    (samples.map Exposition.Sample.name).Nodup ∧ ∀ s, s ∈ samples ↔ s ∈ expected
  unique : ∀ samples other, IsText (IsNumeral formatValue) samples text.toList →
    IsText (IsNumeral formatValue) other text.toList → other = samples

/-- Points without a key in common are read back as they are. -/
theorem reads_encode (hdisplay : Display formatValue) {points : List MetricPoint}
    (hvalid : ∀ p ∈ points, p.Validated) (hnames : (points.map MetricPoint.name).Nodup) :
    Reads formatValue (encode formatValue points) (points.map MetricPoint.sample) where
  reading := by
    have hkeys : (points.map MetricPoint.key).Nodup := by
      have hfst : points.map MetricPoint.name =
          (points.map MetricPoint.key).map fun k => (ofLex k).1 := by
        rw [List.map_map]
        rfl
      rw [hfst] at hnames
      exact hnames.of_map _
    have hperm : (latest MetricPoint.key points).Perm points :=
      (List.perm_ext_iff_of_nodup
        ((latest_sorted MetricPoint.key points).imp fun hlt heq => hlt.ne (congrArg _ heq))
        hkeys.of_map).mpr fun p => mem_latest_of_nodup hkeys
    refine ⟨_, encode_isText hdisplay hvalid, ?_, ?_⟩
    · rw [List.map_map]
      exact (hperm.map _).nodup_iff.mpr hnames
    · intro s
      exact (hperm.map _).mem_iff
  unique := fun _ _ hx hy => isText_meaning hdisplay.numerals hy hx

theorem render_ok {points : List MetricPoint} (hbatch : contextBatch debug ctx = .ok points)
    (hne : points ≠ []) : (prometheusRenderer formatValue debug).render ctx =
      .ok (intoBytes (encode formatValue points)) := by
  have hnonempty : points.isEmpty = false := by simp [hne]
  rw [PrometheusRenderer.render, show (prometheusRenderer formatValue debug).sampleToBatch ctx =
    .ok points from hbatch]
  simp only [bind, Except.bind, hnonempty]
  rfl

/-- The resolved yield is always known. -/
theorem series_ne (ctx : RenderContext) : series ctx ≠ [] := by
  have hyield : seriesSample ctx "victron_yield_total_kwh" [] ctx.resolvedYieldKwh ∈ series ctx := by
    simp [series, List.reduceOption_mem_iff]
  exact List.ne_nil_of_mem hyield

/-- **A context of a valid sample is rendered**, and its text says of every item what is known of
it, under its own name, for the device at the time of the observation. -/
theorem render_series (hdisplay : Display formatValue) (hwidths : ContextWidths ctx)
    (hobserved : SystemTime.fromMillis 1 ≤ ctx.sample.observedAt)
    (hmax : ctx.sample.observedAt.asMillis ≤ i64Max)
    (hyield : ctx.resolvedYieldKwh.isFinite = true)
    (hlast : ∀ t ∈ ctx.lastSuccess, SystemTime.unixEpoch ≤ t) :
    ∃ text, (prometheusRenderer formatValue debug).render ctx = .ok (intoBytes text) ∧
      Reads formatValue text (series ctx) := by
  obtain ⟨points, hbatch, hpoints, hvalid, hnames⟩ :=
    contextBatch_ok debug hwidths hobserved hmax hyield hlast
  have hne : points ≠ [] := by
    rintro rfl
    exact series_ne ctx hpoints.symm
  refine ⟨encode formatValue points, render_ok debug hbatch hne, ?_⟩
  rw [← hpoints]
  exact reads_encode hdisplay hvalid hnames

end

/-- A context of which only the yield, the counters and the signal strength are known. -/
def signalContext (rssi : Reading bleRssiDbm) : RenderContext where
  device := solarCharger
  sample := { (SampleBuilder.new solarCharger ⟨1700000000000000000⟩).sample with
    bleRssiDbm := some rssi }
  resolvedYieldKwh := .finite 100
  energyKind := .native
  bleUp := none
  bleRssiDbm := none
  lastSuccess := some ⟨1700000000000000000⟩
  sampleAge := some 3000000000
  health := .new
  spoolDepth := 1
  spoolOldestAge := none
  energyGapSkippedSeconds := 0

theorem signalContext_widths (rssi : Reading bleRssiDbm) : ContextWidths (signalContext rssi) where
  lastSuccess := by
    intro t ht
    cases (Option.mem_some_iff.mp ht)
    exact ⟨by decide, by decide⟩
  sampleAge := by
    intro age hage
    cases (Option.mem_some_iff.mp hage)
    exact Nat.le_of_ble_eq_true rfl
  spoolOldestAge := by
    intro age hage
    exact absurd hage (Option.not_mem_none age)
  spoolDepth := Nat.le_of_ble_eq_true rfl

theorem signalContext_time (rssi : Reading bleRssiDbm) :
    SystemTime.fromMillis 1 ≤ (signalContext rssi).sample.observedAt ∧
      (signalContext rssi).sample.observedAt.asMillis ≤ i64Max ∧
      ∀ t ∈ (signalContext rssi).lastSuccess, SystemTime.unixEpoch ≤ t := by
  have hobserved : (signalContext rssi).sample.observedAt = ⟨1700000000000000000⟩ := rfl
  have hlast : (signalContext rssi).lastSuccess = some ⟨1700000000000000000⟩ := rfl
  rw [hobserved, hlast]
  refine ⟨by decide, by decide, ?_⟩
  intro t ht
  rw [← Option.mem_some_iff.mp ht]
  decide

/-- A whole number of dBm. -/
def wholeDbm : Reading bleRssiDbm := ⟨⟨.finite (-61), .confirmedNative, by decide⟩, by decide⟩

theorem wholeDbm_rendered : ∃ text, (prometheusRenderer fractionText id).render
    (signalContext wholeDbm) = .ok (intoBytes text) ∧
      Reads fractionText text (series (signalContext wholeDbm)) := by
  obtain ⟨hobserved, hmax, hlast⟩ := signalContext_time wholeDbm
  exact render_series id fractionText_display (signalContext_widths wholeDbm) hobserved hmax rfl
    hlast

theorem halfDbm_inRange : bleRssiDbm.contains (.finite (-123 / 2)) = true := by
  rw [Range.contains, F64.between_finite]
  norm_num [bleRssiDbm]

/-- Half a dBm less, as no radio reports it but the builder of the sample admits it. -/
def halfDbm : Reading bleRssiDbm := ⟨⟨.finite (-123 / 2), .confirmedNative, rfl⟩, halfDbm_inRange⟩

theorem intoBytes_injective {s t : String} (h : intoBytes s = intoBytes t) : s = t := by
  apply String.toByteArray_inj.mp
  apply ByteArray.ext
  exact Array.toList_inj.mp h

/-- Half a dBm is not in the text. -/
theorem halfDbm_rounded : ¬ ∀ (formatValue : F64 → String) (debug : String → String)
    (ctx : RenderContext), Display formatValue → ContextWidths ctx →
      SystemTime.fromMillis 1 ≤ ctx.sample.observedAt →
      ctx.sample.observedAt.asMillis ≤ i64Max → ctx.resolvedYieldKwh.isFinite = true →
      (∀ t ∈ ctx.lastSuccess, SystemTime.unixEpoch ≤ t) →
      ∃ text, (prometheusRenderer formatValue debug).render ctx = .ok (intoBytes text) ∧
        ∃ samples, IsText (IsNumeral formatValue) samples text.toList ∧
          ∀ m ∈ ctx.sample.bleRssiDbm,
            readingSample ctx "victron_ble_rssi_dbm" m ∈ samples := by
  intro h
  obtain ⟨hobserved, hmax, hlast⟩ := signalContext_time halfDbm
  have hwidths := signalContext_widths halfDbm
  obtain ⟨text, hrender, samples, htext, hrssi⟩ := h fractionText id (signalContext halfDbm)
    fractionText_display hwidths hobserved hmax rfl hlast
  obtain ⟨points, hbatch, hpoints, hvalid, hnames⟩ :=
    contextBatch_ok id hwidths hobserved hmax rfl hlast
  have hne : points ≠ [] := by
    rintro rfl
    exact series_ne _ hpoints.symm
  rw [render_ok id hbatch hne] at hrender
  rw [← intoBytes_injective (Except.ok.inj hrender)] at htext
  -- the only reading of the text is that of the points
  have hreads := reads_encode fractionText_display hvalid hnames
  obtain ⟨read, hread, -, hmem⟩ := hreads.reading
  rw [hreads.unique _ _ hread htext] at hrssi
  have hseries := (hmem _).mp (hrssi halfDbm rfl)
  rw [hpoints] at hseries
  have htrunc : F64.ofInt halfDbm.value.truncate = .finite (-61 : ℤ) := by
    have hvalue : halfDbm.value.truncate = -61 := by
      norm_num [halfDbm, F64.truncate, Int.ceil_eq_iff]
    rw [hvalue]
    exact F64.ofInt_eq (by norm_num)
  simp [series, signalContext, readingSample, seriesSample,
    SampleBuilder.new, htrunc] at hseries
  norm_num [halfDbm] at hseries

end VeSmart.Collector
