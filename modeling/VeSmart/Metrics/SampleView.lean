import VeSmart.Lib.Binary64
import VeSmart.Metrics.TextFormat

set_option autoImplicit false

/-! # From a view of a sample to a batch (`victron-metrics/src/adapter.rs`, `names.rs`)

A `SampleView` has a field for each series. What is known becomes a point under the name of the
series; what is not known is left out. -/

namespace VeSmart.Metrics

open VeSmart.Lib

/-! ## Names -/

namespace Names

def pvVoltageVolts : String := "victron_pv_voltage_volts"
def pvCurrentAmperes : String := "victron_pv_current_amperes"
def pvPowerWatts : String := "victron_pv_power_watts"
def batteryVoltageVolts : String := "victron_battery_voltage_volts"
def batteryCurrentAmperes : String := "victron_battery_current_amperes"
def loadPowerWatts : String := "victron_load_power_watts"
def loadCurrentAmperes : String := "victron_load_current_amperes"
def yieldTotalKwh : String := "victron_yield_total_kwh"
def yieldTodayKwh : String := "victron_yield_today_kwh"
def chargerState : String := "victron_charger_state"
def bleUp : String := "victron_ble_up"
def bleRssiDbm : String := "victron_ble_rssi_dbm"
def lastSuccessUnixtime : String := "victron_last_success_unixtime"
def sampleAgeSeconds : String := "victron_sample_age_seconds"
def bleConnectFailuresTotal : String := "victron_ble_connect_failures_total"
def protocolErrorsTotal : String := "victron_protocol_errors_total"
def samplesDroppedTotal : String := "victron_samples_dropped_total"
def energyIntegrationGapSecondsTotal : String := "victron_energy_integration_gap_seconds_total"
def spoolBatches : String := "victron_spool_batches"
def spoolOldestAgeSeconds : String := "victron_spool_oldest_age_seconds"

end Names

/-! ## Views -/

/-- One acquisition cycle in base units. -/
structure SampleView where
  device : String
  observedAtMs : I64
  pvVoltageVolts : Option F64
  pvCurrentAmperes : Option F64
  pvPowerWatts : Option F64
  batteryVoltageVolts : Option F64
  batteryCurrentAmperes : Option F64
  loadPowerWatts : Option F64
  loadCurrentAmperes : Option F64
  yieldTotalKwh : Option F64
  yieldTodayKwh : Option F64
  chargerState : Option String
  bleUp : Option Bool
  bleRssiDbm : Option Int
  lastSuccessUnixtime : Option I64
  sampleAgeSeconds : Option F64
  bleConnectFailures : Option UInt64
  protocolErrors : Option UInt64
  samplesDropped : Option UInt64
  energyIntegrationGapSeconds : Option UInt64
  spoolBatches : Option UInt64
  spoolOldestAgeSeconds : Option F64

/-- An unsigned number as a float. -/
def u64AsF64 (n : UInt64) : F64 := .ofInt n.toNat

def i64AsF64 (n : I64) : F64 := .ofInt n.1

def upAsF64 (up : Bool) : F64 := .finite (if up then 1 else 0)

namespace MetricBatchBuilder

variable (b : MetricBatchBuilder) (name : String)

def gaugeIf : Option F64 → Except MetricError MetricBatchBuilder
  | none => .ok b
  | some value => b.gauge name value

def counterIf : Option UInt64 → Except MetricError MetricBatchBuilder
  | none => .ok b
  | some value => b.counter name (u64AsF64 value)

def stateIf : Option String → Except MetricError MetricBatchBuilder
  | none => .ok b
  | some value => b.state name value

/-- The batch of a view, with the time of the observation. -/
def ofView (view : SampleView) : Except MetricError MetricBatchBuilder := do
  let b ← MetricBatchBuilder.new view.device
  let b ← b.withTimestampMs view.observedAtMs
  let b ← b.gaugeIf Names.pvVoltageVolts view.pvVoltageVolts
  let b ← b.gaugeIf Names.pvCurrentAmperes view.pvCurrentAmperes
  let b ← b.gaugeIf Names.pvPowerWatts view.pvPowerWatts
  let b ← b.gaugeIf Names.batteryVoltageVolts view.batteryVoltageVolts
  let b ← b.gaugeIf Names.batteryCurrentAmperes view.batteryCurrentAmperes
  let b ← b.gaugeIf Names.loadPowerWatts view.loadPowerWatts
  let b ← b.gaugeIf Names.loadCurrentAmperes view.loadCurrentAmperes
  let b ← b.gaugeIf Names.yieldTotalKwh view.yieldTotalKwh
  let b ← b.gaugeIf Names.yieldTodayKwh view.yieldTodayKwh
  let b ← b.stateIf Names.chargerState view.chargerState
  let b ← b.gaugeIf Names.bleUp (view.bleUp.map upAsF64)
  let b ← b.gaugeIf Names.bleRssiDbm (view.bleRssiDbm.map F64.ofInt)
  let b ← b.gaugeIf Names.lastSuccessUnixtime (view.lastSuccessUnixtime.map i64AsF64)
  let b ← b.gaugeIf Names.sampleAgeSeconds view.sampleAgeSeconds
  let b ← b.counterIf Names.bleConnectFailuresTotal view.bleConnectFailures
  let b ← b.counterIf Names.protocolErrorsTotal view.protocolErrors
  let b ← b.counterIf Names.samplesDroppedTotal view.samplesDropped
  let b ← b.counterIf Names.energyIntegrationGapSecondsTotal view.energyIntegrationGapSeconds
  let b ← b.gaugeIf Names.spoolBatches (view.spoolBatches.map u64AsF64)
  b.gaugeIf Names.spoolOldestAgeSeconds view.spoolOldestAgeSeconds

end MetricBatchBuilder

/-! ## Entries -/

/-- What a point of a series is made of. -/
structure Content where
  labels : List (String × String)
  value : F64
  kind : MetricKind

def Content.gauge (value : F64) : Content := ⟨[], value, .gauge⟩

def Content.counter (value : UInt64) : Content := ⟨[], u64AsF64 value, .counter⟩

def Content.state (value : String) : Content := ⟨[(stateLabel, value)], .finite 1, .gauge⟩

/-- The series of a view in their order, with what is known of them. -/
def SampleView.entries (view : SampleView) : List (String × Option Content) :=
  [(Names.pvVoltageVolts, view.pvVoltageVolts.map .gauge),
    (Names.pvCurrentAmperes, view.pvCurrentAmperes.map .gauge),
    (Names.pvPowerWatts, view.pvPowerWatts.map .gauge),
    (Names.batteryVoltageVolts, view.batteryVoltageVolts.map .gauge),
    (Names.batteryCurrentAmperes, view.batteryCurrentAmperes.map .gauge),
    (Names.loadPowerWatts, view.loadPowerWatts.map .gauge),
    (Names.loadCurrentAmperes, view.loadCurrentAmperes.map .gauge),
    (Names.yieldTotalKwh, view.yieldTotalKwh.map .gauge),
    (Names.yieldTodayKwh, view.yieldTodayKwh.map .gauge),
    (Names.chargerState, view.chargerState.map .state),
    (Names.bleUp, (view.bleUp.map upAsF64).map .gauge),
    (Names.bleRssiDbm, (view.bleRssiDbm.map F64.ofInt).map .gauge),
    (Names.lastSuccessUnixtime, (view.lastSuccessUnixtime.map i64AsF64).map .gauge),
    (Names.sampleAgeSeconds, view.sampleAgeSeconds.map .gauge),
    (Names.bleConnectFailuresTotal, view.bleConnectFailures.map .counter),
    (Names.protocolErrorsTotal, view.protocolErrors.map .counter),
    (Names.samplesDroppedTotal, view.samplesDropped.map .counter),
    (Names.energyIntegrationGapSecondsTotal, view.energyIntegrationGapSeconds.map .counter),
    (Names.spoolBatches, (view.spoolBatches.map u64AsF64).map .gauge),
    (Names.spoolOldestAgeSeconds, view.spoolOldestAgeSeconds.map .gauge)]

/-- The names of the series are different. -/
theorem entries_names (view : SampleView) : (view.entries.map Prod.fst).Nodup := by
  have hnames : view.entries.map Prod.fst = [Names.pvVoltageVolts, Names.pvCurrentAmperes,
      Names.pvPowerWatts, Names.batteryVoltageVolts, Names.batteryCurrentAmperes,
      Names.loadPowerWatts, Names.loadCurrentAmperes, Names.yieldTotalKwh, Names.yieldTodayKwh,
      Names.chargerState, Names.bleUp, Names.bleRssiDbm, Names.lastSuccessUnixtime,
      Names.sampleAgeSeconds, Names.bleConnectFailuresTotal, Names.protocolErrorsTotal,
      Names.samplesDroppedTotal, Names.energyIntegrationGapSecondsTotal, Names.spoolBatches,
      Names.spoolOldestAgeSeconds] := rfl
  rw [hnames]
  decide

/-- The entries of which something is known. -/
def known (entries : List (String × Option Content)) : List (String × Content) :=
  entries.filterMap fun e => e.2.map fun c => (e.1, c)

theorem known_names (entries : List (String × Option Content)) :
    ((known entries).map Prod.fst).Sublist (entries.map Prod.fst) := by
  induction entries with
  | nil => exact .slnil
  | cons e rest ih =>
      obtain ⟨name, content⟩ := e
      cases content with
      | none => exact ih.cons name
      | some c => exact ih.cons_cons name

theorem known_map {β : Type} (f : String × Content → β) (entries : List (String × Option Content)) :
    (known entries).map f = (entries.map fun e => e.2.map fun c => f (e.1, c)).reduceOption := by
  induction entries with
  | nil => rfl
  | cons e rest ih =>
      obtain ⟨name, content⟩ := e
      cases content with
      | none => exact ih
      | some c => exact congrArg (f (name, c) :: ·) ih

namespace MetricBatchBuilder

variable (b : MetricBatchBuilder)

/-- Add what is known of a series. -/
def addEntry (e : String × Option Content) : Except MetricError MetricBatchBuilder :=
  match e.2 with
  | none => .ok b
  | some c => b.add e.1 c.labels c.value c.kind

variable (name : String)

theorem gaugeIf_entry (value : Option F64) :
    b.gaugeIf name value = b.addEntry (name, value.map .gauge) := by
  cases value with
  | none => rfl
  | some v => rfl

theorem counterIf_entry (value : Option UInt64) :
    b.counterIf name value = b.addEntry (name, value.map .counter) := by
  cases value with
  | none => rfl
  | some v => rfl

theorem stateIf_entry {value : Option String} (h : ∀ s ∈ value, isValidStateValue s = true) :
    b.stateIf name value = b.addEntry (name, value.map .state) := by
  cases value with
  | none => rfl
  | some s =>
      have hvalid : ¬ isValidStateValue s = false := by simp [h s rfl]
      have hstate : b.stateIf name (some s) = b.add name [(stateLabel, s)] (.finite 1) .gauge :=
        if_neg hvalid
      rw [hstate]
      rfl

/-- A batch is made entry by entry. -/
theorem ofView_entries {view : SampleView}
    (h : ∀ s ∈ view.chargerState, isValidStateValue s = true) : ofView view = (do
      let b ← MetricBatchBuilder.new view.device
      let b ← b.withTimestampMs view.observedAtMs
      view.entries.foldlM addEntry b) := by
  unfold ofView
  simp only [gaugeIf_entry, counterIf_entry, stateIf_entry _ _ h, SampleView.entries,
    List.foldlM_cons, List.foldlM_nil, bind_pure]

end MetricBatchBuilder

/-! ## Points -/

/-- The content makes a point of the series in a batch of the device. -/
structure Content.Sound (device series : String) (c : Content) : Prop where
  finite : c.value.isFinite = true
  name : validateMetricName series = .ok ()
  kind : ¬ (c.kind = .counter ∧ endsWith series "_total" = false)
  labels : validateLabels ((deviceLabel, device) :: c.labels) =
    .ok ((deviceLabel, device) :: c.labels)

/-- What a reader sees of the series. -/
def Content.sample (device : String) (timestampMs : Int) (e : String × Content) :
    Exposition.Sample F64 :=
  ⟨e.1, (deviceLabel, device) :: e.2.labels, e.2.value, timestampMs⟩

section

variable {device : String}

theorem deviceLabels_ok (h : validateLabelValue device = .ok ()) :
    validateLabels [(deviceLabel, device)] = .ok [(deviceLabel, device)] := by
  have hname : validateLabelName deviceLabel = .ok () := by rfl
  have hcheck : checkLabels [] [(deviceLabel, device)] = .ok () := by
    unfold checkLabels
    rw [hname, h]
    rfl
  unfold validateLabels
  rw [hcheck, List.mergeSort_singleton]
  rfl

/-- A state is a label value. -/
theorem stateValue_ok {value : String} (h : MetricBatchBuilder.isValidStateValue value = true) :
    validateLabelValue value = .ok () := by
  simp only [MetricBatchBuilder.isValidStateValue, Bool.and_eq_true, decide_eq_true_eq,
    List.all_eq_true] at h
  obtain ⟨⟨-, hlen⟩, hchars⟩ := h
  have hcontrol : value.toList.any isControl = false := by
    rw [List.any_eq_false]
    intro c hc
    have hc := hchars c hc
    have hlower : c.isLower = (decide (97 ≤ c.val) && decide (c.val ≤ 122)) := rfl
    have hdigit : c.isDigit = (decide (48 ≤ c.val) && decide (c.val ≤ 57)) := rfl
    simp only [hlower, hdigit, Bool.or_eq_true, Bool.and_eq_true, decide_eq_true_eq,
      UInt32.le_iff_toNat_le, UInt32.reduceToNat] at hc
    simp only [isControl, Bool.not_eq_true, Bool.or_eq_false_iff, Bool.and_eq_false_iff,
      decide_eq_false_iff_not, UInt32.lt_iff_toNat_lt, ← UInt32.toNat_inj, UInt32.reduceToNat]
    rcases hc with (hc | hc) | rfl
    · omega
    · omega
    · decide
  rw [validateLabelValue, if_neg (by omega), if_neg (by simp [hcontrol])]

theorem stateLabels_ok {value : String} (h : validateLabelValue device = .ok ())
    (hstate : MetricBatchBuilder.isValidStateValue value = true) :
    validateLabels [(deviceLabel, device), (stateLabel, value)] =
      .ok [(deviceLabel, device), (stateLabel, value)] := by
  have hname : validateLabelName deviceLabel = .ok () := by rfl
  have hname' : validateLabelName stateLabel = .ok () := by rfl
  have hcheck : checkLabels [] [(deviceLabel, device), (stateLabel, value)] = .ok () := by
    unfold checkLabels
    rw [hname, h]
    unfold checkLabels
    rw [hname', stateValue_ok hstate]
    rfl
  have hsorted : [(deviceLabel, device), (stateLabel, value)].Pairwise
      fun a b => decide (a.1 ≤ b.1) = true := by
    have hnames : decide (deviceLabel ≤ stateLabel) = true := by decide
    exact List.pairwise_pair.mpr hnames
  unfold validateLabels
  rw [hcheck, List.mergeSort_of_pairwise hsorted]
  rfl

theorem gauge_sound {name : String} {value : Option F64} (hname : validateMetricName name = .ok ())
    (hdevice : validateLabelValue device = .ok ()) (h : ∀ v ∈ value, v.isFinite = true) :
    ∀ c ∈ value.map Content.gauge, c.Sound device name := by
  intro c hc
  obtain ⟨v, hv, rfl⟩ := Option.map_eq_some_iff.mp hc
  exact ⟨h v hv, hname, by simp [Content.gauge], deviceLabels_ok hdevice⟩

theorem state_sound {name : String} {value : Option String}
    (hname : validateMetricName name = .ok ()) (hdevice : validateLabelValue device = .ok ())
    (h : ∀ s ∈ value, MetricBatchBuilder.isValidStateValue s = true) :
    ∀ c ∈ value.map Content.state, c.Sound device name := by
  intro c hc
  obtain ⟨s, hs, rfl⟩ := Option.map_eq_some_iff.mp hc
  exact ⟨rfl, hname, by simp [Content.state], stateLabels_ok hdevice (h s hs)⟩

theorem F64.ofInt_isFinite {n : Int} (h : |n| ≤ 2 ^ 64) : (F64.ofInt n).isFinite = true := by
  have hbound : |(n : ℚ)| < 2 ^ 1000 := by
    have hcast : |(n : ℚ)| ≤ 2 ^ 64 := by exact_mod_cast h
    calc |(n : ℚ)| ≤ 2 ^ 64 := hcast
      _ < 2 ^ 1000 := pow_lt_pow_right₀ (by norm_num) (by omega)
  exact (F64.ofRat_nearest hbound).isFinite

theorem u64AsF64_isFinite (n : UInt64) : (u64AsF64 n).isFinite = true := by
  apply F64.ofInt_isFinite
  have hlt := n.toNat_lt
  rw [Nat.abs_cast]
  omega

theorem i64AsF64_isFinite (n : I64) : (i64AsF64 n).isFinite = true := by
  apply F64.ofInt_isFinite
  have hrange := n.2
  simp only [InI64, i64Min, i64Max] at hrange
  rw [abs_le]
  omega

theorem counter_sound {name : String} {value : Option UInt64}
    (hname : validateMetricName name = .ok ()) (htotal : endsWith name "_total" = true)
    (hdevice : validateLabelValue device = .ok ()) :
    ∀ c ∈ value.map Content.counter, c.Sound device name := by
  intro c hc
  obtain ⟨n, -, rfl⟩ := Option.map_eq_some_iff.mp hc
  exact ⟨u64AsF64_isFinite n, hname, by simp [htotal], deviceLabels_ok hdevice⟩

/-! ## The batch of a view -/

/-- The readings of the view are finite, its state has a label and its signal is 32 bits wide. -/
structure SampleView.Sound (view : SampleView) : Prop where
  readings : ∀ value ∈ [view.pvVoltageVolts, view.pvCurrentAmperes, view.pvPowerWatts,
    view.batteryVoltageVolts, view.batteryCurrentAmperes, view.loadPowerWatts,
    view.loadCurrentAmperes, view.yieldTotalKwh, view.yieldTodayKwh, view.sampleAgeSeconds,
    view.spoolOldestAgeSeconds], ∀ v ∈ value, v.isFinite = true
  state : ∀ s ∈ view.chargerState, MetricBatchBuilder.isValidStateValue s = true
  rssi : ∀ dbm ∈ view.bleRssiDbm, |dbm| ≤ 2 ^ 31

theorem finite_map {α : Type} {f : α → F64} {value : Option α}
    (h : ∀ a ∈ value, (f a).isFinite = true) : ∀ v ∈ value.map f, v.isFinite = true := by
  intro v hv
  obtain ⟨a, ha, rfl⟩ := Option.map_eq_some_iff.mp hv
  exact h a ha

theorem SampleView.Sound.entries {view : SampleView} (h : view.Sound)
    (hdevice : validateLabelValue device = .ok ()) :
    ∀ e ∈ view.entries, ∀ c ∈ e.2, c.Sound device e.1 := by
  have hreadings := h.readings
  simp only [List.forall_mem_cons, List.not_mem_nil, false_implies, implies_true, and_true]
    at hreadings
  obtain ⟨hpvV, hpvA, hpvW, hbatV, hbatA, hloadW, hloadA, htotal, htoday, hage, holdest⟩ :=
    hreadings
  have hup : ∀ v ∈ view.bleUp.map upAsF64, v.isFinite = true := finite_map fun _ _ => rfl
  have hrssi : ∀ v ∈ view.bleRssiDbm.map F64.ofInt, v.isFinite = true :=
    finite_map fun dbm hdbm => F64.ofInt_isFinite ((h.rssi dbm hdbm).trans (by norm_num))
  have hlast : ∀ v ∈ view.lastSuccessUnixtime.map i64AsF64, v.isFinite = true :=
    finite_map fun n _ => i64AsF64_isFinite n
  have hdepth : ∀ v ∈ view.spoolBatches.map u64AsF64, v.isFinite = true :=
    finite_map fun n _ => u64AsF64_isFinite n
  simp only [SampleView.entries, List.forall_mem_cons, List.not_mem_nil, false_implies,
    implies_true, and_true]
  exact ⟨gauge_sound rfl hdevice hpvV, gauge_sound rfl hdevice hpvA, gauge_sound rfl hdevice hpvW,
    gauge_sound rfl hdevice hbatV, gauge_sound rfl hdevice hbatA, gauge_sound rfl hdevice hloadW,
    gauge_sound rfl hdevice hloadA, gauge_sound rfl hdevice htotal, gauge_sound rfl hdevice htoday,
    state_sound rfl hdevice h.state, gauge_sound rfl hdevice hup, gauge_sound rfl hdevice hrssi,
    gauge_sound rfl hdevice hlast, gauge_sound rfl hdevice hage,
    counter_sound rfl rfl hdevice, counter_sound rfl rfl hdevice, counter_sound rfl rfl hdevice,
    counter_sound rfl rfl hdevice, gauge_sound rfl hdevice hdepth,
    gauge_sound rfl hdevice holdest⟩

namespace MetricBatchBuilder

variable {b : MetricBatchBuilder} {timestampMs : I64}

/-- Adding a sound entry adds the point of what is known, and nothing if nothing is. -/
theorem addEntry_ok {e : String × Option Content} (htime : b.timestampMs = some timestampMs)
    (hpositive : 0 < timestampMs.1) (hsound : ∀ c ∈ e.2, c.Sound b.device e.1) :
    ∃ ps, b.addEntry e = .ok { b with points := b.points ++ ps } ∧
      ps.map MetricPoint.sample = (known [e]).map (Content.sample b.device timestampMs.1) ∧
      ∀ p ∈ ps, p.Validated := by
  obtain ⟨name, content⟩ := e
  cases content with
  | none => exact ⟨[], by simp [addEntry], rfl, by simp⟩
  | some c =>
      obtain ⟨hfinite, hname, hkind, hlabels⟩ := hsound c rfl
      have hnew := MetricPoint.new_ok hfinite hpositive hname hkind hlabels
      refine ⟨[⟨name, (deviceLabel, b.device) :: c.labels, c.value, timestampMs, hfinite,
        hpositive⟩], ?_, rfl, ?_⟩
      · have hnan : ¬ c.value.isFinite = false := by simp [hfinite]
        simp only [addEntry, add, if_neg hnan, htime, hnew]
        rfl
      · intro p hp
        rw [List.mem_singleton.mp hp]
        exact ⟨_, _, _, _, _, hnew⟩

theorem addEntries_ok {entries : List (String × Option Content)}
    (htime : b.timestampMs = some timestampMs) (hpositive : 0 < timestampMs.1)
    (hsound : ∀ e ∈ entries, ∀ c ∈ e.2, c.Sound b.device e.1) :
    ∃ ps, entries.foldlM addEntry b = .ok { b with points := b.points ++ ps } ∧
      ps.map MetricPoint.sample = (known entries).map (Content.sample b.device timestampMs.1) ∧
      ∀ p ∈ ps, p.Validated := by
  induction entries generalizing b with
  | nil => exact ⟨[], by simp [pure, Except.pure], rfl, by simp⟩
  | cons e rest ih =>
      obtain ⟨ps, hadd, hps, hvalid⟩ :=
        addEntry_ok htime hpositive (hsound e (List.mem_cons_self ..))
      obtain ⟨qs, hrest, hqs, hvalid'⟩ := ih (b := { b with points := b.points ++ ps }) htime
        fun e' he' => hsound e' (List.mem_cons_of_mem _ he')
      refine ⟨ps ++ qs, ?_, ?_, ?_⟩
      · rw [List.foldlM_cons, hadd]
        simp only [bind, Except.bind, hrest, List.append_assoc]
      · have hcons : known (e :: rest) = known [e] ++ known rest := by
          rw [known, known, known, ← List.filterMap_append, List.singleton_append]
        rw [List.map_append, hps, hqs, hcons, List.map_append]
      · intro p hp
        rcases List.mem_append.mp hp with hp | hp
        · exact hvalid p hp
        · exact hvalid' p hp

/-- **A sound view makes a batch**, with one point for each entry of which something is known. -/
theorem ofView_ok {view : SampleView} (hne : view.device ≠ "")
    (hdevice : validateLabelValue view.device = .ok ()) (hpositive : 0 < view.observedAtMs.1)
    (hsound : view.Sound) : ∃ b, ofView view = .ok b ∧
      b.points.map MetricPoint.sample =
        (known view.entries).map (Content.sample view.device view.observedAtMs.1) ∧
      ∀ p ∈ b.points, p.Validated := by
  obtain ⟨ps, hfold, hps, hvalid⟩ := addEntries_ok
    (b := ⟨view.device, some view.observedAtMs, []⟩) rfl hpositive (hsound.entries hdevice)
  refine ⟨⟨view.device, some view.observedAtMs, ps⟩, ?_, hps, hvalid⟩
  have hnew : MetricBatchBuilder.new view.device = .ok ⟨view.device, none, []⟩ := by
    unfold MetricBatchBuilder.new
    rw [if_neg hne, hdevice]
    rfl
  have hstamp : (⟨view.device, none, []⟩ : MetricBatchBuilder).withTimestampMs view.observedAtMs =
      .ok ⟨view.device, some view.observedAtMs, []⟩ := if_neg (by omega)
  rw [ofView_entries hsound.state, hnew]
  simp only [bind, Except.bind, hstamp]
  exact hfold

end MetricBatchBuilder

/-- No two points of a view have one name, so all of them are encoded. -/
theorem known_nodup {view : SampleView} {points : List MetricPoint}
    (h : points.map MetricPoint.sample =
      (known view.entries).map (Content.sample device view.observedAtMs.1)) :
    (points.map MetricPoint.name).Nodup := by
  have hnames : points.map MetricPoint.name = (known view.entries).map Prod.fst := by
    have hmap := congrArg (List.map Exposition.Sample.name) h
    rwa [List.map_map, List.map_map] at hmap
  rw [hnames]
  exact (entries_names view).sublist (known_names view.entries)

end

end VeSmart.Metrics
