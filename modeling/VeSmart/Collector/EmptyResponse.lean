import VeSmart.Collector.Cycles
import VeSmart.Collector.Readings
import VeSmart.Service.Collecting

set_option autoImplicit false

/-! # Payloads without a value

The adapter rejects a payload that has no value record of the instance. One whose value records
are all unusable is another matter: the adapter marks the link as up in every sample, so that no
sample of it is empty. -/

namespace VeSmart.Collector

open VeSmart.Lib VeSmart.Domain VeSmart.Protocol VeSmart.Service

/-! ## Records -/

/-- The payload has records, none of them refuses a request, and none is a value of the
instance. -/
def Silent (m : Minicbor) (inst : UInt16) (payload : List UInt8) : Prop :=
  ∃ records, Response.parseStream m.decodeStream payload = .ok records ∧
    ∀ r ∈ records, ¬ rejects r ∧ recordValue inst r = none

/-- No field of a sample can hold what the value says. -/
structure Unusable (v : RawValue) : Prop where
  measurements : ∀ f : Field, v.vreg = f.register → f.wire.usable v.raw = none
  chargerState : v.vreg = 0x0201 → v.raw.head? = none
  loadState : v.vreg = 0xeda8 → v.raw.head? = none

/-- The payload has records, none of them refuses a request, and the values of the instance are
all unusable. -/
def AllUnusable (m : Minicbor) (inst : UInt16) (payload : List UInt8) : Prop :=
  ∃ records, Response.parseStream m.decodeStream payload = .ok records ∧
    ∀ r ∈ records, ¬ rejects r ∧ ∀ v, recordValue inst r = some v → Unusable v

/-- No error of the wire format is taken for an empty response. -/
theorem mapWireError_ne_empty (e : Protocol.ProtocolError) :
    mapWireError e ≠ .emptyResponse := by
  cases e <;> exact fun h => by cases h

theorem parseStream_nil (m : Minicbor) : Response.parseStream m.decodeStream [] = .ok [] := by
  have hdecode : m.decodeStream [] = .ok [] := decodeFrom_nil.mpr rfl
  rw [Response.parseStream, hdecode]
  rfl

/-- The adapter finds a payload empty exactly if it is silent. -/
theorem parseResponse_empty_iff (m : Minicbor) (inst : UInt16) (payload : List UInt8) :
    parseResponse m inst payload = .error .emptyResponse ↔ Silent m inst payload := by
  by_cases hpayload : payload = []
  · subst hpayload
    exact iff_of_true (if_pos rfl) ⟨[], parseStream_nil m, by simp⟩
  rw [parseResponse, if_neg hpayload, Silent]
  cases hstream : Response.parseStream m.decodeStream payload with
  | error e =>
      refine iff_of_false ?_ ?_
      · intro h
        exact mapWireError_ne_empty e (Except.error.inj h)
      · rintro ⟨records, hrecords, -⟩
        cases hrecords
  | ok records =>
      show (instanceValues inst records >>= fun values =>
        if values = [] then .error .emptyResponse else .ok values) = _ ↔ _
      rcases instanceValues_ends inst records with ⟨hnone, hvalues⟩ | ⟨⟨r, hmem, hr⟩, code, herror⟩
      · rw [hvalues]
        show (if records.filterMap (recordValue inst) = [] then Except.error _ else _) = _ ↔ _
        by_cases hvalue : records.filterMap (recordValue inst) = []
        · rw [if_pos hvalue]
          refine iff_of_true rfl ⟨records, rfl, fun r hr => ⟨hnone r hr, ?_⟩⟩
          exact List.filterMap_eq_nil_iff.mp hvalue r hr
        · rw [if_neg hvalue]
          refine iff_of_false (fun h => by cases h) ?_
          rintro ⟨_, ⟨⟩, hall⟩
          exact hvalue (List.filterMap_eq_nil_iff.mpr fun r hr => (hall r hr).2)
      · rw [herror]
        refine iff_of_false (fun h => by cases h) ?_
        rintro ⟨_, ⟨⟩, hall⟩
        exact (hall r hmem).1 hr

/-! ## Samples -/

theorem applyValue_error {b : SampleBuilder} {raw : RawValue} {e : Service.ProtocolError}
    (h : applyValue b raw = .error e) : ∃ vreg, e = .invalidValue vreg := by
  simp only [applyValue] at h
  cases hvalue : (decodeRegister raw.vreg raw.raw).value with
  | none =>
      rw [hvalue] at h
      cases h
  | some value =>
      simp only [hvalue] at h
      cases hset : setRegister b raw.vreg value
          (qualityOf (decodeRegister raw.vreg raw.raw).confidence) with
      | error err =>
          rw [hset] at h
          cases h
          exact ⟨_, rfl⟩
      | ok b' =>
          rw [hset] at h
          cases h

theorem applyValues_error {values : List RawValue} {e : Service.ProtocolError} :
    ∀ {b : SampleBuilder}, values.foldlM applyValue b = .error e →
      ∃ vreg, e = .invalidValue vreg := by
  induction values with
  | nil =>
      intro b h
      cases h
  | cons raw values ih =>
      intro b h
      rw [List.foldlM_cons] at h
      cases hraw : applyValue b raw with
      | error err =>
          rw [hraw] at h
          cases h
          exact applyValue_error hraw
      | ok b' =>
          rw [hraw] at h
          exact ih h

/-- The translation fails for a value only. -/
theorem translate_error {device : DeviceId} {now : SystemTime} {values : List RawValue}
    {e : Service.ProtocolError} (h : translate device now values = .error e) :
    ∃ vreg, e = .invalidValue vreg := by
  unfold translate at h
  cases hfold : values.foldlM applyValue
      ((SampleBuilder.new device now).connectionHealth .up) with
  | error err =>
      rw [hfold] at h
      cases h
      exact applyValues_error hfold
  | ok b =>
      rw [hfold] at h
      cases h

/-- No sample of the adapter is empty. -/
theorem translate_not_empty {device : DeviceId} {now : SystemTime} {values : List RawValue}
    {s : Sample} (h : translate device now values = .ok s) : s.isEmpty = false := by
  have hhealth : s.connectionHealth = some .up :=
    congrArg Sample.connectionHealth (translate_holds h).others
  simp [Sample.isEmpty, hhealth]

theorem applyValue_unusable {raw : RawValue} (h : Unusable raw) (b : SampleBuilder) :
    applyValue b raw = .ok b := by
  obtain ⟨vreg, data⟩ := raw
  by_cases hfield : ∃ f : Field, vreg = f.register
  · obtain ⟨f, rfl⟩ := hfield
    simp only [applyValue, f.decodeRegister_value data, h.measurements f rfl, Option.map_none]
  have hother : ∀ f : Field, vreg ≠ f.register := fun f hf => hfield ⟨f, hf⟩
  by_cases hcharger : vreg = 0x0201
  · subst hcharger
    obtain rfl := List.head?_eq_none_iff.mp (h.chargerState rfl)
    rfl
  by_cases hload : vreg = 0xeda8
  · subst hload
    obtain rfl := List.head?_eq_none_iff.mp (h.loadState rfl)
    rfl
  exact applyValue_other hother hcharger hload

theorem applyValues_unusable {values : List RawValue} (h : ∀ v ∈ values, Unusable v)
    (b : SampleBuilder) : values.foldlM applyValue b = .ok b := by
  induction values with
  | nil => rfl
  | cons raw values ih =>
      obtain ⟨hraw, hvalues⟩ := List.forall_mem_cons.mp h
      rw [List.foldlM_cons, applyValue_unusable hraw]
      exact ih hvalues

/-- Unusable values leave nothing but the health of the link. -/
theorem translate_unusable {values : List RawValue} (h : ∀ v ∈ values, Unusable v)
    (device : DeviceId) (now : SystemTime) :
    translate device now values =
      .ok ((SampleBuilder.new device now).connectionHealth .up).build := by
  rw [translate, applyValues_unusable h]
  rfl

/-! ## The cycle -/

section

variable {ω σ : Type} {m : Minicbor} {device : DeviceId} {clock : ω → SystemTime × ω}
  {k : Service.Collector ω σ} {payload : List UInt8}

/-- With the adapter, only a silent payload is found empty. -/
theorem collectSample_empty_iff (hk : k.ports.protocol = veSmartProtocol m device clock)
    (c : CycleContext ω σ) :
    (exec (collectSample k payload) c).1 = .error (.collecting, .parse .emptyResponse) ↔
      Silent m k.config.inst payload := by
  rw [← parseResponse_empty_iff, collectSample, exec_bind_ok (exec_onEnv _ _), hk]
  show (exec (mapErr (fun e => (CyclePhase.collecting, CycleError.parse e))
    (parseResponse m k.config.inst payload) >>= _) c).1 = _ ↔ _
  cases hparse : parseResponse m k.config.inst payload with
  | error e =>
      rw [exec_bind_error (exec_mapErr_error _ rfl _)]
      constructor
      · intro h
        cases h
        rfl
      · intro h
        cases h
        rfl
  | ok values =>
      rw [exec_bind_ok (exec_mapErr_ok _ rfl _), exec_bind_ok (exec_onEnv _ _)]
      refine iff_of_false ?_ (fun h => by cases h)
      show (exec (mapErr (fun e => (CyclePhase.collecting, CycleError.parse e))
        (translate device (clock c.env).1 values) >>= _) _).1 ≠ _
      cases htranslate : translate device (clock c.env).1 values with
      | error e =>
          rw [exec_bind_error (exec_mapErr_error _ rfl _)]
          intro h
          obtain ⟨vreg, rfl⟩ := translate_error htranslate
          cases h
      | ok s =>
          rw [exec_bind_ok (exec_mapErr_ok _ rfl _), translate_not_empty htranslate]
          intro h
          cases h

/-- Unusable values are handed on to the translation. -/
theorem AllUnusable.parse (hunusable : AllUnusable m k.config.inst payload)
    (hvalue : ¬ Silent m k.config.inst payload) :
    ∃ values, parseResponse m k.config.inst payload = .ok values ∧ ∀ v ∈ values, Unusable v := by
  obtain ⟨records, hrecords, hall⟩ := hunusable
  have hpayload : payload ≠ [] := by
    rintro rfl
    exact hvalue ⟨[], parseStream_nil m, by simp⟩
  have hvalues : instanceValues k.config.inst records =
      .ok (records.filterMap (recordValue k.config.inst)) := by
    rcases instanceValues_ends k.config.inst records with ⟨-, h⟩ | ⟨⟨r, hmem, hr⟩, -⟩
    · exact h
    · exact absurd hr (hall r hmem).1
  have hsome : records.filterMap (recordValue k.config.inst) ≠ [] := by
    intro hnone
    exact hvalue ⟨records, hrecords, fun r hr =>
      ⟨(hall r hr).1, List.filterMap_eq_nil_iff.mp hnone r hr⟩⟩
  refine ⟨records.filterMap (recordValue k.config.inst), ?_, ?_⟩
  · rw [parseResponse, if_neg hpayload, hrecords]
    show (instanceValues k.config.inst records >>= fun values =>
      if values = [] then Except.error .emptyResponse else Except.ok values) = _
    rw [hvalues]
    exact if_neg hsome
  · intro v hv
    obtain ⟨r, hr, hrv⟩ := List.mem_filterMap.mp hv
    exact (hall r hr).2 v hrv

/-- Where the values are unusable and the payload is not silent, the cycle has acquired a sample
of the health of the link. -/
theorem collectSample_unusable (hk : k.ports.protocol = veSmartProtocol m device clock)
    (hunusable : AllUnusable m k.config.inst payload) (hvalue : ¬ Silent m k.config.inst payload)
    (c : CycleContext ω σ) :
    (exec (collectSample k payload) c).1 =
      .ok ((SampleBuilder.new device (clock c.env).1).connectionHealth .up).build := by
  obtain ⟨values, hparse, hvalues⟩ := hunusable.parse hvalue
  have htranslate := translate_unusable hvalues device (clock c.env).1
  have hempty := translate_not_empty htranslate
  rw [collectSample, exec_bind_ok (exec_onEnv _ _), hk]
  show (exec (mapErr (fun e => (CyclePhase.collecting, CycleError.parse e))
    (parseResponse m k.config.inst payload) >>= _) c).1 = _
  rw [exec_bind_ok (exec_mapErr_ok _ hparse _), exec_bind_ok (exec_onEnv _ _)]
  show (exec (mapErr (fun e => (CyclePhase.collecting, CycleError.parse e))
    (translate device (clock c.env).1 values) >>= _) _).1 = _
  rw [exec_bind_ok (exec_mapErr_ok _ htranslate _), hempty]
  rfl

end

/-- A cycle over the adapter is rejected for an empty response exactly if its payload is silent.
From a payload with values, all of them unusable, it acquires a sample of the health of the
link. -/
theorem emptyResponse_iff_silent {ω σ : Type} (m : Minicbor) (device : DeviceId)
    (clock : ω → SystemTime × ω) (k : Service.Collector ω σ)
    (hk : k.ports.protocol = veSmartProtocol m device clock) (start mid : CycleContext ω σ)
    (hidle : start.state.current = .idle) (payload : List UInt8)
    (hrequest : exec (requestPayload k) start = (.ok payload, mid)) :
    (RejectedWith k start .emptyResponse ↔ Silent m k.config.inst payload) ∧
      (AllUnusable m k.config.inst payload → ¬ Silent m k.config.inst payload →
        (exec (acquire k) start).1 =
          .ok ((SampleBuilder.new device (clock mid.env).1).connectionHealth .up).build) := by
  have hacquire : exec (acquire k) start = exec (collectSample k payload) mid := by
    rw [acquire_parts, exec_bind_ok hrequest]
  rw [runCycle_collecting_iff hidle, hacquire]
  exact ⟨collectSample_empty_iff hk mid,
    fun hunusable hvalue => collectSample_unusable hk hunusable hvalue mid⟩

/-- The scripted collector with the adapter, and a device that answers with a solar voltage it
does not know. -/
def unknowing : Service.Collector Sample SqliteWorld :=
  { scripted with ports := { scripted.ports with
      ble := { scripted.ports.ble with
        requestValues := fun _ _ _ env =>
          (some (.ok [0x08, 0x03, 0x19, 0xed, 0xbb, 0x42, 0xff, 0xff]), env) }
      protocol := veSmartProtocol .byHeads solarCharger fun env => (env.observedAt, env) } }

theorem unknowing_payload : ∃ mid, exec (requestPayload unknowing)
    ((cycleAt 1000000000).start Storage.Db.empty) =
      (.ok [0x08, 0x03, 0x19, 0xed, 0xbb, 0x42, 0xff, 0xff], mid) :=
  ⟨_, rfl⟩

theorem unknowing_unusable :
    AllUnusable .byHeads 3 [0x08, 0x03, 0x19, 0xed, 0xbb, 0x42, 0xff, 0xff] := by
  have hdecode : Minicbor.byHeads.decodeStream [0x08, 0x03, 0x19, 0xed, 0xbb, 0x42, 0xff, 0xff] =
      .ok [.uint 8, .uint 3, .uint 0xedbb, .bytes [0xff, 0xff]] := by
    refine decodeStream_made byHeads_conforms ?_ ?_
    · exact .uint 8 (.uint 3 (.uint 0xedbb (.bytes [0xff, 0xff] .nil)))
    · constructor <;> decide
  have hrecords : Response.parseStream Minicbor.byHeads.decodeStream
      [0x08, 0x03, 0x19, 0xed, 0xbb, 0x42, 0xff, 0xff] = .ok [.value 3 0xedbb [0xff, 0xff]] := by
    rw [Response.parseStream, hdecode]
    rfl
  refine ⟨_, hrecords, ?_⟩
  intro r hr
  rw [List.mem_singleton.mp hr]
  refine ⟨id, ?_⟩
  intro v hv
  obtain rfl : ⟨0xedbb, [0xff, 0xff]⟩ = v := Option.some.inj hv
  refine ⟨?_, fun h => absurd h (by decide), fun h => absurd h (by decide)⟩
  intro f hf
  obtain rfl : Field.pvVoltage = f := Field.register_injective hf
  rfl

/-- The cycle succeeds, and commits a sample without a single value. -/
theorem unknowing_committed :
    AllUnusable .byHeads unknowing.config.inst [0x08, 0x03, 0x19, 0xed, 0xbb, 0x42, 0xff, 0xff] ∧
      (exec (requestPayload unknowing) ((cycleAt 1000000000).start Storage.Db.empty)).1 =
        .ok [0x08, 0x03, 0x19, 0xed, 0xbb, 0x42, 0xff, 0xff] ∧
      ¬ RejectedWith unknowing ((cycleAt 1000000000).start Storage.Db.empty) .emptyResponse ∧
      (committedCycles (exec (runCycle unknowing : Cycle Sample SqliteWorld RunError CycleOutcome)
        ((cycleAt 1000000000).start Storage.Db.empty)).2.trace).length = 1 := by
  have hsuccess : ((exec (runCycle unknowing : Cycle Sample SqliteWorld RunError CycleOutcome)
      ((cycleAt 1000000000).start Storage.Db.empty)).1.toOption.map CycleOutcome.isSuccess) =
        some true := by
    decide +kernel
  refine ⟨unknowing_unusable, rfl, ?_, by decide +kernel⟩
  rintro ⟨c, hexec, -⟩
  rw [hexec] at hsuccess
  cases hsuccess

/-- The answer decides whether that cycle is rejected. -/
theorem unknowing_iff_silent :
    RejectedWith unknowing ((cycleAt 1000000000).start Storage.Db.empty) .emptyResponse ↔
      Silent .byHeads unknowing.config.inst [0x08, 0x03, 0x19, 0xed, 0xbb, 0x42, 0xff, 0xff] := by
  obtain ⟨mid, hrequest⟩ := unknowing_payload
  exact (emptyResponse_iff_silent .byHeads solarCharger (fun env => (env.observedAt, env))
    unknowing rfl _ mid rfl _ hrequest).1

end VeSmart.Collector
