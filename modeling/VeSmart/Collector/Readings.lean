import VeSmart.Collector.Protocol

set_option autoImplicit false

/-! # From the payload to the sample

`Field` is the table of the documented registers: where a measurement comes from, how it is
written and what it is scaled by. The measurements of the sample are those of the last usable
records (`sample_of_payload`). -/

namespace VeSmart.Collector

open VeSmart.Lib VeSmart.Domain VeSmart.Protocol

/-! ## The documented registers -/

/-- How a register writes a number. -/
inductive Wire where
  | un16
  | un32
  | sn32
  deriving DecidableEq

def Wire.width : Wire → Nat
  | .un16 => 2
  | .un32 => 4
  | .sn32 => 4

/-- The numbers that stand for no value. -/
def Wire.sentinels : Wire → List Int
  | .un16 => [0xffff]
  | .un32 => [0xffffffff]
  | .sn32 => [0x7fffffff, -0x80000000]

/-- The number of the first bytes, the low one first. -/
def Wire.number (w : Wire) (data : List UInt8) : Int :=
  match w with
  | .sn32 => signedOf 4 (leNat (data.take w.width))
  | _ => leNat (data.take w.width)

/-- A payload that is long enough and holds no sentinel. -/
def Wire.usable (w : Wire) (data : List UInt8) : Option Int :=
  if w.width ≤ data.length ∧ w.number data ∉ w.sentinels then some (w.number data) else none

inductive Field where
  | pvVoltage
  | pvCurrent
  | pvPower
  | batteryVoltage
  | batteryCurrent
  | loadCurrent
  | loadPower
  deriving DecidableEq

namespace Field

def register : Field → UInt16
  | pvVoltage => 0xedbb
  | pvCurrent => 0xedbd
  | pvPower => 0xedbc
  | batteryVoltage => 0xed8d
  | batteryCurrent => 0xed8c
  | loadCurrent => 0xedad
  | loadPower => 0xedaa

def wire : Field → Wire
  | pvPower => .un32
  | batteryCurrent => .sn32
  | _ => .un16

/-- The measurement in volts, amperes or watts. -/
def scale : Field → Int → ℚ
  | pvVoltage, n => n / 100
  | pvCurrent, n => n / 10
  | pvPower, n => roundEven (n / 100)
  | batteryVoltage, n => n / 100
  | batteryCurrent, n => n / 1000
  | loadCurrent, n => n / 10
  | loadPower, n => n

def quality (f : Field) : Quality :=
  if f.register = 0xedbb ∨ f.register = 0xedbc then .confirmedNative else .candidate

def range : Field → Range
  | pvVoltage => pvVoltageV
  | pvCurrent => pvCurrentA
  | pvPower => pvPowerW
  | batteryVoltage => batteryVoltageV
  | batteryCurrent => batteryCurrentA
  | loadCurrent => loadCurrentA
  | loadPower => loadPowerW

def reading (s : Sample) : (f : Field) → Option (Reading f.range)
  | pvVoltage => s.pvVoltageVolts
  | pvCurrent => s.pvCurrentAmperes
  | pvPower => s.pvPowerWatts
  | batteryVoltage => s.batteryVoltageVolts
  | batteryCurrent => s.batteryCurrentAmperes
  | loadCurrent => s.loadCurrentAmperes
  | loadPower => s.loadPowerWatts

/-- The reading is the float next to the scaled number, and is absent where there is no number. -/
inductive Shows (f : Field) : Option Int → Option (Reading f.range) → Prop
  | absent : f.Shows none none
  | present {n : Int} {r : Reading f.range} (finite : r.value.isFinite = true)
      (inRange : f.range.contains r.value = true) (value : r.value = .ofRat (f.scale n))
      (nearest : IsNearest (f.scale n) r.value)
      (exact : ∀ k : Int, f.scale n = k → r.value = .finite k) (quality : r.quality = f.quality) :
      f.Shows (some n) (some r)

end Field

/-- The payload of a value record of the instance and the register. -/
def recordData (inst register : UInt16) : Response → Option (List UInt8)
  | .value responseInstance reg data =>
      if responseInstance = inst.toUInt64 ∧ reg = register then some data else none
  | _ => none

/-- The last value of the register that the instance reports and that is usable. -/
def lastUsable {α : Type} (inst register : UInt16) (usable : List UInt8 → Option α)
    (records : List Response) : Option α :=
  (records.filterMap fun r => (recordData inst register r).bind usable).getLast?

/-- The sample says of the states and the measurements what the records say. -/
structure Reports (inst : UInt16) (records : List Response) (s : Sample) : Prop where
  readings : ∀ f : Field,
    f.Shows (lastUsable inst f.register f.wire.usable records) (f.reading s)
  chargerState : s.chargerState = (lastUsable inst 0x0201 List.head? records).map .fromCode
  loadState : s.loadState = (lastUsable inst 0xeda8 List.head? records).map .fromCode
  yieldTotalKwh : s.yieldTotalKwh = none
  yieldTodayKwh : s.yieldTodayKwh = none
  bleRssiDbm : s.bleRssiDbm = none

/-! ## Decoding -/

theorem leNat_lt (data : List UInt8) : leNat data < 256 ^ data.length := by
  induction data with
  | nil => simp [leNat]
  | cons b rest ih =>
      have hb := b.toNat_lt
      rw [leNat, List.length_cons, pow_succ]
      omega

/-- A usable number is small. -/
theorem Wire.usable_lt {w : Wire} {data : List UInt8} {n : Int} (h : w.usable data = some n) :
    |n| < 2 ^ 33 := by
  unfold Wire.usable at h
  split_ifs at h with hwide
  cases h
  have hlt := leNat_lt (data.take w.width)
  rw [List.length_take, Nat.min_eq_left hwide.1] at hlt
  rw [abs_lt]
  cases w with
  | un16 => simp only [Wire.number, Wire.width] at hlt ⊢; omega
  | un32 => simp only [Wire.number, Wire.width] at hlt ⊢; omega
  | sn32 =>
      simp only [Wire.number, Wire.width, signedOf] at hlt ⊢
      split_ifs <;> omega

section

variable (g : Int → Scaled) (register : UInt16) (name : String) (unit : Option String)
  (decoder : String) (confidence : Confidence) (data : List UInt8)

theorem numeric_un16 :
    (numeric register name unit decoder confidence 2 u16le invalidU16 (fun v => g v) data).value =
      (Wire.un16.usable data).map g := by
  simp only [numeric, u16le, unsignedLe, Wire.usable, Wire.width, Wire.number, Wire.sentinels,
    List.mem_singleton, invalidU16]
  by_cases hwide : 2 ≤ data.length
  · by_cases hsentinel : leNat (data.take 2) = 0xffff
    · simp [hwide, hsentinel]
    · have hcast : ((leNat (data.take 2) : Nat) : Int) ≠ 0xffff := by omega
      simp [hwide, hsentinel, hcast]
  · simp [hwide]

theorem numeric_un32 :
    (numeric register name unit decoder confidence 4 u32le invalidU32 (fun v => g v) data).value =
      (Wire.un32.usable data).map g := by
  simp only [numeric, u32le, unsignedLe, Wire.usable, Wire.width, Wire.number, Wire.sentinels,
    List.mem_singleton, invalidU32]
  by_cases hwide : 4 ≤ data.length
  · by_cases hsentinel : leNat (data.take 4) = 0xffffffff
    · simp [hwide, hsentinel]
    · have hcast : ((leNat (data.take 4) : Nat) : Int) ≠ 0xffffffff := by omega
      simp [hwide, hsentinel, hcast]
  · simp [hwide]

theorem numeric_sn32 :
    (numeric register name unit decoder confidence 4 s32le invalidS32 g data).value =
      (Wire.sn32.usable data).map g := by
  simp only [numeric, s32le, unsignedLe, Wire.usable, Wire.width, Wire.number, Wire.sentinels,
    List.mem_cons, List.not_mem_nil, or_false, invalidS32]
  by_cases hwide : 4 ≤ data.length
  · by_cases hmax : signedOf 4 (leNat (data.take 4)) = 0x7fffffff
    · simp [hwide, hmax]
    · by_cases hmin : signedOf 4 (leNat (data.take 4)) = -0x80000000
      · simp [hwide, hmin]
      · simp [hwide, hmax, hmin]
  · simp [hwide]

end

namespace Field

/-- What the decoder makes of a number. -/
def decoded : Field → Int → Scaled
  | pvVoltage, n => scaledBy 100 n
  | pvCurrent, n => scaledBy 10 n
  | pvPower, n => .integer (roundHundredthsTiesEven n)
  | batteryVoltage, n => scaledBy 100 n
  | batteryCurrent, n => scaledBy 1000 n
  | loadCurrent, n => scaledBy 10 n
  | loadPower, n => .integer n

variable (f : Field)

/-- The decoder of a field accepts exactly its usable payloads. -/
theorem decodeRegister_value (data : List UInt8) :
    (decodeRegister f.register data).value = (f.wire.usable data).map f.decoded := by
  cases f with
  | pvVoltage => exact numeric_un16 (scaledBy 100) ..
  | pvCurrent => exact numeric_un16 (scaledBy 10) ..
  | pvPower => exact numeric_un32 (fun n => .integer (roundHundredthsTiesEven n)) ..
  | batteryVoltage => exact numeric_un16 (scaledBy 100) ..
  | batteryCurrent => exact numeric_sn32 (scaledBy 1000) ..
  | loadCurrent => exact numeric_un16 (scaledBy 10) ..
  | loadPower => exact numeric_un16 .integer ..

theorem decodeRegister_quality (data : List UInt8) :
    qualityOf (decodeRegister f.register data).confidence = f.quality := by
  cases f <;> rfl

/-! ## Storing -/

/-- The setter of the builder. -/
def set (b : SampleBuilder) (x : F64) (q : Quality) : Except DomainError SampleBuilder :=
  match f with
  | pvVoltage => b.pvVoltageVolts x q
  | pvCurrent => b.pvCurrentAmperes x q
  | pvPower => b.pvPowerWatts x q
  | batteryVoltage => b.batteryVoltageVolts x q
  | batteryCurrent => b.batteryCurrentAmperes x q
  | loadCurrent => b.loadCurrentAmperes x q
  | loadPower => b.loadPowerWatts x q

def put (s : Sample) : (f : Field) → Reading f.range → Sample
  | pvVoltage, r => { s with pvVoltageVolts := some r }
  | pvCurrent, r => { s with pvCurrentAmperes := some r }
  | pvPower, r => { s with pvPowerWatts := some r }
  | batteryVoltage, r => { s with batteryVoltageVolts := some r }
  | batteryCurrent, r => { s with batteryCurrentAmperes := some r }
  | loadCurrent, r => { s with loadCurrentAmperes := some r }
  | loadPower, r => { s with loadPowerWatts := some r }

@[simp] theorem reading_put (s : Sample) (r : Reading f.range) :
    reading (put s f r) f = some r := by
  cases f <;> rfl

theorem reading_put_of_ne (s : Sample) (r : Reading f.range) {g : Field} (h : g ≠ f) :
    reading (put s f r) g = reading s g := by
  cases f <;> cases g <;> first | rfl | exact absurd rfl h

/-- A setter that succeeds stores the value. -/
theorem set_ok {b b' : SampleBuilder} {x : F64} {q : Quality} (h : f.set b x q = .ok b') :
    ∃ r : Reading f.range, r.value = x ∧ r.quality = q ∧ b'.sample = put b.sample f r := by
  cases f <;>
    · obtain ⟨r, hcheck, hput⟩ := bind_eq_ok.mp h
      cases hput
      obtain ⟨hvalue, hquality⟩ := SampleBuilder.check_ok hcheck
      exact ⟨r, hvalue, hquality, rfl⟩

/-- Scaling makes no number larger. -/
theorem abs_scale_le (n : Int) : |f.scale n| ≤ |(n : ℚ)| := by
  have hdiv : ∀ d : ℚ, 1 ≤ d → |(n : ℚ) / d| ≤ |(n : ℚ)| := by
    intro d hd
    rw [abs_div, abs_of_pos (zero_lt_one.trans_le hd)]
    exact div_le_self (abs_nonneg _) hd
  cases f with
  | pvVoltage => exact hdiv 100 (by norm_num)
  | pvCurrent => exact hdiv 10 (by norm_num)
  | pvPower =>
      calc |(roundEven (n / 100) : ℚ)| ≤ 2 * |(n : ℚ) / 100| := abs_roundEven_le _
        _ = |(n : ℚ)| / 50 := by
          rw [abs_div, abs_of_pos (by norm_num : (0 : ℚ) < 100)]
          ring
        _ ≤ |(n : ℚ)| := div_le_self (abs_nonneg _) (by norm_num)
  | batteryVoltage => exact hdiv 100 (by norm_num)
  | batteryCurrent => exact hdiv 1000 (by norm_num)
  | loadCurrent => exact hdiv 10 (by norm_num)
  | loadPower => exact le_refl _

/-- A value that the decoder makes of a small number is stored as the float next to it. -/
theorem setRegister_decoded (b : SampleBuilder) {n : Int} (hn : |n| < 2 ^ 33) (q : Quality) :
    setRegister b f.register (f.decoded n) q = f.set b (.ofRat (f.scale n)) q := by
  have hsmall : |n| < 2 ^ 53 := hn.trans (by norm_num)
  have hdiv : ∀ d : Int, |d| < 2 ^ 53 → 0 < d →
      F64.div (.ofInt n) (.ofInt d) = .ofRat (n / d) := by
    intro d hd hpos
    exact F64.div_ofInt hsmall hd hpos
  cases f with
  | pvVoltage =>
      show b.pvVoltageVolts _ q = b.pvVoltageVolts _ q
      rw [hdiv 100 (by norm_num) (by norm_num)]
      rfl
  | pvCurrent =>
      show b.pvCurrentAmperes _ q = b.pvCurrentAmperes _ q
      rw [hdiv 10 (by norm_num) (by norm_num)]
      rfl
  | pvPower =>
      show b.pvPowerWatts _ q = b.pvPowerWatts _ q
      rw [roundHundredthsTiesEven_eq]
      rfl
  | batteryVoltage =>
      show b.batteryVoltageVolts _ q = b.batteryVoltageVolts _ q
      rw [hdiv 100 (by norm_num) (by norm_num)]
      rfl
  | batteryCurrent =>
      show b.batteryCurrentAmperes _ q = b.batteryCurrentAmperes _ q
      rw [hdiv 1000 (by norm_num) (by norm_num)]
      rfl
  | loadCurrent =>
      show b.loadCurrentAmperes _ q = b.loadCurrentAmperes _ q
      rw [hdiv 10 (by norm_num) (by norm_num)]
      rfl
  | loadPower => rfl

/-- What the table shows of a usable number. -/
theorem shows_of {n : Int} (hn : |n| < 2 ^ 33) {r : Reading f.range}
    (hvalue : r.value = .ofRat (f.scale n)) (hquality : r.quality = f.quality) :
    f.Shows (some n) (some r) := by
  have hcast : |(n : ℚ)| < 2 ^ 33 := by exact_mod_cast hn
  have hscale := f.abs_scale_le n
  refine .present r.finite r.inRange hvalue ?_ ?_ hquality
  · rw [hvalue]
    refine F64.ofRat_nearest (hscale.trans_lt (hcast.trans ?_))
    exact pow_lt_pow_right₀ (by norm_num) (by omega)
  · intro k hk
    rw [hvalue, hk]
    refine F64.ofInt_eq ?_
    have habs : |(k : ℚ)| < 2 ^ 53 := by
      rw [← hk]
      exact hscale.trans_lt (hcast.trans (by norm_num))
    exact_mod_cast habs

end Field

/-- The registers of the fields are the dashboard's, without the two states. -/
theorem Field.register_injective {f g : Field} (h : f.register = g.register) : f = g := by
  cases f <;> cases g <;> first | rfl | exact absurd h (by decide)

theorem Field.register_ne_state (f : Field) : f.register ≠ 0x0201 ∧ f.register ≠ 0xeda8 := by
  cases f <;> decide

/-! ## One value -/

/-- Other registers have no field. -/
theorem setRegister_other {b : SampleBuilder} {vreg : UInt16} {value : Scaled} {q : Quality}
    (hfield : ∀ f : Field, vreg ≠ f.register) (hcharger : vreg ≠ 0x0201) (hload : vreg ≠ 0xeda8) :
    setRegister b vreg value q = .ok b := by
  cases value with
  | number x =>
      simp only [setRegister]
      rw [if_neg (show vreg ≠ 0xedbb from hfield .pvVoltage),
        if_neg (show vreg ≠ 0xedbd from hfield .pvCurrent),
        if_neg (show vreg ≠ 0xed8d from hfield .batteryVoltage),
        if_neg (show vreg ≠ 0xed8c from hfield .batteryCurrent),
        if_neg (show vreg ≠ 0xedad from hfield .loadCurrent)]
  | integer n =>
      simp only [setRegister]
      rw [if_neg (show vreg ≠ 0xedbc from hfield .pvPower),
        if_neg (show vreg ≠ 0xedaa from hfield .loadPower)]
  | state code name =>
      simp only [setRegister]
      rw [if_neg hcharger, if_neg hload]
  | slots _ => rfl
  | block _ _ => rfl

theorem applyValue_other {b : SampleBuilder} {raw : Service.RawValue}
    (hfield : ∀ f : Field, raw.vreg ≠ f.register) (hcharger : raw.vreg ≠ 0x0201)
    (hload : raw.vreg ≠ 0xeda8) : applyValue b raw = .ok b := by
  cases hvalue : (decodeRegister raw.vreg raw.raw).value with
  | none => simp only [applyValue, hvalue]
  | some value =>
      simp only [applyValue, hvalue, setRegister_other hfield hcharger hload]
      rfl

/-- What a value does to the builder. -/
theorem applyValue_cases {b b' : SampleBuilder} {raw : Service.RawValue}
    (h : applyValue b raw = .ok b') :
    (∃ (f : Field) (n : Int) (r : Reading f.range), raw.vreg = f.register ∧
      f.wire.usable raw.raw = some n ∧ f.Shows (some n) (some r) ∧
      b'.sample = f.put b.sample r) ∨
    (∃ code, raw.vreg = 0x0201 ∧ raw.raw.head? = some code ∧
      b' = b.chargerState (.fromCode code)) ∨
    (∃ code, raw.vreg = 0xeda8 ∧ raw.raw.head? = some code ∧ b' = b.loadState (.fromCode code)) ∨
    ((∀ f : Field, raw.vreg = f.register → f.wire.usable raw.raw = none) ∧
      (raw.vreg = 0x0201 → raw.raw.head? = none) ∧
      (raw.vreg = 0xeda8 → raw.raw.head? = none) ∧ b' = b) := by
  obtain ⟨vreg, data⟩ := raw
  by_cases hfield : ∃ f : Field, vreg = f.register
  · obtain ⟨f, rfl⟩ := hfield
    simp only [applyValue, f.decodeRegister_value data, f.decodeRegister_quality data] at h
    cases husable : f.wire.usable data with
    | none =>
        rw [husable] at h
        cases h
        refine .inr (.inr (.inr ⟨?_, ?_, ?_, rfl⟩))
        · intro g hg
          rw [← Field.register_injective hg]
          exact husable
        · intro hstate
          exact absurd hstate f.register_ne_state.1
        · intro hstate
          exact absurd hstate f.register_ne_state.2
    | some n =>
        have hn := Wire.usable_lt husable
        simp only [husable, Option.map_some, f.setRegister_decoded b hn] at h
        obtain ⟨b'', hset, rfl⟩ : ∃ b'', f.set b (.ofRat (f.scale n)) f.quality = .ok b'' ∧
            b'' = b' := by
          cases hset : f.set b (.ofRat (f.scale n)) f.quality with
          | error e => rw [hset] at h; cases h
          | ok b'' => rw [hset] at h; cases h; exact ⟨_, rfl, rfl⟩
        obtain ⟨r, hvalue, hquality, hput⟩ := f.set_ok hset
        exact .inl ⟨f, n, r, rfl, husable, f.shows_of hn hvalue hquality, hput⟩
  have hother : ∀ f : Field, vreg ≠ f.register := fun f hf => hfield ⟨f, hf⟩
  by_cases hcharger : vreg = 0x0201
  · subst hcharger
    cases data with
    | nil =>
        cases h
        exact .inr (.inr (.inr ⟨fun f hf => absurd hf (hother f), fun _ => rfl,
          fun _ => rfl, rfl⟩))
    | cons code rest =>
        cases h
        exact .inr (.inl ⟨code, rfl, rfl, rfl⟩)
  by_cases hload : vreg = 0xeda8
  · subst hload
    cases data with
    | nil =>
        cases h
        exact .inr (.inr (.inr ⟨fun f hf => absurd hf (hother f), fun _ => rfl,
          fun _ => rfl, rfl⟩))
    | cons code rest =>
        cases h
        exact .inr (.inr (.inl ⟨code, rfl, rfl, rfl⟩))
  rw [applyValue_other hother hcharger hload] at h
  cases h
  exact .inr (.inr (.inr ⟨fun f hf => absurd hf (hother f), fun hv => absurd hv hcharger,
    fun hv => absurd hv hload, rfl⟩))

/-! ## All values -/

/-- The last usable value of the register. -/
def lastValue {α : Type} (register : UInt16) (usable : List UInt8 → Option α)
    (values : List Service.RawValue) : Option α :=
  (values.filterMap fun v => if v.vreg = register then usable v.raw else none).getLast?

section

variable {α : Type} {register : UInt16} {usable : List UInt8 → Option α}
  {values : List Service.RawValue} {raw : Service.RawValue}

theorem lastValue_snoc_some {x : α} (hreg : raw.vreg = register) (h : usable raw.raw = some x) :
    lastValue register usable (values ++ [raw]) = some x := by
  simp [lastValue, List.filterMap_append, hreg, h]

theorem lastValue_snoc_none (h : raw.vreg = register → usable raw.raw = none) :
    lastValue register usable (values ++ [raw]) = lastValue register usable values := by
  by_cases hreg : raw.vreg = register
  · simp [lastValue, List.filterMap_append, hreg, h hreg]
  · simp [lastValue, List.filterMap_append, hreg]

end

/-- The sample without the measurements of the table. -/
def rest (s : Sample) : Sample where
  device := s.device
  observedAt := s.observedAt
  pvVoltageVolts := none
  pvCurrentAmperes := none
  pvPowerWatts := none
  batteryVoltageVolts := none
  batteryCurrentAmperes := none
  loadCurrentAmperes := none
  loadPowerWatts := none
  yieldTotalKwh := s.yieldTotalKwh
  yieldTodayKwh := s.yieldTodayKwh
  bleRssiDbm := s.bleRssiDbm
  chargerState := s.chargerState
  loadState := s.loadState
  connectionHealth := s.connectionHealth

theorem rest_put (s : Sample) (f : Field) (r : Reading f.range) : rest (f.put s r) = rest s := by
  cases f <;> rfl

theorem Field.reading_chargerState (f : Field) (b : SampleBuilder) (state : ChargerState) :
    f.reading (b.chargerState state).sample = f.reading b.sample := by
  cases f <;> rfl

theorem Field.reading_loadState (f : Field) (b : SampleBuilder) (state : LoadState) :
    f.reading (b.loadState state).sample = f.reading b.sample := by
  cases f <;> rfl

theorem rest_chargerState (b : SampleBuilder) (state : ChargerState) :
    rest (b.chargerState state).sample = { rest b.sample with chargerState := some state } := rfl

theorem rest_loadState (b : SampleBuilder) (state : LoadState) :
    rest (b.loadState state).sample = { rest b.sample with loadState := some state } := rfl

/-- The builder that started as `start` holds the last usable ones of the values. -/
structure Holds (start : Sample) (values : List Service.RawValue) (s : Sample) : Prop where
  readings : ∀ f : Field, f.Shows (lastValue f.register f.wire.usable values) (f.reading s)
  others : rest s = { rest start with
    chargerState := (lastValue 0x0201 List.head? values).map .fromCode
    loadState := (lastValue 0xeda8 List.head? values).map .fromCode }

/-- One value. -/
theorem Holds.apply {start : Sample} {values : List Service.RawValue} {b b' : SampleBuilder}
    {raw : Service.RawValue} (hb : Holds start values b.sample) (h : applyValue b raw = .ok b') :
    Holds start (values ++ [raw]) b'.sample := by
  rcases applyValue_cases h with ⟨f, n, r, hreg, husable, hshows, hput⟩ |
    ⟨code, hreg, hhead, rfl⟩ | ⟨code, hreg, hhead, rfl⟩ | ⟨hfields, hcharger, hload, rfl⟩
  · have hother : ∀ g : Field, g ≠ f → raw.vreg ≠ g.register := by
      intro g hne hg
      exact hne (Field.register_injective (hg.symm.trans hreg))
    constructor
    · intro g
      rw [hput]
      by_cases hg : g = f
      · subst hg
        rw [lastValue_snoc_some hreg husable, g.reading_put]
        exact hshows
      · rw [lastValue_snoc_none fun hv => absurd hv (hother g hg), f.reading_put_of_ne _ _ hg]
        exact hb.readings g
    · rw [hput, rest_put, hb.others,
        lastValue_snoc_none fun hv => absurd (hreg.symm.trans hv) f.register_ne_state.1,
        lastValue_snoc_none fun hv => absurd (hreg.symm.trans hv) f.register_ne_state.2]
  · constructor
    · intro f
      rw [lastValue_snoc_none fun hv => absurd (hv.symm.trans hreg) f.register_ne_state.1,
        f.reading_chargerState]
      exact hb.readings f
    · rw [rest_chargerState, hb.others, lastValue_snoc_some hreg hhead,
        lastValue_snoc_none fun hv => absurd (hreg.symm.trans hv) (by decide)]
      rfl
  · constructor
    · intro f
      rw [lastValue_snoc_none fun hv => absurd (hv.symm.trans hreg) f.register_ne_state.2,
        f.reading_loadState]
      exact hb.readings f
    · rw [rest_loadState, hb.others, lastValue_snoc_some hreg hhead,
        lastValue_snoc_none fun hv => absurd (hreg.symm.trans hv) (by decide)]
      rfl
  · constructor
    · intro f
      rw [lastValue_snoc_none (hfields f)]
      exact hb.readings f
    · rw [lastValue_snoc_none hcharger, lastValue_snoc_none hload]
      exact hb.others

theorem Holds.run {start : Sample} {later : List Service.RawValue} :
    ∀ {done : List Service.RawValue} {b b' : SampleBuilder}, Holds start done b.sample →
      later.foldlM applyValue b = .ok b' → Holds start (done ++ later) b'.sample := by
  induction later with
  | nil =>
      intro done b b' hb h
      cases h
      rw [List.append_nil]
      exact hb
  | cons raw later ih =>
      intro done b b' hb h
      rw [List.foldlM_cons] at h
      obtain ⟨mid, hmid, hrest⟩ := bind_eq_ok.mp h
      have hstep := ih (hb.apply hmid) hrest
      rwa [List.append_assoc] at hstep

/-- What `translate` makes of the values. -/
theorem translate_holds {device : DeviceId} {now : SystemTime} {values : List Service.RawValue}
    {s : Sample} (h : translate device now values = .ok s) :
    Holds ((SampleBuilder.new device now).connectionHealth .up).sample values s := by
  obtain ⟨b, hfold, hbuild⟩ := bind_eq_ok.mp h
  cases hbuild
  have hstart : Holds ((SampleBuilder.new device now).connectionHealth .up).sample []
      ((SampleBuilder.new device now).connectionHealth .up).sample := by
    refine ⟨?_, rfl⟩
    intro f
    cases f <;> exact .absent
  exact hstart.run hfold

/-! ## Records -/

/-- The value that a record is for the instance. -/
def recordValue (inst : UInt16) : Response → Option Service.RawValue
  | .value responseInstance register data =>
      if responseInstance = inst.toUInt64 then some ⟨register, data⟩ else none
  | _ => none

/-- A record that refuses a request. -/
def rejects : Response → Prop
  | .response _ _ code => code ≠ .ok
  | .valueResponse _ _ code => code ≠ .ok
  | .pathResponse _ _ code => code ≠ .ok
  | _ => False

section

variable {inst : UInt16} {r : Response} {records : List Response}

theorem instanceValues_rejects (h : rejects r) :
    ∃ code, instanceValues inst (r :: records) = .error (.contentionResponse code) := by
  cases r with
  | response i opcode code => exact ⟨_, if_neg h⟩
  | valueResponse i register code => exact ⟨_, if_neg h⟩
  | pathResponse i index code => exact ⟨_, if_neg h⟩
  | _ => exact h.elim

/-- Every other record is passed over. -/
theorem instanceValues_passes (h : ¬ rejects r) :
    instanceValues inst (r :: records) =
      (instanceValues inst records).map ((recordValue inst r).toList ++ ·) := by
  have hpassed : (instanceValues inst records).map (([] : List Service.RawValue) ++ ·) =
      instanceValues inst records := by
    cases instanceValues inst records <;> rfl
  cases r with
  | value i register data =>
      rw [instanceValues]
      cases instanceValues inst records with
      | error e => rfl
      | ok values =>
          show (if i = inst.toUInt64 then Except.ok (⟨register, data⟩ :: values)
            else Except.ok values) = _
          by_cases hinst : i = inst.toUInt64
          · rw [if_pos hinst, recordValue, if_pos hinst]
            rfl
          · rw [if_neg hinst, recordValue, if_neg hinst]
            rfl
  | response i opcode code => exact (if_pos (not_not.mp h)).trans hpassed.symm
  | valueResponse i register code => exact (if_pos (not_not.mp h)).trans hpassed.symm
  | pathResponse i index code => exact (if_pos (not_not.mp h)).trans hpassed.symm
  | _ => exact hpassed.symm

/-- How the scan for the values of the instance ends. -/
theorem instanceValues_ends (inst : UInt16) (records : List Response) :
    ((∀ r ∈ records, ¬ rejects r) ∧
      instanceValues inst records = .ok (records.filterMap (recordValue inst))) ∨
    ((∃ r ∈ records, rejects r) ∧
      ∃ code, instanceValues inst records = .error (.contentionResponse code)) := by
  induction records with
  | nil => exact .inl ⟨by simp, rfl⟩
  | cons r records ih =>
      by_cases hr : rejects r
      · exact .inr ⟨⟨r, List.mem_cons_self .., hr⟩, instanceValues_rejects hr⟩
      rw [instanceValues_passes hr]
      rcases ih with ⟨hnone, hvalues⟩ | ⟨⟨r', hmem, hr'⟩, code, herror⟩
      · refine .inl ⟨List.forall_mem_cons.mpr ⟨hr, hnone⟩, ?_⟩
        rw [hvalues, List.filterMap_cons]
        cases recordValue inst r <;> rfl
      · refine .inr ⟨⟨r', List.mem_cons_of_mem _ hmem, hr'⟩, code, ?_⟩
        rw [herror]
        rfl

theorem instanceValues_ok {values : List Service.RawValue}
    (h : instanceValues inst records = .ok values) :
    values = records.filterMap (recordValue inst) := by
  rcases instanceValues_ends inst records with ⟨-, hvalues⟩ | ⟨-, code, herror⟩
  · exact Except.ok.inj (h.symm.trans hvalues)
  · rw [herror] at h
    cases h

end

/-- The values of the instance are those of its records. -/
theorem lastValue_records {α : Type} (inst register : UInt16) (usable : List UInt8 → Option α)
    (records : List Response) :
    lastValue register usable (records.filterMap (recordValue inst)) =
      lastUsable inst register usable records := by
  rw [lastValue, lastUsable, List.filterMap_filterMap]
  congr 2
  funext r
  cases r with
  | value i reg data =>
      simp only [recordValue, recordData]
      by_cases hinst : i = inst.toUInt64
      · by_cases hreg : reg = register
        · simp [hinst, hreg]
        · simp [hinst, hreg]
      · simp [hinst]
  | _ => rfl

/-- The records that the values of a payload come from. -/
theorem parseResponse_ok {m : Minicbor} {inst : UInt16} {payload : List UInt8}
    {values : List Service.RawValue} (h : parseResponse m inst payload = .ok values) :
    ∃ items records, m.decodeStream payload = .ok items ∧
      Response.parseItems items = .ok records ∧
      values = records.filterMap (recordValue inst) := by
  unfold parseResponse at h
  split_ifs at h
  obtain ⟨records, hrecords, hvalues⟩ := bind_eq_ok.mp h
  obtain ⟨items, hdecode, hparse⟩ : ∃ items, m.decodeStream payload = .ok items ∧
      Response.parseItems items = .ok records := by
    cases hstream : Response.parseStream m.decodeStream payload with
    | error e => rw [hstream] at hrecords; cases hrecords
    | ok rs => rw [hstream] at hrecords; cases hrecords; exact bind_eq_ok.mp hstream
  obtain ⟨vs, hvs, hnonempty⟩ := bind_eq_ok.mp hvalues
  split_ifs at hnonempty
  cases hnonempty
  exact ⟨items, records, hdecode, hparse, instanceValues_ok hvs⟩

/-- Wire bytes to sample: every measurement and every state is that of the last usable record
of the instance and its register, and there is no yield. -/
theorem sample_of_payload (m : Minicbor) (hm : m.Conforms) (device : DeviceId) (now : SystemTime)
    (inst : UInt16) (payload : List UInt8) (values : List Service.RawValue) (s : Sample)
    (hparse : parseResponse m inst payload = .ok values)
    (htranslate : translate device now values = .ok s) :
    ∃ items records, EncodesAll items payload ∧ Bounded items ∧
      Response.parseItems items = .ok records ∧ Reports inst records s := by
  obtain ⟨items, records, hdecode, hrecords, rfl⟩ := parseResponse_ok hparse
  obtain ⟨hencodes, hbounded⟩ := (decodeStream_iff hm).mp hdecode
  have hholds := translate_holds htranslate
  refine ⟨items, records, hencodes, hbounded, hrecords, ?_, ?_, ?_, ?_, ?_, ?_⟩
  · intro f
    rw [← lastValue_records]
    exact hholds.readings f
  · rw [← lastValue_records]
    exact congrArg Sample.chargerState hholds.others
  · rw [← lastValue_records]
    exact congrArg Sample.loadState hholds.others
  · exact congrArg Sample.yieldTotalKwh hholds.others
  · exact congrArg Sample.yieldTodayKwh hholds.others
  · exact congrArg Sample.bleRssiDbm hholds.others

/-- A solar voltage of 28.03 V. -/
theorem solarVoltage_reported :
    ∃ values s, parseResponse .byHeads 3 [0x08, 0x03, 0x19, 0xed, 0xbb, 0x42, 0xf3, 0x0a] =
        .ok values ∧
      translate solarCharger .unixEpoch values = .ok s ∧
      ∃ items records, EncodesAll items [0x08, 0x03, 0x19, 0xed, 0xbb, 0x42, 0xf3, 0x0a] ∧
        Bounded items ∧ Response.parseItems items = .ok records ∧ Reports 3 records s := by
  have hdecode : Minicbor.byHeads.decodeStream [0x08, 0x03, 0x19, 0xed, 0xbb, 0x42, 0xf3, 0x0a] =
      .ok [.uint 8, .uint 3, .uint 0xedbb, .bytes [0xf3, 0x0a]] := by
    refine decodeStream_made byHeads_conforms ?_ ?_
    · exact .uint 8 (.uint 3 (.uint 0xedbb (.bytes [0xf3, 0x0a] .nil)))
    · constructor <;> decide
  have hparse : parseResponse .byHeads 3 [0x08, 0x03, 0x19, 0xed, 0xbb, 0x42, 0xf3, 0x0a] =
      .ok [⟨0xedbb, [0xf3, 0x0a]⟩] := by
    rw [parseResponse, if_neg (by simp), Response.parseStream, hdecode]
    rfl
  have hok : (translate solarCharger .unixEpoch [⟨0xedbb, [0xf3, 0x0a]⟩]).isOk = true := by
    decide +kernel
  obtain ⟨s, htranslate⟩ : ∃ s,
      translate solarCharger .unixEpoch [⟨0xedbb, [0xf3, 0x0a]⟩] = .ok s := by
    cases hs : translate solarCharger .unixEpoch [⟨0xedbb, [0xf3, 0x0a]⟩] with
    | error e => rw [hs] at hok; cases hok
    | ok s => exact ⟨s, rfl⟩
  exact ⟨_, s, hparse, htranslate,
    sample_of_payload .byHeads byHeads_conforms _ _ _ _ _ _ hparse htranslate⟩

end VeSmart.Collector
