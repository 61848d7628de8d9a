import VeSmart.Metrics.Metric
import VeSmart.Service.Config

set_option autoImplicit false

/-! # The device name of a validated configuration

`ServiceConfig.device` unwraps `DeviceId.new` at every cycle, on the strength of
`ServiceConfig.validate`. The characters that the configuration admits are characters of a device
id and of a label value, but only `DeviceId.new` bounds the length (`device_total_iff`). -/

namespace VeSmart.Collector

open VeSmart.Lib VeSmart.Domain VeSmart.Metrics
open VeSmart.Service (ServiceConfig)

/-- A character of a configured device name. -/
def deviceNameChar (c : Char) : Bool := c.isAlphanum || c = '_' || c = '-'

/-- The name makes a device id, and so `device` does not panic; and it is admitted as the device
label of a batch. -/
def DeviceTotal (config : ServiceConfig) : Prop :=
  (∃ device, config.device = .ok device) ∧
    ∃ batch, MetricBatchBuilder.new config.deviceName = .ok batch

section

variable {c : Char} {s : String} {config : ServiceConfig}

/-- The code points of the characters of a device name. -/
theorem deviceNameChar_val (h : deviceNameChar c = true) :
    (65 ≤ c.val.toNat ∧ c.val.toNat ≤ 90) ∨ (97 ≤ c.val.toNat ∧ c.val.toNat ≤ 122) ∨
      (48 ≤ c.val.toNat ∧ c.val.toNat ≤ 57) ∨ c.val.toNat = 95 ∨ c.val.toNat = 45 := by
  have halnum : c.isAlphanum = ((decide (65 ≤ c.val ∧ c.val ≤ 90) ||
      (decide (97 ≤ c.val) && decide (c.val ≤ 122))) ||
      (decide (48 ≤ c.val) && decide (c.val ≤ 57))) := rfl
  simp only [deviceNameChar, halnum, Bool.or_eq_true, Bool.and_eq_true, decide_eq_true_eq,
    UInt32.le_iff_toNat_le] at h
  rcases h with (((h | h) | h) | rfl) | rfl
  · exact Or.inl h
  · exact Or.inr (Or.inl h)
  · exact Or.inr (Or.inr (Or.inl h))
  · decide
  · decide

theorem not_whiteSpace (h : deviceNameChar c = true) : whiteSpace c = false := by
  have hval := deviceNameChar_val h
  simp only [whiteSpace, Bool.or_eq_false_iff, Bool.and_eq_false_iff, decide_eq_false_iff_not,
    UInt32.le_iff_toNat_le, ← UInt32.toNat_inj, UInt32.reduceToNat]
  omega

theorem not_control (h : deviceNameChar c = true) : isControl c = false := by
  have hval := deviceNameChar_val h
  simp only [isControl, Bool.or_eq_false_iff, Bool.and_eq_false_iff, decide_eq_false_iff_not,
    UInt32.lt_iff_toNat_lt, ← UInt32.toNat_inj, UInt32.reduceToNat]
  omega

theorem deviceIdChar_of_name (h : deviceNameChar c = true) : deviceIdChar c = true := by
  simp only [deviceNameChar, deviceIdChar, Bool.or_eq_true, decide_eq_true_eq] at h ⊢
  tauto

/-- Without white space there is nothing to trim. -/
theorem trim_same (h : ∀ c ∈ s.toList, whiteSpace c = false) : trim s = s := by
  have hkept : ∀ cs : List Char, (∀ c ∈ cs, whiteSpace c = false) →
      cs.dropWhile whiteSpace = cs := by
    intro cs hcs
    cases cs with
    | nil => rfl
    | cons c cs => rw [List.dropWhile_cons_of_neg (by simp [hcs c (by simp)])]
  rw [trim, hkept _ h, hkept _ (by simpa using h), List.reverse_reverse, String.ofList_toList]

/-- What validation promises about the name. -/
theorem name_of_validate (h : config.validate = .ok ()) :
    config.deviceName ≠ "" ∧ ∀ c ∈ config.deviceName.toList, deviceNameChar c = true := by
  unfold ServiceConfig.validate at h
  simp only [except_check_ok] at h
  obtain ⟨hempty, hchars, -⟩ := h
  have hall : ∀ c ∈ config.deviceName.toList, deviceNameChar c = true := by
    intro c hc
    by_contra hother
    exact hchars (List.any_eq_true.mpr ⟨c, hc, by simpa [deviceNameChar] using hother⟩)
  refine ⟨fun hnil => hempty ?_, hall⟩
  rw [hnil]
  rfl

theorem deviceId_iff (hempty : s ≠ "") (hchars : ∀ c ∈ s.toList, deviceNameChar c = true) :
    (∃ device, DeviceId.new s = .ok device) ↔ s.utf8ByteSize ≤ maxDeviceIdLen := by
  have htrim : trim s = s := trim_same fun c hc => not_whiteSpace (hchars c hc)
  have hset : (trim s).toList.all deviceIdChar = true := by
    rw [htrim]
    exact List.all_eq_true.mpr fun c hc => deviceIdChar_of_name (hchars c hc)
  have hne : ¬ trim s = "" := by rwa [htrim]
  by_cases hlen : s.utf8ByteSize ≤ maxDeviceIdLen
  · have hshort : ¬ maxDeviceIdLen < (trim s).utf8ByteSize := by
      rw [htrim]
      omega
    refine ⟨fun _ => hlen, fun _ => ?_⟩
    rw [DeviceId.new, dif_neg hne, dif_neg hshort, if_neg (by simp [htrim]), dif_pos hset]
    exact ⟨_, rfl⟩
  · have hlong : maxDeviceIdLen < (trim s).utf8ByteSize := by
      rw [htrim]
      omega
    refine ⟨fun ⟨device, hdevice⟩ => ?_, fun hle => absurd hle hlen⟩
    rw [DeviceId.new, dif_neg hne, dif_pos hlong] at hdevice
    cases hdevice

/-- A device label has room for twice the length of a device id. -/
theorem batch_of_name (hempty : s ≠ "") (hchars : ∀ c ∈ s.toList, deviceNameChar c = true)
    (hlen : s.utf8ByteSize ≤ maxDeviceIdLen) : ∃ batch, MetricBatchBuilder.new s = .ok batch := by
  have hvalue : validateLabelValue s = .ok () := by
    rw [validateLabelValue, if_neg (by simp only [maxDeviceIdLen] at hlen; omega), if_neg ?_]
    simp only [Bool.not_eq_true, List.any_eq_false]
    intro c hc
    simp [not_control (hchars c hc)]
  exact ⟨⟨s, none, []⟩, by simp [MetricBatchBuilder.new, hempty, hvalue, bind, Except.bind, pure,
    Except.pure]⟩

end

/-- **When the device of a validated configuration cannot panic a cycle**. -/
theorem device_total_iff (config : ServiceConfig) (h : config.validate = .ok ()) :
    DeviceTotal config ↔ config.deviceName.utf8ByteSize ≤ 64 := by
  obtain ⟨hempty, hchars⟩ := name_of_validate h
  have hdevice : (∃ device, config.device = .ok device) ↔
      ∃ device, DeviceId.new config.deviceName = .ok device := by
    unfold ServiceConfig.device
    rcases DeviceId.new config.deviceName with e | device
    · simp [bind, Except.bind]
    · simp [bind, Except.bind, pure, Except.pure]
  rw [DeviceTotal, hdevice, deviceId_iff hempty hchars]
  exact ⟨fun hboth => hboth.1, fun hlen => ⟨hlen, batch_of_name hempty hchars hlen⟩⟩

/-- The defaults, with a name of `n` letters. -/
def namedConfig (n : Nat) : ServiceConfig :=
  { ServiceConfig.default with deviceName := String.ofList (List.replicate n 'a') }

theorem namedConfig_total : DeviceTotal (namedConfig 64) :=
  (device_total_iff (namedConfig 64) (by decide)).mpr (by decide)

/-- A validated name that stops every cycle. -/
theorem longName_panics :
    ¬ ((namedConfig 65).validate = .ok () → DeviceTotal (namedConfig 65)) := by
  intro h
  obtain ⟨⟨device, hdevice⟩, -⟩ := h (by decide)
  have herror : (namedConfig 65).device =
      .error ⟨(namedConfig 65).deviceName, "must be at most 64 bytes"⟩ := by rfl
  rw [herror] at hdevice
  cases hdevice

end VeSmart.Collector
