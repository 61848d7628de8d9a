import VeSmart.Bluez.Transport

set_option autoImplicit false

/-! # The identity of a VE.Smart device (`victron-bluez/src/spec.rs`)

The UUIDs of the service in its two variants, those of the characteristics, which the source
derives from them, and what an advertisement must show. The three roles of a variant have UUIDs
of their own, so that a UUID has one role at most (`charRole_iff`). -/

namespace VeSmart.Bluez

/-- Sixteen bytes, in the order they are written. -/
abbrev Uuid := Vector UInt8 16

/-- The company id of the manufacturer. -/
def victronManufacturerId : UInt16 := 0x02e1

def victronManufacturerDataMask : UInt8 := 0xfe

def victronManufacturerDataByte : UInt8 := 0x10

def veSmartServiceUuid0 : Uuid :=
  #v[0x30, 0x6b, 0x00, 0x01, 0xb0, 0x81, 0x40, 0x37, 0x83, 0xdc, 0xe5, 0x9f, 0xcc, 0x3c, 0xdf, 0xd0]

def veSmartServiceUuid1 : Uuid :=
  #v[0x30, 0x6b, 0x00, 0x01, 0xb0, 0x81, 0x40, 0x37, 0x83, 0xdc, 0xe5, 0x9f, 0xcc, 0x3c, 0xdf, 0xd1]

inductive ServiceVariant where
  | dfd0
  | dfd1
  deriving DecidableEq

/-- What a characteristic of the service is for. -/
inductive CharRole where
  | control
  | lastData
  | data
  deriving DecidableEq

def CharRole.index : CharRole → UInt8
  | .control => 1
  | .lastData => 2
  | .data => 3

def CharRole.name : CharRole → String
  | .control => "control"
  | .lastData => "last-data"
  | .data => "data"

/-- The UUID of the service. -/
def ServiceVariant.baseBytes : ServiceVariant → Uuid
  | .dfd0 => veSmartServiceUuid0
  | .dfd1 => veSmartServiceUuid1

/-- The UUID of a characteristic: the byte at offset 3 is counted up by the index. -/
def ServiceVariant.charUuid (variant : ServiceVariant) (role : CharRole) : Uuid :=
  variant.baseBytes.set 3 (variant.baseBytes[3] + role.index)

def serviceVariant (uuid : Uuid) : Option ServiceVariant :=
  if uuid = veSmartServiceUuid0 then some .dfd0
  else if uuid = veSmartServiceUuid1 then some .dfd1
  else none

def charRole (variant : ServiceVariant) (uuid : Uuid) : Option CharRole :=
  if uuid = variant.charUuid .control then some .control
  else if uuid = variant.charUuid .lastData then some .lastData
  else if uuid = variant.charUuid .data then some .data
  else none

/-- A service of the device is advertised. -/
def hasVictronServiceEvidence (uuids : List Uuid) : Bool :=
  uuids.any fun uuid => (serviceVariant uuid).isSome

/-- The advertisement carries the company id, and data of its own that begins as expected. -/
def hasVictronManufacturerEvidence (manufacturerData : List (UInt16 × List UInt8)) : Bool :=
  match (manufacturerData.lookup victronManufacturerId).bind List.head? with
  | some byte => byte &&& victronManufacturerDataMask = victronManufacturerDataByte
  | none => false

section

variable {variant variant' : ServiceVariant} {role role' : CharRole} {uuid : Uuid}

theorem serviceVariant_iff : serviceVariant uuid = some variant ↔ uuid = variant.baseBytes := by
  unfold serviceVariant
  cases variant with
  | dfd0 =>
      by_cases h : uuid = veSmartServiceUuid0
      · simp [h, ServiceVariant.baseBytes]
      · by_cases h' : uuid = veSmartServiceUuid1 <;> simp [h, h', ServiceVariant.baseBytes]
  | dfd1 =>
      have hne : veSmartServiceUuid1 ≠ veSmartServiceUuid0 := by decide
      by_cases h : uuid = veSmartServiceUuid0
      · simp [h, ServiceVariant.baseBytes, hne.symm]
      · simp [h, ServiceVariant.baseBytes]

/-- The roles of both variants have UUIDs of their own. -/
theorem charUuid_injective (h : variant.charUuid role = variant'.charUuid role') :
    variant = variant' ∧ role = role' := by
  revert h
  cases variant <;> cases variant' <;> cases role <;> cases role' <;> decide

theorem charRole_iff : charRole variant uuid = some role ↔ uuid = variant.charUuid role := by
  have hne : ∀ {r r' : CharRole}, r ≠ r' → variant.charUuid r ≠ variant.charUuid r' :=
    fun hr h => hr (charUuid_injective h).2
  unfold charRole
  constructor
  · intro h
    split at h
    · cases h
      assumption
    · split at h
      · cases h
        assumption
      · split at h
        · cases h
          assumption
        · cases h
  · rintro rfl
    cases role with
    | control => rw [if_pos rfl]
    | lastData => rw [if_neg (hne (by decide)), if_pos rfl]
    | data => rw [if_neg (hne (by decide)), if_neg (hne (by decide)), if_pos rfl]

end

end VeSmart.Bluez
