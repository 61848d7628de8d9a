import VeSmart.Bluez.Discovery

set_option autoImplicit false

/-! # The GATT surface of a device (`victron-bluez/src/gatt.rs`)

`locate` looks for the VE.Smart service and its three characteristics, checks their flags and
decides once how each of them is written. `locate_explained` says what a located surface is, and
what was missing if there is none. -/

namespace VeSmart.Bluez

open VeSmart.Lib

/-- How a characteristic is written. -/
inductive WriteMode where
  | writeWithoutResponse
  | writeWithResponse
  deriving DecidableEq

/-- The flags that are looked at. -/
structure CharacteristicFlags where
  read : Bool
  write : Bool
  writeWithoutResponse : Bool
  notify : Bool
  indicate : Bool
  deriving DecidableEq

/-- A characteristic, as BlueZ names it. -/
abbrev Characteristic := Nat

structure VeSmartGatt where
  variant : ServiceVariant
  control : Characteristic
  controlWrite : WriteMode
  lastData : Characteristic
  lastDataWrite : WriteMode
  data : Characteristic
  dataWrite : WriteMode
  deriving DecidableEq

/-- All three must notify, and the control characteristic must be readable. -/
def validateFlags (flags : CharacteristicFlags) (role : CharRole) : Except BleError Unit :=
  if !(flags.notify || flags.indicate) then .error (.missingFlag role.name "notify|indicate")
  else if role = .control ∧ !flags.read then .error (.missingFlag role.name "read")
  else .ok ()

/-- A write without response is preferred. -/
def pickWriteMode (flags : CharacteristicFlags) (role : CharRole) : Except BleError WriteMode :=
  if flags.writeWithoutResponse then .ok .writeWithoutResponse
  else if flags.write then .ok .writeWithResponse
  else .error (.missingFlag role.name "write|write-without-response")

/-! ## The search -/

/-- What BlueZ answers about a characteristic. -/
structure CharacteristicAnswers where
  characteristic : Characteristic
  uuid : Answer Uuid
  flags : Answer CharacteristicFlags

structure ServiceAnswers where
  uuid : Answer Uuid
  characteristics : Answer (List CharacteristicAnswers)

/-- The arrays of the search, by role. -/
structure Located where
  found : CharRole → Option Characteristic
  writeModes : CharRole → WriteMode

def Located.empty : Located := ⟨fun _ => none, fun _ => .writeWithoutResponse⟩

def Located.set (l : Located) (role : CharRole) (c : Characteristic) (mode : WriteMode) :
    Located where
  found := fun r => if r = role then some c else l.found r
  writeModes := fun r => if r = role then mode else l.writeModes r

/-- A characteristic that has a role: its flags are checked. -/
def placeRole (role : CharRole) (l : Located) (c : CharacteristicAnswers) :
    Except BleError Located := do
  let flags ← bounded "characteristic-flags" c.flags
  validateFlags flags role
  let mode ← pickWriteMode flags role
  .ok (l.set role c.characteristic mode)

/-- One turn over the characteristics of the service. -/
def place (variant : ServiceVariant) (l : Located) (c : CharacteristicAnswers) :
    Except BleError Located := do
  let uuid ← bounded "characteristic-uuid" c.uuid
  match charRole variant uuid with
  | none => .ok l
  | some role => placeRole role l c

/-- The characteristic of a role, which must have been found. -/
def Located.take (l : Located) (role : CharRole) : Except BleError Characteristic :=
  match l.found role with
  | some c => .ok c
  | none => .error (.gattNotFound role.name)

def Located.gatt (l : Located) (variant : ServiceVariant) : Except BleError VeSmartGatt := do
  let control ← l.take .control
  let lastData ← l.take .lastData
  let data ← l.take .data
  .ok {
    variant := variant
    control := control
    controlWrite := l.writeModes .control
    lastData := lastData
    lastDataWrite := l.writeModes .lastData
    data := data
    dataWrite := l.writeModes .data }

/-- The characteristics of a service of the variant. -/
def locateCharacteristics (variant : ServiceVariant) (s : ServiceAnswers) :
    Except BleError VeSmartGatt := do
  let characteristics ← bounded "service-characteristics" s.characteristics
  let located ← characteristics.foldlM (place variant) .empty
  located.gatt variant

/-- The first service of a variant is searched, and no other. -/
def locateService : List ServiceAnswers → Except BleError VeSmartGatt
  | [] => .error (.gattNotFound "ve-smart-service")
  | s :: services => do
      let uuid ← bounded "service-uuid" s.uuid
      match serviceVariant uuid with
      | none => locateService services
      | some variant => locateCharacteristics variant s

/-- Locate the VE.Smart service and its three characteristics on a connected device. -/
def locate (answer : Answer (List ServiceAnswers)) : Except BleError VeSmartGatt := do
  let services ← bounded "service-discovery" answer
  locateService services

/-! ## What is said of a characteristic -/

def VeSmartGatt.characteristic (g : VeSmartGatt) : CharRole → Characteristic
  | .control => g.control
  | .lastData => g.lastData
  | .data => g.data

def VeSmartGatt.writeMode (g : VeSmartGatt) : CharRole → WriteMode
  | .control => g.controlWrite
  | .lastData => g.lastDataWrite
  | .data => g.dataWrite

/-- The characteristic is the one with this role. -/
def CharacteristicAnswers.Plays (c : CharacteristicAnswers) (variant : ServiceVariant)
    (role : CharRole) : Prop :=
  c.uuid = some (.ok (variant.charUuid role))

/-- A write of this mode is possible, and a write without response is preferred. -/
def CharacteristicFlags.Writable (flags : CharacteristicFlags) : WriteMode → Prop
  | .writeWithoutResponse => flags.writeWithoutResponse = true
  | .writeWithResponse => flags.writeWithoutResponse = false ∧ flags.write = true

/-- The flags are those that the role needs, with a write of this mode. -/
structure CharacteristicFlags.Serve (flags : CharacteristicFlags) (role : CharRole)
    (mode : WriteMode) : Prop where
  notifies : flags.notify = true ∨ flags.indicate = true
  readable : role = .control → flags.read = true
  writable : flags.Writable mode

/-- A required flag is missing. -/
inductive CharacteristicFlags.Lack (flags : CharacteristicFlags) (role : CharRole) :
    String → Prop where
  | notifies (h : flags.notify = false ∧ flags.indicate = false) : Lack flags role "notify|indicate"
  | readable (hrole : role = .control) (h : flags.read = false) : Lack flags role "read"
  | writable (h : flags.write = false ∧ flags.writeWithoutResponse = false) :
      Lack flags role "write|write-without-response"

/-- Every characteristic has a readable UUID, and flags for its role if it has one. -/
def CharacteristicAnswers.Sound (c : CharacteristicAnswers) (variant : ServiceVariant) : Prop :=
  ∃ uuid, c.uuid = some (.ok uuid) ∧ ∀ role, uuid = variant.charUuid role →
    ∃ flags mode, c.flags = some (.ok flags) ∧ flags.Serve role mode

/-- The last characteristic with a role is this one, written in this mode. -/
def LastPlaying (variant : ServiceVariant) (role : CharRole) (cs : List CharacteristicAnswers)
    (characteristic : Characteristic) (mode : WriteMode) : Prop :=
  ∃ before c after, cs = before ++ c :: after ∧ c.characteristic = characteristic ∧
    c.Plays variant role ∧ (∃ flags, c.flags = some (.ok flags) ∧ flags.Serve role mode) ∧
    ∀ c' ∈ after, ¬ c'.Plays variant role

/-- The service is the first of a variant among those discovered. -/
structure FirstService (services : List ServiceAnswers) (variant : ServiceVariant)
    (s : ServiceAnswers) : Prop where
  uuid : s.uuid = some (.ok variant.baseBytes)
  first : ∃ before after, services = before ++ s :: after ∧
    ∀ s' ∈ before, ∃ uuid, s'.uuid = some (.ok uuid) ∧ serviceVariant uuid = none

/-- What the search may end with. -/
inductive LocateEnd (answer : Answer (List ServiceAnswers)) : Except BleError VeSmartGatt → Prop
  | located {services : List ServiceAnswers} {s : ServiceAnswers} {g : VeSmartGatt}
      {cs : List CharacteristicAnswers} (hservices : answer = some (.ok services))
      (hservice : FirstService services g.variant s) (hcs : s.characteristics = some (.ok cs))
      (hsound : ∀ c ∈ cs, c.Sound g.variant)
      (hroles : ∀ role, LastPlaying g.variant role cs (g.characteristic role) (g.writeMode role)) :
      LocateEnd answer (.ok g)
  | noService {services : List ServiceAnswers} (hservices : answer = some (.ok services))
      (hnone : ∀ s ∈ services, ∃ uuid, s.uuid = some (.ok uuid) ∧ serviceVariant uuid = none) :
      LocateEnd answer (.error (.gattNotFound "ve-smart-service"))
  | noCharacteristic {services : List ServiceAnswers} {s : ServiceAnswers}
      {variant : ServiceVariant} {cs : List CharacteristicAnswers} {role : CharRole}
      (hservices : answer = some (.ok services)) (hservice : FirstService services variant s)
      (hcs : s.characteristics = some (.ok cs)) (hsound : ∀ c ∈ cs, c.Sound variant)
      (hnone : ∀ c ∈ cs, ¬ c.Plays variant role) :
      LocateEnd answer (.error (.gattNotFound role.name))
  | noFlag {services : List ServiceAnswers} {s : ServiceAnswers} {variant : ServiceVariant}
      {cs : List CharacteristicAnswers} {c : CharacteristicAnswers} {role : CharRole}
      {flags : CharacteristicFlags} {required : String} (hservices : answer = some (.ok services))
      (hservice : FirstService services variant s) (hcs : s.characteristics = some (.ok cs))
      (hc : c ∈ cs) (hplays : c.Plays variant role) (hflags : c.flags = some (.ok flags))
      (hlack : flags.Lack role required) :
      LocateEnd answer (.error (.missingFlag role.name required))
  | failedCharacteristic {services : List ServiceAnswers} {s : ServiceAnswers}
      {variant : ServiceVariant} {cs : List CharacteristicAnswers} {c : CharacteristicAnswers}
      {e : BleError} (hservices : answer = some (.ok services))
      (hservice : FirstService services variant s) (hcs : s.characteristics = some (.ok cs))
      (hc : c ∈ cs) (hfailed : bounded "characteristic-uuid" c.uuid = .error e ∨
        (∃ role, c.Plays variant role) ∧ bounded "characteristic-flags" c.flags = .error e) :
      LocateEnd answer (.error e)
  | failedService {services : List ServiceAnswers} {s : ServiceAnswers} {e : BleError}
      (hservices : answer = some (.ok services)) (hs : s ∈ services)
      (hfailed : bounded "service-uuid" s.uuid = .error e ∨
        bounded "service-characteristics" s.characteristics = .error e) :
      LocateEnd answer (.error e)
  | failed {e : BleError} (hfailed : bounded "service-discovery" answer = .error e) :
      LocateEnd answer (.error e)

section

variable {variant : ServiceVariant} {role : CharRole} {flags : CharacteristicFlags}
  {c : CharacteristicAnswers} {l l' : Located} {e : BleError}

/-! ## One characteristic -/

theorem validateFlags_ok (h : validateFlags flags role = .ok ()) :
    (flags.notify = true ∨ flags.indicate = true) ∧ (role = .control → flags.read = true) := by
  unfold validateFlags at h
  by_cases hnotify : (flags.notify || flags.indicate) = true
  · by_cases hread : role = .control ∧ flags.read = false
    · simp [hnotify, hread.1, hread.2] at h
    · refine ⟨by simpa using hnotify, fun hrole => ?_⟩
      by_contra hfalse
      exact hread ⟨hrole, by simpa using hfalse⟩
  · simp [hnotify] at h

theorem validateFlags_error (h : validateFlags flags role = .error e) :
    ∃ required, e = .missingFlag role.name required ∧ flags.Lack role required := by
  unfold validateFlags at h
  by_cases hnotify : (flags.notify || flags.indicate) = true
  · by_cases hread : role = .control ∧ flags.read = false
    · simp only [hnotify, hread.1, hread.2, Bool.not_true, Bool.not_false, Bool.false_eq_true,
        if_false, and_self, if_true, Except.error.injEq] at h
      exact ⟨"read", by rw [hread.1, ← h], .readable hread.1 hread.2⟩
    · simp [hnotify, hread] at h
  · simp only [hnotify, Bool.not_false, if_true, Except.error.injEq] at h
    exact ⟨"notify|indicate", h.symm, .notifies (by simpa using hnotify)⟩

theorem pickWriteMode_ok {mode : WriteMode} (h : pickWriteMode flags role = .ok mode) :
    flags.Writable mode := by
  unfold pickWriteMode at h
  by_cases hcommand : flags.writeWithoutResponse = true
  · simp only [hcommand, if_true, Except.ok.injEq] at h
    subst h
    exact hcommand
  · by_cases hrequest : flags.write = true
    · simp only [hcommand, hrequest, Bool.false_eq_true, if_false, if_true, Except.ok.injEq] at h
      subst h
      exact ⟨by simpa using hcommand, hrequest⟩
    · simp [hcommand, hrequest] at h

theorem pickWriteMode_error (h : pickWriteMode flags role = .error e) :
    ∃ required, e = .missingFlag role.name required ∧ flags.Lack role required := by
  unfold pickWriteMode at h
  by_cases hcommand : flags.writeWithoutResponse = true
  · simp [hcommand] at h
  · by_cases hrequest : flags.write = true
    · simp [hcommand, hrequest] at h
    · simp only [hcommand, hrequest, Bool.false_eq_true, if_false, Except.error.injEq] at h
      exact ⟨_, h.symm, .writable (by simpa using And.intro hrequest hcommand)⟩

theorem placeRole_ok (h : placeRole role l c = .ok l') :
    ∃ flags mode, c.flags = some (.ok flags) ∧ flags.Serve role mode ∧
      l' = l.set role c.characteristic mode := by
  simp only [placeRole, except_bind_ok, bounded_ok, Except.ok.injEq] at h
  obtain ⟨flags, hflags, _, hvalid, mode, hmode, rfl⟩ := h
  obtain ⟨hnotifies, hreadable⟩ := validateFlags_ok hvalid
  exact ⟨flags, mode, hflags, ⟨hnotifies, hreadable, pickWriteMode_ok hmode⟩, rfl⟩

/-- A characteristic of a role that is not placed lacks a flag, or its flags cannot be read. -/
theorem placeRole_error (h : placeRole role l c = .error e) :
    bounded "characteristic-flags" c.flags = .error e ∨
      ∃ flags required, c.flags = some (.ok flags) ∧ e = .missingFlag role.name required ∧
        flags.Lack role required := by
  rw [placeRole, except_bind_error] at h
  rcases h with h | ⟨flags, hflags, h⟩
  · exact Or.inl h
  rw [bounded_ok] at hflags
  right
  rw [except_bind_error] at h
  rcases h with h | ⟨_, -, h⟩
  · obtain ⟨required, he, hlack⟩ := validateFlags_error h
    exact ⟨flags, required, hflags, he, hlack⟩
  rw [except_bind_error] at h
  rcases h with h | ⟨mode, -, h⟩
  · obtain ⟨required, he, hlack⟩ := pickWriteMode_error h
    exact ⟨flags, required, hflags, he, hlack⟩
  · cases h

/-- A turn reads the UUID. Without a role it changes nothing, with one it places the
characteristic. -/
theorem place_ok (h : place variant l c = .ok l') :
    c.Sound variant ∧ (((∀ role, ¬ c.Plays variant role) ∧ l' = l) ∨
      ∃ role mode flags, c.Plays variant role ∧ c.flags = some (.ok flags) ∧
        flags.Serve role mode ∧ l' = l.set role c.characteristic mode) := by
  simp only [place, except_bind_ok, bounded_ok] at h
  obtain ⟨uuid, huuid, h⟩ := h
  rcases hrole : charRole variant uuid with _ | role
  · rw [hrole] at h
    cases h
    have hnone : ∀ role, uuid ≠ variant.charUuid role := by
      intro role heq
      rw [charRole_iff.mpr heq] at hrole
      cases hrole
    refine ⟨⟨uuid, huuid, fun role heq => absurd heq (hnone role)⟩,
      Or.inl ⟨fun role hplays => hnone role ?_, rfl⟩⟩
    rw [CharacteristicAnswers.Plays, huuid, Option.some.injEq, Except.ok.injEq] at hplays
    exact hplays
  · rw [hrole] at h
    obtain ⟨flags, mode, hflags, hserve, hl⟩ := placeRole_ok h
    have heq := charRole_iff.mp hrole
    refine ⟨⟨uuid, huuid, fun role' heq' => ?_⟩,
      Or.inr ⟨role, mode, flags, by rw [CharacteristicAnswers.Plays, huuid, heq], hflags, hserve,
        hl⟩⟩
    obtain ⟨-, rfl⟩ := charUuid_injective (heq.symm.trans heq')
    exact ⟨flags, mode, hflags, hserve⟩

theorem place_error (h : place variant l c = .error e) :
    bounded "characteristic-uuid" c.uuid = .error e ∨
      ∃ role, c.Plays variant role ∧ (bounded "characteristic-flags" c.flags = .error e ∨
        ∃ flags required, c.flags = some (.ok flags) ∧ e = .missingFlag role.name required ∧
          flags.Lack role required) := by
  rw [place, except_bind_error] at h
  rcases h with h | ⟨uuid, huuid, h⟩
  · exact Or.inl h
  rw [bounded_ok] at huuid
  rcases hrole : charRole variant uuid with _ | role
  · rw [hrole] at h
    cases h
  · rw [hrole] at h
    refine Or.inr ⟨role, ?_, placeRole_error h⟩
    rw [CharacteristicAnswers.Plays, huuid, charRole_iff.mp hrole]

/-! ## All characteristics of a service -/

/-- The arrays of the search hold the last characteristic of each role among these. -/
structure Holds (variant : ServiceVariant) (cs : List CharacteristicAnswers) (l : Located) :
    Prop where
  sound : ∀ c ∈ cs, c.Sound variant
  absent : ∀ role, l.found role = none → ∀ c ∈ cs, ¬ c.Plays variant role
  last : ∀ role characteristic, l.found role = some characteristic →
    LastPlaying variant role cs characteristic (l.writeModes role)

theorem holds_empty (variant : ServiceVariant) : Holds variant [] .empty := by
  refine ⟨by simp, by simp, fun role characteristic h => ?_⟩
  cases h

theorem LastPlaying.concat {cs : List CharacteristicAnswers} {characteristic : Characteristic}
    {mode : WriteMode} (h : LastPlaying variant role cs characteristic mode)
    (hc : ¬ c.Plays variant role) : LastPlaying variant role (cs ++ [c]) characteristic mode := by
  obtain ⟨before, c₀, after, rfl, hname, hplays, hserves, hlast⟩ := h
  refine ⟨before, c₀, after ++ [c], by simp, hname, hplays, hserves, fun c' hc' => ?_⟩
  rcases List.mem_append.mp hc' with hc' | hc'
  · exact hlast c' hc'
  · rw [List.mem_singleton.mp hc']
    exact hc

/-- One turn keeps the arrays. -/
theorem Holds.place {cs : List CharacteristicAnswers} (h : Holds variant cs l)
    (hplace : place variant l c = .ok l') : Holds variant (cs ++ [c]) l' := by
  obtain ⟨hsound, hplaced⟩ := place_ok hplace
  refine ⟨fun c' hc' => ?_, ?_, ?_⟩
  · rcases List.mem_append.mp hc' with hc' | hc'
    · exact h.sound c' hc'
    · rw [List.mem_singleton.mp hc']
      exact hsound
  · intro role hnone c' hc'
    rcases hplaced with ⟨hnot, rfl⟩ | ⟨role', mode, flags, hplays, -, -, rfl⟩
    · rcases List.mem_append.mp hc' with hc' | hc'
      · exact h.absent role hnone c' hc'
      · rw [List.mem_singleton.mp hc']
        exact hnot role
    · by_cases hrole : role = role'
      · simp [Located.set, hrole] at hnone
      · simp only [Located.set, hrole, if_false] at hnone
        rcases List.mem_append.mp hc' with hc' | hc'
        · exact h.absent role hnone c' hc'
        · -- the characteristic plays another role
          rw [List.mem_singleton.mp hc']
          intro hplays'
          rw [CharacteristicAnswers.Plays, hplays, Option.some.injEq, Except.ok.injEq] at hplays'
          exact hrole (charUuid_injective hplays').2.symm
  · intro role characteristic hfound
    rcases hplaced with ⟨hnot, rfl⟩ | ⟨role', mode, flags, hplays, hflags, hserve, rfl⟩
    · exact (h.last role characteristic hfound).concat (hnot role)
    · by_cases hrole : role = role'
      · subst hrole
        simp only [Located.set, if_true, Option.some.injEq] at hfound ⊢
        exact ⟨cs, c, [], rfl, hfound, hplays, ⟨flags, hflags, hserve⟩, by simp⟩
      · simp only [Located.set, hrole, if_false] at hfound ⊢
        refine (h.last role characteristic hfound).concat fun hplays' => ?_
        rw [CharacteristicAnswers.Plays, hplays, Option.some.injEq, Except.ok.injEq] at hplays'
        exact hrole (charUuid_injective hplays').2.symm

/-- The search over the characteristics, from what the first of them have given. -/
theorem Holds.foldlM {cs rest : List CharacteristicAnswers} (h : Holds variant cs l)
    (hfold : rest.foldlM (Bluez.place variant) l = .ok l') : Holds variant (cs ++ rest) l' := by
  induction rest generalizing cs l with
  | nil =>
      cases hfold
      rw [List.append_nil]
      exact h
  | cons c rest ih =>
      rw [List.foldlM_cons, except_bind_ok] at hfold
      obtain ⟨l₁, hplace, hfold⟩ := hfold
      have := ih (h.place hplace) hfold
      rwa [List.append_assoc] at this

theorem foldlM_place_error {cs : List CharacteristicAnswers}
    (h : cs.foldlM (place variant) l = .error e) :
    ∃ c ∈ cs, ∃ l', place variant l' c = .error e := by
  induction cs generalizing l with
  | nil => cases h
  | cons c cs ih =>
      rw [List.foldlM_cons, except_bind_error] at h
      rcases h with h | ⟨l₁, -, h⟩
      · exact ⟨c, by simp, l, h⟩
      · obtain ⟨c', hc', l', hplace⟩ := ih h
        exact ⟨c', List.mem_cons_of_mem c hc', l', hplace⟩

theorem Located.take_ok {characteristic : Characteristic} :
    l.take role = .ok characteristic ↔ l.found role = some characteristic := by
  unfold Located.take
  cases l.found role <;> simp

theorem Located.take_error (h : l.take role = .error e) :
    e = .gattNotFound role.name ∧ l.found role = none := by
  unfold Located.take at h
  cases hfound : l.found role with
  | none =>
      rw [hfound] at h
      cases h
      exact ⟨rfl, rfl⟩
  | some c =>
      rw [hfound] at h
      cases h

theorem Located.gatt_ok {g : VeSmartGatt} (h : l.gatt variant = .ok g) :
    g.variant = variant ∧ ∀ role, l.found role = some (g.characteristic role) ∧
      l.writeModes role = g.writeMode role := by
  simp only [Located.gatt, except_bind_ok, Located.take_ok, Except.ok.injEq] at h
  obtain ⟨control, hcontrol, lastData, hlast, data, hdata, rfl⟩ := h
  refine ⟨rfl, fun role => ?_⟩
  cases role with
  | control => exact ⟨hcontrol, rfl⟩
  | lastData => exact ⟨hlast, rfl⟩
  | data => exact ⟨hdata, rfl⟩

theorem Located.gatt_error (h : l.gatt variant = .error e) :
    ∃ role, e = .gattNotFound role.name ∧ l.found role = none := by
  rw [Located.gatt, except_bind_error] at h
  rcases h with h | ⟨_, -, h⟩
  · exact ⟨.control, Located.take_error h⟩
  rw [except_bind_error] at h
  rcases h with h | ⟨_, -, h⟩
  · exact ⟨.lastData, Located.take_error h⟩
  rw [except_bind_error] at h
  rcases h with h | ⟨_, -, h⟩
  · exact ⟨.data, Located.take_error h⟩
  · cases h

/-! ## The services -/

/-- The characteristics of the service that is searched. -/
theorem locateCharacteristics_end {answer : Answer (List ServiceAnswers)}
    {services : List ServiceAnswers} {s : ServiceAnswers} (hservices : answer = some (.ok services))
    (hservice : FirstService services variant s) :
    LocateEnd answer (locateCharacteristics variant s) := by
  have hs : s ∈ services := by
    obtain ⟨before, after, rfl, -⟩ := hservice.first
    simp
  rcases hr : locateCharacteristics variant s with e | g
  · rw [locateCharacteristics, except_bind_error] at hr
    rcases hr with h | ⟨cs, hcs, h⟩
    · exact .failedService hservices hs (Or.inr h)
    rw [bounded_ok] at hcs
    rw [except_bind_error] at h
    rcases h with h | ⟨l, hfold, h⟩
    · obtain ⟨c, hc, l, hplace⟩ := foldlM_place_error h
      rcases place_error hplace with h | ⟨role, hplays, h | ⟨flags, required, hflags, rfl, hlack⟩⟩
      · exact .failedCharacteristic hservices hservice hcs hc (Or.inl h)
      · exact .failedCharacteristic hservices hservice hcs hc (Or.inr ⟨⟨role, hplays⟩, h⟩)
      · exact .noFlag hservices hservice hcs hc hplays hflags hlack
    · have hholds := (holds_empty variant).foldlM hfold
      rw [List.nil_append] at hholds
      obtain ⟨role, rfl, hnone⟩ := Located.gatt_error h
      exact .noCharacteristic hservices hservice hcs hholds.sound (hholds.absent role hnone)
  · simp only [locateCharacteristics, except_bind_ok, bounded_ok] at hr
    obtain ⟨cs, hcs, l, hfold, hgatt⟩ := hr
    have hholds := (holds_empty variant).foldlM hfold
    rw [List.nil_append] at hholds
    obtain ⟨rfl, hroles⟩ := Located.gatt_ok hgatt
    refine .located hservices hservice hcs hholds.sound fun role => ?_
    obtain ⟨hfound, hmode⟩ := hroles role
    rw [← hmode]
    exact hholds.last role _ hfound

/-- The search over the services: those passed over are of no variant. -/
theorem locateService_end {answer : Answer (List ServiceAnswers)}
    (before rest : List ServiceAnswers)
    (hservices : answer = some (.ok (before ++ rest)))
    (hbefore : ∀ s ∈ before, ∃ uuid, s.uuid = some (.ok uuid) ∧ serviceVariant uuid = none) :
    LocateEnd answer (locateService rest) := by
  induction rest generalizing before with
  | nil =>
      rw [List.append_nil] at hservices
      exact .noService hservices hbefore
  | cons s rest ih =>
      unfold locateService
      rcases huuid : bounded "service-uuid" s.uuid with e | uuid
      · exact .failedService hservices (by simp) (Or.inl huuid)
      rw [bounded_ok] at huuid
      simp only [bind, Except.bind]
      rcases hvariant : serviceVariant uuid with _ | variant
      · refine ih (before ++ [s]) (by simpa using hservices) fun s' hs' => ?_
        rcases List.mem_append.mp hs' with hs' | hs'
        · exact hbefore s' hs'
        · rw [List.mem_singleton.mp hs']
          exact ⟨uuid, huuid, hvariant⟩
      · refine locateCharacteristics_end hservices ⟨?_, before, rest, rfl, hbefore⟩
        rw [huuid, serviceVariant_iff.mp hvariant]

end

/-- **The located surface is the first VE.Smart service with its three characteristics**: each is
the last one with its UUID, notifies, can be written in the mode that was decided, and the control
characteristic can be read. If there is none, the error names what was missing or what failed. -/
theorem locate_explained (answer : Answer (List ServiceAnswers)) :
    LocateEnd answer (locate answer) := by
  unfold locate
  rcases hservices : bounded "service-discovery" answer with e | services
  · exact .failed hservices
  · exact locateService_end [] services (bounded_ok.mp hservices) (by simp)

end VeSmart.Bluez
