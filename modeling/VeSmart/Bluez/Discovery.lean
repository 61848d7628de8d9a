import VeSmart.Bluez.Config
import VeSmart.Bluez.Spec

set_option autoImplicit false

/-! # Resolution of the configured device (`victron-bluez/src/discovery.rs`)

`resolveDevice` works on what BlueZ answers: the properties of the devices it knows, what its scan
reports, and the properties once the scan is over. Every read has an answer of its own, so the
answers may change from one read of a device to the next, fail or not come at all.
`resolveDevice_explained` says which device is chosen and, if none is, whose fault that is. -/

namespace VeSmart.Bluez

open VeSmart.Lib VeSmart.Domain

/-! ## Calls to BlueZ -/

/-- The kinds of `bluer::ErrorKind` that the source names; `unclassified` stands for the rest. -/
inductive ErrorKind where
  | authenticationCanceled
  | authenticationFailed
  | authenticationRejected
  | authenticationTimeout
  | notAuthorized
  | alreadyConnected
  | alreadyExists
  | inProgress
  | notPermitted
  | discoveryActive
  | doesNotExist
  | notFound
  | connectionAttemptFailed
  | servicesUnresolved
  | notificationSessionStopped
  | indicationUnconfirmed
  | notReady
  | notSupported
  | notAvailable
  | failed
  | invalidArguments
  | invalidLength
  | invalidOffset
  | invalidAddress
  | invalidName
  | notRegistered
  | advertisementMonitorRejected
  | dbusConnectionLost
  | dbusError
  | internalIo
  | internal
  | unclassified
  deriving DecidableEq

/-- The error that stands for a kind; BlueZ's own text is left out of it. -/
def classifyBluerKind : ErrorKind → BleError
  | .authenticationCanceled => .auth "authentication-canceled"
  | .authenticationFailed => .auth "authentication-failed"
  | .authenticationRejected => .auth "authentication-rejected"
  | .authenticationTimeout => .auth "authentication-timeout"
  | .notAuthorized => .auth "not-authorized"
  | .alreadyConnected => .contention "already-connected"
  | .alreadyExists => .contention "already-exists"
  | .inProgress => .contention "in-progress"
  | .notPermitted => .contention "not-permitted"
  | .discoveryActive => .contention "discovery-active"
  | .doesNotExist => .deviceNotFound "<address>"
  | .notFound => .deviceNotFound "<address>"
  | .connectionAttemptFailed => .other "connection-attempt-failed"
  | .servicesUnresolved => .other "services-unresolved"
  | .notificationSessionStopped => .notificationStopped
  | .indicationUnconfirmed => .other "indication-unconfirmed"
  | .notReady => .other "not-ready"
  | .notSupported => .notSupported "bluer-operation"
  | .notAvailable => .other "not-available"
  | .failed => .other "failed"
  | .invalidArguments => .other "invalid-arguments"
  | .invalidLength => .other "invalid-length"
  | .invalidOffset => .other "invalid-offset"
  | .invalidAddress => .other "invalid-address"
  | .invalidName => .other "invalid-name"
  | .notRegistered => .other "not-registered"
  | .advertisementMonitorRejected => .other "advertisement-monitor-rejected"
  | .dbusConnectionLost => .dbus "connection-lost"
  | .dbusError => .dbus "dbus-error"
  | .internalIo => .other "io"
  | .internal => .other "internal"
  | .unclassified => .other "unclassified"

/-- The answer to a call; none came before the deadline if there is none. -/
abbrev Answer (α : Type) := Option (Except ErrorKind α)

/-- A call under a deadline (`timeout.rs`). -/
def bounded {α : Type} (operation : String) : Answer α → Except BleError α
  | none => .error (.timeout operation)
  | some (.error kind) => .error (classifyBluerKind kind)
  | some (.ok a) => .ok a

/-! ## One device -/

/-- What BlueZ answers about a device while it is inspected once. -/
structure DeviceAnswers where
  address : Address
  device : Except ErrorKind Unit
  aliasName : Answer String
  name : Answer (Option String)
  paired : Answer Bool
  uuids : Answer (Option (List Uuid))
  manufacturerData : Answer (Option (List (UInt16 × List UInt8)))

/-- A device candidate observed during resolution. -/
structure Candidate where
  device : Address
  matched : Bool
  bonded : Bool
  evidence : Bool
  deriving DecidableEq

/-- The text of a selector in errors; an address is never shown. -/
def DeviceSelector.describe (selector : DeviceSelector) : String :=
  selector.aliasName.getD "<configured address>"

def eqIgnoreAsciiCase (s t : String) : Bool :=
  s.toList.map Char.toLower = t.toList.map Char.toLower

/-- The configured alias, if it is not blank. -/
def DeviceSelector.aliasWanted (selector : DeviceSelector) : Option String :=
  (selector.aliasName.map trim).filter fun want => want ≠ ""

/-- The identity of a device is the configured one. -/
def selectorMatches (aliasName : String) (name : Option String) (address : Address)
    (selector : DeviceSelector) : Bool :=
  let aliasHit := selector.aliasWanted.any fun want => eqIgnoreAsciiCase (trim aliasName) want
  let nameHit := selector.aliasWanted.any fun want =>
    name.any fun name => eqIgnoreAsciiCase (trim name) want
  let addressHit := selector.address.any fun want => want = address
  match selector.aliasWanted.isSome, selector.address.isSome with
  | true, true => (aliasHit || nameHit) && addressHit
  | true, false => aliasHit || nameHit
  | false, _ => addressHit

def evidenceOk (uuids : List Uuid) (manufacturerData : List (UInt16 × List UInt8)) : Bool :=
  hasVictronServiceEvidence uuids || hasVictronManufacturerEvidence manufacturerData

section

variable (selector : DeviceSelector)

/-- The device has the configured address. -/
def DeviceAnswers.isTarget (d : DeviceAnswers) : Bool := selector.address.any fun want =>
  want = d.address

/-- The alias. Nothing is read of a device that is not the target and has none to read. -/
def readAlias (d : DeviceAnswers) : Except BleError (Option String) :=
  match bounded "device-alias" d.aliasName with
  | .ok aliasName => .ok (some aliasName)
  | .error e => if d.isTarget selector then .error e else .ok none

/-- The name, which only the target must have. -/
def readName (d : DeviceAnswers) : Except BleError (Option String) :=
  match bounded "device-name" d.name with
  | .ok name => .ok name
  | .error e => if d.isTarget selector then .error e else .ok none

/-- The properties of a device that is the configured one. -/
def readMatched (d : DeviceAnswers) : Except BleError Candidate := do
  let bonded ← bounded "device-paired" d.paired
  let uuids ← bounded "device-uuids" d.uuids
  let manufacturerData ← bounded "device-manufacturer-data" d.manufacturerData
  .ok ⟨d.address, true, bonded, evidenceOk (uuids.getD []) (manufacturerData.getD [])⟩

/-- Compare the identity of a device, and read the rest of it if it is the configured one. -/
def inspectNamed (d : DeviceAnswers) (aliasName : String) :
    Except BleError (Option Candidate) := do
  let name ← readName selector d
  if selectorMatches aliasName name d.address selector then
    let candidate ← readMatched d
    .ok (some candidate)
  else .ok none

/-- Read a device and classify it against the selector. A device that cannot be read is skipped,
unless it is the configured one. -/
def inspect (d : DeviceAnswers) : Except BleError (Option Candidate) := do
  d.device.mapError classifyBluerKind
  match ← readAlias selector d with
  | none => .ok none
  | some aliasName => inspectNamed selector d aliasName

/-! ## The choice -/

/-- The first candidate that is matched, bonded and shows evidence; without one, the first that is
matched and bonded, if evidence is not required. -/
def choose (candidates : List Candidate) (requireEvidence : Bool) : Except BleError Address :=
  match candidates.find? fun c => c.matched && c.bonded && c.evidence with
  | some c => .ok c.device
  | none =>
      match candidates.find? fun c => c.matched && c.bonded with
      | some c => if requireEvidence then .error (.noVictronEvidence selector.describe)
          else .ok c.device
      | none =>
          if candidates.any fun c => c.matched && !c.bonded then
            .error (.notBonded selector.describe)
          else .error (.deviceNotFound selector.describe)

/-- An event of the scan, with the answers about a device that is added. -/
inductive AdapterEvent where
  | deviceAdded (d : DeviceAnswers)
  | other

/-- What BlueZ answers while a device is resolved. `scanned` is what the scan reports before its
deadline or its end. -/
structure DiscoveryAnswers where
  known : Answer (List DeviceAnswers)
  scanned : Answer (List AdapterEvent)
  refreshed : Answer (List DeviceAnswers)

/-- Inspect devices one after the other. -/
def inspectAll : List DeviceAnswers → Except BleError (List Candidate)
  | [] => .ok []
  | d :: ds => do
      let found ← inspect selector d
      let candidates ← inspectAll ds
      .ok (found.toList ++ candidates)

/-- The scan: every device that is added and not yet `seen` is inspected. -/
def scan (requireEvidence : Bool) :
    List Address → List Candidate → List AdapterEvent → Except BleError (Option Address)
  | _, _, [] => .ok none
  | seen, candidates, .other :: events => scan requireEvidence seen candidates events
  | seen, candidates, .deviceAdded d :: events =>
      if d.address ∈ seen then scan requireEvidence seen candidates events
      else do
        match ← inspect selector d with
        | none => scan requireEvidence (d.address :: seen) candidates events
        | some c =>
            match choose selector (candidates ++ [c]) requireEvidence with
            | .ok device => .ok (some device)
            | .error _ => scan requireEvidence (d.address :: seen) (candidates ++ [c]) events

/-- A fresh choice among the devices that are known once the scan is over. -/
def resolveRefreshed (requireEvidence : Bool) (answers : DiscoveryAnswers) :
    Except BleError Address := do
  let devices ← bounded "device-addresses-refresh" answers.refreshed
  let refreshed ← inspectAll selector devices
  choose selector refreshed requireEvidence

/-- What is left to do if the known devices do not resolve. -/
def resolveByScan (requireEvidence : Bool) (answers : DiscoveryAnswers)
    (known : List DeviceAnswers) (candidates : List Candidate) : Except BleError Address := do
  let events ← bounded "discovery-start" answers.scanned
  match ← scan selector requireEvidence (known.map DeviceAnswers.address) candidates events with
  | some device => .ok device
  | none => resolveRefreshed selector requireEvidence answers

/-- Resolve the configured bonded device: among those known to the adapter, by a bounded scan, and
among those known after it. -/
def resolveDevice (requireEvidence : Bool) (answers : DiscoveryAnswers) :
    Except BleError Address := do
  let known ← bounded "device-addresses" answers.known
  let candidates ← inspectAll selector known
  match choose selector candidates requireEvidence with
  | .ok device => .ok device
  | .error _ => resolveByScan selector requireEvidence answers known candidates

end

/-! ## What is said of a device -/

section

variable (selector : DeviceSelector) (requireEvidence : Bool)

/-- The identity that was read of the device is the configured one. -/
def DeviceAnswers.Identified (d : DeviceAnswers) : Prop :=
  ∃ aliasName name, d.aliasName = some (.ok aliasName) ∧ readName selector d = .ok name ∧
    selectorMatches aliasName name d.address selector = true

/-- The device is advertised as one of the manufacturer. -/
def DeviceAnswers.Evident (d : DeviceAnswers) : Prop :=
  ∃ uuids manufacturerData, d.uuids = some (.ok uuids) ∧
    d.manufacturerData = some (.ok manufacturerData) ∧
    evidenceOk (uuids.getD []) (manufacturerData.getD []) = true

/-- The device may be connected to. -/
structure DeviceAnswers.Eligible (d : DeviceAnswers) : Prop where
  identified : d.Identified selector
  bonded : d.paired = some (.ok true)
  evident : requireEvidence = true → d.Evident

/-- The devices that a scan inspects. -/
def fresh : List Address → List AdapterEvent → List DeviceAnswers
  | _, [] => []
  | seen, .other :: events => fresh seen events
  | seen, .deviceAdded d :: events =>
      if d.address ∈ seen then fresh seen events else d :: fresh (d.address :: seen) events

/-- A choice is made among these devices: the known ones, those with what the scan has brought so
far, or those known after it. -/
inductive Round (answers : DiscoveryAnswers) : List DeviceAnswers → Prop where
  | known {known : List DeviceAnswers} (hknown : answers.known = some (.ok known)) :
      Round answers known
  | scanned {known : List DeviceAnswers} (events later : List AdapterEvent)
      (hknown : answers.known = some (.ok known))
      (hscanned : answers.scanned = some (.ok (events ++ later))) :
      Round answers (known ++ fresh (known.map DeviceAnswers.address) events)
  | refreshed {refreshed : List DeviceAnswers}
      (hrefreshed : answers.refreshed = some (.ok refreshed)) : Round answers refreshed

/-- The device is chosen among those of a round: it is eligible, and if it shows no evidence, no
eligible one does. No other device than that at the configured address is ever chosen. -/
structure Chosen (round : List DeviceAnswers) (device : Address) : Prop where
  eligible : ∃ d ∈ round, d.address = device ∧ d.Eligible selector requireEvidence ∧
    (d.Evident ∨ ∀ d' ∈ round, d'.Eligible selector requireEvidence → ¬ d'.Evident)
  configured : ∀ want, selector.address = some want → device = want

/-- Why no device is chosen among these. -/
inductive Refused (devices : List DeviceAnswers) : BleError → Prop where
  | notFound (hnone : ∀ d ∈ devices, ¬ d.Identified selector) :
      Refused devices (.deviceNotFound selector.describe)
  | notBonded (hsome : ∃ d ∈ devices, d.Identified selector)
      (hnone : ∀ d ∈ devices, d.Identified selector → d.paired = some (.ok false)) :
      Refused devices (.notBonded selector.describe)
  | noEvidence (hrequired : requireEvidence = true)
      (hsome : ∃ d ∈ devices, d.Identified selector ∧ d.paired = some (.ok true))
      (hnone : ∀ d ∈ devices, d.Identified selector → d.paired = some (.ok true) →
        ¬ d.Evident) :
      Refused devices (.noVictronEvidence selector.describe)

/-- The read of a device that ends the resolution: of the device at the configured address, or of
one with the configured identity, but for a device that BlueZ gives no handle of. -/
structure Blamed (d : DeviceAnswers) (e : BleError) : Prop where
  failed : inspect selector d = .error e
  configured : d.isTarget selector = true ∨ d.Identified selector ∨
    ∃ kind, d.device = .error kind ∧ e = classifyBluerKind kind

/-- What a resolution may end with. -/
inductive Explained (answers : DiscoveryAnswers) : Except BleError Address → Prop where
  | chosen {round : List DeviceAnswers} {device : Address} (hround : Round answers round)
      (hchosen : Chosen selector requireEvidence round device) : Explained answers (.ok device)
  /-- Every device was inspected, and none was eligible: those known after the scan say why. -/
  | refused {known refreshed : List DeviceAnswers} {events : List AdapterEvent} {e : BleError}
      (hknown : answers.known = some (.ok known)) (hscanned : answers.scanned = some (.ok events))
      (hrefreshed : answers.refreshed = some (.ok refreshed))
      (hrefused : Refused selector requireEvidence refreshed e)
      (hnone : ∀ d ∈ known ++ fresh (known.map DeviceAnswers.address) events,
        ¬ d.Eligible selector requireEvidence) : Explained answers (.error e)
  | blamed {round : List DeviceAnswers} {d : DeviceAnswers} {e : BleError}
      (hround : Round answers round) (hd : d ∈ round) (hblamed : Blamed selector d e) :
      Explained answers (.error e)
  /-- A call that is about no device has failed. -/
  | failed {e : BleError} (hfailed : bounded "device-addresses" answers.known = .error e ∨
      bounded "discovery-start" answers.scanned = .error e ∨
      bounded "device-addresses-refresh" answers.refreshed = .error e) :
      Explained answers (.error e)

end

/-! ## One inspection -/

section

variable {selector : DeviceSelector} {requireEvidence : Bool} {d : DeviceAnswers}
  {candidates : List Candidate} {c : Candidate} {e : BleError}

theorem bounded_ok {α : Type} {operation : String} {answer : Answer α} {a : α} :
    bounded operation answer = .ok a ↔ answer = some (.ok a) := by
  rcases answer with _ | kind | b
  · simp [bounded]
  · simp [bounded]
  · simp [bounded]

/-- A device with another address never has the configured identity. -/
theorem selectorMatches_address {aliasName : String} {name : Option String} {address want : Address}
    (hmatches : selectorMatches aliasName name address selector = true)
    (hwant : selector.address = some want) : address = want := by
  unfold selectorMatches at hmatches
  rw [hwant] at hmatches
  rcases h : selector.aliasWanted.isSome
  · simp only [h, Option.isSome_some, Option.any_some, decide_eq_true_eq] at hmatches
    exact hmatches.symm
  · simp only [h, Option.isSome_some, Option.any_some, Bool.and_eq_true,
      decide_eq_true_eq] at hmatches
    exact hmatches.2.symm

theorem readAlias_some {aliasName : String} (h : readAlias selector d = .ok (some aliasName)) :
    d.aliasName = some (.ok aliasName) := by
  unfold readAlias at h
  rcases halias : bounded "device-alias" d.aliasName with e | name
  · by_cases htarget : d.isTarget selector = true
    · simp [halias, htarget] at h
    · simp [halias, htarget] at h
  · simp only [halias, Except.ok.injEq, Option.some.injEq] at h
    rw [← h]
    exact bounded_ok.mp halias

theorem readAlias_error (h : readAlias selector d = .error e) : d.isTarget selector = true := by
  unfold readAlias at h
  rcases halias : bounded "device-alias" d.aliasName with e' | name
  · by_cases htarget : d.isTarget selector = true
    · exact htarget
    · simp [halias, htarget] at h
  · simp [halias] at h

theorem readName_error (h : readName selector d = .error e) : d.isTarget selector = true := by
  unfold readName at h
  rcases hname : bounded "device-name" d.name with e' | name
  · by_cases htarget : d.isTarget selector = true
    · exact htarget
    · simp [hname, htarget] at h
  · simp [hname] at h

theorem readMatched_ok (h : readMatched d = .ok c) :
    c.device = d.address ∧ c.matched = true ∧ d.paired = some (.ok c.bonded) ∧
      (c.evidence = true ↔ d.Evident) := by
  simp only [readMatched, except_bind_ok, bounded_ok, Except.ok.injEq] at h
  obtain ⟨bonded, hbonded, uuids, huuids, data, hdata, rfl⟩ := h
  refine ⟨rfl, rfl, hbonded, fun h => ⟨uuids, data, huuids, hdata, h⟩, ?_⟩
  rintro ⟨uuids', data', huuids', hdata', h⟩
  rw [huuids, Option.some.injEq, Except.ok.injEq] at huuids'
  rw [hdata, Option.some.injEq, Except.ok.injEq] at hdata'
  rw [huuids', hdata']
  exact h

/-- An inspection that reads a candidate has identified it, and has read the rest of it. -/
theorem inspect_some (h : inspect selector d = .ok (some c)) :
    d.Identified selector ∧ readMatched d = .ok c := by
  simp only [inspect, except_bind_ok] at h
  obtain ⟨_, -, found, halias, h⟩ := h
  cases found with
  | none => cases h
  | some aliasName =>
      simp only [inspectNamed, except_bind_ok] at h
      obtain ⟨name, hname, h⟩ := h
      by_cases hmatches : selectorMatches aliasName name d.address selector = true
      · simp only [hmatches, if_true, except_bind_ok, Except.ok.injEq, Option.some.injEq] at h
        obtain ⟨candidate, hread, rfl⟩ := h
        exact ⟨⟨aliasName, name, readAlias_some halias, hname, hmatches⟩, hread⟩
      · simp [hmatches] at h

/-- An inspection that passes a device over has not identified it. -/
theorem inspect_none (h : inspect selector d = .ok none) : ¬ d.Identified selector := by
  rintro ⟨aliasName, name, halias, hname, hmatches⟩
  have hread : readAlias selector d = .ok (some aliasName) := by
    rw [readAlias, bounded_ok.mpr halias]
  simp only [inspect, except_bind_ok, hread, Except.ok.injEq] at h
  obtain ⟨_, -, found, rfl, h⟩ := h
  simp only [inspectNamed, except_bind_ok, hname, Except.ok.injEq] at h
  obtain ⟨_, rfl, h⟩ := h
  rw [if_pos hmatches, except_bind_ok] at h
  obtain ⟨_, -, h⟩ := h
  cases h

/-- Only the configured device can end the resolution, or one without a handle. -/
theorem inspect_error (h : inspect selector d = .error e) : Blamed selector d e := by
  refine ⟨h, ?_⟩
  rw [inspect, except_bind_error] at h
  rcases h with h | ⟨_, -, h⟩
  · rcases hdevice : d.device with kind | _
    · rw [hdevice] at h
      cases h
      exact Or.inr (Or.inr ⟨kind, rfl, rfl⟩)
    · rw [hdevice] at h
      cases h
  · rw [except_bind_error] at h
    rcases h with h | ⟨found, halias, h⟩
    · exact Or.inl (readAlias_error h)
    · cases found with
      | none => cases h
      | some aliasName =>
          have h : inspectNamed selector d aliasName = .error e := h
          rw [inspectNamed, except_bind_error] at h
          rcases h with h | ⟨name, hname, h⟩
          · exact Or.inl (readName_error h)
          · by_cases hmatches : selectorMatches aliasName name d.address selector = true
            · exact Or.inr (Or.inl ⟨aliasName, name, readAlias_some halias, hname, hmatches⟩)
            · simp [hmatches] at h

/-! ## Candidates -/

/-- The candidates are what the inspection of these devices has given. -/
structure Inspected (selector : DeviceSelector) (devices : List DeviceAnswers)
    (candidates : List Candidate) : Prop where
  read : ∀ d ∈ devices, ∃ found, inspect selector d = .ok found
  mem : ∀ c, c ∈ candidates ↔ ∃ d ∈ devices, inspect selector d = .ok (some c)

theorem inspected_nil : Inspected selector [] [] := by
  constructor
  · simp
  · simp

theorem Inspected.append {devices devices' : List DeviceAnswers} {candidates' : List Candidate}
    (h : Inspected selector devices candidates) (h' : Inspected selector devices' candidates') :
    Inspected selector (devices ++ devices') (candidates ++ candidates') := by
  constructor
  · intro d hd
    rcases List.mem_append.mp hd with hd | hd
    · exact h.read d hd
    · exact h'.read d hd
  · intro c
    simp only [List.mem_append, h.mem, h'.mem]
    constructor
    · rintro (⟨d, hd, hc⟩ | ⟨d, hd, hc⟩)
      · exact ⟨d, Or.inl hd, hc⟩
      · exact ⟨d, Or.inr hd, hc⟩
    · rintro ⟨d, hd | hd, hc⟩
      · exact Or.inl ⟨d, hd, hc⟩
      · exact Or.inr ⟨d, hd, hc⟩

theorem inspected_one {found : Option Candidate} (h : inspect selector d = .ok found) :
    Inspected selector [d] found.toList := by
  constructor
  · simp [h]
  · simp [h]

theorem inspectAll_ok {devices : List DeviceAnswers}
    (h : inspectAll selector devices = .ok candidates) :
    Inspected selector devices candidates := by
  induction devices generalizing candidates with
  | nil =>
      cases h
      exact inspected_nil
  | cons d ds ih =>
      simp only [inspectAll, except_bind_ok, Except.ok.injEq] at h
      obtain ⟨found, hfound, rest, hrest, rfl⟩ := h
      exact (inspected_one hfound).append (ih hrest)

theorem inspectAll_error {devices : List DeviceAnswers}
    (h : inspectAll selector devices = .error e) : ∃ d ∈ devices, Blamed selector d e := by
  induction devices with
  | nil => cases h
  | cons d ds ih =>
      rw [inspectAll, except_bind_error] at h
      rcases h with h | ⟨found, -, h⟩
      · exact ⟨d, by simp, inspect_error h⟩
      · rw [except_bind_error] at h
        rcases h with h | ⟨candidates, -, h⟩
        · obtain ⟨d', hd', hblamed⟩ := ih h
          exact ⟨d', List.mem_cons_of_mem d hd', hblamed⟩
        · cases h

/-- Every candidate is a device of the round, as it was read. -/
theorem Inspected.origin {devices : List DeviceAnswers}
    (h : Inspected selector devices candidates) (hc : c ∈ candidates) :
    ∃ d ∈ devices, c.device = d.address ∧ d.Identified selector ∧ c.matched = true ∧
      d.paired = some (.ok c.bonded) ∧ (c.evidence = true ↔ d.Evident) := by
  obtain ⟨d, hd, hinspect⟩ := (h.mem c).mp hc
  obtain ⟨hidentified, hread⟩ := inspect_some hinspect
  obtain ⟨hdevice, hmatched, hpaired, hevidence⟩ := readMatched_ok hread
  exact ⟨d, hd, hdevice, hidentified, hmatched, hpaired, hevidence⟩

/-- Every device of the round that has the configured identity is a candidate. -/
theorem Inspected.candidate {devices : List DeviceAnswers}
    (h : Inspected selector devices candidates) (hd : d ∈ devices)
    (hidentified : d.Identified selector) :
    ∃ c ∈ candidates, c.device = d.address ∧ c.matched = true ∧ d.paired = some (.ok c.bonded) ∧
      (c.evidence = true ↔ d.Evident) := by
  obtain ⟨found, hfound⟩ := h.read d hd
  cases found with
  | none => exact absurd hidentified (inspect_none hfound)
  | some c =>
      obtain ⟨-, hread⟩ := inspect_some hfound
      exact ⟨c, (h.mem c).mpr ⟨d, hd, hfound⟩, readMatched_ok hread⟩

/-! ## The choice among candidates -/

theorem choose_ok {device : Address}
    (h : choose selector candidates requireEvidence = .ok device) :
    ∃ c ∈ candidates, c.device = device ∧ c.bonded = true ∧
      (requireEvidence = true → c.evidence = true) ∧
      (c.evidence = true ∨ ∀ c' ∈ candidates, c'.matched = true → c'.bonded = true →
        c'.evidence = false) := by
  unfold choose at h
  split at h
  · next c hfind =>
      have hc := List.find?_some hfind
      simp only [Bool.and_eq_true] at hc
      cases h
      exact ⟨c, List.mem_of_find?_eq_some hfind, rfl, hc.1.2, fun _ => hc.2, Or.inl hc.2⟩
  · next hnone =>
      split at h
      · next c hfind =>
          have hc := List.find?_some hfind
          simp only [Bool.and_eq_true] at hc
          by_cases hrequired : requireEvidence = true
          · simp [hrequired] at h
          · simp only [hrequired, Bool.false_eq_true, if_false, Except.ok.injEq] at h
            refine ⟨c, List.mem_of_find?_eq_some hfind, h, hc.2,
              fun hr => absurd hr hrequired, Or.inr fun c' hc' hmatched hbonded => ?_⟩
            have hnot := List.find?_eq_none.mp hnone c' hc'
            simpa [hmatched, hbonded] using hnot
      · split at h
        · cases h
        · cases h

/-- Without a choice the candidates say why. -/
theorem choose_error (h : choose selector candidates requireEvidence = .error e) :
    (e = .noVictronEvidence selector.describe ∧ requireEvidence = true ∧
      (∃ c ∈ candidates, c.matched = true ∧ c.bonded = true) ∧
      ∀ c ∈ candidates, c.matched = true → c.bonded = true → c.evidence = false) ∨
    (e = .notBonded selector.describe ∧ (∃ c ∈ candidates, c.matched = true) ∧
      ∀ c ∈ candidates, c.matched = true → c.bonded = false) ∨
    (e = .deviceNotFound selector.describe ∧ ∀ c ∈ candidates, c.matched = false) := by
  unfold choose at h
  split at h
  · cases h
  · next hevident =>
      split at h
      · next c hfind =>
          have hc := List.find?_some hfind
          simp only [Bool.and_eq_true] at hc
          by_cases hrequired : requireEvidence = true
          · simp only [hrequired, if_true, Except.error.injEq] at h
            refine Or.inl ⟨h.symm, hrequired, ⟨c, List.mem_of_find?_eq_some hfind, hc⟩,
              fun c' hc' hmatched hbonded => ?_⟩
            have hnot := List.find?_eq_none.mp hevident c' hc'
            simpa [hmatched, hbonded] using hnot
          · simp [hrequired] at h
      · next hbonded =>
          have hunbonded : ∀ c ∈ candidates, c.matched = true → c.bonded = false := by
            intro c hc hmatched
            have hnot := List.find?_eq_none.mp hbonded c hc
            simpa [hmatched] using hnot
          right
          split at h
          · next hany =>
              obtain ⟨c, hc, hcond⟩ := List.any_eq_true.mp hany
              simp only [Bool.and_eq_true] at hcond
              cases h
              exact Or.inl ⟨rfl, ⟨c, hc, hcond.1⟩, hunbonded⟩
          · next hany =>
              cases h
              refine Or.inr ⟨rfl, fun c hc => ?_⟩
              by_contra hmatched
              rw [Bool.not_eq_false] at hmatched
              exact hany (List.any_eq_true.mpr ⟨c, hc, by simp [hmatched, hunbonded c hc hmatched]⟩)

/-- The choice in terms of the devices. -/
theorem Inspected.chosen {devices : List DeviceAnswers} {device : Address}
    (h : Inspected selector devices candidates)
    (hchoose : choose selector candidates requireEvidence = .ok device) :
    Chosen selector requireEvidence devices device := by
  obtain ⟨c, hc, rfl, hbonded, hevidence, hbest⟩ := choose_ok hchoose
  obtain ⟨d, hd, hdevice, hidentified, -, hpaired, hevident⟩ := h.origin hc
  have heligible : d.Eligible selector requireEvidence :=
    ⟨hidentified, by rw [hpaired, hbonded], fun hr => hevident.mp (hevidence hr)⟩
  refine ⟨⟨d, hd, hdevice.symm, heligible, ?_⟩, fun want hwant => ?_⟩
  swap
  · obtain ⟨aliasName, name, -, -, hmatches⟩ := hidentified
    rw [hdevice, selectorMatches_address hmatches hwant]
  rcases hbest with hbest | hbest
  · exact Or.inl (hevident.mp hbest)
  · right
    intro d' hd' heligible hevident'
    obtain ⟨c', hc', -, hmatched, hpaired', hiff⟩ := h.candidate hd' heligible.identified
    rw [heligible.bonded, Option.some.injEq, Except.ok.injEq] at hpaired'
    have hfalse := hbest c' hc' hmatched hpaired'.symm
    rw [hiff.mpr hevident'] at hfalse
    cases hfalse

theorem Inspected.refused {devices : List DeviceAnswers}
    (h : Inspected selector devices candidates)
    (hchoose : choose selector candidates requireEvidence = .error e) :
    Refused selector requireEvidence devices e := by
  rcases choose_error hchoose with ⟨rfl, hrequired, hsome, hnone⟩ | ⟨rfl, hsome, hnone⟩ |
    ⟨rfl, hnone⟩
  · obtain ⟨c, hc, hmatched, hbonded⟩ := hsome
    obtain ⟨d, hd, -, hidentified, -, hpaired, -⟩ := h.origin hc
    rw [hbonded] at hpaired
    refine .noEvidence hrequired ⟨d, hd, hidentified, hpaired⟩
      fun d' hd' hidentified' hpaired' hevident' => ?_
    obtain ⟨c', hc', -, hmatched', hbonded', hiff⟩ := h.candidate hd' hidentified'
    rw [hpaired', Option.some.injEq, Except.ok.injEq] at hbonded'
    have hfalse := hnone c' hc' hmatched' hbonded'.symm
    rw [hiff.mpr hevident'] at hfalse
    cases hfalse
  · obtain ⟨c, hc, hmatched⟩ := hsome
    obtain ⟨d, hd, -, hidentified, -⟩ := h.origin hc
    refine .notBonded ⟨d, hd, hidentified⟩ fun d' hd' hidentified' => ?_
    obtain ⟨c', hc', -, hmatched', hpaired', -⟩ := h.candidate hd' hidentified'
    rw [hpaired', hnone c' hc' hmatched']
  · refine .notFound fun d hd hidentified => ?_
    obtain ⟨c, hc, -, hmatched, -⟩ := h.candidate hd hidentified
    rw [hnone c hc] at hmatched
    cases hmatched

/-- Where there is no choice, no device is eligible. -/
theorem Refused.not_eligible {devices : List DeviceAnswers}
    (h : Refused selector requireEvidence devices e) (hd : d ∈ devices) :
    ¬ d.Eligible selector requireEvidence := by
  intro heligible
  cases h with
  | notFound hnone => exact hnone d hd heligible.identified
  | notBonded hsome hnone =>
      have hpaired := hnone d hd heligible.identified
      rw [heligible.bonded] at hpaired
      cases hpaired
  | noEvidence hrequired hsome hnone =>
      exact hnone d hd heligible.identified heligible.bonded (heligible.evident hrequired)

/-! ## The scan -/

/-- What is scanned is new each time. -/
theorem fresh_new (seen : List Address) (events : List AdapterEvent) :
    ((fresh seen events).map DeviceAnswers.address).Nodup ∧
      ∀ d ∈ fresh seen events, d.address ∉ seen := by
  induction events generalizing seen with
  | nil => simp [fresh]
  | cons event events ih =>
      cases event with
      | other => exact ih seen
      | deviceAdded d =>
          by_cases hseen : d.address ∈ seen
          · rw [fresh, if_pos hseen]
            exact ih seen
          · rw [fresh, if_neg hseen]
            obtain ⟨hnodup, hnew⟩ := ih (d.address :: seen)
            refine ⟨?_, fun d' hd' => ?_⟩
            · rw [List.map_cons, List.nodup_cons]
              refine ⟨fun hmem => ?_, hnodup⟩
              obtain ⟨d', hd', haddress⟩ := List.mem_map.mp hmem
              exact hnew d' hd' (by simp [haddress])
            · rcases List.mem_cons.mp hd' with rfl | hd'
              · exact hseen
              · exact fun h => hnew d' hd' (List.mem_cons_of_mem _ h)

/-- How a scan ends, with what it has inspected. -/
inductive ScanEnd (selector : DeviceSelector) (requireEvidence : Bool)
    (devices : List DeviceAnswers) (seen : List Address) (events : List AdapterEvent) :
    Except BleError (Option Address) → Prop where
  | chosen (before later : List AdapterEvent) {device : Address}
      (hevents : events = before ++ later)
      (hchosen : Chosen selector requireEvidence (devices ++ fresh seen before) device) :
      ScanEnd selector requireEvidence devices seen events (.ok (some device))
  | ended (hnone : ∀ d ∈ devices ++ fresh seen events, ¬ d.Eligible selector requireEvidence) :
      ScanEnd selector requireEvidence devices seen events (.ok none)
  | blamed {d : DeviceAnswers} {e : BleError} (hd : d ∈ fresh seen events)
      (hblamed : Blamed selector d e) :
      ScanEnd selector requireEvidence devices seen events (.error e)

/-- An event that adds these devices to those inspected. -/
theorem ScanEnd.cons {devices : List DeviceAnswers} {seen : List Address}
    {event : AdapterEvent} {events : List AdapterEvent} {r : Except BleError (Option Address)}
    (added : List DeviceAnswers) (seen' : List Address)
    (hfresh : ∀ later, fresh seen (event :: later) = added ++ fresh seen' later)
    (h : ScanEnd selector requireEvidence (devices ++ added) seen' events r) :
    ScanEnd selector requireEvidence devices seen (event :: events) r := by
  cases h with
  | chosen before later hevents hchosen =>
      refine .chosen (event :: before) later (by rw [hevents, List.cons_append]) ?_
      rw [hfresh, ← List.append_assoc]
      exact hchosen
  | ended hnone =>
      refine .ended ?_
      rw [hfresh, ← List.append_assoc]
      exact hnone
  | blamed hd hblamed =>
      refine .blamed ?_ hblamed
      rw [hfresh]
      exact List.mem_append_right added hd

/-- The scan, by induction on its events: what is inspected so far has given no device. -/
theorem scan_end {devices : List DeviceAnswers} (h : Inspected selector devices candidates)
    (hnone : ∃ e, choose selector candidates requireEvidence = .error e) (seen : List Address)
    (events : List AdapterEvent) :
    ScanEnd selector requireEvidence devices seen events
      (scan selector requireEvidence seen candidates events) := by
  induction events generalizing devices candidates seen with
  | nil =>
      obtain ⟨e, he⟩ := hnone
      refine .ended fun d hd => ?_
      rw [fresh, List.append_nil] at hd
      exact (h.refused he).not_eligible hd
  | cons event events ih =>
      cases event with
      | other =>
          exact .cons [] seen (fun _ => rfl) (by rw [List.append_nil]; exact ih h hnone seen)
      | deviceAdded d =>
          by_cases hseen : d.address ∈ seen
          · rw [scan, if_pos hseen]
            refine .cons [] seen (fun later => ?_) ?_
            · rw [fresh, if_pos hseen, List.nil_append]
            · rw [List.append_nil]
              exact ih h hnone seen
          · rw [scan, if_neg hseen]
            have hfresh : ∀ later, fresh seen (.deviceAdded d :: later) =
                [d] ++ fresh (d.address :: seen) later := by
              intro later
              rw [fresh, if_neg hseen, List.singleton_append]
            rcases hinspect : inspect selector d with e | found
            · refine .blamed ?_ (inspect_error hinspect)
              rw [hfresh]
              simp
            have hone := inspected_one hinspect
            simp only [bind, Except.bind]
            cases found with
            | none =>
                have hadded := h.append hone
                rw [Option.toList_none, List.append_nil] at hadded
                exact .cons [d] (d.address :: seen) hfresh (ih hadded hnone _)
            | some c =>
                have hadded := h.append hone
                rw [Option.toList_some] at hadded
                rcases hchoose : choose selector (candidates ++ [c]) requireEvidence with e | device
                · simp only [hchoose]
                  exact .cons [d] (d.address :: seen) hfresh (ih hadded ⟨e, hchoose⟩ _)
                · simp only [hchoose]
                  refine .cons [d] (d.address :: seen) hfresh
                    (.chosen [] events (List.nil_append _).symm ?_)
                  rw [fresh, List.append_nil]
                  exact hadded.chosen hchoose

/-! ## The resolution -/

theorem resolveRefreshed_explained {answers : DiscoveryAnswers} {known : List DeviceAnswers}
    {events : List AdapterEvent} (hknown : answers.known = some (.ok known))
    (hscanned : answers.scanned = some (.ok events))
    (hnone : ∀ d ∈ known ++ fresh (known.map DeviceAnswers.address) events,
      ¬ d.Eligible selector requireEvidence) :
    Explained selector requireEvidence answers
      (resolveRefreshed selector requireEvidence answers) := by
  unfold resolveRefreshed
  rcases hrefreshed : bounded "device-addresses-refresh" answers.refreshed with e | devices
  · exact .failed (Or.inr (Or.inr hrefreshed))
  rw [bounded_ok] at hrefreshed
  simp only [bind, Except.bind]
  rcases hall : inspectAll selector devices with e | refreshed
  · obtain ⟨d, hd, hblamed⟩ := inspectAll_error hall
    exact .blamed (.refreshed hrefreshed) hd hblamed
  have hinspected := inspectAll_ok hall
  simp only
  rcases hchoose : choose selector refreshed requireEvidence with e | device
  · exact .refused hknown hscanned hrefreshed (hinspected.refused hchoose) hnone
  · exact .chosen (.refreshed hrefreshed) (hinspected.chosen hchoose)

theorem resolveByScan_explained {answers : DiscoveryAnswers} {known : List DeviceAnswers}
    (hknown : answers.known = some (.ok known)) (h : Inspected selector known candidates)
    (hnone : ∃ e, choose selector candidates requireEvidence = .error e) :
    Explained selector requireEvidence answers
      (resolveByScan selector requireEvidence answers known candidates) := by
  unfold resolveByScan
  rcases hscanned : bounded "discovery-start" answers.scanned with e | events
  · exact .failed (Or.inr (Or.inl hscanned))
  rw [bounded_ok] at hscanned
  simp only [bind, Except.bind]
  have hend := scan_end h hnone (known.map DeviceAnswers.address) events
  rcases hscan : scan selector requireEvidence (known.map DeviceAnswers.address) candidates events
    with e | _ | device
  · rw [hscan] at hend
    cases hend with
    | blamed hd hblamed =>
        refine .blamed (.scanned events [] hknown ?_) (List.mem_append_right known hd) hblamed
        rw [List.append_nil]
        exact hscanned
  · rw [hscan] at hend
    cases hend with
    | ended hineligible => exact resolveRefreshed_explained hknown hscanned hineligible
  · rw [hscan] at hend
    cases hend with
    | chosen before later hevents hchosen =>
        refine .chosen (.scanned before later hknown ?_) hchosen
        rw [← hevents]
        exact hscanned

end

/-- **The resolved device is the configured one**: whatever BlueZ answers, a device that is chosen
was read with the configured identity, bonded and, where that is required, with evidence. If none
is chosen, no device that was inspected was eligible, or a call failed that concerns the
configured device or none, or BlueZ gave no handle of a listed device. -/
theorem resolveDevice_explained (selector : DeviceSelector) (requireEvidence : Bool)
    (answers : DiscoveryAnswers) :
    Explained selector requireEvidence answers
      (resolveDevice selector requireEvidence answers) := by
  unfold resolveDevice
  rcases hknown : bounded "device-addresses" answers.known with e | known
  · exact .failed (Or.inl hknown)
  rw [bounded_ok] at hknown
  simp only [bind, Except.bind]
  rcases hall : inspectAll selector known with e | candidates
  · obtain ⟨d, hd, hblamed⟩ := inspectAll_error hall
    exact .blamed (.known hknown) hd hblamed
  have hinspected := inspectAll_ok hall
  simp only
  rcases hchoose : choose selector candidates requireEvidence with e | device
  · exact resolveByScan_explained hknown hinspected ⟨e, hchoose⟩
  · exact .chosen (.known hknown) (hinspected.chosen hchoose)

end VeSmart.Bluez
