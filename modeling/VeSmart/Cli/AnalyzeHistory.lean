import Mathlib.Data.Finset.Card
import VeSmart.Protocol.Control

set_option autoImplicit false

/-! # Comparing raw captures (`victron-cli/src/commands/analyze_history.rs`)

`analyze_register` shows twice where the payloads of a register differ: by the set of values at an
offset, and payload by payload. The first leaves out the payloads that an offset is not in, the
second takes a byte that comes or goes for a change; `views_agree_iff` says when this makes no
difference. -/

namespace VeSmart.Cli

open VeSmart.Protocol

structure Capture where
  source : String
  startedAtMs : UInt64
  completedAtMs : UInt64
  rows : UInt16 → Option (List UInt8)

structure Observation where
  capture : Capture
  raw : List UInt8

/-- What is reported of one observation. -/
structure Snapshot where
  capture : String
  captureStartedAtUnixMs : UInt64
  captureCompletedAtUnixMs : UInt64
  rawBytes : Nat
  rawSha256 : String
  raw : String
  wordsLe : List UInt16
  wordsBe : List UInt16
  changedByteOffsetsFromPrevious : List Nat

structure RegisterAnalysis where
  register : String
  observedCount : Nat
  missingCaptureCount : Nat
  distinctPayloadCount : Nat
  stableByteOffsets : List Nat
  changedByteOffsets : List Nat
  observations : List Snapshot

/-! ## The command -/

def hexDigit (n : Nat) : Char := "0123456789abcdef".toList.getD n '0'

/-- `hex::encode`. -/
def hexEncode (bytes : List UInt8) : String :=
  String.ofList (bytes.flatMap fun b => [hexDigit (b.toNat / 16), hexDigit (b.toNat % 16)])

/-- The bytes at an offset, of the observations that have one there. -/
def byteValues (observations : List Observation) (offset : Nat) : Finset UInt8 :=
  (observations.filterMap fun observation => observation.raw[offset]?).toFinset

def changedByteOffsets (before after : List UInt8) : List Nat :=
  (List.range (max before.length after.length)).filter fun offset =>
    before[offset]? ≠ after[offset]?

/-- The pairs of bytes as words; a last byte alone is left out. -/
def words (decode : UInt8 → UInt8 → UInt16) : List UInt8 → List UInt16
  | a :: b :: rest => decode a b :: words decode rest
  | _ => []

section

variable (sha256 : List UInt8 → List UInt8)

def snapshot (changed : List Nat) (observation : Observation) : Snapshot where
  capture := observation.capture.source
  captureStartedAtUnixMs := observation.capture.startedAtMs
  captureCompletedAtUnixMs := observation.capture.completedAtMs
  rawBytes := observation.raw.length
  rawSha256 := hexEncode (sha256 observation.raw)
  raw := hexEncode observation.raw
  wordsLe := words u16OfLeBytes observation.raw
  wordsBe := words (fun a b => u16OfLeBytes b a) observation.raw
  changedByteOffsetsFromPrevious := changed

/-- The snapshots, each compared with the payload before it. -/
def snapshots : Option (List UInt8) → List Observation → List Snapshot
  | _, [] => []
  | previous, observation :: rest =>
      let changed := (previous.map fun before => changedByteOffsets before observation.raw).getD []
      snapshot sha256 changed observation :: snapshots (some observation.raw) rest

/-- The observations of a register. -/
def observationsOf (register : UInt16) (captures : List Capture) : List Observation :=
  captures.filterMap fun capture => (capture.rows register).map fun raw => ⟨capture, raw⟩

def maxLen (observations : List Observation) : Nat :=
  (observations.map fun observation => observation.raw.length).foldr max 0

def analyzeRegister (register : UInt16) (captures : List Capture) : RegisterAnalysis :=
  let observations := observationsOf register captures
  let offsets := List.range (maxLen observations)
  { register := "0x" ++ hexEncode [(register >>> 8).toUInt8, register.toUInt8]
    observedCount := observations.length
    missingCaptureCount := captures.length - observations.length
    distinctPayloadCount := (observations.map fun observation => observation.raw).toFinset.card
    stableByteOffsets := offsets.filter fun offset => (byteValues observations offset).card = 1
    changedByteOffsets := offsets.filter fun offset => 1 < (byteValues observations offset).card
    observations := snapshots sha256 none observations }

end

/-! ## The two views -/

section

variable {sha256 : List UInt8 → List UInt8} {observations : List Observation} {offset : Nat}

/-- Some observation reports a change at the offset. -/
def ReportedAt (snapshots : List Snapshot) (offset : Nat) : Prop :=
  ∃ s ∈ snapshots, offset ∈ s.changedByteOffsetsFromPrevious

/-- Two payloads have different bytes at the offset. -/
def DiffersAt (observations : List Observation) (offset : Nat) : Prop :=
  ∃ a ∈ observations, ∃ b ∈ observations, ∃ x y, a.raw[offset]? = some x ∧
    b.raw[offset]? = some y ∧ x ≠ y

theorem mem_changedByteOffsets {before after : List UInt8} :
    offset ∈ changedByteOffsets before after ↔ before[offset]? ≠ after[offset]? := by
  simp only [changedByteOffsets, List.mem_filter, List.mem_range, decide_eq_true_eq,
    and_iff_right_iff_imp]
  -- beyond both there is nothing to differ
  intro hne
  by_contra hbeyond
  have hbefore : before[offset]? = none := List.getElem?_eq_none (by omega)
  have hafter : after[offset]? = none := List.getElem?_eq_none (by omega)
  exact hne (hbefore.trans hafter.symm)

theorem mem_byteValues {b : UInt8} :
    b ∈ byteValues observations offset ↔ ∃ o ∈ observations, o.raw[offset]? = some b := by
  simp [byteValues]

theorem byteValues_many : 1 < (byteValues observations offset).card ↔
    DiffersAt observations offset := by
  rw [Finset.one_lt_card]
  simp only [mem_byteValues]
  constructor
  · rintro ⟨x, ⟨a, ha, hx⟩, y, ⟨b, hb, hy⟩, hne⟩
    exact ⟨a, ha, b, hb, x, y, hx, hy, hne⟩
  · rintro ⟨a, ha, b, hb, x, y, hx, hy, hne⟩
    exact ⟨x, ⟨a, ha, hx⟩, y, ⟨b, hb, hy⟩, hne⟩

/-- After a payload, a change is reported exactly at the offsets at which some later payload is
not as that one. -/
theorem reported_after (before : List UInt8) :
    ReportedAt (snapshots sha256 (some before) observations) offset ↔
      ∃ o ∈ observations, o.raw[offset]? ≠ before[offset]? := by
  induction observations generalizing before with
  | nil => simp [ReportedAt, snapshots]
  | cons o rest ih =>
      have hsplit : ReportedAt (snapshots sha256 (some before) (o :: rest)) offset ↔
          before[offset]? ≠ o.raw[offset]? ∨
            ReportedAt (snapshots sha256 (some o.raw) rest) offset := by
        rw [← mem_changedByteOffsets]
        simp [ReportedAt, snapshots, snapshot]
      rw [hsplit, ih]
      by_cases hsame : o.raw[offset]? = before[offset]?
      · simp [hsame]
      · -- the next payload is the one that differs
        simp [hsame, Ne.symm hsame]

/-- The payload by payload view reports what is not the same in all payloads. -/
theorem reported_iff : ReportedAt (snapshots sha256 none observations) offset ↔
    ∃ a ∈ observations, ∃ b ∈ observations, a.raw[offset]? ≠ b.raw[offset]? := by
  cases observations with
  | nil => simp [ReportedAt, snapshots]
  | cons o rest =>
      have hfirst : ReportedAt (snapshots sha256 none (o :: rest)) offset ↔
          ReportedAt (snapshots sha256 (some o.raw) rest) offset := by
        simp [ReportedAt, snapshots, snapshot]
      rw [hfirst, reported_after]
      constructor
      · rintro ⟨b, hb, hne⟩
        exact ⟨b, List.mem_cons_of_mem _ hb, o, List.mem_cons_self, hne⟩
      · rintro ⟨a, ha, b, hb, hne⟩
        -- one of the two is not as the first
        by_contra hall
        push Not at hall
        have hsame : ∀ c ∈ o :: rest, c.raw[offset]? = o.raw[offset]? := by
          intro c hc
          rcases List.mem_cons.mp hc with rfl | hc
          · rfl
          · exact hall c hc
        exact hne ((hsame a ha).trans (hsame b hb).symm)

theorem lt_maxLen : offset < maxLen observations ↔ ∃ o ∈ observations, offset < o.raw.length := by
  induction observations with
  | nil => simp [maxLen]
  | cons o rest ih =>
      have hmax : maxLen (o :: rest) = max o.raw.length (maxLen rest) := rfl
      rw [hmax, lt_max_iff, ih]
      simp

theorem differs_lt (h : DiffersAt observations offset) : offset < maxLen observations := by
  obtain ⟨a, ha, -, -, x, -, hx, -⟩ := h
  obtain ⟨hlt, -⟩ := List.getElem?_eq_some_iff.mp hx
  exact lt_maxLen.mpr ⟨a, ha, hlt⟩

/-- An offset in some payload has one value or several. -/
theorem byteValues_one (h : offset < maxLen observations) :
    (byteValues observations offset).card = 1 ↔ ¬ DiffersAt observations offset := by
  obtain ⟨o, ho, hlt⟩ := lt_maxLen.mp h
  have hvalue : o.raw[offset] ∈ byteValues observations offset :=
    mem_byteValues.mpr ⟨o, ho, List.getElem?_eq_getElem hlt⟩
  have hpos : 0 < (byteValues observations offset).card := Finset.card_pos.mpr ⟨_, hvalue⟩
  rw [← byteValues_many]
  omega

theorem reported_of_differs (h : DiffersAt observations offset) :
    ReportedAt (snapshots sha256 none observations) offset := by
  obtain ⟨a, ha, b, hb, x, y, hx, hy, hne⟩ := h
  refine reported_iff.mpr ⟨a, ha, b, hb, fun hsame => hne ?_⟩
  rw [hx, hy] at hsame
  exact Option.some.inj hsame

/-- What only the payload by payload view reports: a byte that some payloads do not have. -/
theorem reported_cases (h : ReportedAt (snapshots sha256 none observations) offset) :
    DiffersAt observations offset ∨ ((∃ o ∈ observations, offset < o.raw.length) ∧
      ∃ o ∈ observations, o.raw.length ≤ offset) := by
  obtain ⟨a, ha, b, hb, hne⟩ := reported_iff.mp h
  by_cases hain : offset < a.raw.length
  · by_cases hbin : offset < b.raw.length
    · have hx := List.getElem?_eq_getElem hain
      have hy := List.getElem?_eq_getElem hbin
      rw [hx, hy] at hne
      exact Or.inl ⟨a, ha, b, hb, _, _, hx, hy, fun hsame => hne (congrArg some hsame)⟩
    · exact Or.inr ⟨⟨a, ha, hain⟩, ⟨b, hb, by omega⟩⟩
  · by_cases hbin : offset < b.raw.length
    · exact Or.inr ⟨⟨b, hb, hbin⟩, ⟨a, ha, by omega⟩⟩
    · -- neither has a byte there
      refine absurd ?_ hne
      rw [List.getElem?_eq_none (by omega), List.getElem?_eq_none (by omega)]

end

/-- The two views of a register agree: what changes by the sets of values is what some
observation reports, and the rest of the payloads is stable. -/
def ViewsAgree (a : RegisterAnalysis) : Prop :=
  (∀ offset, offset ∈ a.changedByteOffsets ↔ ReportedAt a.observations offset) ∧
  (∀ offset, offset ∈ a.stableByteOffsets ↔
    (∃ s ∈ a.observations, offset < s.rawBytes) ∧ ¬ ReportedAt a.observations offset)

/-- Where some payload is too short for an offset, the others differ there. -/
def TailsDiffer (observations : List Observation) : Prop :=
  ∀ offset, (∃ o ∈ observations, offset < o.raw.length) →
    (∃ o ∈ observations, o.raw.length ≤ offset) → DiffersAt observations offset

section

variable {sha256 : List UInt8 → List UInt8} {observations : List Observation} {offset : Nat}

theorem rawBytes_snapshots (previous : Option (List UInt8)) :
    (∃ s ∈ snapshots sha256 previous observations, offset < s.rawBytes) ↔
      ∃ o ∈ observations, offset < o.raw.length := by
  induction observations generalizing previous with
  | nil => simp [snapshots]
  | cons o rest ih => simp [snapshots, snapshot, ih]

theorem mem_changed {register : UInt16} {captures : List Capture} :
    offset ∈ (analyzeRegister sha256 register captures).changedByteOffsets ↔
      DiffersAt (observationsOf register captures) offset := by
  simp only [analyzeRegister, List.mem_filter, List.mem_range, decide_eq_true_eq,
    byteValues_many]
  exact ⟨fun h => h.2, fun h => ⟨differs_lt h, h⟩⟩

theorem mem_stable {register : UInt16} {captures : List Capture} :
    offset ∈ (analyzeRegister sha256 register captures).stableByteOffsets ↔
      (∃ o ∈ observationsOf register captures, offset < o.raw.length) ∧
        ¬ DiffersAt (observationsOf register captures) offset := by
  simp only [analyzeRegister, List.mem_filter, List.mem_range, decide_eq_true_eq]
  rw [← lt_maxLen]
  constructor
  · rintro ⟨hlt, hone⟩
    exact ⟨hlt, (byteValues_one hlt).mp hone⟩
  · rintro ⟨hlt, hsame⟩
    exact ⟨hlt, (byteValues_one hlt).mpr hsame⟩

end

/-- **When the two views agree**, for every register and every sequence of captures. -/
theorem views_agree_iff (sha256 : List UInt8 → List UInt8) (register : UInt16)
    (captures : List Capture) :
    ViewsAgree (analyzeRegister sha256 register captures) ↔
      TailsDiffer (observationsOf register captures) := by
  have hreports : (analyzeRegister sha256 register captures).observations =
      snapshots sha256 none (observationsOf register captures) := rfl
  simp only [ViewsAgree, mem_changed, mem_stable, hreports, rawBytes_snapshots]
  constructor
  · rintro ⟨hchanged, -⟩ offset ⟨a, ha, hlong⟩ ⟨b, hb, hshort⟩
    refine (hchanged offset).mpr (reported_iff.mpr ⟨a, ha, b, hb, ?_⟩)
    rw [List.getElem?_eq_getElem hlong, List.getElem?_eq_none hshort]
    simp
  · intro htails
    have hsame : ∀ offset, DiffersAt (observationsOf register captures) offset ↔
        ReportedAt (snapshots sha256 none (observationsOf register captures)) offset := by
      intro offset
      constructor
      · exact reported_of_differs
      · intro hreported
        rcases reported_cases hreported with hdiffers | ⟨hlong, hshort⟩
        · exact hdiffers
        · exact htails offset hlong hshort
    exact ⟨hsame, fun offset => and_congr_right fun _ => not_congr (hsame offset)⟩

/-- Two captures of a register, the second one byte longer. -/
def grown : List Capture :=
  [⟨"first", 1, 2, fun _ => some [1]⟩, ⟨"second", 3, 4, fun _ => some [1, 2]⟩]

/-- The SHA-256 digests of the two payloads. -/
def grownDigest : List UInt8 → List UInt8
  | [1] =>
    [0x4b, 0xf5, 0x12, 0x2f, 0x34, 0x45, 0x54, 0xc5, 0x3b, 0xde, 0x2e, 0xbb,
      0x8c, 0xd2, 0xb7, 0xe3, 0xd1, 0x60, 0x0a, 0xd6, 0x31, 0xc3, 0x85, 0xa5,
      0xd7, 0xcc, 0xe2, 0x3c, 0x77, 0x85, 0x45, 0x9a]
  | _ =>
    [0xa1, 0x28, 0x71, 0xfe, 0xe2, 0x10, 0xfb, 0x86, 0x19, 0x29, 0x1e, 0xae,
      0xa1, 0x94, 0x58, 0x1c, 0xbd, 0x25, 0x31, 0xe4, 0xb2, 0x37, 0x59, 0xd2,
      0x25, 0xf6, 0x80, 0x69, 0x23, 0xf6, 0x32, 0x22]

/-- The new byte is reported as changed, and counted as stable. -/
theorem grown_disagrees : ¬ ViewsAgree (analyzeRegister grownDigest 0x104f grown) := by
  intro h
  have hstable : 1 ∈ (analyzeRegister grownDigest 0x104f grown).stableByteOffsets := by decide
  have hreported : ReportedAt (analyzeRegister grownDigest 0x104f grown).observations 1 :=
    ⟨_, List.mem_cons_of_mem _ List.mem_cons_self, mem_changedByteOffsets.mpr (by decide)⟩
  exact ((h.2 1).mp hstable).2 hreported

end VeSmart.Cli
