import Mathlib.Tactic

set_option autoImplicit false

/-! # Scanning for strings (`victron-cli/src/commands/extract_qmlcache.rs`)

`scanUtf16le` looks for readable UTF-16LE code units at every offset of a blob. The second byte of
a readable unit is zero and its first byte is not, so two readable units overlap only if they are
the same; this is why a scan that jumps over a run misses nothing (`scan_exact`). -/

namespace VeSmart.Cli

/-! ## The scanner -/

/-- Tab, line feed, carriage return and the printable characters of ASCII. -/
def isReadable (code : Nat) : Bool :=
  code = 0x09 || code = 0x0a || code = 0x0d || (0x20 ≤ code && code ≤ 0x7e)

def fromLeBytes (lo hi : UInt8) : Nat := lo.toNat + 256 * hi.toNat

/-- The inner loop: the readable units from here on, two bytes each. -/
def readText : List UInt8 → List Char
  | lo :: hi :: rest =>
      if isReadable (fromLeBytes lo hi) = true then
        Char.ofNat (fromLeBytes lo hi) :: readText rest
      else []
  | _ => []

/-- The outer loop from `index` on; nothing if it has not ended after that many rounds. -/
def scanUtf16le (blob : List UInt8) (minimum : Nat) : Nat → Nat → Option (List (Nat × String))
  | 0, _ => none
  | fuel + 1, index =>
      if index + 1 < blob.length then
        let text := readText (blob.drop index)
        if minimum ≤ text.length then
          (scanUtf16le blob minimum fuel (index + 2 * text.length)).map fun strings =>
            (index, String.ofList text) :: strings
        else scanUtf16le blob minimum fuel (index + 1)
      else some []

/-! ## Maximal runs -/

/-- The code unit at an offset. -/
def unitAt (blob : List UInt8) (offset : Nat) : Option Nat :=
  match blob.drop offset with
  | lo :: hi :: _ => some (fromLeBytes lo hi)
  | _ => none

/-- There is a readable unit at the offset. -/
def ReadableAt (blob : List UInt8) (offset : Nat) : Prop :=
  ∃ code ∈ unitAt blob offset, isReadable code = true

/-- The text is a run of readable units that cannot be extended to either side. -/
structure MaximalRun (blob : List UInt8) (offset : Nat) (text : List Char) : Prop where
  units : ∀ k c, text[k]? = some c →
    unitAt blob (offset + 2 * k) = some c.toNat ∧ isReadable c.toNat = true
  right : ¬ ReadableAt blob (offset + 2 * text.length)
  left : 2 ≤ offset → ¬ ReadableAt blob (offset - 2)

section

variable {blob : List UInt8} {i j : Nat}

theorem isReadable_lt {code : Nat} (h : isReadable code = true) : 0 < code ∧ code < 127 := by
  simp only [isReadable, Bool.or_eq_true, Bool.and_eq_true, decide_eq_true_eq] at h
  omega

theorem unitAt_eq_some {code : Nat} (h : unitAt blob i = some code) :
    ∃ lo hi, blob[i]? = some lo ∧ blob[i + 1]? = some hi ∧ code = fromLeBytes lo hi := by
  unfold unitAt at h
  split at h
  · rename_i lo hi rest hdrop
    refine ⟨lo, hi, ?_, ?_, (Option.some.inj h).symm⟩
    · have hget := congrArg (fun l => l[0]?) hdrop
      simpa using hget
    · have hget := congrArg (fun l => l[1]?) hdrop
      simpa using hget
  · cases h

/-- A readable unit is a byte that is not zero, and a zero behind it. -/
theorem ReadableAt.bytes (h : ReadableAt blob i) :
    ∃ lo, blob[i]? = some lo ∧ lo ≠ 0 ∧ blob[i + 1]? = some 0 := by
  obtain ⟨code, hcode, hreadable⟩ := h
  obtain ⟨lo, hi, hlo, hhi, rfl⟩ := unitAt_eq_some hcode
  have hrange := isReadable_lt hreadable
  have hhi_zero : hi = 0 := by
    apply UInt8.toNat_inj.mp
    simp only [fromLeBytes, UInt8.toNat_zero] at hrange ⊢
    omega
  refine ⟨lo, hlo, ?_, by rw [hhi, hhi_zero]⟩
  rintro rfl
  rw [hhi_zero] at hrange
  simp [fromLeBytes] at hrange

/-- Units that overlap by one byte are not both readable. -/
theorem ReadableAt.not_next (h : ReadableAt blob i) : ¬ ReadableAt blob (i + 1) := by
  intro hnext
  obtain ⟨-, -, -, hzero⟩ := h.bytes
  obtain ⟨lo, hlo, hne, -⟩ := hnext.bytes
  rw [hzero] at hlo
  exact hne (Option.some.inj hlo).symm

theorem ReadableAt.lt (h : ReadableAt blob i) : i + 1 < blob.length := by
  obtain ⟨-, -, -, hzero⟩ := h.bytes
  exact (List.getElem?_eq_some_iff.mp hzero).1

/-! ## The text at an offset -/

def textAt (blob : List UInt8) (offset : Nat) : List Char := readText (blob.drop offset)

theorem textAt_of_unit {code : Nat} (hcode : unitAt blob i = some code)
    (hreadable : isReadable code = true) :
    textAt blob i = Char.ofNat code :: textAt blob (i + 2) := by
  unfold unitAt at hcode
  split at hcode
  · rename_i lo hi rest hdrop
    have hrest : blob.drop (i + 2) = rest := by
      rw [← List.drop_drop, hdrop]
      rfl
    cases hcode
    rw [textAt, textAt, hdrop, hrest, readText, if_pos hreadable]
  · cases hcode

theorem textAt_of_not (h : ¬ ReadableAt blob i) : textAt blob i = [] := by
  unfold textAt readText
  split
  · rename_i lo hi rest hdrop
    have hunit : unitAt blob i = some (fromLeBytes lo hi) := by rw [unitAt, hdrop]
    rw [if_neg fun hreadable => h ⟨_, hunit, hreadable⟩]
  · rfl

theorem readable_toNat {code : Nat} (h : isReadable code = true) : (Char.ofNat code).toNat = code := by
  have hrange := isReadable_lt h
  have hvalid : code.isValidChar := Or.inl (by omega)
  have hchar : Char.ofNat code = Char.ofNatAux code hvalid := dif_pos hvalid
  rw [hchar]
  rfl

theorem textAt_cons {c : Char} {rest : List Char} (h : textAt blob i = c :: rest) :
    unitAt blob i = some c.toNat ∧ isReadable c.toNat = true ∧ textAt blob (i + 2) = rest := by
  by_cases hreadable : ReadableAt blob i
  · obtain ⟨code, hcode, hcode_readable⟩ := hreadable
    rw [textAt_of_unit hcode hcode_readable] at h
    obtain ⟨rfl, rfl⟩ := List.cons.inj h
    rw [readable_toNat hcode_readable]
    exact ⟨hcode, hcode_readable, rfl⟩
  · rw [textAt_of_not hreadable] at h
    cases h

theorem textAt_nil (h : textAt blob i = []) : ¬ ReadableAt blob i := by
  rintro ⟨code, hcode, hreadable⟩
  rw [textAt_of_unit hcode hreadable] at h
  cases h

/-- The text is readable up to its end, and not behind it. -/
theorem textAt_run (blob : List UInt8) (i : Nat) :
    (∀ k c, (textAt blob i)[k]? = some c →
      unitAt blob (i + 2 * k) = some c.toNat ∧ isReadable c.toNat = true) ∧
    ¬ ReadableAt blob (i + 2 * (textAt blob i).length) := by
  generalize htext : textAt blob i = text
  induction text generalizing i with
  | nil => exact ⟨by simp, by simpa using textAt_nil htext⟩
  | cons c rest ih =>
      obtain ⟨hunit, hreadable, hrest⟩ := textAt_cons htext
      obtain ⟨hunits, hright⟩ := ih (i + 2) hrest
      constructor
      · intro k d hd
        cases k with
        | zero =>
            cases hd
            exact ⟨hunit, hreadable⟩
        | succ k =>
            have hshift : i + 2 * (k + 1) = i + 2 + 2 * k := by omega
            rw [hshift]
            exact hunits k d hd
      · have hshift : i + 2 * (c :: rest).length = i + 2 + 2 * rest.length := by
          rw [List.length_cons]
          omega
        rw [hshift]
        exact hright

/-- A run that cannot be extended to the right is the text at its offset. -/
theorem MaximalRun.eq_textAt {text : List Char} (h : MaximalRun blob i text) :
    text = textAt blob i := by
  obtain ⟨hunits, hright, -⟩ := h
  induction text generalizing i with
  | nil => exact (textAt_of_not (by simpa using hright)).symm
  | cons c rest ih =>
      obtain ⟨hunit, hreadable⟩ := hunits 0 c rfl
      have hrest : rest = textAt blob (i + 2) := by
        apply ih
        · intro k d hd
          have hshift : i + 2 + 2 * k = i + 2 * (k + 1) := by omega
          rw [hshift]
          exact hunits (k + 1) d hd
        · have hshift : i + 2 + 2 * rest.length = i + 2 * (c :: rest).length := by
            rw [List.length_cons]
            omega
          rw [hshift]
          exact hright
      rw [textAt_of_unit (by simpa using hunit) hreadable, hrest, Char.ofNat_toNat]

theorem textAt_readable {k : Nat} (hk : k < (textAt blob i).length) :
    ReadableAt blob (i + 2 * k) := by
  obtain ⟨hunit, hreadable⟩ := (textAt_run blob i).1 k _ (List.getElem?_eq_getElem hk)
  exact ⟨_, hunit, hreadable⟩

theorem textAt_length_succ (h : ReadableAt blob i) :
    (textAt blob i).length = (textAt blob (i + 2)).length + 1 := by
  obtain ⟨code, hcode, hreadable⟩ := h
  rw [textAt_of_unit hcode hreadable, List.length_cons]

/-- No maximal run starts inside the text of another offset. -/
theorem no_start_inside {text : List Char} (h : MaximalRun blob j text) (hne : text ≠ [])
    (hlo : i < j) (hhi : j < i + 2 * (textAt blob i).length) : False := by
  obtain ⟨c, rest, rfl⟩ := List.exists_cons_of_ne_nil hne
  obtain ⟨hunit, hreadable⟩ := h.units 0 c rfl
  have hstart : ReadableAt blob j := ⟨_, by simpa using hunit, hreadable⟩
  -- at the parity of the text it could be extended, at the other one it is not readable
  rcases Nat.even_or_odd (j - i) with ⟨k, hk⟩ | ⟨k, hk⟩
  · have hbefore : ReadableAt blob (i + 2 * (k - 1)) := textAt_readable (by omega)
    have hoffset : i + 2 * (k - 1) = j - 2 := by omega
    rw [hoffset] at hbefore
    exact h.left (by omega) hbefore
  · have hoverlap : ReadableAt blob (i + 2 * k) := textAt_readable (by omega)
    have hoffset : j = i + 2 * k + 1 := by omega
    rw [hoffset] at hstart
    exact hoverlap.not_next hstart

/-! ## The scan -/

/-- What the scan may rely on at an offset: there or one byte further no long run goes on that
began before. -/
def Fresh (blob : List UInt8) (minimum i : Nat) : Prop :=
  ∀ j, i ≤ j → j ≤ i + 1 → 2 ≤ j → ReadableAt blob (j - 2) → (textAt blob j).length < minimum

/-- The strings are the maximal runs from the offset on, one behind the other. -/
structure Found (blob : List UInt8) (minimum i : Nat) (strings : List (Nat × String)) : Prop where
  mem : ∀ offset text, (offset, text) ∈ strings ↔
    i ≤ offset ∧ MaximalRun blob offset text.toList ∧ minimum ≤ text.toList.length
  apart : strings.Pairwise fun a b => a.1 + 2 * a.2.toList.length ≤ b.1

variable {minimum : Nat}

/-- Behind a run that was found nothing goes on. -/
theorem Fresh.hit (h : minimum ≤ (textAt blob i).length) (hpos : 1 ≤ minimum) :
    Fresh blob minimum (i + 2 * (textAt blob i).length) := by
  intro j hlo hhi _ hbefore
  rcases Nat.eq_or_lt_of_le hlo with rfl | hlt
  · rw [textAt_of_not (textAt_run blob i).2]
    exact hpos
  · -- the unit before overlaps the last one of the run
    have hlast : ReadableAt blob (i + 2 * ((textAt blob i).length - 1)) :=
      textAt_readable (by omega)
    have hoffset : j - 2 = i + 2 * ((textAt blob i).length - 1) + 1 := by omega
    rw [hoffset] at hbefore
    exact absurd hbefore hlast.not_next

theorem Fresh.miss (h : Fresh blob minimum i) (hshort : (textAt blob i).length < minimum) :
    Fresh blob minimum (i + 1) := by
  intro j hlo hhi htwo hbefore
  rcases Nat.eq_or_lt_of_le hlo with rfl | hlt
  · exact h (i + 1) (by omega) (by omega) htwo hbefore
  · -- the rest of a short text is short
    have hj : j = i + 2 := by omega
    subst hj
    rw [Nat.add_sub_cancel] at hbefore
    have hlen := textAt_length_succ hbefore
    omega

theorem Found.hit {strings : List (Nat × String)} (hfresh : Fresh blob minimum i)
    (hpos : 1 ≤ minimum) (hlong : minimum ≤ (textAt blob i).length)
    (h : Found blob minimum (i + 2 * (textAt blob i).length) strings) :
    Found blob minimum i ((i, String.ofList (textAt blob i)) :: strings) where
  mem := by
    have hrun : MaximalRun blob i (textAt blob i) := by
      refine ⟨(textAt_run blob i).1, (textAt_run blob i).2, ?_⟩
      intro htwo hbefore
      have hshort := hfresh i (le_refl i) (by omega) htwo hbefore
      omega
    intro offset text
    rw [List.mem_cons, Prod.mk.injEq, h.mem]
    constructor
    · rintro (⟨rfl, rfl⟩ | ⟨hle, hmax, hlen⟩)
      · rw [String.toList_ofList]
        exact ⟨le_refl _, hrun, hlong⟩
      · exact ⟨by omega, hmax, hlen⟩
    · rintro ⟨hle, hmax, hlen⟩
      rcases Nat.eq_or_lt_of_le hle with rfl | hlt
      · left
        refine ⟨rfl, ?_⟩
        rw [← hmax.eq_textAt, String.ofList_toList]
      · right
        refine ⟨?_, hmax, hlen⟩
        by_contra hinside
        have hne : text.toList ≠ [] := by
          intro hnil
          rw [hnil, List.length_nil] at hlen
          omega
        exact no_start_inside hmax hne hlt (by omega)
  apart := by
    refine List.pairwise_cons.mpr ⟨?_, h.apart⟩
    intro b hb
    have hle := ((h.mem b.1 b.2).mp hb).1
    rwa [String.toList_ofList]

theorem Found.miss {strings : List (Nat × String)} (hshort : (textAt blob i).length < minimum)
    (h : Found blob minimum (i + 1) strings) : Found blob minimum i strings where
  mem := by
    intro offset text
    rw [h.mem]
    constructor
    · rintro ⟨hle, hmax, hlen⟩
      exact ⟨by omega, hmax, hlen⟩
    · rintro ⟨hle, hmax, hlen⟩
      refine ⟨?_, hmax, hlen⟩
      rcases Nat.eq_or_lt_of_le hle with rfl | hlt
      · rw [hmax.eq_textAt] at hlen
        omega
      · exact hlt
  apart := h.apart

/-- At the end of the blob no unit is left. -/
theorem Found.done (hpos : 1 ≤ minimum) (h : blob.length ≤ i + 1) : Found blob minimum i [] where
  mem := by
    intro offset text
    refine iff_of_false List.not_mem_nil ?_
    rintro ⟨hle, hmax, hlen⟩
    rw [hmax.eq_textAt] at hlen
    have hreadable : ReadableAt blob (offset + 2 * 0) := textAt_readable (by omega)
    have hlt := hreadable.lt
    omega
  apart := List.Pairwise.nil

theorem scan_succ (fuel i : Nat) : scanUtf16le blob minimum (fuel + 1) i =
    if i + 1 < blob.length then
      if minimum ≤ (textAt blob i).length then
        (scanUtf16le blob minimum fuel (i + 2 * (textAt blob i).length)).map fun strings =>
          (i, String.ofList (textAt blob i)) :: strings
      else scanUtf16le blob minimum fuel (i + 1)
    else some [] := rfl

/-- One round and the rounds behind it: the scan ends, with the runs from its index on. -/
theorem scan_found (hpos : 1 ≤ minimum) (fuel : Nat) (hfuel : blob.length < fuel + i)
    (hfresh : Fresh blob minimum i) (hsome : 0 < fuel) :
    ∃ strings, scanUtf16le blob minimum fuel i = some strings ∧
      Found blob minimum i strings := by
  induction fuel generalizing i with
  | zero => omega
  | succ fuel ih =>
      rw [scan_succ]
      by_cases hend : i + 1 < blob.length
      · rw [if_pos hend]
        by_cases hlong : minimum ≤ (textAt blob i).length
        · obtain ⟨strings, hscan, hfound⟩ :=
            ih (i := i + 2 * (textAt blob i).length) (by omega) (Fresh.hit hlong hpos) (by omega)
          refine ⟨_, ?_, Found.hit hfresh hpos hlong hfound⟩
          rw [if_pos hlong, hscan]
          rfl
        · obtain ⟨strings, hscan, hfound⟩ :=
            ih (i := i + 1) (by omega) (hfresh.miss (by omega)) (by omega)
          refine ⟨strings, ?_, Found.miss (by omega) hfound⟩
          rw [if_neg hlong, hscan]
      · rw [if_neg hend]
        exact ⟨[], rfl, Found.done hpos (by omega)⟩

/-- More rounds than needed change nothing. -/
theorem scan_mono {strings : List (Nat × String)} {fuel more : Nat} (hmore : fuel ≤ more)
    (h : scanUtf16le blob minimum fuel i = some strings) :
    scanUtf16le blob minimum more i = some strings := by
  induction fuel generalizing i more strings with
  | zero => cases h
  | succ fuel ih =>
      obtain ⟨more, rfl⟩ : ∃ m, more = m + 1 := ⟨more - 1, by omega⟩
      rw [scan_succ] at h ⊢
      split_ifs at h ⊢ with hend hlong
      · obtain ⟨rest, hrest, rfl⟩ := Option.map_eq_some_iff.mp h
        rw [ih (by omega) hrest]
        rfl
      · exact ih (by omega) h
      · exact h

end

/-- **The scan is complete and exact**: it ends, and returns the maximal runs of readable units
with at least `minimum` units, at every offset, in the order of their offsets and one behind the
other. -/
theorem scan_exact (blob : List UInt8) (minimum : Nat) (hpos : 1 ≤ minimum) :
    ∃ strings, (∀ fuel, blob.length < fuel → scanUtf16le blob minimum fuel 0 = some strings) ∧
      (strings.map Prod.fst).Pairwise (fun a b => a < b) ∧
      (∀ offset text, (offset, text) ∈ strings ↔
        MaximalRun blob offset text.toList ∧ minimum ≤ text.toList.length) ∧
      strings.Pairwise fun a b => a.1 + 2 * a.2.toList.length ≤ b.1 := by
  have hfresh : Fresh blob minimum 0 := by
    intro j _ hhi htwo
    omega
  obtain ⟨strings, hscan, hfound⟩ :=
    scan_found hpos (blob.length + 1) (by omega) hfresh (by omega)
  have hmem : ∀ offset text, (offset, text) ∈ strings ↔
      MaximalRun blob offset text.toList ∧ minimum ≤ text.toList.length := by
    intro offset text
    rw [hfound.mem]
    exact and_iff_right (Nat.zero_le offset)
  refine ⟨strings, fun fuel hfuel => scan_mono hfuel hscan, ?_, hmem, hfound.apart⟩
  rw [List.pairwise_map]
  refine hfound.apart.imp_of_mem ?_
  intro a b ha _ hle
  have hlen := ((hmem a.1 a.2).mp ha).2
  omega

/-- `ABC` at an odd offset, between bytes that are not readable. -/
theorem scan_abc : ∃ strings,
    scanUtf16le [0, 0x41, 0, 0x42, 0, 0x43, 0, 0, 0x78] 3 10 0 = some strings ∧
      ∀ offset text, (offset, text) ∈ strings ↔
        MaximalRun [0, 0x41, 0, 0x42, 0, 0x43, 0, 0, 0x78] offset text.toList ∧
          3 ≤ text.toList.length := by
  obtain ⟨strings, hscan, -, hmem, -⟩ :=
    scan_exact [0, 0x41, 0, 0x42, 0, 0x43, 0, 0, 0x78] 3 (by decide)
  exact ⟨strings, hscan 10 (by decide), hmem⟩

end VeSmart.Cli
