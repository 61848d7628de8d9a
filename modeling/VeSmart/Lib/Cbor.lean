import VeSmart.Lib.F64

set_option autoImplicit false

/-! # The heads of CBOR data items (RFC 8949)

A data item starts with a head: three bits of major type and five bits of additional information,
which is the argument itself, or says in how many bytes the argument follows. `readHead` reads a
head of any width; `readHead_iff` says that it reads exactly the heads. The strings and the
floating-point numbers of the format are here as well. -/

namespace VeSmart.Lib.Cbor

/-! ## Big-endian numbers -/

/-- The last `k` bytes of `n`, the highest one first. -/
def bigEndian : Nat → Nat → List UInt8
  | 0, _ => []
  | k + 1, n => bigEndian k (n / 256) ++ [UInt8.ofNat n]

def ofBigEndian (s : List UInt8) : Nat := s.foldl (fun n b => n * 256 + b.toNat) 0

@[simp] theorem length_bigEndian (k n : Nat) : (bigEndian k n).length = k := by
  induction k generalizing n with
  | zero => rfl
  | succ k ih => simp [bigEndian, ih]

theorem ofBigEndian_snoc (s : List UInt8) (b : UInt8) :
    ofBigEndian (s ++ [b]) = ofBigEndian s * 256 + b.toNat := by
  simp [ofBigEndian]

theorem ofBigEndian_bigEndian {k n : Nat} (h : n < 256 ^ k) : ofBigEndian (bigEndian k n) = n := by
  induction k generalizing n with
  | zero =>
      have hzero : n = 0 := by omega
      rw [hzero]
      rfl
  | succ k ih =>
      have hdiv : n / 256 < 256 ^ k := by
        rw [Nat.div_lt_iff_lt_mul (by omega)]
        rwa [Nat.pow_succ] at h
      rw [bigEndian, ofBigEndian_snoc, ih hdiv, UInt8.toNat_ofNat']
      omega

theorem ofBigEndian_lt (s : List UInt8) : ofBigEndian s < 256 ^ s.length := by
  induction s using List.reverseRecOn with
  | nil => simp [ofBigEndian]
  | append_singleton s b ih =>
      have hb := b.toNat_lt
      rw [ofBigEndian_snoc, List.length_append, List.length_singleton, Nat.pow_succ]
      omega

theorem bigEndian_ofBigEndian (s : List UInt8) : bigEndian s.length (ofBigEndian s) = s := by
  induction s using List.reverseRecOn with
  | nil => rfl
  | append_singleton s b ih =>
      have hb := b.toNat_lt
      have hdiv : (ofBigEndian s * 256 + b.toNat) / 256 = ofBigEndian s := by omega
      have hlow : UInt8.ofNat (ofBigEndian s * 256 + b.toNat) = b := by
        apply UInt8.toNat.inj
        rw [UInt8.toNat_ofNat']
        omega
      rw [ofBigEndian_snoc, List.length_append, List.length_singleton, bigEndian, hdiv, hlow, ih]

/-! ## Heads -/

/-- Where the argument of a head is: in the first byte, or in the bytes after it. -/
inductive Width where
  | immediate
  | one
  | two
  | four
  | eight
  deriving DecidableEq

def Width.count : Width → Nat
  | .immediate => 0
  | .one => 1
  | .two => 2
  | .four => 4
  | .eight => 8

/-- The additional information. -/
def Width.info : Width → Nat → Nat
  | .immediate, n => n
  | .one, _ => 24
  | .two, _ => 25
  | .four, _ => 26
  | .eight, _ => 27

def Width.Fits : Width → Nat → Prop
  | .immediate, n => n < 24
  | w, n => n < 256 ^ w.count

/-- The first byte. -/
def initial (major info : Nat) : UInt8 := UInt8.ofNat (32 * major + info)

def major (b : UInt8) : Nat := b.toNat / 32

def info (b : UInt8) : Nat := b.toNat % 32

def head (major : Nat) (w : Width) (n : Nat) : List UInt8 :=
  initial major (w.info n) :: bigEndian w.count n

/-- `s` is a head of the major type with the argument `n`, of any width. -/
def IsHead (major n : Nat) (s : List UInt8) : Prop := ∃ w : Width, w.Fits n ∧ s = head major w n

/-- The narrowest width. -/
def Width.least (n : Nat) : Width :=
  if n < 24 then .immediate else if n < 256 ^ 1 then .one else if n < 256 ^ 2 then .two
  else if n < 256 ^ 4 then .four else .eight

theorem Width.least_fits {n : Nat} (h : n < 2 ^ 64) : (Width.least n).Fits n := by
  unfold Width.least
  split_ifs with h0 h1 h2 h4
  · exact h0
  · exact h1
  · exact h2
  · exact h4
  · show n < 256 ^ 8
    omega

theorem Width.info_lt {w : Width} {n : Nat} (h : w.Fits n) : w.info n < 28 := by
  cases w with
  | immediate => exact Nat.lt_of_lt_of_le h (by omega)
  | _ => simp [Width.info]

theorem major_initial {k i : Nat} (hk : k < 8) (hi : i < 32) : major (initial k i) = k := by
  rw [major, initial, UInt8.toNat_ofNat']
  omega

theorem info_initial {k i : Nat} (hi : i < 32) : info (initial k i) = i := by
  rw [info, initial, UInt8.toNat_ofNat']
  omega

theorem initial_major_info (b : UInt8) : initial (major b) (info b) = b := by
  apply UInt8.toNat.inj
  have hb := b.toNat_lt
  rw [initial, UInt8.toNat_ofNat', major, info]
  omega

theorem major_lt (b : UInt8) : major b < 8 := by
  have hb := b.toNat_lt
  rw [major]
  omega

/-- The width that the additional information names. -/
def widthOf (info : Nat) : Option Width :=
  if info < 24 then some .immediate
  else if info = 24 then some .one
  else if info = 25 then some .two
  else if info = 26 then some .four
  else if info = 27 then some .eight
  else none

/-- The major type, the width and the argument of the head in front of the input, and what comes
after it. -/
def readHead : List UInt8 → Option (Nat × Width × Nat × List UInt8)
  | [] => none
  | b :: rest => do
      let w ← widthOf (info b)
      if rest.length < w.count then none
      else if w = .immediate then some (major b, w, info b, rest)
      else some (major b, w, ofBigEndian (rest.take w.count), rest.drop w.count)

theorem widthOf_info {w : Width} {n : Nat} (h : w.Fits n) : widthOf (w.info n) = some w := by
  cases w with
  | immediate => exact if_pos h
  | _ => rfl

theorem readHead_head {k : Nat} (hk : k < 8) {w : Width} {n : Nat} (h : w.Fits n)
    (rest : List UInt8) : readHead (head k w n ++ rest) = some (k, w, n, rest) := by
  have hinfo := w.info_lt h
  have hlen : ¬ (bigEndian w.count n ++ rest).length < w.count := by simp
  simp only [head, List.cons_append, readHead, info_initial (by omega : w.info n < 32),
    major_initial hk (by omega : w.info n < 32), widthOf_info h, Option.bind_eq_bind,
    Option.bind_some, if_neg hlen]
  split_ifs with hw
  · subst hw
    rfl
  · have hfits : n < 256 ^ w.count := by
      cases w with
      | immediate => exact absurd rfl hw
      | _ => exact h
    rw [List.take_left' (length_bigEndian _ _), List.drop_left' (length_bigEndian _ _),
      ofBigEndian_bigEndian hfits]

theorem readHead_some {s : List UInt8} {k : Nat} {w : Width} {n : Nat} {rest : List UInt8}
    (h : readHead s = some (k, w, n, rest)) : k < 8 ∧ w.Fits n ∧ s = head k w n ++ rest := by
  cases s with
  | nil => cases h
  | cons b after =>
      simp only [readHead, Option.bind_eq_bind, Option.bind_eq_some_iff] at h
      obtain ⟨width, hwidth, h⟩ := h
      split_ifs at h with hlen himm
      · cases h
        subst himm
        have hlt : info b < 24 := by
          by_contra hge
          unfold widthOf at hwidth
          split_ifs at hwidth <;> cases hwidth
        refine ⟨major_lt b, hlt, ?_⟩
        show b :: rest = initial (major b) (info b) :: rest
        rw [initial_major_info]
      · cases h
        have htake : (after.take w.count).length = w.count := by
          rw [List.length_take]
          omega
        have hlt := ofBigEndian_lt (after.take w.count)
        rw [htake] at hlt
        have hinfo : info b = w.info (ofBigEndian (after.take w.count)) := by
          unfold widthOf at hwidth
          split_ifs at hwidth <;> cases hwidth <;> first | exact absurd rfl himm | assumption
        have hbytes := bigEndian_ofBigEndian (after.take w.count)
        rw [htake] at hbytes
        refine ⟨major_lt b, ?_, ?_⟩
        · cases w with
          | immediate => exact absurd rfl himm
          | _ => exact hlt
        · rw [head, ← hinfo, initial_major_info, hbytes, List.cons_append, List.take_append_drop]

/-- The reader of heads reads exactly the heads. -/
theorem readHead_iff {s : List UInt8} {k : Nat} {w : Width} {n : Nat} {rest : List UInt8} :
    readHead s = some (k, w, n, rest) ↔ k < 8 ∧ w.Fits n ∧ s = head k w n ++ rest := by
  constructor
  · exact readHead_some
  · rintro ⟨hk, hfits, rfl⟩
    exact readHead_head hk hfits rest

/-! ## Strings -/

section

variable {α : Type} (k : Nat) (bytesOf : α → List UInt8)

/-- A string in one piece. -/
def IsChunk (x : α) (s : List UInt8) : Prop :=
  ∃ h, IsHead k (bytesOf x).length h ∧ s = h ++ bytesOf x

/-- A string, in one piece or in pieces between a first byte and a break. -/
inductive IsString : List α → List UInt8 → Prop
  | definite (x : α) (s : List UInt8) (h : IsChunk k bytesOf x s) : IsString [x] s
  | indefinite (xs : List α) (parts : List (List UInt8))
      (h : List.Forall₂ (IsChunk k bytesOf) xs parts) :
      IsString xs (initial k 31 :: (parts.flatten ++ [0xff]))

end

/-! ## Containers and simple values -/

/-- A container of `n` members with the text `body`, of definite or indefinite length. -/
inductive IsContainer (k n : Nat) (body : List UInt8) : List UInt8 → Prop
  | definite (h : List UInt8) (hhead : IsHead k n h) : IsContainer k n body (h ++ body)
  | indefinite : IsContainer k n body (initial k 31 :: (body ++ [0xff]))

/-- A simple value; those from 20 to 31 have a meaning of their own or none. -/
inductive IsSimple : UInt8 → List UInt8 → Prop
  | short (n : UInt8) (h : n.toNat < 20) : IsSimple n (head 7 .immediate n.toNat)
  | long (n : UInt8) (h : 32 ≤ n.toNat) : IsSimple n (head 7 .one n.toNat)

/-- The first byte of a head of the major type `k`. -/
theorem IsHead.starts {k n : Nat} {s : List UInt8} (hk : k < 8) (h : IsHead k n s) :
    ∃ b rest, s = b :: rest ∧ major b = k ∧ info b < 28 := by
  obtain ⟨w, hfits, rfl⟩ := h
  have hinfo := w.info_lt hfits
  exact ⟨_, _, rfl, major_initial hk (by omega), by rwa [info_initial (by omega)]⟩

theorem IsChunk.starts {α : Type} {k : Nat} {bytesOf : α → List UInt8} {x : α} {s : List UInt8}
    (hk : k < 8) (h : IsChunk k bytesOf x s) :
    ∃ b rest, s = b :: rest ∧ major b = k ∧ info b < 28 := by
  obtain ⟨t, ht, rfl⟩ := h
  obtain ⟨b, rest, rfl, hstart⟩ := ht.starts hk
  exact ⟨b, _, rfl, hstart⟩

theorem IsString.starts {α : Type} {k : Nat} {bytesOf : α → List UInt8} {xs : List α}
    {s : List UInt8} (hk : k < 8) (h : IsString k bytesOf xs s) :
    ∃ b rest, s = b :: rest ∧ major b = k ∧ (info b < 28 ∨ info b = 31) := by
  cases h with
  | definite x s h =>
      obtain ⟨b, rest, hs, hmajor, hinfo⟩ := h.starts hk
      exact ⟨b, rest, hs, hmajor, .inl hinfo⟩
  | indefinite xs parts h =>
      exact ⟨_, _, rfl, major_initial hk (by omega), .inr (info_initial (by omega))⟩

theorem IsContainer.starts {k n : Nat} {body s : List UInt8} (hk : k < 8)
    (h : IsContainer k n body s) :
    ∃ b rest, s = b :: rest ∧ major b = k ∧ (info b < 28 ∨ info b = 31) := by
  cases h with
  | definite t ht =>
      obtain ⟨b, rest, rfl, hmajor, hinfo⟩ := ht.starts hk
      exact ⟨b, _, rfl, hmajor, .inl hinfo⟩
  | indefinite => exact ⟨_, _, rfl, major_initial hk (by omega), .inr (info_initial (by omega))⟩

theorem IsSimple.starts {n : UInt8} {s : List UInt8} (h : IsSimple n s) :
    ∃ b rest, s = b :: rest ∧ major b = 7 ∧ (info b < 20 ∨ info b = 24) := by
  cases h with
  | short h =>
      have hinfo : info (initial 7 n.toNat) = n.toNat := info_initial (by omega)
      exact ⟨_, _, rfl, major_initial (by omega) (show n.toNat < 32 by omega),
        .inl (hinfo.trans_lt h)⟩
  | long h =>
      have hinfo : info (initial 7 24) = 24 := info_initial (by omega)
      exact ⟨_, _, rfl, major_initial (by omega) (show 24 < 32 by omega), .inr hinfo⟩

/-! ## Floating-point numbers -/

/-- The number with `e` bits of exponent and `f` bits of fraction. -/
def float (e f n : Nat) : F64 :=
  let fraction := n % 2 ^ f
  let exponent := n / 2 ^ f % 2 ^ e
  let negative := n / 2 ^ (e + f) % 2 = 1
  let bias : Int := 2 ^ (e - 1) - 1
  let magnitude : ℚ :=
    if exponent = 0 then fraction * 2 ^ (1 - bias - f : Int)
    else (2 ^ f + fraction) * 2 ^ (exponent - bias - f : Int)
  if exponent = 2 ^ e - 1 then if fraction = 0 then .infinite negative else .nan
  else if negative then if magnitude = 0 then .negZero else .finite (-magnitude)
  else .finite magnitude

/-- A float in half, single or double precision. -/
inductive IsFloat : F64 → List UInt8 → Prop
  | half (n : Nat) (h : Width.two.Fits n) : IsFloat (float 5 10 n) (head 7 .two n)
  | single (n : Nat) (h : Width.four.Fits n) : IsFloat (float 8 23 n) (head 7 .four n)
  | double (n : Nat) (h : Width.eight.Fits n) : IsFloat (float 11 52 n) (head 7 .eight n)

theorem IsFloat.starts {x : F64} {s : List UInt8} (h : IsFloat x s) :
    ∃ b rest, s = b :: rest ∧ major b = 7 ∧ 25 ≤ info b ∧ info b < 28 := by
  have hinfo : ∀ i, i < 32 → info (initial 7 i) = i := fun i hi => info_initial hi
  have hmajor : ∀ i, i < 32 → major (initial 7 i) = 7 := fun i hi => major_initial (by omega) hi
  cases h with
  | half n _ => exact ⟨initial 7 25, _, rfl, hmajor 25 (by omega), by rw [hinfo] <;> omega⟩
  | single n _ => exact ⟨initial 7 26, _, rfl, hmajor 26 (by omega), by rw [hinfo] <;> omega⟩
  | double n _ => exact ⟨initial 7 27, _, rfl, hmajor 27 (by omega), by rw [hinfo] <;> omega⟩

example : float 5 10 0x3c00 = .finite 1 := by decide +kernel

end VeSmart.Lib.Cbor
