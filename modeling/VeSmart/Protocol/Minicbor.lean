import VeSmart.Protocol.Items

set_option autoImplicit false

/-! # A low-level parser

A parser and encoder that conform to `Minicbor.Conforms`: every function reads one head with
`readHead`, and looks at its major type, its width and its argument. -/

namespace VeSmart.Protocol

open VeSmart.Lib VeSmart.Lib.Cbor

/-! ## Functions that read one head -/

section

variable {α : Type}

/-- A head of the major type `k`; `value` makes something of its width and argument. -/
def headParse (k : Nat) (value : Width → Nat → Option α) : Parse α := fun input =>
  match readHead input with
  | none => .error .endOfInput
  | some (major, w, n, rest) =>
      if major = k then
        match value w n with
        | some x => .ok (x, rest)
        | none => .error (.other "unexpected value")
      else .error (.other "unexpected type")

theorem headParse_parses {k : Nat} (hk : k < 8) (value : Width → Nat → Option α) :
    Parses (headParse k value) fun x s =>
      ∃ w n, w.Fits n ∧ value w n = some x ∧ s = head k w n := by
  intro input x rest
  unfold headParse
  constructor
  · intro h
    split at h
    · cases h
    · rename_i major w n after hread
      split_ifs at h with hmajor
      split at h
      · rename_i y hvalue
        cases h
        obtain ⟨-, hfits, hinput⟩ := readHead_iff.mp hread
        exact ⟨_, ⟨w, n, hfits, hvalue, rfl⟩, hmajor ▸ hinput⟩
      · cases h
  · rintro ⟨s, ⟨w, n, hfits, hvalue, rfl⟩, rfl⟩
    rw [readHead_head hk hfits]
    simp only [if_true, hvalue]

/-- Two functions say the same if their grammars do. -/
theorem Parses.of_iff {parse : Parse α} {G G' : α → List UInt8 → Prop} (h : Parses parse G)
    (hG : ∀ x s, G x s ↔ G' x s) : Parses parse G' := by
  intro input x rest
  rw [h input x rest]
  simp only [hG]

/-- One function, or else the other one. -/
def orParse (first second : Parse α) : Parse α := fun input =>
  match first input with
  | .ok r => .ok r
  | .error _ => second input

theorem orParse_parses {first second : Parse α} {G H : α → List UInt8 → Prop}
    (h : Parses first G) (h' : Parses second H)
    (hdisjoint : ∀ x y s t rest rest', G x s → H y t → s ++ rest ≠ t ++ rest') :
    Parses (orParse first second) fun x s => G x s ∨ H x s := by
  intro input x rest
  unfold orParse
  cases hfirst : first input with
  | ok r =>
      obtain ⟨y, after⟩ := r
      obtain ⟨s, hG, hinput⟩ := (h input y after).mp hfirst
      constructor
      · intro hval
        cases hval
        exact ⟨s, .inl hG, hinput⟩
      · rintro ⟨t, hx, hinput'⟩
        rcases hx with hx | hx
        · rw [(h input x rest).mpr ⟨t, hx, hinput'⟩] at hfirst
          exact hfirst.symm
        · exact absurd (hinput.symm.trans hinput') (hdisjoint _ _ _ _ _ _ hG hx)
  | error e =>
      constructor
      · intro hval
        obtain ⟨s, hH, hinput⟩ := (h' input x rest).mp hval
        exact ⟨s, .inr hH, hinput⟩
      · rintro ⟨t, hx, hinput⟩
        rcases hx with hx | hx
        · rw [(h input x rest).mpr ⟨t, hx, hinput⟩] at hfirst
          cases hfirst
        · exact (h' input x rest).mpr ⟨t, hx, hinput⟩

end

/-! ## Strings -/

section

variable {α : Type} (k : Nat) (ofBytes : List UInt8 → Option α)

/-- A string in one piece. -/
def chunkParse : Parse α := fun input =>
  match headParse k (fun _ n => some n) input with
  | .error e => .error e
  | .ok (n, rest) =>
      if rest.length < n then .error .endOfInput
      else
        match ofBytes (rest.take n) with
        | some x => .ok (x, rest.drop n)
        | none => .error (.other "invalid string")

/-- The pieces up to a break. -/
def chunksParse : Nat → List UInt8 → List α × Except DecodeError (List UInt8)
  | 0, _ => ([], .error .endOfInput)
  | _ + 1, [] => ([], .error .endOfInput)
  | fuel + 1, b :: rest =>
      if b = 0xff then ([], .ok rest)
      else
        match chunkParse k ofBytes (b :: rest) with
        | .error e => ([], .error e)
        | .ok (x, after) => ((chunksParse fuel after).1.cons x, (chunksParse fuel after).2)

def stringParse (input : List UInt8) :
    Except DecodeError (List α × Except DecodeError (List UInt8)) :=
  match input with
  | [] => .error .endOfInput
  | b :: rest =>
      if b = initial k 31 then .ok (chunksParse k ofBytes rest.length rest)
      else
        match chunkParse k ofBytes (b :: rest) with
        | .error e => .error e
        | .ok (x, after) => .ok ([x], .ok after)

variable {k ofBytes} {bytesOf : α → List UInt8}

theorem chunkParse_parses (hk : k < 8) (hbytes : ∀ s x, ofBytes s = some x ↔ s = bytesOf x) :
    Parses (chunkParse k ofBytes) (IsChunk k bytesOf) := by
  intro input x rest
  have hhead := headParse_parses hk (fun _ n => some n) input
  unfold chunkParse
  constructor
  · intro h
    split at h
    · cases h
    · rename_i n after hparse
      obtain ⟨s, ⟨w, n', hfits, hn, rfl⟩, hinput⟩ := (hhead n after).mp hparse
      cases hn
      split_ifs at h with hshort
      split at h
      · rename_i y hy
        cases h
        have htake := (hbytes _ _).mp hy
        have hlength : (bytesOf x).length = n := by
          rw [← htake, List.length_take]
          omega
        refine ⟨head k w n ++ bytesOf x, ⟨_, ⟨w, ?_, rfl⟩, ?_⟩, ?_⟩
        · rwa [hlength]
        · rw [hlength]
        · rw [hinput, ← htake, List.append_assoc, List.take_append_drop]
      · cases h
  · rintro ⟨s, ⟨t, ⟨w, hfits, rfl⟩, rfl⟩, rfl⟩
    have hparse := (hhead (bytesOf x).length (bytesOf x ++ rest)).mpr
      ⟨_, ⟨w, _, hfits, rfl, rfl⟩, List.append_assoc _ _ _⟩
    have hshort : ¬ (bytesOf x ++ rest).length < (bytesOf x).length := by simp
    rw [hparse]
    simp only [if_neg hshort, List.take_left, (hbytes _ x).mpr rfl, List.drop_left]

theorem chunksParse_iff (hk : k < 7) (hbytes : ∀ s x, ofBytes s = some x ↔ s = bytesOf x)
    {fuel : Nat} {input rest : List UInt8} {xs : List α} (hfuel : input.length ≤ fuel) :
    chunksParse k ofBytes fuel input = (xs, .ok rest) ↔
      ∃ parts, List.Forall₂ (IsChunk k bytesOf) xs parts ∧
        input = parts.flatten ++ 0xff :: rest := by
  have hchunk := chunkParse_parses (by omega : k < 8) hbytes
  induction fuel generalizing input xs with
  | zero =>
      obtain rfl : input = [] := List.length_eq_zero_iff.mp (Nat.le_zero.mp hfuel)
      constructor
      · nofun
      · rintro ⟨parts, -, hinput⟩
        simp at hinput
  | succ fuel ih =>
      cases input with
      | nil =>
          constructor
          · nofun
          · rintro ⟨parts, -, hinput⟩
            simp at hinput
      | cons b after =>
          have hnot : ∀ {x : α} {s : List UInt8}, IsChunk k bytesOf x s → ∀ t,
              0xff :: after ≠ s ++ t := by
            intro x s hx t hcons
            obtain ⟨c, s, rfl, hmajor, -⟩ := hx.starts (by omega)
            obtain ⟨rfl, -⟩ := List.cons.inj hcons
            have hseven : major 0xff = 7 := by decide
            omega
          unfold chunksParse
          split_ifs with hbreak
          · subst hbreak
            constructor
            · intro h
              cases h
              exact ⟨[], .nil, rfl⟩
            · rintro ⟨parts, hparts, hinput⟩
              cases hparts with
              | nil =>
                  obtain ⟨-, rfl⟩ := List.cons.inj hinput
                  rfl
              | cons hx _ =>
                  rw [List.flatten_cons, List.append_assoc] at hinput
                  exact absurd hinput (hnot hx _)
          cases hone : chunkParse k ofBytes (b :: after) with
          | error e =>
              constructor
              · nofun
              · rintro ⟨parts, hparts, hinput⟩
                cases hparts with
                | nil => exact absurd (List.cons.inj hinput).1 hbreak
                | cons hx _ =>
                    rw [List.flatten_cons, List.append_assoc] at hinput
                    rw [(hchunk _ _ _).mpr ⟨_, hx, hinput⟩] at hone
                    cases hone
          | ok r =>
              obtain ⟨x, left⟩ := r
              obtain ⟨s, hx, hinput⟩ := (hchunk _ _ _).mp hone
              have hleft : left.length ≤ fuel := by
                obtain ⟨c, t, rfl, -⟩ := hx.starts (by omega)
                have hlen := congrArg List.length hinput
                simp only [List.length_cons, List.length_append] at hlen hfuel
                omega
              constructor
              · intro h
                obtain ⟨rfl, hlast⟩ := Prod.mk.inj h
                obtain ⟨parts, hparts, rfl⟩ := (ih hleft).mp (Prod.ext rfl hlast)
                refine ⟨_, .cons hx hparts, ?_⟩
                rw [hinput, List.flatten_cons, List.append_assoc]
              · rintro ⟨parts, hparts, hinput'⟩
                cases hparts with
                | nil => exact absurd (List.cons.inj hinput').1 hbreak
                | cons hy hparts =>
                    rw [List.flatten_cons, List.append_assoc] at hinput'
                    rw [(hchunk _ _ _).mpr ⟨_, hy, hinput'⟩] at hone
                    cases hone
                    have hloop := (ih hleft).mpr ⟨_, hparts, rfl⟩
                    simp only [hloop]

theorem stringParse_iff (hk : k < 7) (hbytes : ∀ s x, ofBytes s = some x ↔ s = bytesOf x)
    {input rest : List UInt8} {xs : List α} :
    stringParse k ofBytes input = .ok (xs, .ok rest) ↔
      ∃ s, IsString k bytesOf xs s ∧ input = s ++ rest := by
  have hchunk := chunkParse_parses (by omega : k < 8) hbytes
  cases input with
  | nil =>
      constructor
      · nofun
      · rintro ⟨s, hs, hinput⟩
        obtain ⟨b, t, rfl, -⟩ := hs.starts (by omega)
        cases hinput
  | cons b after =>
      simp only [stringParse]
      split_ifs with hindef
      · subst hindef
        constructor
        · intro h
          obtain ⟨parts, hparts, rfl⟩ :=
            (chunksParse_iff hk hbytes (Nat.le_refl _)).mp (Except.ok.inj h)
          refine ⟨_, .indefinite xs parts hparts, ?_⟩
          simp
        · rintro ⟨s, hs, hinput⟩
          cases hs with
          | definite x s hx =>
              obtain ⟨c, t, rfl, -, hinfo⟩ := hx.starts (by omega)
              obtain ⟨rfl, -⟩ := List.cons.inj hinput
              rw [info_initial (by omega)] at hinfo
              omega
          | indefinite xs parts hparts =>
              obtain ⟨-, rfl⟩ := List.cons.inj hinput
              refine congrArg Except.ok ((chunksParse_iff hk hbytes (Nat.le_refl _)).mpr ?_)
              exact ⟨parts, hparts, by simp⟩
      · constructor
        · intro h
          split at h
          · cases h
          · rename_i x left hone
            cases h
            obtain ⟨s, hx, hinput⟩ := (hchunk _ _ _).mp hone
            exact ⟨s, .definite x s hx, hinput⟩
        · rintro ⟨s, hs, hinput⟩
          cases hs with
          | definite x s hx => rw [(hchunk _ _ _).mpr ⟨s, hx, hinput⟩]
          | indefinite xs parts hparts => exact absurd (List.cons.inj hinput).1 hindef

theorem stringParse_iterates (hk : k < 7) (hbytes : ∀ s x, ofBytes s = some x ↔ s = bytesOf x) :
    Iterates k bytesOf (stringParse k ofBytes) := by
  intro input data rest
  constructor
  · rintro ⟨chunks, h, hdata⟩
    obtain ⟨s, hs, hinput⟩ := (stringParse_iff hk hbytes).mp h
    exact ⟨chunks, s, hs, hdata, hinput⟩
  · rintro ⟨chunks, s, hs, hdata, hinput⟩
    exact ⟨chunks, (stringParse_iff hk hbytes).mpr ⟨s, hs, hinput⟩, hdata⟩

end

/-- The bytes of a text, if they are one. -/
def textOf (s : List UInt8) : Option String := String.fromUTF8? ⟨s.toArray⟩

theorem textOf_iff (s : List UInt8) (text : String) : textOf s = some text ↔ s = utf8 text := by
  unfold textOf String.fromUTF8?
  constructor
  · intro h
    split_ifs at h with hvalid
    cases h
    simp [utf8, String.fromUTF8]
  · rintro rfl
    have hbytes : (⟨(utf8 text).toArray⟩ : ByteArray) = text.toByteArray := by
      apply ByteArray.ext
      simp [utf8]
    rw [dif_pos (by rw [hbytes]; exact text.isValidUTF8)]
    apply congrArg some
    apply String.toByteArray_inj.mp
    exact hbytes

/-! ## Types -/

instance (b : UInt8) : (kind : ItemKind) → Decidable (kind.Starts b)
  | .uint | .int | .bytes | .text | .array | .map | .tag | .bool | .null | .undefined | .simple
  | .float => inferInstanceAs (Decidable (_ ∧ _))

/-- The type that the first byte tells; the negative numbers take a look at the next one. -/
def firstType (b : UInt8) : DataType :=
  let byLength (definite indefinite : DataType) : DataType :=
    if info b < 28 then definite else if info b = 31 then indefinite else .unknown b
  match major b with
  | 0 =>
      if info b ≤ 24 then .u8 else if info b = 25 then .u16 else if info b = 26 then .u32
      else if info b = 27 then .u64 else .unknown b
  | 1 => if info b < 28 then .i8 else .unknown b
  | 2 => byLength .bytes .bytesIndef
  | 3 => byLength .string .stringIndef
  | 4 => byLength .array .arrayIndef
  | 5 => byLength .map .mapIndef
  | 6 => if info b < 28 then .tag else .unknown b
  | _ =>
      if info b < 20 then .simple else if info b ≤ 21 then .bool else if info b = 22 then .null
      else if info b = 23 then .undefined else if info b = 24 then .simple
      else if info b = 25 then .f16 else if info b = 26 then .f32 else if info b = 27 then .f64
      else if info b = 31 then .brk else .unknown b

/-- The type of a negative number with its argument in the bytes after the head. -/
def signedType (info : Nat) (next : UInt8) : DataType :=
  if info = 24 then if next < 0x80 then .i8 else .i16
  else if info = 25 then if next < 0x80 then .i16 else .i32
  else if info = 26 then if next < 0x80 then .i32 else .i64
  else if next < 0x80 then .i64 else .int

def typeOf : List UInt8 → Except DecodeError DataType
  | [] => .error .endOfInput
  | b :: rest =>
      if major b = 1 ∧ 24 ≤ info b ∧ info b < 28 then
        match rest with
        | [] => .error .endOfInput
        | next :: _ => .ok (signedType (info b) next)
      else .ok (firstType b)

def ItemKind.all : List ItemKind :=
  [.uint, .int, .bytes, .text, .array, .map, .tag, .bool, .null, .undefined, .simple, .float]

theorem firstType_kind (b : UInt8) (kind : ItemKind) :
    (firstType b).kind = some kind ↔ kind.Starts b := by
  have hall : ∀ i : Fin 256, ∀ kind ∈ ItemKind.all,
      (firstType (UInt8.ofFin i)).kind = some kind ↔ kind.Starts (UInt8.ofFin i) := by
    decide +kernel
  have hmem : kind ∈ ItemKind.all := by cases kind <;> simp [ItemKind.all]
  exact hall b.toFin kind hmem

theorem firstType_brk (b : UInt8) : firstType b = .brk ↔ b = 0xff := by
  have hall : ∀ i : Fin 256, firstType (UInt8.ofFin i) = .brk ↔ UInt8.ofFin i = 0xff := by
    decide +kernel
  exact hall b.toFin

theorem signedType_kind (i : Nat) (next : UInt8) : (signedType i next).kind = some .int := by
  unfold signedType
  split_ifs <;> rfl

theorem typeOf_ok {input : List UInt8} {ty : DataType} (h : typeOf input = .ok ty) :
    ∃ b rest, input = b :: rest ∧ (∀ kind, ty.kind = some kind ↔ kind.Starts b) ∧
      (ty = .brk ↔ b = 0xff) := by
  cases input with
  | nil => cases h
  | cons b rest =>
      refine ⟨b, rest, rfl, ?_⟩
      simp only [typeOf] at h
      split_ifs at h with hneg
      · split at h
        · cases h
        · rename_i next after
          obtain rfl := Except.ok.inj h
          have hfirst : (firstType b).kind = some .int :=
            (firstType_kind b .int).mpr ⟨hneg.1, hneg.2.2⟩
          constructor
          · intro kind
            rw [signedType_kind, ← hfirst]
            exact firstType_kind b kind
          · constructor
            · intro hbrk
              have hkind := signedType_kind (info b) next
              rw [hbrk] at hkind
              cases hkind
            · rintro rfl
              rw [(firstType_brk 0xff).mpr rfl] at hfirst
              cases hfirst
      · cases h
        exact ⟨firstType_kind b, firstType_brk b⟩

theorem typeOf_head (k : Nat) (w : Width) (n : Nat) (rest : List UInt8) (hk : k < 8)
    (hfits : w.Fits n) : ∃ ty, typeOf (head k w n ++ rest) = .ok ty := by
  have hinfo := w.info_lt hfits
  have hlt : w.info n < 32 := by omega
  simp only [head, List.cons_append, typeOf, major_initial hk hlt, info_initial hlt]
  split_ifs with hneg
  · cases w with
    | immediate =>
        have hge : 24 ≤ n := hneg.2.1
        exact absurd hfits (Nat.not_lt.mpr hge)
    | one | two | four | eight => exact ⟨_, rfl⟩
  · exact ⟨_, rfl⟩

theorem typeOf_indefinite (k : Nat) (rest : List UInt8) (hk : k ∈ [2, 3, 4, 5, 7]) :
    ∃ ty, typeOf (initial k 31 :: rest) = .ok ty := by
  have hlt : k < 8 := by
    simp only [List.mem_cons, List.not_mem_nil, or_false] at hk
    omega
  have hinfo : info (initial k 31) = 31 := info_initial (by omega)
  refine ⟨firstType (initial k 31), ?_⟩
  simp only [typeOf]
  exact if_neg (by omega)

/-! ## The parser -/

/-- A length that is left open. -/
def indefiniteParse (k : Nat) : Parse (Option UInt64)
  | [] => .error .endOfInput
  | b :: rest => if b = initial k 31 then .ok (none, rest) else .error (.other "no container")

def lengthParse (k : Nat) : Parse (Option UInt64) :=
  orParse (headParse k fun _ n => some (some (.ofNat n))) (indefiniteParse k)

def floatOf : Width → Nat → Option F64
  | .two, n => some (float 5 10 n)
  | .four, n => some (float 8 23 n)
  | .eight, n => some (float 11 52 n)
  | _, _ => none

def simpleOf : Width → Nat → Option UInt8
  | .immediate, n => if n < 20 then some (.ofNat n) else none
  | .one, n => if 32 ≤ n then some (.ofNat n) else none
  | _, _ => none

/-- The value of the simple value `code`. -/
def constantOf {α : Type} (code : Nat) (x : α) : Width → Nat → Option α
  | .immediate, n => if n = code then some x else none
  | _, _ => none

def unsignedOf (_ : Width) (n : Nat) : Option UInt64 := some (.ofNat n)

def nonnegOf (_ : Width) (n : Nat) : Option Int64 :=
  if n < 2 ^ 63 then some (.ofInt n) else none

def negOf (_ : Width) (n : Nat) : Option Int64 :=
  if n < 2 ^ 63 then some (.ofInt (-1 - n)) else none

def boolOf : Width → Nat → Option Bool
  | .immediate, n => if n = 20 then some false else if n = 21 then some true else none
  | _, _ => none

def skipBreak : Parse Unit
  | [] => .error .endOfInput
  | b :: rest => if b = 0xff then .ok ((), rest) else .error (.other "no break")

/-- A parser that goes by the heads. -/
def Minicbor.byHeads : Minicbor where
  datatype := typeOf
  u64 := headParse 0 unsignedOf
  i64 := orParse (headParse 0 nonnegOf) (headParse 1 negOf)
  f64 := headParse 7 floatOf
  bool := headParse 7 boolOf
  null := headParse 7 (constantOf 22 ())
  undefined := headParse 7 (constantOf 23 ())
  simple := headParse 7 simpleOf
  bytesIter := stringParse 2 some
  strIter := stringParse 3 textOf
  array := lengthParse 4
  map := lengthParse 5
  tag := headParse 6 unsignedOf
  skip := skipBreak
  encU64 n := head 0 (.least n.toNat) n.toNat
  encI64 v :=
    if 0 ≤ v.toInt then head 0 (.least v.toInt.toNat) v.toInt.toNat
    else head 1 (.least (-1 - v.toInt).toNat) (-1 - v.toInt).toNat
  encArray n := head 4 (.least n.toNat) n.toNat
  encBytes data := head 2 (.least data.length) data.length ++ data
  encStr text := head 3 (.least (utf8 text).length) (utf8 text).length ++ utf8 text

/-- The argument of a head fits in 64 bits. -/
theorem fits_lt {w : Width} {n : Nat} (h : w.Fits n) : n < 2 ^ 64 := by
  cases w with
  | immediate => exact Nat.lt_trans h (by decide)
  | one => exact Nat.lt_trans h (by decide)
  | two => exact Nat.lt_trans h (by decide)
  | four => exact Nat.lt_trans h (by decide)
  | eight => exact h

theorem unsigned_parses {k : Nat} (hk : k < 8) :
    Parses (headParse k unsignedOf) fun n s => IsHead k n.toNat s := by
  refine (headParse_parses hk unsignedOf).of_iff fun x s => ?_
  constructor
  · rintro ⟨w, n, hfits, hvalue, rfl⟩
    cases hvalue
    have hback : (UInt64.ofNat n).toNat = n := by
      rw [UInt64.toNat_ofNat']
      exact Nat.mod_eq_of_lt (fits_lt hfits)
    exact ⟨w, by rwa [hback], by rw [hback]⟩
  · rintro ⟨w, hfits, rfl⟩
    exact ⟨w, x.toNat, hfits, by simp [unsignedOf], rfl⟩

theorem constant_parses {α : Type} {code : Nat} (hcode : code < 24) (x : α) :
    Parses (headParse 7 (constantOf code x)) fun y s => s = head 7 .immediate code ∧ y = x := by
  refine (headParse_parses (by omega) _).of_iff fun y s => ?_
  constructor
  · rintro ⟨w, n, hfits, hvalue, rfl⟩
    unfold constantOf at hvalue
    split at hvalue
    · split_ifs at hvalue with hn
      cases hvalue
      exact ⟨by rw [hn], rfl⟩
    · cases hvalue
  · rintro ⟨rfl, rfl⟩
    exact ⟨.immediate, code, hcode, if_pos rfl, rfl⟩

theorem bool_parses :
    Parses (headParse 7 boolOf) fun b s => s = head 7 .immediate (20 + b.toNat) := by
  refine (headParse_parses (by omega) _).of_iff fun b s => ?_
  constructor
  · rintro ⟨w, n, hfits, hvalue, rfl⟩
    unfold boolOf at hvalue
    split at hvalue
    · split_ifs at hvalue with hfalse htrue <;> cases hvalue
      · rw [hfalse]
        rfl
      · rw [htrue]
        rfl
    · cases hvalue
  · rintro rfl
    refine ⟨.immediate, 20 + b.toNat, ?_, ?_, rfl⟩
    · show 20 + b.toNat < 24
      cases b <;> decide
    · cases b <;> rfl

theorem simple_parses : Parses (headParse 7 simpleOf) IsSimple := by
  refine (headParse_parses (by omega) _).of_iff fun x s => ?_
  constructor
  · rintro ⟨w, n, hfits, hvalue, rfl⟩
    unfold simpleOf at hvalue
    split at hvalue
    · split_ifs at hvalue with hlt
      cases hvalue
      have hback : (UInt8.ofNat n).toNat = n := by
        rw [UInt8.toNat_ofNat']
        omega
      have hsimple := IsSimple.short (.ofNat n) (by rwa [hback])
      rwa [hback] at hsimple
    · split_ifs at hvalue with hge
      cases hvalue
      have hback : (UInt8.ofNat n).toNat = n := by
        rw [UInt8.toNat_ofNat']
        exact Nat.mod_eq_of_lt hfits
      have hsimple := IsSimple.long (.ofNat n) (by rwa [hback])
      rwa [hback] at hsimple
    · cases hvalue
  · intro h
    cases h with
    | short h =>
        refine ⟨.immediate, x.toNat, ?_, ?_, rfl⟩
        · show x.toNat < 24
          omega
        · simp [simpleOf, h]
    | long h => exact ⟨.one, x.toNat, x.toNat_lt, by simp [simpleOf, h], rfl⟩

theorem float_parses : Parses (headParse 7 floatOf) IsFloat := by
  refine (headParse_parses (by omega) _).of_iff fun x s => ?_
  constructor
  · rintro ⟨w, n, hfits, hvalue, rfl⟩
    cases w with
    | immediate => cases hvalue
    | one => cases hvalue
    | two =>
        cases hvalue
        exact .half n hfits
    | four =>
        cases hvalue
        exact .single n hfits
    | eight =>
        cases hvalue
        exact .double n hfits
  · intro h
    cases h with
    | half n h => exact ⟨.two, n, h, rfl, rfl⟩
    | single n h => exact ⟨.four, n, h, rfl, rfl⟩
    | double n h => exact ⟨.eight, n, h, rfl, rfl⟩

/-- The two forms of a signed number. -/
theorem signed_parses : Parses (orParse (headParse 0 nonnegOf) (headParse 1 negOf)) fun v s =>
    (∃ n : Nat, IsHead 0 n s ∧ v.toInt = n) ∨ ∃ n : Nat, IsHead 1 n s ∧ v.toInt = -1 - n := by
  have hnonneg : Parses (headParse 0 nonnegOf) fun v s =>
      ∃ n : Nat, IsHead 0 n s ∧ v.toInt = n := by
    refine (headParse_parses (by omega) _).of_iff fun v s => ?_
    constructor
    · rintro ⟨w, n, hfits, hvalue, rfl⟩
      unfold nonnegOf at hvalue
      split_ifs at hvalue with hlt
      cases hvalue
      exact ⟨n, ⟨w, hfits, rfl⟩, Int64.toInt_ofInt_of_le (by omega) (by omega)⟩
    · rintro ⟨n, ⟨w, hfits, rfl⟩, hv⟩
      have hlt : v.toInt < 2 ^ 63 := v.toInt_lt
      refine ⟨w, n, hfits, ?_, rfl⟩
      rw [nonnegOf, if_pos (by omega), ← hv, Int64.ofInt_toInt]
  have hneg : Parses (headParse 1 negOf) fun v s =>
      ∃ n : Nat, IsHead 1 n s ∧ v.toInt = -1 - n := by
    refine (headParse_parses (by omega) _).of_iff fun v s => ?_
    constructor
    · rintro ⟨w, n, hfits, hvalue, rfl⟩
      unfold negOf at hvalue
      split_ifs at hvalue with hlt
      cases hvalue
      exact ⟨n, ⟨w, hfits, rfl⟩, Int64.toInt_ofInt_of_le (by omega) (by omega)⟩
    · rintro ⟨n, ⟨w, hfits, rfl⟩, hv⟩
      have hge : -2 ^ 63 ≤ v.toInt := v.le_toInt
      refine ⟨w, n, hfits, ?_, rfl⟩
      rw [negOf, if_pos (by omega), ← hv, Int64.ofInt_toInt]
  refine orParse_parses hnonneg hneg ?_
  rintro x y s t rest rest' ⟨n, hs, -⟩ ⟨k, ht, -⟩ hinput
  obtain ⟨b, s, rfl, hmajor, -⟩ := hs.starts (by omega)
  obtain ⟨c, t, rfl, hmajor', -⟩ := ht.starts (by omega)
  obtain ⟨rfl, -⟩ := List.cons.inj hinput
  omega

theorem length_parses {k : Nat} (hk : k < 8) : Parses (lengthParse k) (IsLength k) := by
  have hdefinite : Parses (headParse k fun _ n => some (some (UInt64.ofNat n))) fun len s =>
      ∃ n : UInt64, len = some n ∧ IsHead k n.toNat s := by
    refine (headParse_parses hk _).of_iff fun len s => ?_
    constructor
    · rintro ⟨w, n, hfits, hvalue, rfl⟩
      cases hvalue
      have hback : (UInt64.ofNat n).toNat = n := by
        rw [UInt64.toNat_ofNat']
        exact Nat.mod_eq_of_lt (fits_lt hfits)
      exact ⟨_, rfl, w, by rwa [hback], by rw [hback]⟩
    · rintro ⟨n, rfl, w, hfits, rfl⟩
      exact ⟨w, n.toNat, hfits, by simp, rfl⟩
  have hopen : Parses (indefiniteParse k) fun len s => len = none ∧ s = [initial k 31] := by
    intro input len rest
    cases input with
    | nil =>
        constructor
        · intro h
          cases h
        · rintro ⟨s, ⟨-, rfl⟩, hinput⟩
          cases hinput
    | cons b after =>
        simp only [indefiniteParse]
        split_ifs with hb
        · constructor
          · intro h
            cases h
            exact ⟨[b], ⟨rfl, by rw [hb]⟩, rfl⟩
          · rintro ⟨s, ⟨rfl, rfl⟩, hinput⟩
            obtain ⟨-, rfl⟩ := List.cons.inj hinput
            rfl
        · constructor
          · intro h
            cases h
          · rintro ⟨s, ⟨-, rfl⟩, hinput⟩
            exact absurd (List.cons.inj hinput).1 hb
  refine (orParse_parses hdefinite hopen ?_).of_iff fun len s => ?_
  · rintro x y s t rest rest' ⟨n, -, hs⟩ ⟨-, rfl⟩ hinput
    obtain ⟨b, s, rfl, -, hinfo⟩ := hs.starts hk
    obtain ⟨rfl, -⟩ := List.cons.inj hinput
    rw [info_initial (by omega)] at hinfo
    omega
  · cases len with
    | none =>
        constructor
        · rintro (⟨n, ⟨⟩, -⟩ | ⟨-, hs⟩)
          exact hs
        · exact fun hs => .inr ⟨rfl, hs⟩
    | some count =>
        constructor
        · rintro (⟨n, hn, hs⟩ | ⟨⟨⟩, -⟩)
          cases hn
          exact hs
        · exact fun hs => .inl ⟨count, rfl, hs⟩

theorem byHeads_conforms : Minicbor.byHeads.Conforms where
  datatype _ _ h := typeOf_ok h
  datatype_head := typeOf_head
  datatype_indefinite := typeOf_indefinite
  u64 := unsigned_parses (by omega)
  i64 := signed_parses
  f64 := float_parses
  bool := bool_parses
  null := (constant_parses (by omega) ()).of_iff fun _ _ => and_iff_left rfl
  undefined := (constant_parses (by omega) ()).of_iff fun _ _ => and_iff_left rfl
  simple := simple_parses
  bytesIter := stringParse_iterates (by omega) fun _ _ => Option.some_inj
  strIter := stringParse_iterates (by omega) textOf_iff
  array := length_parses (by omega)
  map := length_parses (by omega)
  tag := unsigned_parses (by omega)
  skip_break _ := rfl
  encU64 _ := rfl
  encI64_nonneg _ h := if_pos h
  encI64_neg _ h := if_neg (by omega)
  encArray _ := rfl
  encBytes _ := rfl
  encStr _ := rfl

end VeSmart.Protocol
