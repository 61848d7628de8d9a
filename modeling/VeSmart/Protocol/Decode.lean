import VeSmart.Protocol.Items

set_option autoImplicit false

/-! # The decoder is exact

`itemAt_reads` says of one item at any depth, and `decodeStream_iff` of a whole stream, that the
decoder takes exactly the encodings within the bounds. -/

namespace VeSmart.Protocol

open VeSmart.Lib VeSmart.Lib.Cbor

variable {m : Minicbor}

/-! ## Items and what is inside them -/

/-- An item that a decoder accepts at its place. -/
def Admitted (p : Nat × Item) : Prop :=
  p.1 ≤ maxDepth ∧ p.2.stringBytes ≤ maxStringBytes ∧ p.2.members ≤ maxArrayLen

theorem Item.mem_nested (item : Item) (depth : Nat) : (depth, item) ∈ item.nested depth := by
  cases item <;> simp [Item.nested]

/-- The encodings that the decoder takes for items at a depth. -/
def itemText (depth : Nat) : Grammar Item UInt8 := fun item s n =>
  Encodes item s ∧ n = (item.nested depth).length ∧ ∀ p ∈ item.nested depth, Admitted p

/-- Those of the entries of a map. -/
def entryText (depth : Nat) : Grammar (Item × Item) UInt8 := fun e s n =>
  ∃ t u k l, itemText depth e.1 t k ∧ itemText depth e.2 u l ∧ s = t ++ u ∧ n = k + l

/-- The first byte of an item tells its kind. -/
theorem Encodes.starts {item : Item} {s : List UInt8} (h : Encodes item s) :
    ∃ b rest, s = b :: rest ∧ item.kind.Starts b := by
  have hplain : ∀ i, i < 24 → ∃ b rest, head 7 .immediate i = b :: rest ∧ major b = 7 ∧
      info b = i := fun i hi => ⟨_, _, rfl, major_initial (by omega) (show i < 32 by omega),
        info_initial (show i < 32 by omega)⟩
  cases h with
  | uint n s h => exact h.starts (by omega)
  | int v n s h hv => exact h.starts (by omega)
  | bytes chunks s h => exact h.starts (by omega)
  | text text chunks s h htext => exact h.starts (by omega)
  | array items parts s hitems h => exact h.starts (by omega)
  | map entries parts s hmembers h => exact h.starts (by omega)
  | tag tag item hd s hhd hitem =>
      obtain ⟨b, rest, rfl, hstart⟩ := hhd.starts (by omega)
      exact ⟨b, _, rfl, hstart⟩
  | bool b =>
      obtain ⟨c, rest, hc, hmajor, hinfo⟩ := hplain (20 + b.toNat) (by cases b <;> decide)
      refine ⟨c, rest, hc, hmajor, ?_⟩
      cases b with
      | false => exact .inl hinfo
      | true => exact .inr hinfo
  | null => exact hplain 22 (by omega)
  | undefined => exact hplain 23 (by omega)
  | simple n s h => exact h.starts
  | float x s h => exact h.starts

/-! ## Calls of the parser -/

section

variable {α : Type} {parse : Parse α} {G : α → List UInt8 → Prop}

theorem call_ok {d d' : StreamDecoder} {x : α} :
    d.call parse = .ok (x, d') ↔ parse d.input = .ok (x, d'.input) ∧ d'.budget = d.budget := by
  unfold StreamDecoder.call
  split
  · rename_i e he
    rw [he]
    constructor
    · nofun
    · rintro ⟨⟨⟩, -⟩
  · rename_i y rest hparse
    rw [hparse]
    constructor
    · intro h
      cases h
      exact ⟨rfl, rfl⟩
    · rintro ⟨h, hbudget⟩
      cases h
      rw [← hbudget]

/-- A call takes a value of the grammar and leaves the budget. -/
theorem Parses.call (h : Parses parse G) :
    Reads (StreamDecoder.call parse) fun x s n => G x s ∧ n = 0 := by
  intro d x d'
  rw [call_ok, h]
  constructor
  · rintro ⟨⟨s, hG, hinput⟩, hbudget⟩
    exact ⟨s, 0, ⟨hG, rfl⟩, hinput, hbudget.symm⟩
  · rintro ⟨s, n, ⟨hG, rfl⟩, hinput, hbudget⟩
    exact ⟨⟨s, hG, hinput⟩, hbudget.symm⟩

/-- What a type of strings provides: its values are put together as their bytes are. -/
structure Concatenates [Append α] (bytesOf : α → List UInt8) (size : α → Nat) (empty : α) :
    Prop where
  size : ∀ x, size x = (bytesOf x).length
  append : ∀ x y, bytesOf (x ++ y) = bytesOf x ++ bytesOf y
  empty : bytesOf empty = []
  injective : Function.Injective bytesOf

theorem concatenates_bytes :
    Concatenates (α := List UInt8) id List.length [] :=
  ⟨fun _ => rfl, fun _ _ => rfl, rfl, Function.injective_id⟩

theorem utf8_append (s t : String) : utf8 (s ++ t) = utf8 s ++ utf8 t := by
  simp [utf8, String.toByteArray_append]

theorem utf8_injective : Function.Injective utf8 := by
  intro s t h
  apply String.toByteArray_inj.mp
  apply ByteArray.ext
  exact Array.toList_inj.mp h

theorem concatenates_text : Concatenates utf8 String.utf8ByteSize "" :=
  ⟨fun s => by rw [← String.size_toByteArray]; simp [utf8], utf8_append, rfl, utf8_injective⟩

variable [Append α] {bytesOf : α → List UInt8} {size : α → Nat} {empty : α}

theorem joinChunks_ok {limit : String} (hα : Concatenates bytesOf size empty) {chunks : List α} {buf x : α}
    {last : Except DecodeError (List UInt8)} {rest : List UInt8}
    (hbuf : (bytesOf buf).length ≤ maxStringBytes) :
    joinChunks size limit buf chunks last = .ok (x, rest) ↔
      last = .ok rest ∧ bytesOf x = bytesOf buf ++ chunks.flatMap bytesOf ∧
        (bytesOf x).length ≤ maxStringBytes := by
  induction chunks generalizing buf with
  | nil =>
      rw [List.flatMap_nil, List.append_nil]
      cases last with
      | error e =>
          constructor
          · nofun
          · rintro ⟨⟨⟩, -⟩
      | ok left =>
          constructor
          · intro h
            cases h
            exact ⟨rfl, rfl, hbuf⟩
          · rintro ⟨⟨⟩, hx, -⟩
            rw [hα.injective hx]
            rfl
  | cons c chunks ih =>
      have happend := hα.append buf c
      have hlength : (bytesOf (buf ++ c)).length = size buf + size c := by
        rw [happend, List.length_append, hα.size, hα.size]
      unfold joinChunks
      split_ifs with hover
      · -- the piece does not fit, and no longer string does
        constructor
        · nofun
        · rintro ⟨-, hx, hle⟩
          rw [hx, List.flatMap_cons, ← List.append_assoc, ← happend, List.length_append,
            hlength] at hle
          omega
      · rw [ih (by omega), happend, List.flatMap_cons, List.append_assoc]

/-- A string is taken if it is not too long. -/
theorem Iterates.string (limit : String) (hα : Concatenates bytesOf size empty) {k : Nat}
    {iter : List UInt8 → Except DecodeError (List α × Except DecodeError (List UInt8))}
    (h : Iterates k bytesOf iter) :
    Reads (StreamDecoder.string size limit empty iter) fun x s n =>
      (∃ chunks, IsString k bytesOf chunks s ∧ chunks.flatMap bytesOf = bytesOf x) ∧
        (bytesOf x).length ≤ maxStringBytes ∧ n = 0 := by
  have hempty : (bytesOf empty).length ≤ maxStringBytes := by
    rw [hα.empty]
    exact Nat.zero_le _
  intro d x d'
  have hiter := h d.input (bytesOf x) d'.input
  unfold StreamDecoder.string
  split
  · rename_i e he
    constructor
    · nofun
    · rintro ⟨s, n, ⟨⟨chunks, hstr, hdata⟩, -, -⟩, hinput, -⟩
      obtain ⟨chunks', hok, -⟩ := hiter.mpr ⟨chunks, s, hstr, hdata, hinput⟩
      rw [he] at hok
      cases hok
  · rename_i chunks last hok
    simp only [bind_eq_ok]
    constructor
    · rintro ⟨⟨y, rest⟩, hjoin, hval⟩
      cases hval
      obtain ⟨rfl, hx, hle⟩ := (joinChunks_ok hα hempty).mp hjoin
      rw [hα.empty, List.nil_append] at hx
      obtain ⟨chunks', s, hstr, hdata, hinput⟩ := hiter.mp ⟨chunks, hok, hx.symm⟩
      exact ⟨s, 0, ⟨⟨chunks', hstr, hdata⟩, hle, rfl⟩, hinput, rfl⟩
    · rintro ⟨s, n, ⟨⟨chunks', hstr, hdata⟩, hle, rfl⟩, hinput, hbudget⟩
      obtain ⟨chunks'', hok', hdata'⟩ := hiter.mpr ⟨chunks', s, hstr, hdata, hinput⟩
      rw [hok] at hok'
      cases hok'
      refine ⟨(x, d'.input), (joinChunks_ok hα hempty).mpr ⟨rfl, ?_, hle⟩, ?_⟩
      · rw [hα.empty, List.nil_append, hdata']
      · show Except.ok (x, (⟨d'.input, d.budget⟩ : StreamDecoder)) = _
        rw [hbudget]
        rfl

end

/-! ## Containers -/

/-- The type that is seen in front of an item. -/
theorem Encodes.datatype (hm : m.Conforms) {item : Item} {s : List UInt8} (h : Encodes item s)
    (rest : List UInt8) : ∃ ty, m.datatype (s ++ rest) = .ok ty ∧ ty.kind = some item.kind := by
  have hhead : ∀ {k n : Nat} {t : List UInt8}, k < 8 → IsHead k n t → ∀ after,
      ∃ ty, m.datatype (t ++ after) = .ok ty := by
    rintro k n t hk ⟨w, hfits, rfl⟩ after
    exact hm.datatype_head k w n after hk hfits
  have hplain : ∀ i, i < 24 → ∃ ty, m.datatype (head 7 .immediate i ++ rest) = .ok ty :=
    fun i hi => hm.datatype_head 7 .immediate i rest (by omega) hi
  have hcontainer : ∀ {k n : Nat} {body t : List UInt8}, k ∈ [2, 3, 4, 5, 7] → k < 8 →
      IsContainer k n body t → ∃ ty, m.datatype (t ++ rest) = .ok ty := by
    intro k n body t hk hlt hcont
    cases hcont with
    | definite t ht =>
        rw [List.append_assoc]
        exact hhead hlt ht _
    | indefinite => exact hm.datatype_indefinite k _ hk
  have hstring : ∀ {α : Type} {k : Nat} {bytesOf : α → List UInt8} {xs : List α}
      {t : List UInt8}, k ∈ [2, 3, 4, 5, 7] → k < 8 → IsString k bytesOf xs t →
      ∃ ty, m.datatype (t ++ rest) = .ok ty := by
    intro α k bytesOf xs t hk hlt hstr
    cases hstr with
    | definite x t hchunk =>
        obtain ⟨t, ht, rfl⟩ := hchunk
        rw [List.append_assoc]
        exact hhead hlt ht _
    | indefinite xs parts hparts => exact hm.datatype_indefinite k _ hk
  have hok : ∃ ty, m.datatype (s ++ rest) = .ok ty := by
    cases h with
    | uint n s h => exact hhead (by omega) h rest
    | int v n s h hv => exact hhead (by omega) h rest
    | bytes chunks s h => exact hstring (by decide) (by omega) h
    | text text chunks s h htext => exact hstring (by decide) (by omega) h
    | array items parts s hitems h => exact hcontainer (by decide) (by omega) h
    | map entries parts s hmembers h => exact hcontainer (by decide) (by omega) h
    | tag tag item t s ht hitem =>
        rw [List.append_assoc]
        exact hhead (by omega) ht _
    | bool b => exact hplain _ (by cases b <;> decide)
    | null => exact hplain 22 (by omega)
    | undefined => exact hplain 23 (by omega)
    | simple n s h =>
        cases h with
        | short h => exact hplain _ (by omega)
        | long h => exact hm.datatype_head 7 .one _ rest (by omega) n.toNat_lt
    | float x s h =>
        cases h with
        | half n h => exact hm.datatype_head 7 .two n rest (by omega) h
        | single n h => exact hm.datatype_head 7 .four n rest (by omega) h
        | double n h => exact hm.datatype_head 7 .eight n rest (by omega) h
  obtain ⟨ty, hty⟩ := hok
  obtain ⟨b, after, rfl, hstart⟩ := h.starts
  obtain ⟨b', after', hcons, hkind, -⟩ := hm.datatype _ ty hty
  obtain ⟨rfl, -⟩ := List.cons.inj hcons
  exact ⟨ty, hty, (hkind _).mpr hstart⟩

theorem atBreak_of_datatype {d : StreamDecoder} {ty : DataType}
    (hty : m.datatype d.input = .ok ty) :
    m.atBreak d = if ty = .brk then StreamDecoder.call m.skip d >>= fun r => .ok (some r.2)
      else .ok none := by
  unfold Minicbor.atBreak
  rw [hty]

/-- A break is the end of a container, and no item starts with one. -/
theorem stops_atBreak (hm : m.Conforms) {α : Type} {G : Grammar α UInt8}
    (hG : ∀ x s n, G x s n → ∃ item t u, Encodes item t ∧ s = t ++ u) :
    Stops m.atBreak [0xff] G := by
  constructor
  · intro d d'
    constructor
    · intro h
      cases hty : m.datatype d.input with
      | error e =>
          unfold Minicbor.atBreak at h
          rw [hty] at h
          cases h
      | ok ty =>
        rw [atBreak_of_datatype hty] at h
        split_ifs at h with hbrk
        · rw [bind_eq_ok] at h
          obtain ⟨⟨u, dskip⟩, hskip, hval⟩ := h
          cases hval
          obtain ⟨b, rest, hinput, -, hb⟩ := hm.datatype _ ty hty
          obtain rfl := hb.mp hbrk
          rw [call_ok, hinput, hm.skip_break] at hskip
          obtain ⟨hrest, hbudget⟩ := hskip
          cases hrest
          exact ⟨hinput, hbudget.symm⟩
        · cases h
    · rintro ⟨hinput, hbudget⟩
      have hbreak : initial 7 31 = 0xff := by decide
      obtain ⟨ty, hty⟩ := hm.datatype_indefinite 7 d'.input (by decide)
      rw [hbreak] at hty
      obtain ⟨b, rest, hcons, -, hb⟩ := hm.datatype _ ty hty
      obtain ⟨rfl, -⟩ := List.cons.inj hcons
      have hskip : StreamDecoder.call m.skip d = .ok ((), d') := by
        rw [call_ok, hinput]
        exact ⟨hm.skip_break _, hbudget.symm⟩
      rw [← List.singleton_append, ← hinput] at hty
      rw [atBreak_of_datatype hty, if_pos (hb.mpr rfl), hskip]
      rfl
  · intro x s n d d' hx htake
    obtain ⟨item, t, u, hitem, rfl⟩ := hG x s n hx
    obtain ⟨hinput, -⟩ := htake
    obtain ⟨ty, hty, hkind⟩ := hitem.datatype hm (u ++ d'.input)
    rw [← List.append_assoc, ← hinput] at hty
    rw [atBreak_of_datatype hty]
    exact if_neg (by rintro rfl; cases hkind)

/-- What comes after the head of a container of `n` members with the text `body`. -/
def IsBody (n : Nat) (body : List UInt8) : Option UInt64 → List UInt8 → Prop
  | some count, s => n = count.toNat ∧ s = body
  | none, s => s = body ++ [0xff]

/-- The members of a container of the length `len`, or up to a break. -/
def membersText {α : Type} (G : Grammar α UInt8) (len : Option UInt64) :
    Grammar (List α) UInt8 := fun xs s n =>
  xs.length ≤ maxArrayLen ∧ ∃ t, Series G xs t n ∧ IsBody xs.length t len s

/-- The head and the body are the container. -/
theorem isContainer_iff {k n : Nat} {body s : List UInt8} (hn : n ≤ maxArrayLen) :
    (∃ len t u, IsLength k len t ∧ IsBody n body len u ∧ s = t ++ u) ↔
      IsContainer k n body s := by
  constructor
  · rintro ⟨len, t, u, hlen, hbody, rfl⟩
    cases len with
    | some count =>
        obtain ⟨rfl, rfl⟩ := hbody
        exact .definite t hlen
    | none =>
        obtain rfl := hlen
        obtain rfl := hbody
        exact .indefinite
  · intro h
    cases h with
    | definite t ht =>
        have hcount : (UInt64.ofNat n).toNat = n := by
          rw [UInt64.toNat_ofNat']
          simp only [maxArrayLen] at hn
          omega
        refine ⟨some (.ofNat n), t, body, ?_, ⟨hcount.symm, rfl⟩, rfl⟩
        show IsHead k (UInt64.ofNat n).toNat t
        rwa [hcount]
    | indefinite => exact ⟨none, [initial k 31], _, rfl, rfl, rfl⟩

theorem elements_reads (hm : m.Conforms) {α : Type} {G : Grammar α UInt8}
    (hG : ∀ x s n, G x s n → ∃ item t u, Encodes item t ∧ s = t ++ u)
    {element : StreamDecoder → Except ProtocolError (α × StreamDecoder)}
    (h : Reads element G) (limit : String) (len : Option UInt64) :
    Reads (m.elements limit element len) (membersText G len) := by
  cases len with
  | some count =>
      intro d xs d'
      show (if count.toNat > maxArrayLen then .error (.cbor limit)
        else readTimes element count.toNat d) = _ ↔ _
      split_ifs with hover
      · constructor
        · nofun
        · rintro ⟨s, n, ⟨hle, t, -, hlength, -⟩, -⟩
          omega
      · rw [h.times count.toNat]
        constructor
        · rintro ⟨s, n, ⟨hlength, hseries⟩, htake⟩
          exact ⟨s, n, ⟨by omega, s, hseries, hlength, rfl⟩, htake⟩
        · rintro ⟨s, n, ⟨-, t, hseries, hlength, rfl⟩, htake⟩
          exact ⟨s, n, ⟨hlength, hseries⟩, htake⟩
  | none => exact h.until (stops_atBreak hm hG) maxArrayLen

/-- A row of items is the encodings of the items. -/
theorem series_items {depth n : Nat} {items : List Item} {t : List UInt8} :
    Series (itemText depth) items t n ↔
      EncodesAll items t ∧ n = (nestedAll depth items).length ∧
        ∀ p ∈ nestedAll depth items, Admitted p := by
  induction items generalizing t n with
  | nil =>
      constructor
      · intro h
        cases h
        exact ⟨⟨[], .nil, rfl⟩, rfl, nofun⟩
      · rintro ⟨⟨parts, hparts, rfl⟩, rfl, -⟩
        cases hparts
        exact .nil
  | cons item items ih =>
      constructor
      · intro h
        cases h with
        | cons hitem hrest =>
            obtain ⟨henc, rfl, hadm⟩ := hitem
            obtain ⟨⟨parts, hparts, rfl⟩, rfl, hadm'⟩ := ih.mp hrest
            refine ⟨⟨_, .cons henc hparts, rfl⟩, ?_, ?_⟩
            · rw [nestedAll, List.length_append]
            · rw [nestedAll]
              exact List.forall_mem_append.mpr ⟨hadm, hadm'⟩
      · rintro ⟨⟨parts, hparts, rfl⟩, rfl, hadm⟩
        cases hparts with
        | cons henc hparts =>
            rw [nestedAll] at hadm ⊢
            obtain ⟨hadm, hadm'⟩ := List.forall_mem_append.mp hadm
            rw [List.length_append]
            exact .cons ⟨henc, rfl, hadm⟩ (ih.mpr ⟨⟨_, hparts, rfl⟩, rfl, hadm'⟩)

/-- A row of entries is the encodings of the keys and values. -/
theorem series_entries {depth n : Nat} {entries : List (Item × Item)} {t : List UInt8} :
    Series (entryText depth) entries t n ↔
      EncodesAll (members entries) t ∧ n = (nestedEntries depth entries).length ∧
        ∀ p ∈ nestedEntries depth entries, Admitted p := by
  induction entries generalizing t n with
  | nil =>
      constructor
      · intro h
        cases h
        exact ⟨⟨[], .nil, rfl⟩, rfl, nofun⟩
      · rintro ⟨⟨parts, hparts, rfl⟩, rfl, -⟩
        cases hparts
        exact .nil
  | cons e entries ih =>
      obtain ⟨key, value⟩ := e
      constructor
      · intro h
        cases h with
        | cons hentry hrest =>
            obtain ⟨t, u, k, l, ⟨hkey, rfl, hadmk⟩, ⟨hvalue, rfl, hadmv⟩, rfl, rfl⟩ := hentry
            obtain ⟨⟨parts, hparts, rfl⟩, rfl, hadm⟩ := ih.mp hrest
            refine ⟨⟨_, .cons hkey (.cons hvalue hparts), ?_⟩, ?_, ?_⟩
            · rw [List.append_assoc]
              rfl
            · rw [nestedEntries, List.length_append, List.length_append]
            · rw [nestedEntries]
              exact List.forall_mem_append.mpr ⟨List.forall_mem_append.mpr ⟨hadmk, hadmv⟩, hadm⟩
      · rintro ⟨⟨parts, hparts, rfl⟩, rfl, hadm⟩
        cases hparts with
        | cons hkey hparts =>
            cases hparts with
            | cons hvalue hparts =>
                rw [nestedEntries] at hadm ⊢
                obtain ⟨hentry, hadm⟩ := List.forall_mem_append.mp hadm
                obtain ⟨hadmk, hadmv⟩ := List.forall_mem_append.mp hentry
                rw [List.length_append, List.length_append, List.flatten_cons, List.flatten_cons,
                  ← List.append_assoc]
                exact .cons ⟨_, _, _, _, ⟨hkey, rfl, hadmk⟩, ⟨hvalue, rfl, hadmv⟩, rfl, rfl⟩
                  (ih.mpr ⟨⟨_, hparts, rfl⟩, rfl, hadm⟩)

/-! ## One item -/

section

variable {depth : Nat}

/-- What an item of the kind takes, apart from the unit that it costs itself. -/
def bodyText (depth : Nat) (kind : Option ItemKind) : Grammar Item UInt8 := fun item s n =>
  kind = some item.kind ∧ Encodes item s ∧ n + 1 = (item.nested depth).length ∧
    ∀ p ∈ item.nested depth, Admitted p

/-- A reader of values whose items have nothing inside them. -/
theorem scalar_reads {α : Type} {f : StreamDecoder → Except ProtocolError (α × StreamDecoder)}
    {G : α → List UInt8 → Prop} {kind : ItemKind} (mk : α → Item)
    (h : Reads f fun x s n => G x s ∧ n = 0) (hdepth : depth ≤ maxDepth)
    (hG : ∀ item s, (∃ x, G x s ∧ item = mk x) ↔
      kind = item.kind ∧ Encodes item s ∧ item.stringBytes ≤ maxStringBytes)
    (hflat : ∀ x, (mk x).nested depth = [(depth, mk x)] ∧ (mk x).members = 0) :
    Reads (fun d => f d >>= fun r => .ok (mk r.1, r.2)) (bodyText depth (some kind)) := by
  refine (h.map mk).of_iff fun item s n => ?_
  constructor
  · rintro ⟨x, ⟨hx, rfl⟩, rfl⟩
    obtain ⟨hkind, henc, hsize⟩ := (hG (mk x) s).mp ⟨x, hx, rfl⟩
    obtain ⟨hnested, hmembers⟩ := hflat x
    refine ⟨congrArg some hkind, henc, by rw [hnested]; rfl, ?_⟩
    rw [hnested]
    intro p hp
    obtain rfl := List.mem_singleton.mp hp
    exact ⟨hdepth, hsize, hmembers.trans_le (Nat.zero_le _)⟩
  · rintro ⟨hkind, henc, hn, hadm⟩
    have hsize : item.stringBytes ≤ maxStringBytes := by
      have hself : (depth, item) ∈ item.nested depth := item.mem_nested depth
      exact (hadm _ hself).2.1
    obtain ⟨x, hx, rfl⟩ := (hG item s).mpr ⟨Option.some.inj hkind, henc, hsize⟩
    obtain ⟨hnested, -⟩ := hflat x
    rw [hnested] at hn
    exact ⟨x, ⟨hx, Nat.succ.inj hn⟩, rfl⟩

variable {nested : StreamDecoder → Except ProtocolError (Item × StreamDecoder)} {ty : DataType}

theorem uint_reads (hm : m.Conforms) (hdepth : depth ≤ maxDepth) :
    Reads (fun d => StreamDecoder.call m.u64 d >>= fun r => .ok (.uint r.1, r.2))
      (bodyText depth (some .uint)) := by
  refine scalar_reads .uint hm.u64.call hdepth (fun item s => ?_) fun _ => ⟨rfl, rfl⟩
  constructor
  · rintro ⟨x, hx, rfl⟩
    exact ⟨rfl, .uint x s hx, Nat.zero_le _⟩
  · rintro ⟨hkind, henc, -⟩
    cases henc with
    | uint n s h => exact ⟨n, h, rfl⟩
    | _ => cases hkind

theorem float_reads (hm : m.Conforms) (hdepth : depth ≤ maxDepth) :
    Reads (fun d => StreamDecoder.call m.f64 d >>= fun r => .ok (.float r.1, r.2))
      (bodyText depth (some .float)) := by
  refine scalar_reads .float hm.f64.call hdepth (fun item s => ?_) fun _ => ⟨rfl, rfl⟩
  constructor
  · rintro ⟨x, hx, rfl⟩
    exact ⟨rfl, .float x s hx, Nat.zero_le _⟩
  · rintro ⟨hkind, henc, -⟩
    cases henc with
    | float x s h => exact ⟨x, h, rfl⟩
    | _ => cases hkind

theorem bool_reads (hm : m.Conforms) (hdepth : depth ≤ maxDepth) :
    Reads (fun d => StreamDecoder.call m.bool d >>= fun r => .ok (.bool r.1, r.2))
      (bodyText depth (some .bool)) := by
  refine scalar_reads .bool hm.bool.call hdepth (fun item s => ?_) fun _ => ⟨rfl, rfl⟩
  constructor
  · rintro ⟨b, rfl, rfl⟩
    exact ⟨rfl, .bool b, Nat.zero_le _⟩
  · rintro ⟨hkind, henc, -⟩
    cases henc with
    | bool b => exact ⟨b, rfl, rfl⟩
    | _ => cases hkind

theorem null_reads (hm : m.Conforms) (hdepth : depth ≤ maxDepth) :
    Reads (fun d => StreamDecoder.call m.null d >>= fun r => .ok (.null, r.2))
      (bodyText depth (some .null)) := by
  refine scalar_reads (fun _ => Item.null) hm.null.call hdepth (fun item s => ?_)
    fun _ => ⟨rfl, rfl⟩
  constructor
  · rintro ⟨_, rfl, rfl⟩
    exact ⟨rfl, .null, Nat.zero_le _⟩
  · rintro ⟨hkind, henc, -⟩
    cases henc with
    | null => exact ⟨(), rfl, rfl⟩
    | _ => cases hkind

theorem undefined_reads (hm : m.Conforms) (hdepth : depth ≤ maxDepth) :
    Reads (fun d => StreamDecoder.call m.undefined d >>= fun r => .ok (.undefined, r.2))
      (bodyText depth (some .undefined)) := by
  refine scalar_reads (fun _ => Item.undefined) hm.undefined.call hdepth
    (fun item s => ?_) fun _ => ⟨rfl, rfl⟩
  constructor
  · rintro ⟨_, rfl, rfl⟩
    exact ⟨rfl, .undefined, Nat.zero_le _⟩
  · rintro ⟨hkind, henc, -⟩
    cases henc with
    | undefined => exact ⟨(), rfl, rfl⟩
    | _ => cases hkind

theorem simple_reads (hm : m.Conforms) (hdepth : depth ≤ maxDepth) :
    Reads (fun d => StreamDecoder.call m.simple d >>= fun r => .ok (.simple r.1, r.2))
      (bodyText depth (some .simple)) := by
  refine scalar_reads .simple hm.simple.call hdepth (fun item s => ?_) fun _ => ⟨rfl, rfl⟩
  constructor
  · rintro ⟨n, hn, rfl⟩
    exact ⟨rfl, .simple n s hn, Nat.zero_le _⟩
  · rintro ⟨hkind, henc, -⟩
    cases henc with
    | simple n s h => exact ⟨n, h, rfl⟩
    | _ => cases hkind

theorem bytes_reads (hm : m.Conforms) (hdepth : depth ≤ maxDepth) (limit : String) :
    Reads (fun d => StreamDecoder.string List.length limit [] m.bytesIter d >>=
      fun r => .ok (.bytes r.1, r.2)) (bodyText depth (some .bytes)) := by
  have hstring := (hm.bytesIter.string limit concatenates_bytes).of_iff
    fun _ _ _ => and_assoc.symm
  refine scalar_reads .bytes hstring hdepth (fun item s => ?_) fun _ => ⟨rfl, rfl⟩
  constructor
  · rintro ⟨data, ⟨⟨chunks, hstr, hdata⟩, hsize⟩, rfl⟩
    obtain rfl : chunks.flatMap id = data := hdata
    exact ⟨rfl, .bytes chunks s hstr, hsize⟩
  · rintro ⟨hkind, henc, hsize⟩
    cases henc with
    | bytes chunks s h => exact ⟨_, ⟨⟨chunks, h, rfl⟩, hsize⟩, rfl⟩
    | _ => cases hkind

theorem text_reads (hm : m.Conforms) (hdepth : depth ≤ maxDepth) (limit : String) :
    Reads (fun d => StreamDecoder.string String.utf8ByteSize limit "" m.strIter d >>=
      fun r => .ok (.text r.1, r.2)) (bodyText depth (some .text)) := by
  have hstring := (hm.strIter.string limit concatenates_text).of_iff
    fun _ _ _ => and_assoc.symm
  refine scalar_reads .text hstring hdepth (fun item s => ?_) fun _ => ⟨rfl, rfl⟩
  constructor
  · rintro ⟨text, ⟨⟨chunks, hstr, htext⟩, hsize⟩, rfl⟩
    rw [← concatenates_text.size] at hsize
    exact ⟨rfl, .text text chunks s hstr htext, hsize⟩
  · rintro ⟨hkind, henc, hsize⟩
    cases henc with
    | text text chunks s h htext =>
        have hbytes : (utf8 text).length ≤ maxStringBytes := by
          rw [← concatenates_text.size]
          exact hsize
        exact ⟨text, ⟨⟨chunks, h, htext⟩, hbytes⟩, rfl⟩
    | _ => cases hkind

/-- Behind the type of a negative number the parser finds no other one. -/
theorem int_reads (hm : m.Conforms) (hdepth : depth ≤ maxDepth) {d d' : StreamDecoder}
    {item : Item} (hty : m.datatype d.input = .ok ty) (hkind : ty.kind = some .int) :
    (StreamDecoder.call m.i64 d >>= fun r => .ok (.int r.1, r.2)) = .ok (item, d') ↔
      ∃ s n, bodyText depth (some .int) item s n ∧ Takes s n d d' := by
  have hreads := (hm.i64.call).map Item.int d item d'
  refine hreads.trans ?_
  constructor
  · rintro ⟨s, n, ⟨v, ⟨hv, rfl⟩, rfl⟩, htake⟩
    rcases hv with ⟨k, hhead, -⟩ | ⟨k, hhead, hv⟩
    · obtain ⟨b, rest, rfl, hmajor, -⟩ := hhead.starts (by omega)
      obtain ⟨b', rest', hinput, hstart, -⟩ := hm.datatype _ ty hty
      rw [htake.1, List.cons_append] at hinput
      obtain ⟨rfl, -⟩ := List.cons.inj hinput
      have hint : major b = 1 := ((hstart .int).mp hkind).1
      omega
    · refine ⟨s, 0, ⟨rfl, .int v k s hhead hv, rfl, ?_⟩, htake⟩
      intro p hp
      obtain rfl := List.mem_singleton.mp hp
      exact ⟨hdepth, Nat.zero_le _, Nat.zero_le _⟩
  · rintro ⟨s, n, ⟨hint, henc, hn, -⟩, htake⟩
    cases henc with
    | int v k s h hv => exact ⟨s, n, ⟨v, ⟨.inr ⟨k, h, hv⟩, Nat.succ.inj hn⟩, rfl⟩, htake⟩
    | _ => cases hint

/-- An item with others inside it, and what is said of those. -/
theorem bodyText_iff {kind : ItemKind} (item : Item) {inner : List (Nat × Item)}
    {s : List UInt8} {n : Nat} (hnested : item.nested depth = (depth, item) :: inner)
    (hdepth : depth ≤ maxDepth) (hkind : kind = item.kind) (hsize : item.stringBytes = 0) :
    bodyText depth (some kind) item s n ↔
      Encodes item s ∧ item.members ≤ maxArrayLen ∧ n = inner.length ∧
        ∀ p ∈ inner, Admitted p := by
  unfold bodyText
  rw [hnested, List.length_cons, List.forall_mem_cons, hkind]
  constructor
  · rintro ⟨-, henc, hn, ⟨-, -, hmembers⟩, hadm⟩
    exact ⟨henc, hmembers, Nat.succ.inj hn, hadm⟩
  · rintro ⟨henc, hmembers, rfl, hadm⟩
    exact ⟨rfl, henc, rfl, ⟨hdepth, hsize.trans_le (Nat.zero_le _), hmembers⟩, hadm⟩

theorem array_reads (hm : m.Conforms) (hdepth : depth ≤ maxDepth)
    (hnested : Reads nested (itemText (depth + 1))) (limit : String) :
    Reads (fun d => StreamDecoder.call m.array d >>= fun r =>
      m.elements limit nested r.1 r.2 >>= fun q => .ok (.array q.1, q.2))
      (bodyText depth (some .array)) := by
  have hitems : ∀ x s n, itemText (depth + 1) x s n → ∃ item t u, Encodes item t ∧ s = t ++ u :=
    fun x s n h => ⟨x, s, [], h.1, (List.append_nil s).symm⟩
  refine (hm.array.call.bind fun len =>
    (elements_reads hm hitems hnested limit len).map Item.array).of_iff fun item s n => ?_
  constructor
  · rintro ⟨len, t, u, k, l, ⟨hlen, rfl⟩, ⟨items, ⟨hroom, body, hseries, hbody⟩, rfl⟩, rfl, rfl⟩
    obtain ⟨⟨parts, hparts, rfl⟩, rfl, hadm⟩ := series_items.mp hseries
    have hcont := (isContainer_iff hroom).mp ⟨len, t, u, hlen, hbody, rfl⟩
    refine (bodyText_iff (.array items) rfl hdepth rfl rfl).mpr ⟨.array items parts _ hparts hcont, hroom, ?_⟩
    exact ⟨Nat.zero_add _, hadm⟩
  · intro h
    obtain ⟨hkind, henc, -⟩ := id h
    cases henc with
    | array items parts s hparts hcont =>
        obtain ⟨-, hroom, rfl, hadm⟩ := (bodyText_iff (.array items) rfl hdepth rfl rfl).mp h
        obtain ⟨len, t, u, hlen, hbody, rfl⟩ := (isContainer_iff hroom).mpr hcont
        have hseries := series_items.mpr ⟨⟨parts, hparts, rfl⟩, rfl, hadm⟩
        exact ⟨len, t, u, 0, _, ⟨hlen, rfl⟩, ⟨items, ⟨hroom, _, hseries, hbody⟩, rfl⟩, rfl,
          (Nat.zero_add _).symm⟩
    | _ => cases hkind

theorem entry_reads (hnested : Reads nested (itemText depth)) :
    Reads (Minicbor.entry nested) (entryText depth) := by
  refine (hnested.bind fun k => hnested.map fun v => (k, v)).of_iff fun e s n => ?_
  constructor
  · rintro ⟨key, t, u, k, l, hkey, ⟨value, hvalue, rfl⟩, rfl, rfl⟩
    exact ⟨t, u, k, l, hkey, hvalue, rfl, rfl⟩
  · rintro ⟨t, u, k, l, hkey, hvalue, rfl, rfl⟩
    exact ⟨e.1, t, u, k, l, hkey, ⟨e.2, hvalue, rfl⟩, rfl, rfl⟩

theorem map_reads (hm : m.Conforms) (hdepth : depth ≤ maxDepth)
    (hnested : Reads nested (itemText (depth + 1))) (limit : String) :
    Reads (fun d => StreamDecoder.call m.map d >>= fun r =>
      m.elements limit (Minicbor.entry nested) r.1 r.2 >>= fun q => .ok (.map q.1, q.2))
      (bodyText depth (some .map)) := by
  have hentries : ∀ x s n, entryText (depth + 1) x s n →
      ∃ item t u, Encodes item t ∧ s = t ++ u := by
    rintro x s n ⟨t, u, k, l, hkey, -, hs, -⟩
    exact ⟨x.1, t, u, hkey.1, hs⟩
  refine (hm.map.call.bind fun len =>
    (elements_reads hm hentries (entry_reads hnested) limit len).map Item.map).of_iff
      fun item s n => ?_
  constructor
  · rintro ⟨len, t, u, k, l, ⟨hlen, rfl⟩, ⟨entries, ⟨hroom, body, hseries, hbody⟩, rfl⟩, rfl, rfl⟩
    obtain ⟨⟨parts, hparts, rfl⟩, rfl, hadm⟩ := series_entries.mp hseries
    have hcont := (isContainer_iff hroom).mp ⟨len, t, u, hlen, hbody, rfl⟩
    refine (bodyText_iff (.map entries) rfl hdepth rfl rfl).mpr ⟨.map entries parts _ hparts hcont, hroom, ?_⟩
    exact ⟨Nat.zero_add _, hadm⟩
  · intro h
    obtain ⟨hkind, henc, -⟩ := id h
    cases henc with
    | map entries parts s hparts hcont =>
        obtain ⟨-, hroom, rfl, hadm⟩ := (bodyText_iff (.map entries) rfl hdepth rfl rfl).mp h
        obtain ⟨len, t, u, hlen, hbody, rfl⟩ := (isContainer_iff hroom).mpr hcont
        have hseries := series_entries.mpr ⟨⟨parts, hparts, rfl⟩, rfl, hadm⟩
        exact ⟨len, t, u, 0, _, ⟨hlen, rfl⟩, ⟨entries, ⟨hroom, _, hseries, hbody⟩, rfl⟩, rfl,
          (Nat.zero_add _).symm⟩
    | _ => cases hkind

theorem tag_reads (hm : m.Conforms) (hdepth : depth ≤ maxDepth)
    (hnested : Reads nested (itemText (depth + 1))) :
    Reads (fun d => StreamDecoder.call m.tag d >>= fun r =>
      nested r.2 >>= fun q => .ok (.tag r.1 q.1, q.2)) (bodyText depth (some .tag)) := by
  refine (hm.tag.call.bind fun tag => hnested.map fun inner => Item.tag tag inner).of_iff
    fun item s n => ?_
  constructor
  · rintro ⟨tag, t, u, k, l, ⟨hhead, rfl⟩, ⟨inner, ⟨henc, rfl, hadm⟩, rfl⟩, rfl, rfl⟩
    refine (bodyText_iff (.tag tag inner) rfl hdepth rfl rfl).mpr ⟨.tag tag inner t u hhead henc, Nat.zero_le _, ?_⟩
    exact ⟨Nat.zero_add _, hadm⟩
  · intro h
    obtain ⟨hkind, henc, -⟩ := id h
    cases henc with
    | tag tag inner t u hhead hinner =>
        obtain ⟨-, -, rfl, hadm⟩ := (bodyText_iff (.tag tag inner) rfl hdepth rfl rfl).mp h
        exact ⟨tag, t, u, 0, _, ⟨hhead, rfl⟩, ⟨inner, ⟨hinner, rfl, hadm⟩, rfl⟩, rfl,
          (Nat.zero_add _).symm⟩
    | _ => cases hkind

/-- What is decoded behind each type. -/
theorem itemOf_iff (hm : m.Conforms) (hdepth : depth ≤ maxDepth)
    (hnested : Reads nested (itemText (depth + 1))) {d d' : StreamDecoder} {item : Item}
    (hty : m.datatype d.input = .ok ty) :
    m.itemOf nested ty d = .ok (item, d') ↔
      ∃ s n, bodyText depth ty.kind item s n ∧ Takes s n d d' := by
  cases ty with
  | u8 | u16 | u32 | u64 => exact uint_reads hm hdepth d item d'
  | i8 | i16 | i32 | i64 | int => exact int_reads hm hdepth hty rfl
  | f16 | f32 | f64 => exact float_reads hm hdepth d item d'
  | bool => exact bool_reads hm hdepth d item d'
  | null => exact null_reads hm hdepth d item d'
  | undefined => exact undefined_reads hm hdepth d item d'
  | simple => exact simple_reads hm hdepth d item d'
  | bytes | bytesIndef => exact bytes_reads hm hdepth _ d item d'
  | string | stringIndef => exact text_reads hm hdepth _ d item d'
  | array | arrayIndef => exact array_reads hm hdepth hnested _ d item d'
  | map | mapIndef => exact map_reads hm hdepth hnested _ d item d'
  | tag => exact tag_reads hm hdepth hnested d item d'
  | brk | unknown b =>
      constructor
      · nofun
      · rintro ⟨s, n, ⟨⟨⟩, -⟩, -⟩

/-- The decoder takes the encodings of an item, at any depth; an item that would be too deep has
none. -/
theorem itemAt_reads (hm : m.Conforms) (levels : Nat) (hlevels : levels + depth = maxDepth + 1) :
    Reads (m.itemAt levels) (itemText depth) := by
  induction levels generalizing depth with
  | zero =>
      intro d item d'
      constructor
      · intro h
        cases h
      · rintro ⟨s, n, ⟨-, -, hadm⟩, -⟩
        have hle : depth ≤ maxDepth := (hadm _ (item.mem_nested depth)).1
        omega
  | succ levels ih =>
      have hdepth : depth ≤ maxDepth := by omega
      have hnested : Reads (m.itemAt levels) (itemText (depth + 1)) := ih (by omega)
      intro d item d'
      have hpos : 0 < (item.nested depth).length :=
        List.length_pos_of_mem (item.mem_nested depth)
      unfold Minicbor.itemAt
      split_ifs with hbudget
      · constructor
        · intro h
          cases h
        · rintro ⟨s, n, ⟨-, rfl, -⟩, -, hspent⟩
          omega
      cases hty : m.datatype d.input with
      | error e =>
          constructor
          · intro h
            cases h
          · rintro ⟨s, n, ⟨henc, -, -⟩, hinput, -⟩
            obtain ⟨ty, hok, -⟩ := henc.datatype hm d'.input
            rw [← hinput, hty] at hok
            cases hok
      | ok ty =>
          -- the unit of the item itself is spent first
          refine (itemOf_iff (d := ⟨d.input, d.budget - 1⟩) hm hdepth hnested hty).trans ?_
          constructor
          · rintro ⟨s, n, ⟨-, henc, hn, hadm⟩, hinput, hspent⟩
            refine ⟨s, n + 1, ⟨henc, hn, hadm⟩, hinput, ?_⟩
            change d.budget - 1 = d'.budget + n at hspent
            omega
          · rintro ⟨s, n, ⟨henc, rfl, hadm⟩, hinput, hspent⟩
            obtain ⟨ty', hty', hkind⟩ := henc.datatype hm d'.input
            rw [← hinput, hty] at hty'
            cases hty'
            refine ⟨s, (item.nested depth).length - 1, ⟨hkind, henc, by omega, hadm⟩, hinput, ?_⟩
            change d.budget - 1 = d'.budget + ((item.nested depth).length - 1)
            omega

end

end VeSmart.Protocol
