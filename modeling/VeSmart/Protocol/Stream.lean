import VeSmart.Protocol.Decode
import VeSmart.Protocol.Minicbor

set_option autoImplicit false

/-! # Streams

The loop over a stream, from `itemAt_reads`: `decodeStream_exact` says which streams are accepted,
and as what. -/

namespace VeSmart.Protocol

open VeSmart.Lib VeSmart.Lib.Cbor

variable {m : Minicbor}

/-! ## The members of a container are among the nested items -/

theorem length_le_nestedAll (depth : Nat) (items : List Item) :
    items.length ≤ (nestedAll depth items).length := by
  induction items with
  | nil => exact Nat.le_refl _
  | cons item items ih =>
      have hpos : 0 < (item.nested depth).length :=
        List.length_pos_of_mem (item.mem_nested depth)
      rw [nestedAll, List.length_append, List.length_cons]
      omega

theorem length_le_nestedEntries (depth : Nat) (entries : List (Item × Item)) :
    entries.length ≤ (nestedEntries depth entries).length := by
  induction entries with
  | nil => exact Nat.le_refl _
  | cons e entries ih =>
      have hpos : 0 < (e.1.nested depth).length := List.length_pos_of_mem (e.1.mem_nested depth)
      obtain ⟨key, value⟩ := e
      rw [nestedEntries, List.length_append, List.length_append, List.length_cons]
      change 0 < (key.nested depth).length at hpos
      omega

/-- No container among the items has more members than there are items. -/
def MembersCounted (all : List (Nat × Item)) : Prop := ∀ p ∈ all, p.2.members ≤ all.length

theorem MembersCounted.cons {inner : List (Nat × Item)} (h : MembersCounted inner) (depth : Nat)
    {item : Item} (hitem : item.members ≤ inner.length) :
    MembersCounted ((depth, item) :: inner) := by
  intro p hp
  rw [List.length_cons]
  cases hp with
  | head => exact hitem.trans (Nat.le_succ _)
  | tail _ hp => exact (h p hp).trans (Nat.le_succ _)

theorem MembersCounted.append {all rest : List (Nat × Item)} (h : MembersCounted all)
    (h' : MembersCounted rest) : MembersCounted (all ++ rest) := by
  intro p hp
  rw [List.length_append]
  rcases List.mem_append.mp hp with hp | hp
  · exact (h p hp).trans (Nat.le_add_right _ _)
  · exact (h' p hp).trans (Nat.le_add_left _ _)

mutual

theorem nested_counted (depth : Nat) : ∀ item : Item, MembersCounted (item.nested depth)
  | .array items => (nestedAll_counted (depth + 1) items).cons depth (length_le_nestedAll _ items)
  | .map entries =>
      (nestedEntries_counted (depth + 1) entries).cons depth (length_le_nestedEntries _ entries)
  | .tag _ item => (nested_counted (depth + 1) item).cons depth (Nat.zero_le _)
  | .uint _ | .int _ | .bytes _ | .text _ | .bool _ | .null | .undefined | .simple _
  | .float _ => (show MembersCounted [] from nofun).cons depth (Nat.zero_le _)

theorem nestedAll_counted (depth : Nat) :
    ∀ items : List Item, MembersCounted (nestedAll depth items)
  | [] => nofun
  | item :: items => (nested_counted depth item).append (nestedAll_counted depth items)

theorem nestedEntries_counted (depth : Nat) :
    ∀ entries : List (Item × Item), MembersCounted (nestedEntries depth entries)
  | [] => nofun
  | (k, v) :: entries =>
      ((nested_counted depth k).append (nested_counted depth v)).append
        (nestedEntries_counted depth entries)

end

theorem Bounded.admitted {items : List Item} (h : Bounded items) :
    ∀ p ∈ nestedAll 0 items, Admitted p := by
  intro p hp
  have hmembers := nestedAll_counted 0 items p hp
  have hcount : (nestedAll 0 items).length ≤ maxArrayLen :=
    h.count.trans (show maxItems ≤ maxArrayLen by decide)
  exact ⟨h.depth p hp, h.strings p hp, hmembers.trans hcount⟩

/-! ## A stream -/

theorem decodeFrom_nil {d : StreamDecoder} : m.decodeFrom d = .ok [] ↔ d.input = [] := by
  rw [Minicbor.decodeFrom]
  split_ifs with hinput
  · exact iff_of_true rfl hinput
  · refine iff_of_false ?_ hinput
    split
    · intro h
      cases h
    · intro h
      obtain ⟨items, -, hval⟩ := bind_eq_ok.mp h
      cases hval

theorem decodeFrom_cons {d : StreamDecoder} {item : Item} {items : List Item} :
    m.decodeFrom d = .ok (item :: items) ↔
      ∃ d', m.itemAt (maxDepth + 1) d = .ok (item, d') ∧ d.input ≠ [] ∧
        m.decodeFrom d' = .ok items := by
  rw [Minicbor.decodeFrom]
  split_ifs with hinput
  · constructor
    · intro h
      cases h
    · rintro ⟨d', -, hne, -⟩
      exact absurd hinput hne
  · have hnext : m.nextItem d = m.itemAt (maxDepth + 1) d := if_neg hinput
    split
    · rename_i e he
      rw [hnext] at he
      constructor
      · intro h
        cases h
      · rintro ⟨d', hitem, -⟩
        rw [he] at hitem
        cases hitem
    · rename_i x dmid hx
      rw [hnext] at hx
      rw [bind_eq_ok]
      constructor
      · rintro ⟨xs, hrest, hval⟩
        cases hval
        exact ⟨dmid, hx, hinput, hrest⟩
      · rintro ⟨d', hitem, -, hrest⟩
        rw [hx] at hitem
        cases hitem
        exact ⟨items, hrest, rfl⟩

/-- The stream is decoded into the items that it encodes, if the budget suffices. -/
theorem decodeFrom_iff (hm : m.Conforms) {d : StreamDecoder} {items : List Item} :
    m.decodeFrom d = .ok items ↔ ∃ n, Series (itemText 0) items d.input n ∧ n ≤ d.budget := by
  induction items generalizing d with
  | nil =>
      rw [decodeFrom_nil]
      constructor
      · intro h
        rw [h]
        exact ⟨0, .nil, Nat.zero_le _⟩
      · rintro ⟨n, hseries, -⟩
        cases hinput : d.input with
        | nil => rfl
        | cons b rest =>
            rw [hinput] at hseries
            cases hseries
  | cons item items ih =>
      have hreads : Reads (m.itemAt (maxDepth + 1)) (itemText 0) := itemAt_reads hm _ rfl
      rw [decodeFrom_cons]
      constructor
      · rintro ⟨d', hitem, -, hrest⟩
        obtain ⟨s, n, hG, hinput, hspent⟩ := hreads.read hitem
        obtain ⟨k, hseries, hle⟩ := ih.mp hrest
        rw [hinput]
        exact ⟨n + k, .cons hG hseries, by omega⟩
      · rintro ⟨n, hseries, hle⟩
        generalize hinput : d.input = input at hseries
        cases hseries with
        | @cons _ _ s t n k hG hseries =>
            have htake : Takes s n d ⟨t, d.budget - n⟩ := ⟨hinput, by show _ = _ - n + n; omega⟩
            refine ⟨_, hreads.ok hG htake, ?_, ih.mpr ⟨k, hseries, by show k ≤ d.budget - n; omega⟩⟩
            obtain ⟨b, rest, rfl, -⟩ := hG.1.starts
            simp

theorem decodeStream_iff (hm : m.Conforms) {data : List UInt8} {items : List Item} :
    m.decodeStream data = .ok items ↔ EncodesAll items data ∧ Bounded items := by
  unfold Minicbor.decodeStream
  rw [decodeFrom_iff hm]
  constructor
  · rintro ⟨n, hseries, hle⟩
    obtain ⟨hall, rfl, hadm⟩ := series_items.mp hseries
    exact ⟨hall, fun p hp => (hadm p hp).1, hle, fun p hp => (hadm p hp).2.1⟩
  · rintro ⟨hall, hbounded⟩
    exact ⟨_, series_items.mpr ⟨hall, rfl, hbounded.admitted⟩, hbounded.count⟩

/-! ## The encoders -/

/-- Byte strings that are made with the encoders; the length of an array comes before its
elements. -/
inductive Made (m : Minicbor) : List Item → List UInt8 → Prop
  | nil : Made m [] []
  | uint {items : List Item} {s : List UInt8} (n : UInt64) (h : Made m items s) :
      Made m (.uint n :: items) (m.encodeUint n ++ s)
  | nonneg {items : List Item} {s : List UInt8} (v : Int64) (hv : 0 ≤ v.toInt)
      (h : Made m items s) : Made m (.uint (.ofNat v.toInt.toNat) :: items) (m.encodeInt v ++ s)
  | neg {items : List Item} {s : List UInt8} (v : Int64) (hv : v.toInt < 0)
      (h : Made m items s) : Made m (.int v :: items) (m.encodeInt v ++ s)
  | bytes {items : List Item} {s : List UInt8} (data : List UInt8) (h : Made m items s) :
      Made m (.bytes data :: items) (m.encodeBytes data ++ s)
  | text {items : List Item} {s : List UInt8} (text : String) (h : Made m items s) :
      Made m (.text text :: items) (m.encodeText text ++ s)
  | array {elems items : List Item} {t s : List UInt8} (helems : Made m elems t)
      (h : Made m items s) :
      Made m (.array elems :: items) (m.encodeArrayLen elems.length ++ t ++ s)

theorem EncodesAll.cons {item : Item} {items : List Item} {s t : List UInt8} (h : Encodes item s)
    (hrest : EncodesAll items t) : EncodesAll (item :: items) (s ++ t) := by
  obtain ⟨parts, hparts, rfl⟩ := hrest
  exact ⟨s :: parts, .cons h hparts, rfl⟩

theorem isHead_least (k : Nat) {n : Nat} (h : n < 2 ^ 64) : IsHead k n (head k (.least n) n) :=
  ⟨.least n, Width.least_fits h, rfl⟩

/-- What the encoders make are encodings. -/
theorem Made.encodesAll (hm : m.Conforms) {items : List Item} {s : List UInt8}
    (h : Made m items s) {depth : Nat} (hadm : ∀ p ∈ nestedAll depth items, Admitted p) :
    EncodesAll items s := by
  induction h generalizing depth with
  | nil => exact ⟨[], .nil, rfl⟩
  | uint n h ih =>
      rw [nestedAll, List.forall_mem_append] at hadm
      refine .cons (.uint n _ ?_) (ih hadm.2)
      rw [Minicbor.encodeUint, hm.encU64]
      exact isHead_least 0 n.toNat_lt
  | nonneg v hv h ih =>
      rw [nestedAll, List.forall_mem_append] at hadm
      have hlt : v.toInt < 2 ^ 63 := v.toInt_lt
      have hnat : v.toInt.toNat < 2 ^ 64 := by omega
      have hback : (UInt64.ofNat v.toInt.toNat).toNat = v.toInt.toNat := by
        rw [UInt64.toNat_ofNat']
        omega
      refine .cons (.uint _ _ ?_) (ih hadm.2)
      rw [Minicbor.encodeInt, hm.encI64_nonneg v hv, hback]
      exact isHead_least 0 hnat
  | neg v hv h ih =>
      rw [nestedAll, List.forall_mem_append] at hadm
      have hge : -2 ^ 63 ≤ v.toInt := v.le_toInt
      have hnat : (-1 - v.toInt).toNat < 2 ^ 64 := by omega
      refine .cons (.int v (-1 - v.toInt).toNat _ ?_ (by omega)) (ih hadm.2)
      rw [Minicbor.encodeInt, hm.encI64_neg v hv]
      exact isHead_least 1 hnat
  | bytes data h ih =>
      rw [nestedAll, List.forall_mem_append] at hadm
      have hsize : data.length ≤ maxStringBytes := (hadm.1 _ (Item.mem_nested _ _)).2.1
      have hnat : data.length < 2 ^ 64 := hsize.trans_lt (by decide)
      have hone : IsString 2 id [data] (m.encodeBytes data) := by
        rw [Minicbor.encodeBytes, hm.encBytes]
        exact .definite data _ ⟨_, isHead_least 2 hnat, rfl⟩
      have henc := Encodes.bytes [data] _ hone
      rw [List.flatMap_singleton] at henc
      exact .cons henc (ih hadm.2)
  | text text h ih =>
      rw [nestedAll, List.forall_mem_append] at hadm
      have hsize : text.utf8ByteSize ≤ maxStringBytes := (hadm.1 _ (Item.mem_nested _ _)).2.1
      have hnat : (utf8 text).length < 2 ^ 64 := by
        rw [← concatenates_text.size]
        exact hsize.trans_lt (by decide)
      have hone : IsString 3 utf8 [text] (m.encodeText text) := by
        rw [Minicbor.encodeText, hm.encStr]
        exact .definite text _ ⟨_, isHead_least 3 hnat, rfl⟩
      exact .cons (.text text [text] _ hone (List.flatMap_singleton _ _)) (ih hadm.2)
  | @array elems items t s helems h ihelems ih =>
      rw [nestedAll, List.forall_mem_append] at hadm
      have hcount : elems.length ≤ maxArrayLen := (hadm.1 _ (Item.mem_nested _ _)).2.2
      have hlen : (UInt64.ofNat elems.length).toNat = elems.length := by
        rw [UInt64.toNat_ofNat']
        simp only [maxArrayLen] at hcount
        omega
      have hnat : elems.length < 2 ^ 64 := hcount.trans_lt (by decide)
      have hinner : ∀ p ∈ nestedAll (depth + 1) elems, Admitted p := by
        have hall := hadm.1
        rw [Item.nested, List.forall_mem_cons] at hall
        exact hall.2
      obtain ⟨parts, hparts, rfl⟩ := ihelems hinner
      have hcont : IsContainer 4 elems.length parts.flatten
          (m.encodeArrayLen elems.length ++ parts.flatten) := by
        rw [Minicbor.encodeArrayLen, hm.encArray, hlen]
        exact .definite _ (isHead_least 4 hnat)
      exact .cons (.array elems parts _ hparts hcont) (ih hadm.2)

theorem decodeStream_made (hm : m.Conforms) {items : List Item} {data : List UInt8}
    (h : Made m items data) (hbounded : Bounded items) : m.decodeStream data = .ok items :=
  (decodeStream_iff hm).mpr ⟨h.encodesAll hm hbounded.admitted, hbounded⟩

/-- The decoder is exact: what it accepts are the encodings of items within the bounds, and it
gives those items; in particular it reads back what the encoders make. A turn of its loop costs
a unit of the budget, so that it ends on every input. -/
theorem decodeStream_exact (m : Minicbor) (hm : m.Conforms) (data : List UInt8)
    (items : List Item) :
    (m.decodeStream data = .ok items ↔ EncodesAll items data ∧ Bounded items) ∧
      (Made m items data → Bounded items → m.decodeStream data = .ok items) := by
  exact ⟨decodeStream_iff hm, decodeStream_made hm⟩

/-- A request opcode, a negative number and an array with a text, made with the encoders. -/
theorem threeItems_decoded :
    Minicbor.byHeads.decodeStream [0x03, 0x38, 0x63, 0x82, 0x62, 0x68, 0x69, 0x19, 0xed, 0xbb] =
      .ok [.uint 3, .int (-100), .array [.text "hi", .uint 0xedbb]] := by
  refine (decodeStream_exact .byHeads byHeads_conforms _ _).2 ?_ ?_
  · exact .uint 3 (.neg (-100) (by decide) (.array (.text "hi" (.uint 0xedbb .nil)) .nil))
  · constructor <;> decide

end VeSmart.Protocol
