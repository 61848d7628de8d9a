import VeSmart.Protocol.Opcode
import VeSmart.Protocol.Response

set_option autoImplicit false

/-! # Scanning records

A stream of items is a sequence of blocks: an item that opens no record, or a known opcode with
as many parameters as its record has. `parseItems_blocks` says that the scan of a stream is the
scan of its blocks, one after the other, whatever their parameters are. -/

namespace VeSmart.Protocol

/-! ## Blocks -/

/-- The number of parameters of a record. -/
def InOpcode.paramCount : InOpcode → Nat
  | .deviceList => 1
  | .pathList => 2
  | _ => 3

/-- The item of an opcode. -/
def InOpcode.item (op : InOpcode) : Item := .uint op.asU8.toUInt64

inductive Block : List Item → Prop
  | other (item : Item) (h : ∀ op : InOpcode, item ≠ op.item) : Block [item]
  | record (op : InOpcode) (params : List Item) (h : params.length = op.paramCount) :
      Block (op.item :: params)

/-! ## Typed records -/

/-- The parameters have the shape of the record. -/
inductive WellShaped : InOpcode → List Item → Response → Prop
  | deviceList (entries : List Item) (devices : List (UInt64 × UInt64))
      (h : unsignedPairs entries = some devices) :
      WellShaped .deviceList [.array entries] (.deviceList devices)
  | response (inst req : UInt64) (item : Item) (code : UInt8)
      (h : asResponseCode (some item) = some code) :
      WellShaped .response [.uint inst, .uint req, item] (.response inst req (.fromU8 code))
  | value (inst reg : UInt64) (data : List UInt8) (h : reg.toNat < 2 ^ 16) :
      WellShaped .value [.uint inst, .uint reg, .bytes data] (.value inst reg.toUInt16 data)
  | valueResponse (inst reg : UInt64) (item : Item) (code : UInt8)
      (h : asResponseCode (some item) = some code) (hreg : reg.toNat < 2 ^ 16) :
      WellShaped .valueResponse [.uint inst, .uint reg, item]
        (.valueResponse inst reg.toUInt16 (.fromU8 code))
  | pathList (inst : UInt64) (blob : List UInt8) :
      WellShaped .pathList [.uint inst, .bytes blob] (.pathList inst blob)
  | newPath (inst : UInt64) (item : Item) (idx : Int64) (path : String)
      (h : asI64 (some item) = some idx) :
      WellShaped .newPath [.uint inst, item, .text path] (.newPath inst idx path)
  | pathValue (inst : UInt64) (item value : Item) (idx : Int64)
      (h : asI64 (some item) = some idx) :
      WellShaped .pathValue [.uint inst, item, value] (.pathValue inst idx value)
  | pathResponse (inst : UInt64) (item item' : Item) (idx : Int64) (code : UInt8)
      (h : asI64 (some item) = some idx) (hcode : asResponseCode (some item') = some code) :
      WellShaped .pathResponse [.uint inst, item, item'] (.pathResponse inst idx (.fromU8 code))

/-- The parameters have the shape of the record but for a register of more than 16 bits. -/
inductive OutOfRange : InOpcode → List Item → UInt64 → Prop
  | value (inst reg : UInt64) (data : List UInt8) (h : 2 ^ 16 ≤ reg.toNat) :
      OutOfRange .value [.uint inst, .uint reg, .bytes data] reg
  | valueResponse (inst reg : UInt64) (item : Item) (code : UInt8)
      (h : asResponseCode (some item) = some code) (hreg : 2 ^ 16 ≤ reg.toNat) :
      OutOfRange .valueResponse [.uint inst, .uint reg, item] reg

section

variable {op : InOpcode} {params : List Item}

/-- What an opcode and its parameters yield. -/
inductive RecordResult (op : InOpcode) (params : List Item) :
    Except ProtocolError Response → Prop
  | typed (r : Response) (h : WellShaped op params r) : RecordResult op params (.ok r)
  | outOfRange (reg : UInt64) (h : OutOfRange op params reg) :
      RecordResult op params (.error (.registerOutOfRange reg))
  | unknown (hshape : ∀ r, ¬ WellShaped op params r) (hrange : ∀ reg, ¬ OutOfRange op params reg) :
      RecordResult op params (.ok (.unknown op.asU8.toUInt64))

theorem registerOf_cases (reg : UInt64) :
    (reg.toNat < 2 ^ 16 ∧ registerOf reg = .ok reg.toUInt16) ∨
      (2 ^ 16 ≤ reg.toNat ∧ registerOf reg = .error (.registerOutOfRange reg)) := by
  unfold registerOf
  by_cases h : reg.toNat < 2 ^ 16
  · exact .inl ⟨h, if_pos h⟩
  · exact .inr ⟨by omega, if_neg h⟩

/-- The scan of a record reads its parameters and no item after them. -/
def Scans (op : InOpcode) (params s : List Item) : Prop :=
  ∃ result, RecordResult op params result ∧
    recordAt op.asU8.toUInt64 (params ++ s) = result.map fun r => (some r, params.length + 1)

theorem Scans.of {s : List Item}
    (h : ∀ x, recordAt op.asU8.toUInt64 (params ++ s) = x →
      ∃ result, RecordResult op params result ∧
        x = result.map fun r => (some r, params.length + 1)) :
    Scans op params s := h _ rfl

-- A malformed record takes its full width.
example (a : Item) (s : List Item) (h : ∀ n, a ≠ .uint n) :
    recordAt 0x08 (a :: s) = .ok (some (.unknown 0x08), 4) := by
  simp +decide only [recordAt, List.getElem?_cons_zero, List.getElem?_cons_succ, reduceIte]
  split
  · rename_i inst reg data ha hb hc
    cases ha
    exact absurd rfl (h inst)
  · rfl

theorem scans_deviceList (a : Item) (s : List Item) : Scans .deviceList [a] s := by
  refine .of fun x hx => ?_
  have hop : InOpcode.deviceList.asU8.toUInt64 = 0x02 := rfl
  rw [hop] at hx
  simp +decide only [recordAt, List.cons_append, List.nil_append, List.getElem?_cons_zero,
    List.getElem?_cons_succ, reduceIte] at hx
  split at hx
  · rename_i entries ha
    subst hx
    cases ha
    cases hpairs : unsignedPairs entries with
    | some devices => exact ⟨_, .typed _ (.deviceList _ _ hpairs), rfl⟩
    | none =>
        refine ⟨_, .unknown ?_ nofun, rfl⟩
        rintro r ⟨⟩
        rename_i hsome
        rw [hpairs] at hsome
        cases hsome
  · rename_i hnot
    subst hx
    refine ⟨_, .unknown ?_ nofun, rfl⟩
    rintro r ⟨⟩
    exact hnot _ rfl

theorem scans_response (a b c : Item) (s : List Item) : Scans .response [a, b, c] s := by
  refine .of fun x hx => ?_
  have hop : InOpcode.response.asU8.toUInt64 = 0x07 := rfl
  rw [hop] at hx
  simp +decide only [recordAt, List.cons_append, List.nil_append, List.getElem?_cons_zero,
    List.getElem?_cons_succ, reduceIte] at hx
  split at hx
  · rename_i inst req code ha hb hcode
    subst hx
    cases ha
    cases hb
    exact ⟨_, .typed _ (.response _ _ _ _ hcode), rfl⟩
  · rename_i hnot
    subst hx
    refine ⟨_, .unknown ?_ nofun, rfl⟩
    rintro r ⟨⟩
    exact hnot _ _ _ rfl rfl ‹_›

theorem scans_value (a b c : Item) (s : List Item) : Scans .value [a, b, c] s := by
  refine .of fun x hx => ?_
  have hop : InOpcode.value.asU8.toUInt64 = 0x08 := rfl
  rw [hop] at hx
  simp +decide only [recordAt, List.cons_append, List.nil_append, List.getElem?_cons_zero,
    List.getElem?_cons_succ, reduceIte] at hx
  split at hx
  · rename_i inst reg data ha hb hc
    subst hx
    cases ha
    cases hb
    cases hc
    rcases registerOf_cases reg with ⟨hreg, hof⟩ | ⟨hreg, hof⟩
    · exact ⟨_, .typed _ (.value _ _ _ hreg), by rw [hof]; rfl⟩
    · exact ⟨_, .outOfRange _ (.value _ _ _ hreg), by rw [hof]; rfl⟩
  · rename_i hnot
    subst hx
    refine ⟨_, .unknown ?_ ?_, rfl⟩
    · rintro r ⟨⟩
      exact hnot _ _ _ rfl rfl rfl
    · rintro reg ⟨⟩
      exact hnot _ _ _ rfl rfl rfl

theorem scans_valueResponse (a b c : Item) (s : List Item) : Scans .valueResponse [a, b, c] s := by
  refine .of fun x hx => ?_
  have hop : InOpcode.valueResponse.asU8.toUInt64 = 0x09 := rfl
  rw [hop] at hx
  simp +decide only [recordAt, List.cons_append, List.nil_append, List.getElem?_cons_zero,
    List.getElem?_cons_succ, reduceIte] at hx
  split at hx
  · rename_i inst reg code ha hb hcode
    subst hx
    cases ha
    cases hb
    rcases registerOf_cases reg with ⟨hreg, hof⟩ | ⟨hreg, hof⟩
    · exact ⟨_, .typed _ (.valueResponse _ _ _ _ hcode hreg), by rw [hof]; rfl⟩
    · exact ⟨_, .outOfRange _ (.valueResponse _ _ _ _ hcode hreg), by rw [hof]; rfl⟩
  · rename_i hnot
    subst hx
    refine ⟨_, .unknown ?_ ?_, rfl⟩
    · rintro r ⟨⟩
      exact hnot _ _ _ rfl rfl ‹_›
    · rintro reg ⟨⟩
      exact hnot _ _ _ rfl rfl ‹_›

theorem scans_pathList (a b : Item) (s : List Item) : Scans .pathList [a, b] s := by
  refine .of fun x hx => ?_
  have hop : InOpcode.pathList.asU8.toUInt64 = 0x0d := rfl
  rw [hop] at hx
  simp +decide only [recordAt, List.cons_append, List.nil_append, List.getElem?_cons_zero,
    List.getElem?_cons_succ, reduceIte] at hx
  split at hx
  · rename_i inst blob ha hb
    subst hx
    cases ha
    cases hb
    exact ⟨_, .typed _ (.pathList _ _), rfl⟩
  · rename_i hnot
    subst hx
    refine ⟨_, .unknown ?_ nofun, rfl⟩
    rintro r ⟨⟩
    exact hnot _ _ rfl rfl

theorem scans_newPath (a b c : Item) (s : List Item) : Scans .newPath [a, b, c] s := by
  refine .of fun x hx => ?_
  have hop : InOpcode.newPath.asU8.toUInt64 = 0x0e := rfl
  rw [hop] at hx
  simp +decide only [recordAt, List.cons_append, List.nil_append, List.getElem?_cons_zero,
    List.getElem?_cons_succ, reduceIte] at hx
  split at hx
  · rename_i inst idx path ha hidx hc
    subst hx
    cases ha
    cases hc
    exact ⟨_, .typed _ (.newPath _ _ _ _ hidx), rfl⟩
  · rename_i hnot
    subst hx
    refine ⟨_, .unknown ?_ nofun, rfl⟩
    rintro r ⟨⟩
    exact hnot _ _ _ rfl ‹_› rfl

theorem scans_pathValue (a b c : Item) (s : List Item) : Scans .pathValue [a, b, c] s := by
  refine .of fun x hx => ?_
  have hop : InOpcode.pathValue.asU8.toUInt64 = 0x0f := rfl
  rw [hop] at hx
  simp +decide only [recordAt, List.cons_append, List.nil_append, List.getElem?_cons_zero,
    List.getElem?_cons_succ, reduceIte] at hx
  split at hx
  · rename_i inst idx value ha hidx hc
    subst hx
    cases ha
    cases hc
    exact ⟨_, .typed _ (.pathValue _ _ _ _ hidx), rfl⟩
  · rename_i hnot
    subst hx
    refine ⟨_, .unknown ?_ nofun, rfl⟩
    rintro r ⟨⟩
    exact hnot _ _ _ rfl ‹_› rfl

theorem scans_pathResponse (a b c : Item) (s : List Item) : Scans .pathResponse [a, b, c] s := by
  refine .of fun x hx => ?_
  have hop : InOpcode.pathResponse.asU8.toUInt64 = 0x10 := rfl
  rw [hop] at hx
  simp +decide only [recordAt, List.cons_append, List.nil_append, List.getElem?_cons_zero,
    List.getElem?_cons_succ, reduceIte] at hx
  split at hx
  · rename_i inst idx code ha hidx hcode
    subst hx
    cases ha
    exact ⟨_, .typed _ (.pathResponse _ _ _ _ _ hidx hcode), rfl⟩
  · rename_i hnot
    subst hx
    refine ⟨_, .unknown ?_ nofun, rfl⟩
    rintro r ⟨⟩
    exact hnot _ _ _ rfl ‹_› ‹_›

theorem scans_known (op : InOpcode) (params : List Item) (h : params.length = op.paramCount)
    (s : List Item) : Scans op params s := by
  have hone : op.paramCount = 1 → ∃ a, params = [a] := fun hn => List.length_eq_one_iff.mp (h.trans hn)
  have htwo : op.paramCount = 2 → ∃ a b, params = [a, b] :=
    fun hn => List.length_eq_two.mp (h.trans hn)
  have hthree : op.paramCount = 3 → ∃ a b c, params = [a, b, c] :=
    fun hn => List.length_eq_three.mp (h.trans hn)
  cases op with
  | deviceList =>
      obtain ⟨a, rfl⟩ := hone rfl
      exact scans_deviceList a s
  | pathList =>
      obtain ⟨a, b, rfl⟩ := htwo rfl
      exact scans_pathList a b s
  | response =>
      obtain ⟨a, b, c, rfl⟩ := hthree rfl
      exact scans_response a b c s
  | value =>
      obtain ⟨a, b, c, rfl⟩ := hthree rfl
      exact scans_value a b c s
  | valueResponse =>
      obtain ⟨a, b, c, rfl⟩ := hthree rfl
      exact scans_valueResponse a b c s
  | newPath =>
      obtain ⟨a, b, c, rfl⟩ := hthree rfl
      exact scans_newPath a b c s
  | pathValue =>
      obtain ⟨a, b, c, rfl⟩ := hthree rfl
      exact scans_pathValue a b c s
  | pathResponse =>
      obtain ⟨a, b, c, rfl⟩ := hthree rfl
      exact scans_pathResponse a b c s

/-! ## The scan of a stream -/

theorem WellShaped.unique {r r' : Response} (h : WellShaped op params r)
    (h' : WellShaped op params r') : r = r' := by
  cases h <;> cases h' <;> simp_all

theorem OutOfRange.not_wellShaped {reg : UInt64} {r : Response} (h : OutOfRange op params reg) :
    ¬ WellShaped op params r := by
  intro hshape
  cases h <;> cases hshape <;> omega

/-- An opcode and its parameters yield one thing. -/
theorem RecordResult.unique {x y : Except ProtocolError Response}
    (h : RecordResult op params x) (h' : RecordResult op params y) : x = y := by
  cases h with
  | typed r h =>
      cases h' with
      | typed r' h' => rw [h.unique h']
      | outOfRange reg h' => exact absurd h h'.not_wellShaped
      | unknown hshape _ => exact absurd h (hshape r)
  | outOfRange reg h =>
      cases h' with
      | typed r' h' => exact absurd h' h.not_wellShaped
      | outOfRange reg' h' => cases h <;> cases h' <;> rfl
      | unknown _ hrange => exact absurd h (hrange reg)
  | unknown hshape hrange =>
      cases h' with
      | typed r' h' => exact absurd h' (hshape r')
      | outOfRange reg' h' => exact absurd h' (hrange reg')
      | unknown _ _ => rfl

theorem parseItemsFrom_skip (xs s : List Item) :
    parseItemsFrom xs.length (xs ++ s) = Response.parseItems s := by
  induction xs with
  | nil => rfl
  | cons x xs ih => exact ih

/-- The records of a stream before those of another one; the first error wins. -/
def thenRecords (first second : Except ProtocolError (List Response)) :
    Except ProtocolError (List Response) := do
  let records ← first
  let others ← second
  .ok (records ++ others)

theorem thenRecords_nil (x : Except ProtocolError (List Response)) :
    thenRecords x (.ok []) = x := by
  cases x with
  | error e => rfl
  | ok xs => exact congrArg Except.ok (List.append_nil xs)

theorem parseItems_uint (opcode : UInt64) (rest : List Item) :
    Response.parseItems (.uint opcode :: rest) =
      recordAt opcode rest >>= fun r =>
        parseItemsFrom (r.2 - 1) rest >>= fun others => .ok (r.1.toList ++ others) := rfl

/-- A known opcode yields one record or an error, and the scan goes on after its parameters. -/
theorem parseItems_record (h : params.length = op.paramCount) :
    ∃ result, RecordResult op params result ∧ ∀ s,
      Response.parseItems (op.item :: (params ++ s)) =
        thenRecords (result.map fun r => [r]) (Response.parseItems s) := by
  obtain ⟨result, hresult, -⟩ := scans_known op params h []
  refine ⟨result, hresult, fun s => ?_⟩
  obtain ⟨result', hresult', hrecord⟩ := scans_known op params h s
  obtain rfl := hresult.unique hresult'
  rw [InOpcode.item, parseItems_uint, hrecord]
  cases result with
  | error e => rfl
  | ok r =>
      show (parseItemsFrom params.length (params ++ s) >>= fun others =>
        Except.ok ([r] ++ others)) = _
      rw [parseItemsFrom_skip]
      rfl

/-- An item that is no known opcode yields nothing. -/
theorem parseItems_other {item : Item} (h : ∀ op : InOpcode, item ≠ op.item) (s : List Item) :
    Response.parseItems (item :: s) = Response.parseItems s := by
  cases item with
  | uint opcode =>
      have hne : ∀ op : InOpcode, opcode ≠ op.asU8.toUInt64 := by
        rintro op rfl
        exact h op rfl
      have hrecord : recordAt opcode s = .ok (none, 1) := by
        unfold recordAt
        have h2 : opcode ≠ 0x02 := hne .deviceList
        have h7 : opcode ≠ 0x07 := hne .response
        have h8 : opcode ≠ 0x08 := hne .value
        have h9 : opcode ≠ 0x09 := hne .valueResponse
        have hd : opcode ≠ 0x0d := hne .pathList
        have he : opcode ≠ 0x0e := hne .newPath
        have hf : opcode ≠ 0x0f := hne .pathValue
        have h10 : opcode ≠ 0x10 := hne .pathResponse
        simp only [h2, h7, h8, h9, hd, he, hf, h10, if_false]
      rw [parseItems_uint, hrecord]
      show (Response.parseItems s >>= fun others => Except.ok ([] ++ others)) = _
      cases Response.parseItems s <;> rfl
  | _ => rfl

/-- The scan of a block does not depend on what comes after it. -/
theorem Block.append {block : List Item} (h : Block block) (s : List Item) :
    Response.parseItems (block ++ s) =
      thenRecords (Response.parseItems block) (Response.parseItems s) := by
  cases h with
  | other item h =>
      have hone : Response.parseItems [item] = .ok [] := parseItems_other h []
      rw [hone]
      show Response.parseItems (item :: s) = thenRecords (.ok []) _
      rw [parseItems_other h]
      cases Response.parseItems s <;> rfl
  | record op params h =>
      obtain ⟨result, -, hscan⟩ := parseItems_record h
      have halone := hscan []
      rw [List.append_nil] at halone
      rw [List.cons_append, hscan s, halone]
      exact (congrArg (thenRecords · _) (thenRecords_nil _)).symm

/-- The records of the blocks, one block after the other, and then those of the rest. -/
theorem parseItems_blocks (blocks : List (List Item)) (hblocks : ∀ b ∈ blocks, Block b)
    (s : List Item) :
    Response.parseItems (blocks.flatten ++ s) =
      (blocks.map Response.parseItems).foldr thenRecords (Response.parseItems s) := by
  induction blocks with
  | nil => rfl
  | cons b blocks ih =>
      have hrest := ih fun c hc => hblocks c (List.mem_cons_of_mem b hc)
      calc Response.parseItems ((b :: blocks).flatten ++ s)
          = Response.parseItems (b ++ (blocks.flatten ++ s)) := by
            rw [List.flatten_cons, List.append_assoc]
        _ = thenRecords (Response.parseItems b) (Response.parseItems (blocks.flatten ++ s)) :=
            (hblocks b (by simp)).append _
        _ = ((b :: blocks).map Response.parseItems).foldr thenRecords (Response.parseItems s) := by
            rw [hrest]
            rfl

end

/-! ## Records as items -/

def ResponseCode.asU8 : ResponseCode → UInt8
  | .ok => 0
  | .unknown1 => 1
  | .rejected => 2
  | .other code => code

/-- A code that a byte stands for. -/
def ResponseCode.Canonical (code : ResponseCode) : Prop := .fromU8 code.asU8 = code

def ResponseCode.item (code : ResponseCode) : Item := .uint code.asU8.toUInt64

/-- The item of an index; the non-negative ones are unsigned numbers. -/
def indexItem (idx : Int64) : Item := if 0 ≤ idx.toInt then .uint idx.toUInt64 else .int idx

def unsignedItems : List (UInt64 × UInt64) → List Item
  | [] => []
  | (a, b) :: pairs => .uint a :: .uint b :: unsignedItems pairs

/-- The parameters of a record; a record of unknown shape has none. -/
def Response.params : Response → List Item
  | .deviceList devices => [.array (unsignedItems devices)]
  | .response inst req code => [.uint inst, .uint req, code.item]
  | .value inst register data => [.uint inst, .uint register.toUInt64, .bytes data]
  | .valueResponse inst register code => [.uint inst, .uint register.toUInt64, code.item]
  | .pathList inst blob => [.uint inst, .bytes blob]
  | .newPath inst idx path => [.uint inst, indexItem idx, .text path]
  | .pathValue inst idx item => [.uint inst, indexItem idx, item]
  | .pathResponse inst idx code => [.uint inst, indexItem idx, code.item]
  | .unknown _ => []

/-- The item of the opcode. -/
def Response.opcodeItem : Response → Item
  | .deviceList _ => InOpcode.deviceList.item
  | .response _ _ _ => InOpcode.response.item
  | .value _ _ _ => InOpcode.value.item
  | .valueResponse _ _ _ => InOpcode.valueResponse.item
  | .pathList _ _ => InOpcode.pathList.item
  | .newPath _ _ _ => InOpcode.newPath.item
  | .pathValue _ _ _ => InOpcode.pathValue.item
  | .pathResponse _ _ _ => InOpcode.pathResponse.item
  | .unknown opcode => .uint opcode

/-- The items of a record. -/
def Response.toItems (r : Response) : List Item := r.opcodeItem :: r.params

/-- A typed record whose code, if it has one, is canonical. -/
def Response.WellFormed : Response → Prop
  | .response _ _ code => code.Canonical
  | .valueResponse _ _ code => code.Canonical
  | .pathResponse _ _ code => code.Canonical
  | .unknown _ => False
  | _ => True

theorem unsignedPairs_items (pairs : List (UInt64 × UInt64)) :
    unsignedPairs (unsignedItems pairs) = some pairs := by
  induction pairs with
  | nil => rfl
  | cons pair pairs ih =>
      show (unsignedPairs (unsignedItems pairs)).map ((pair.1, pair.2) :: ·) = some (pair :: pairs)
      rw [ih]
      rfl

theorem asI64_indexItem (idx : Int64) : asI64 (some (indexItem idx)) = some idx := by
  unfold indexItem
  split_ifs with hsign
  · -- a non-negative index is below 2 ^ 63, and the unsigned number reads back as it
    have hlt : idx.toUInt64.toNat < 2 ^ 63 := by
      have hbits : idx.toInt = (BitVec.toInt idx.toBitVec) := rfl
      have hnat : idx.toUInt64.toNat = idx.toBitVec.toNat := rfl
      rw [hbits, BitVec.toInt_eq_toNat_cond] at hsign
      have hbound := idx.toBitVec.isLt
      rw [hnat]
      split_ifs at hsign <;> omega
    show (if idx.toUInt64.toNat < 2 ^ 63 then some idx.toUInt64.toInt64 else none) = some idx
    rw [if_pos hlt]
    rfl
  · rfl

theorem asResponseCode_item (code : ResponseCode) :
    asResponseCode (some code.item) = some code.asU8 := by
  have hall : ∀ x : Fin 256, asResponseCode (some (.uint (UInt8.ofFin x).toUInt64)) =
      some (UInt8.ofFin x) := by
    decide +kernel
  exact hall code.asU8.toFin

theorem register_roundTrip (register : UInt16) :
    register.toUInt64.toNat < 2 ^ 16 ∧ register.toUInt64.toUInt16 = register :=
  ⟨by simpa using register.toNat_lt, by simp⟩

/-- The items of a typed record are a block of its shape. -/
theorem Response.WellFormed.toItems {r : Response} (h : r.WellFormed) :
    ∃ op params, params.length = InOpcode.paramCount op ∧ r.toItems = op.item :: params ∧
      WellShaped op params r := by
  cases r with
  | deviceList devices =>
      exact ⟨.deviceList, _, rfl, rfl, .deviceList _ _ (unsignedPairs_items devices)⟩
  | response inst req code =>
      refine ⟨.response, _, rfl, rfl, ?_⟩
      have hshape := WellShaped.response inst req _ _ (asResponseCode_item code)
      rwa [show ResponseCode.fromU8 code.asU8 = code from h] at hshape
  | value inst register data =>
      obtain ⟨hlt, hback⟩ := register_roundTrip register
      refine ⟨.value, _, rfl, rfl, ?_⟩
      have hshape := WellShaped.value inst _ data hlt
      rwa [hback] at hshape
  | valueResponse inst register code =>
      obtain ⟨hlt, hback⟩ := register_roundTrip register
      refine ⟨.valueResponse, _, rfl, rfl, ?_⟩
      have hshape := WellShaped.valueResponse inst _ _ _ (asResponseCode_item code) hlt
      rwa [hback, show ResponseCode.fromU8 code.asU8 = code from h] at hshape
  | pathList inst blob => exact ⟨.pathList, _, rfl, rfl, .pathList inst blob⟩
  | newPath inst idx path =>
      exact ⟨.newPath, _, rfl, rfl, .newPath inst _ idx path (asI64_indexItem idx)⟩
  | pathValue inst idx item =>
      exact ⟨.pathValue, _, rfl, rfl, .pathValue inst _ item idx (asI64_indexItem idx)⟩
  | pathResponse inst idx code =>
      refine ⟨.pathResponse, _, rfl, rfl, ?_⟩
      have hshape := WellShaped.pathResponse inst _ _ idx _ (asI64_indexItem idx)
        (asResponseCode_item code)
      rwa [show ResponseCode.fromU8 code.asU8 = code from h] at hshape
  | unknown opcode => exact h.elim

/-- A typed record is scanned out of its items, and the scan goes on after them. -/
theorem parseItems_toItems {r : Response} (h : r.WellFormed) (s : List Item) :
    Response.parseItems (r.toItems ++ s) = thenRecords (.ok [r]) (Response.parseItems s) := by
  obtain ⟨op, params, hcount, hitems, hshape⟩ := h.toItems
  obtain ⟨result, hresult, hscan⟩ := parseItems_record hcount
  obtain rfl := hresult.unique (.typed r hshape)
  rw [hitems, List.cons_append]
  exact hscan s

theorem parseItems_flatMap_toItems (rs : List Response) (h : ∀ r ∈ rs, r.WellFormed) :
    Response.parseItems (rs.flatMap Response.toItems) = .ok rs := by
  induction rs with
  | nil => rfl
  | cons r rs ih =>
      have hr : r.WellFormed := h r (by simp)
      have hrest := ih fun r' hr' => h r' (by simp [hr'])
      rw [List.flatMap_cons, parseItems_toItems hr, hrest]
      rfl

/-- The scan of a stream is the scan of its blocks, whatever their parameters are: a known opcode
yields one record or an error, another item nothing, and typed records are read back. -/
theorem parseItems_scan :
    (∀ blocks : List (List Item), (∀ b ∈ blocks, Block b) → ∀ s,
      Response.parseItems (blocks.flatten ++ s) =
        (blocks.map Response.parseItems).foldr thenRecords (Response.parseItems s)) ∧
      (∀ (op : InOpcode) (params : List Item), params.length = op.paramCount →
        ∃ result, RecordResult op params result ∧
          Response.parseItems (op.item :: params) = result.map fun r => [r]) ∧
      (∀ item : Item, (∀ op : InOpcode, item ≠ op.item) →
        Response.parseItems [item] = .ok []) ∧
      ∀ rs : List Response, (∀ r ∈ rs, r.WellFormed) →
        Response.parseItems (rs.flatMap Response.toItems) = .ok rs := by
  refine ⟨parseItems_blocks, ?_, fun item h => parseItems_other h [], parseItems_flatMap_toItems⟩
  intro op params h
  obtain ⟨result, hresult, hscan⟩ := parseItems_record h
  have halone := hscan []
  rw [List.append_nil] at halone
  refine ⟨result, hresult, halone.trans ?_⟩
  exact thenRecords_nil _

/-- A device list with an opcode among its parameters, and an item between two records. -/
theorem twoRecords_scan :
    Response.parseItems ([[InOpcode.deviceList.item, InOpcode.value.item], [.null]].flatten ++
        [.uint 0x0d, .uint 3, .bytes [1]]) =
      .ok [.unknown 0x02, .pathList 3 [1]] ∧
      Response.parseItems ([Response.newPath 3 (-1) "/Pv/V", .value 3 0xedbb [1, 2]].flatMap
        Response.toItems) = .ok [.newPath 3 (-1) "/Pv/V", .value 3 0xedbb [1, 2]] := by
  obtain ⟨hblocks, -, -, hback⟩ := parseItems_scan
  constructor
  · refine (hblocks _ ?_ _).trans rfl
    intro b hb
    simp only [List.mem_cons, List.not_mem_nil, or_false] at hb
    rcases hb with rfl | rfl
    · exact .record .deviceList [_] rfl
    · exact .other .null nofun
  · refine hback _ ?_
    intro r hr
    simp only [List.mem_cons, List.not_mem_nil, or_false] at hr
    rcases hr with rfl | rfl <;> exact trivial

end VeSmart.Protocol
