import VeSmart.Protocol.Opcode
import VeSmart.Protocol.Stream

set_option autoImplicit false

/-! # Requests (`victron-protocol/src/request.rs`)

A request is an opcode and its parameters, encoded one after the other. There is none that writes.
The encodings are read back with the decoder: `request_unambiguous`. -/

namespace VeSmart.Protocol

open VeSmart.Lib

def maxRegisters : Nat := 512
def maxPathIndexes : Nat := 512

/-- A read-only request. -/
inductive Request where
  | getDevices
  | subscribe (instanceId : UInt16)
  | getValues (instanceId : UInt16) (registers : List UInt16)
  | getPathList (instanceId : UInt16)
  | getPathValues (instanceId : UInt16) (pathIndexes : List Int64)

namespace Request

def opcode : Request → OutOpcode
  | .getDevices => .getDevices
  | .subscribe _ => .subscribe
  | .getValues _ _ => .getValues
  | .getPathList _ => .getPathList
  | .getPathValues _ _ => .getPathValues

/-- The parameters. A list has its length first. -/
def encodeParams (m : Minicbor) : Request → Except ProtocolError (List UInt8)
  | .getDevices => .ok []
  | .subscribe inst => .ok (m.encU64 inst.toUInt64)
  | .getValues inst registers =>
      if registers.length > maxRegisters then
        .error (.requestLimit "getValues supports at most 512 registers")
      else
        .ok (m.encU64 inst.toUInt64 ++ m.encArray (.ofNat registers.length) ++
          registers.flatMap fun reg => m.encU64 reg.toUInt64)
  | .getPathList inst => .ok (m.encU64 inst.toUInt64)
  | .getPathValues inst pathIndexes =>
      if pathIndexes.length > maxPathIndexes then
        .error (.requestLimit "getPathValues supports at most 512 path indexes")
      else
        .ok (m.encU64 inst.toUInt64 ++ m.encArray (.ofNat pathIndexes.length) ++
          pathIndexes.flatMap m.encI64)

/-- Writing into a vector of bytes does not fail: the errors are those of the limits. -/
def encode (m : Minicbor) (r : Request) : Except ProtocolError (List UInt8) := do
  let params ← r.encodeParams m
  .ok (m.encU64 r.opcode.asU8.toUInt64 ++ params)

/-! ## The items of a request -/

/-- The lists are not longer than the limits. -/
def WithinLimits : Request → Prop
  | .getValues _ registers => registers.length ≤ maxRegisters
  | .getPathValues _ pathIndexes => pathIndexes.length ≤ maxPathIndexes
  | _ => True

end Request

/-- The number that an item is. -/
def Item.integer? : Item → Option Int
  | .uint n => some n.toNat
  | .int v => some v.toInt
  | _ => none

/-- The opcode, the instance, and for the list requests an array of the numbers of the list. -/
inductive Request.Items : Request → List Item → Prop
  | getDevices : Items .getDevices [.uint 0x01]
  | subscribe (inst : UInt16) : Items (.subscribe inst) [.uint 0x03, .uint inst.toUInt64]
  | getValues (inst : UInt16) (registers : List UInt16) (elems : List Item)
      (h : elems.map Item.integer? = registers.map fun reg => some (reg.toNat : Int)) :
      Items (.getValues inst registers) [.uint 0x05, .uint inst.toUInt64, .array elems]
  | getPathList (inst : UInt16) : Items (.getPathList inst) [.uint 0x0a, .uint inst.toUInt64]
  | getPathValues (inst : UInt16) (pathIndexes : List Int64) (elems : List Item)
      (h : elems.map Item.integer? = pathIndexes.map fun idx => some idx.toInt) :
      Items (.getPathValues inst pathIndexes) [.uint 0x0b, .uint inst.toUInt64, .array elems]

section

variable {m : Minicbor} {r r' : Request} {items : List Item}

theorem list_eq_of_map_some {α : Type} {f : α → Int} (hf : Function.Injective f)
    {xs ys : List α} (h : xs.map (fun x => some (f x)) = ys.map fun x => some (f x)) : xs = ys := by
  have hinj : Function.Injective fun x => some (f x) := fun x y hxy => hf (Option.some.inj hxy)
  exact List.map_injective_iff.mpr hinj h

/-- A request can be told from its items. -/
theorem Request.Items.injective (h : r.Items items) (h' : r'.Items items) : r = r' := by
  have hregister : Function.Injective fun reg : UInt16 => (reg.toNat : Int) :=
    fun a b hab => UInt16.toNat.inj (Int.ofNat.inj hab)
  have hindex : Function.Injective Int64.toInt := fun a b hab => Int64.toInt.inj hab
  have hinstance : Function.Injective UInt16.toUInt64 := fun a b hab => by
    simpa using congrArg UInt64.toUInt16 hab
  cases h with
  | getDevices => cases h' with
    | getDevices => rfl
  | subscribe inst =>
      generalize hinst : inst.toUInt64 = wide at h'
      cases h' with
      | subscribe inst' => rw [hinstance hinst]
  | getPathList inst =>
      generalize hinst : inst.toUInt64 = wide at h'
      cases h' with
      | getPathList inst' => rw [hinstance hinst]
  | getValues inst registers elems h =>
      generalize hinst : inst.toUInt64 = wide at h'
      cases h' with
      | getValues inst' registers' _ h' =>
          rw [hinstance hinst, list_eq_of_map_some hregister (h.symm.trans h')]
  | getPathValues inst pathIndexes elems h =>
      generalize hinst : inst.toUInt64 = wide at h'
      cases h' with
      | getPathValues inst' pathIndexes' _ h' =>
          rw [hinstance hinst, list_eq_of_map_some hindex (h.symm.trans h')]

/-- An item with nothing in it. -/
def Item.Plain (item : Item) : Prop :=
  (∀ depth, item.nested depth = [(depth, item)]) ∧ item.stringBytes = 0

theorem nestedAll_plain (depth : Nat) {elems : List Item} (h : ∀ e ∈ elems, e.Plain) :
    nestedAll depth elems = elems.map fun e => (depth, e) := by
  induction elems with
  | nil => rfl
  | cons e elems ih =>
      have he := (h e (by simp)).1 depth
      have hrest := ih fun e he => h e (List.mem_cons_of_mem _ he)
      rw [nestedAll, he, hrest]
      rfl

/-- The items of a list request are within the bounds of the decoder. -/
theorem bounded_list (opcode inst : UInt64) {elems : List Item} (h : ∀ e ∈ elems, e.Plain)
    (hlength : elems.length ≤ 512) : Bounded [.uint opcode, .uint inst, .array elems] := by
  have hall : nestedAll 0 [.uint opcode, .uint inst, .array elems] =
      (0, .uint opcode) :: (0, .uint inst) :: (0, .array elems) ::
        elems.map fun e => (1, e) := by
    simp [nestedAll, Item.nested, nestedAll_plain 1 h]
  refine ⟨?_, ?_, ?_⟩
  · rw [hall]
    intro p hp
    simp only [List.mem_cons, List.mem_map] at hp
    rcases hp with rfl | rfl | rfl | ⟨e, -, rfl⟩ <;> simp [maxDepth]
  · rw [hall]
    simp only [List.length_cons, List.length_map, maxItems]
    omega
  · rw [hall]
    intro p hp
    simp only [List.mem_cons, List.mem_map] at hp
    rcases hp with rfl | rfl | rfl | ⟨e, he, rfl⟩
    · exact Nat.zero_le _
    · exact Nat.zero_le _
    · exact Nat.zero_le _
    · exact (h e he).2.trans_le (Nat.zero_le _)

/-- A list of unsigned numbers, made with the encoder. -/
theorem made_unsigned (registers : List UInt16) :
    Made m (registers.map fun reg => .uint reg.toUInt64)
      (registers.flatMap fun reg => m.encU64 reg.toUInt64) := by
  induction registers with
  | nil => exact .nil
  | cons reg registers ih => exact .uint reg.toUInt64 ih

/-- The item of a signed number, as the encoder chooses it. -/
def signedItem (v : Int64) : Item :=
  if 0 ≤ v.toInt then .uint (.ofNat v.toInt.toNat) else .int v

theorem made_signed (indexes : List Int64) :
    Made m (indexes.map signedItem) (indexes.flatMap m.encI64) := by
  induction indexes with
  | nil => exact .nil
  | cons v indexes ih =>
      rw [List.map_cons, List.flatMap_cons, signedItem]
      split_ifs with hsign
      · exact .nonneg v hsign ih
      · exact .neg v (by omega) ih

theorem signedItem_integer (v : Int64) : (signedItem v).integer? = some v.toInt := by
  unfold signedItem
  split_ifs with hsign
  · have hlt : v.toInt < 2 ^ 63 := v.toInt_lt
    have hback : (UInt64.ofNat v.toInt.toNat).toNat = v.toInt.toNat := by
      rw [UInt64.toNat_ofNat']
      omega
    show some (((UInt64.ofNat v.toInt.toNat).toNat : Nat) : Int) = _
    rw [hback]
    congr 1
    omega
  · rfl

theorem signedItem_plain (v : Int64) : (signedItem v).Plain := by
  unfold signedItem
  split_ifs <;> exact ⟨fun _ => rfl, rfl⟩

theorem Request.encode_ok_iff {bytes : List UInt8} :
    r.encode m = .ok bytes ↔
      ∃ params, r.encodeParams m = .ok params ∧
        bytes = m.encU64 r.opcode.asU8.toUInt64 ++ params := by
  unfold Request.encode
  rw [bind_eq_ok]
  constructor
  · rintro ⟨params, hparams, hval⟩
    exact ⟨params, hparams, (Except.ok.inj hval).symm⟩
  · rintro ⟨params, hparams, rfl⟩
    exact ⟨params, hparams, rfl⟩

/-- The encoding of a list request. -/
theorem made_list (opcode : UInt64) (inst : UInt64) {elems : List Item} {body : List UInt8}
    (h : Made m elems body) :
    Made m [.uint opcode, .uint inst, .array elems]
      (m.encU64 opcode ++ (m.encU64 inst ++ m.encArray (.ofNat elems.length) ++ body)) := by
  have hmade : Made m [.uint opcode, .uint inst, .array elems] _ :=
    .uint opcode (.uint inst (.array h .nil))
  rw [List.append_nil] at hmade
  rw [List.append_assoc (m.encU64 inst)]
  exact hmade

/-- What is encoded are the items of the request, within the bounds of the decoder. -/
theorem Request.encode_made {bytes : List UInt8} (h : r.encode m = .ok bytes) :
    ∃ items, r.Items items ∧ Made m items bytes ∧ Bounded items := by
  obtain ⟨params, hparams, rfl⟩ := encode_ok_iff.mp h
  have htwo : ∀ opcode inst : UInt64, Bounded [.uint opcode, .uint inst] := fun opcode inst =>
    ⟨by simp [nestedAll, Item.nested], by simp [nestedAll, Item.nested, maxItems],
      by simp [nestedAll, Item.nested, Item.stringBytes]⟩
  have hpair : ∀ opcode inst : UInt64,
      Made m [.uint opcode, .uint inst] (m.encU64 opcode ++ m.encU64 inst) := by
    intro opcode inst
    have hmade : Made m [.uint opcode, .uint inst] _ := .uint opcode (.uint inst .nil)
    rwa [List.append_nil] at hmade
  cases r with
  | getDevices =>
      cases hparams
      refine ⟨_, .getDevices, .uint 0x01 .nil, ?_⟩
      constructor <;> simp [nestedAll, Item.nested, maxItems, Item.stringBytes]
  | subscribe inst =>
      cases hparams
      exact ⟨_, .subscribe inst, hpair _ _, htwo _ _⟩
  | getPathList inst =>
      cases hparams
      exact ⟨_, .getPathList inst, hpair _ _, htwo _ _⟩
  | getValues inst registers =>
      simp only [encodeParams] at hparams
      split_ifs at hparams with hlimit
      cases hparams
      have hmade := made_list (m := m) 0x05 inst.toUInt64 (made_unsigned registers)
      rw [List.length_map] at hmade
      refine ⟨_, .getValues inst registers _ ?_, hmade, bounded_list _ _ ?_ ?_⟩
      · rw [List.map_map]
        rfl
      · intro e he
        obtain ⟨reg, -, rfl⟩ := List.mem_map.mp he
        exact ⟨fun _ => rfl, rfl⟩
      · rw [List.length_map]
        exact Nat.not_lt.mp hlimit
  | getPathValues inst pathIndexes =>
      simp only [encodeParams] at hparams
      split_ifs at hparams with hlimit
      cases hparams
      have hmade := made_list (m := m) 0x0b inst.toUInt64 (made_signed pathIndexes)
      rw [List.length_map] at hmade
      refine ⟨_, .getPathValues inst pathIndexes _ ?_, hmade, bounded_list _ _ ?_ ?_⟩
      · rw [List.map_map]
        exact List.map_congr_left fun v _ => signedItem_integer v
      · intro e he
        obtain ⟨v, -, rfl⟩ := List.mem_map.mp he
        exact signedItem_plain v
      · rw [List.length_map]
        exact Nat.not_lt.mp hlimit

theorem Request.encode_ok_of_limits : (∃ bytes, r.encode m = .ok bytes) ↔ r.WithinLimits := by
  have hparams : (∃ bytes, r.encode m = .ok bytes) ↔ ∃ params, r.encodeParams m = .ok params := by
    simp only [encode_ok_iff]
    exact ⟨fun ⟨_, params, h, _⟩ => ⟨params, h⟩, fun ⟨params, h⟩ => ⟨_, params, h, rfl⟩⟩
  rw [hparams]
  cases r with
  | getDevices => exact iff_of_true ⟨_, rfl⟩ trivial
  | subscribe inst => exact iff_of_true ⟨_, rfl⟩ trivial
  | getPathList inst => exact iff_of_true ⟨_, rfl⟩ trivial
  | getValues inst registers =>
      simp only [encodeParams, WithinLimits]
      split_ifs with hlimit
      · exact iff_of_false (by rintro ⟨_, ⟨⟩⟩) (by omega)
      · exact iff_of_true ⟨_, rfl⟩ (by omega)
  | getPathValues inst pathIndexes =>
      simp only [encodeParams, WithinLimits]
      split_ifs with hlimit
      · exact iff_of_false (by rintro ⟨_, ⟨⟩⟩) (by omega)
      · exact iff_of_true ⟨_, rfl⟩ (by omega)

/-- The opcodes of the requests. The ones that write, `0x06` and `0x0c`, are not among them. -/
theorem Request.Items.first (h : r.Items items) :
    ∃ opcode ∈ [0x01, 0x03, 0x05, 0x0a, 0x0b], items.head? = some (.uint opcode) := by
  cases h with
  | getDevices => exact ⟨0x01, by decide, rfl⟩
  | subscribe _ => exact ⟨0x03, by decide, rfl⟩
  | getValues _ _ _ _ => exact ⟨0x05, by decide, rfl⟩
  | getPathList _ => exact ⟨0x0a, by decide, rfl⟩
  | getPathValues _ _ _ _ => exact ⟨0x0b, by decide, rfl⟩

end

/-- A request within the limits is encoded, and from its bytes the decoder reads its items; they
tell the request, and begin with an opcode that reads. -/
theorem request_unambiguous (m : Minicbor) (hm : m.Conforms) :
    (∀ r : Request, (∃ bytes, r.encode m = .ok bytes) ↔ r.WithinLimits) ∧
      (∀ (r : Request) (bytes : List UInt8), r.encode m = .ok bytes →
        ∃ items, m.decodeStream bytes = .ok items ∧ r.Items items ∧
          ∃ opcode ∈ [0x01, 0x03, 0x05, 0x0a, 0x0b], items.head? = some (.uint opcode)) ∧
      ∀ (r r' : Request) (bytes : List UInt8), r.encode m = .ok bytes →
        r'.encode m = .ok bytes → r = r' := by
  refine ⟨fun r => Request.encode_ok_of_limits, ?_, ?_⟩
  · intro r bytes h
    obtain ⟨items, hitems, hmade, hbounded⟩ := Request.encode_made h
    exact ⟨items, decodeStream_made hm hmade hbounded, hitems, hitems.first⟩
  · intro r r' bytes h h'
    obtain ⟨items, hitems, hmade, hbounded⟩ := Request.encode_made h
    obtain ⟨items', hitems', hmade', hbounded'⟩ := Request.encode_made h'
    have hdecode := decodeStream_made hm hmade hbounded
    rw [decodeStream_made hm hmade' hbounded'] at hdecode
    obtain rfl := Except.ok.inj hdecode
    exact hitems.injective hitems'

/-- The path values of a charger are asked for, one of them at a negative index. -/
theorem twoPaths_decoded :
    (Request.getPathValues 3 [0, -12]).encode .byHeads = .ok [0x0b, 0x03, 0x82, 0x00, 0x2b] ∧
      ∃ items, Minicbor.byHeads.decodeStream [0x0b, 0x03, 0x82, 0x00, 0x2b] = .ok items ∧
        (Request.getPathValues 3 [0, -12]).Items items := by
  have hencode : (Request.getPathValues 3 [0, -12]).encode .byHeads =
      .ok [0x0b, 0x03, 0x82, 0x00, 0x2b] := by rfl
  obtain ⟨-, hback, -⟩ := request_unambiguous .byHeads byHeads_conforms
  obtain ⟨items, hdecode, hitems, -⟩ := hback _ _ hencode
  exact ⟨hencode, items, hdecode, hitems⟩

end VeSmart.Protocol
