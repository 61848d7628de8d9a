import VeSmart.Lib.Widths
import VeSmart.Protocol.Control

set_option autoImplicit false

/-! # Concatenated control messages (`victron-protocol/src/control.rs`)

In a stream every opcode has a fixed width, so a buffer is read as the only row of messages that
encode to it. -/

namespace VeSmart.Protocol

open VeSmart.Lib

/-- The bytes of a 16-bit number, the low one first. -/
def u16ToLeBytes (code : UInt16) : List UInt8 := [code.toUInt8, (code >>> 8).toUInt8]

def ControlMessage.encode : ControlMessage → List UInt8
  | .error code => 0xf7 :: u16ToLeBytes code
  | .clearBuffer => [0xf8]
  | .readyToReceive freeChunks => [0xf9, freeChunks]
  | .chunkSize a b => [0xfa, a, b]
  | .unknown opcode _ => [opcode]

/-- The width of a message in a stream. -/
def ControlMessage.width (op : UInt8) : Nat :=
  if op = 0xf7 then 3 else if op = 0xf8 then 1 else if op = 0xf9 then 2 else if op = 0xfa then 3
  else 1

theorem ControlMessage.width_pos (op : UInt8) : 0 < ControlMessage.width op := by
  unfold ControlMessage.width
  split_ifs <;> decide

def truncatedControl : ProtocolError :=
  .malformed "truncated control message in concatenated stream"

/-- Parse all messages of a buffer. Every round of the loop leaves less of it. -/
def ControlMessage.parseStream : List UInt8 → Except ProtocolError (List ControlMessage)
  | [] => .ok []
  | op :: data =>
      let width := ControlMessage.width op
      if (op :: data).length < width then .error truncatedControl
      else do
        let message ← ControlMessage.parse ((op :: data).take width)
        have := ControlMessage.width_pos op
        let messages ← ControlMessage.parseStream ((op :: data).drop width)
        .ok (message :: messages)
termination_by data => data.length

/-- A message that has a form of its own in a stream. -/
def ControlMessage.Streamable : ControlMessage → Prop
  | .unknown opcode len => len = 1 ∧ opcode ∉ [0xf7, 0xf8, 0xf9, 0xfa]
  | _ => True

/-! ## Single messages -/

/-- The bytes that follow an opcode. -/
def ControlMessage.extra (op : UInt8) : Nat := ControlMessage.width op - 1

theorem ControlMessage.width_eq (op : UInt8) :
    ControlMessage.width op = ControlMessage.extra op + 1 := by
  have := ControlMessage.width_pos op
  rw [ControlMessage.extra]
  omega

theorem eight_mod : (8 : UInt16).toNat % 16 = 8 := rfl

theorem u16OfLeBytes_toNat (lo hi : UInt8) :
    (u16OfLeBytes lo hi).toNat = hi.toNat * 256 + lo.toNat := by
  have hlo := lo.toNat_lt
  have hhi := hi.toNat_lt
  have hor := Nat.shiftLeft_add_eq_or_of_lt (show lo.toNat < 2 ^ 8 by omega) hi.toNat
  rw [Nat.shiftLeft_eq] at hor
  rw [u16OfLeBytes, UInt16.toNat_or, UInt16.toNat_shiftLeft, UInt8.toNat_toUInt16,
    UInt8.toNat_toUInt16]
  have hshift : hi.toNat <<< 8 % 2 ^ 16 = hi.toNat * 2 ^ 8 := by
    rw [Nat.shiftLeft_eq]
    exact Nat.mod_eq_of_lt (by omega)
  rw [eight_mod, hshift, Nat.or_comm, ← hor]

theorem u16_lo_hi (lo hi : UInt8) : u16ToLeBytes (u16OfLeBytes lo hi) = [lo, hi] := by
  have hlo := lo.toNat_lt
  have hhi := hi.toNat_lt
  have hvalue := u16OfLeBytes_toNat lo hi
  have hfirst : (u16OfLeBytes lo hi).toUInt8 = lo := by
    apply UInt8.toNat_inj.mp
    rw [UInt16.toNat_toUInt8, hvalue]
    omega
  have hsecond : (u16OfLeBytes lo hi >>> 8).toUInt8 = hi := by
    apply UInt8.toNat_inj.mp
    rw [UInt16.toNat_toUInt8, UInt16.toNat_shiftRight, eight_mod, hvalue,
      Nat.shiftRight_eq_div_pow]
    omega
  rw [u16ToLeBytes, hfirst, hsecond]

theorem u16_code (code : UInt16) : u16OfLeBytes code.toUInt8 (code >>> 8).toUInt8 = code := by
  have hcode := code.toNat_lt
  apply UInt16.toNat_inj.mp
  rw [u16OfLeBytes_toNat, UInt16.toNat_toUInt8, UInt16.toNat_toUInt8, UInt16.toNat_shiftRight,
    eight_mod, Nat.shiftRight_eq_div_pow]
  omega

/-- The bytes of a message are one piece, and they are parsed as the message. -/
theorem ControlMessage.parse_encode {m : ControlMessage} (h : m.Streamable) :
    IsPiece ControlMessage.extra m.encode ∧ ControlMessage.parse m.encode = .ok m := by
  cases m with
  | error code =>
      refine ⟨⟨0xf7, u16ToLeBytes code, rfl, rfl⟩, ?_⟩
      show Except.ok (ControlMessage.error (u16OfLeBytes code.toUInt8 (code >>> 8).toUInt8)) = _
      rw [u16_code]
  | clearBuffer => exact ⟨⟨0xf8, [], rfl, rfl⟩, rfl⟩
  | readyToReceive freeChunks => exact ⟨⟨0xf9, [freeChunks], rfl, rfl⟩, rfl⟩
  | chunkSize a b => exact ⟨⟨0xfa, [a, b], rfl, rfl⟩, rfl⟩
  | unknown opcode len =>
      obtain ⟨rfl, hopcode⟩ := h
      simp only [List.mem_cons, List.not_mem_nil, or_false, not_or] at hopcode
      obtain ⟨h7, h8, h9, ha⟩ := hopcode
      have hextra : ControlMessage.extra opcode = 0 := by
        simp [ControlMessage.extra, ControlMessage.width, h7, h8, h9, ha]
      refine ⟨⟨opcode, [], rfl, hextra.symm⟩, ?_⟩
      simp [ControlMessage.parse, ControlMessage.encode]

/-- A piece is parsed as a message, and the message has these bytes. -/
theorem ControlMessage.encode_parse {p : List UInt8} (h : IsPiece ControlMessage.extra p) :
    ∃ m, ControlMessage.parse p = .ok m ∧ m.encode = p := by
  obtain ⟨op, s, rfl, hlength⟩ := h
  by_cases h7 : op = 0xf7
  · subst h7
    obtain ⟨lo, hi, rfl⟩ := List.length_eq_two.mp hlength
    exact ⟨_, rfl, by rw [ControlMessage.encode, u16_lo_hi]⟩
  by_cases h8 : op = 0xf8
  · subst h8
    obtain rfl := List.length_eq_zero_iff.mp hlength
    exact ⟨_, rfl, rfl⟩
  by_cases h9 : op = 0xf9
  · subst h9
    obtain ⟨n, rfl⟩ := List.length_eq_one_iff.mp hlength
    exact ⟨_, rfl, rfl⟩
  by_cases ha : op = 0xfa
  · subst ha
    obtain ⟨a, b, rfl⟩ := List.length_eq_two.mp hlength
    exact ⟨_, rfl, rfl⟩
  · have hextra : ControlMessage.extra op = 0 := by
      simp [ControlMessage.extra, ControlMessage.width, h7, h8, h9, ha]
    rw [hextra] at hlength
    obtain rfl := List.length_eq_zero_iff.mp hlength
    exact ⟨.unknown op 1, by simp [ControlMessage.parse], rfl⟩

/-! ## Streams -/

theorem ControlMessage.parseStream_cons {op : UInt8} {data : List UInt8}
    (h : ControlMessage.extra op ≤ data.length) : ControlMessage.parseStream (op :: data) =
      ControlMessage.parse (op :: data.take (ControlMessage.extra op)) >>= fun message =>
        ControlMessage.parseStream (data.drop (ControlMessage.extra op)) >>= fun messages =>
          .ok (message :: messages) := by
  have hwidth := ControlMessage.width_eq op
  have htake : (op :: data).take (ControlMessage.width op) =
      op :: data.take (ControlMessage.extra op) := by
    rw [hwidth]
    rfl
  have hdrop : (op :: data).drop (ControlMessage.width op) =
      data.drop (ControlMessage.extra op) := by
    rw [hwidth]
    rfl
  rw [ControlMessage.parseStream, if_neg (by rw [List.length_cons]; omega), htake, hdrop]

theorem ControlMessage.parseStream_short {op : UInt8} {data : List UInt8}
    (h : data.length < ControlMessage.extra op) :
    ControlMessage.parseStream (op :: data) = .error truncatedControl := by
  have hwidth := ControlMessage.width_eq op
  rw [ControlMessage.parseStream, if_pos]
  rw [List.length_cons]
  omega

/-- A stream is cut into pieces, and each of these is parsed. -/
theorem ControlMessage.parseStream_cut (data : List UInt8) :
    (cut ControlMessage.extra data = none ∧
      ControlMessage.parseStream data = .error truncatedControl) ∨
    ∃ ps msgs, cut ControlMessage.extra data = some ps ∧
      ControlMessage.parseStream data = .ok msgs ∧ ps.map ControlMessage.parse = msgs.map .ok ∧
      msgs.map ControlMessage.encode = ps := by
  induction data using cut.induct ControlMessage.extra with
  | case1 => exact Or.inr ⟨[], [], by rw [cut], by rw [ControlMessage.parseStream], rfl, rfl⟩
  | case2 op data hshort =>
      exact Or.inl ⟨cut_short hshort, ControlMessage.parseStream_short hshort⟩
  | case3 op data hlong ih =>
      have hlong : ControlMessage.extra op ≤ data.length := by omega
      have hpiece : IsPiece ControlMessage.extra (op :: data.take (ControlMessage.extra op)) :=
        ⟨op, _, rfl, List.length_take_of_le hlong⟩
      obtain ⟨m, hm, hencode⟩ := ControlMessage.encode_parse hpiece
      rw [cut_cons hlong, ControlMessage.parseStream_cons hlong, hm]
      rcases ih with ⟨hnone, herror⟩ | ⟨ps, msgs, hcut, hok, hparse, hmap⟩
      · left
        rw [hnone, herror]
        exact ⟨rfl, rfl⟩
      · right
        rw [hcut, hok]
        refine ⟨_, m :: msgs, rfl, rfl, ?_, ?_⟩
        · rw [List.map_cons, List.map_cons, hm, hparse]
        · rw [List.map_cons, hencode, hmap]

/-- What is parsed as some messages is what they encode to. -/
theorem ControlMessage.encode_parseStream {data : List UInt8} {msgs : List ControlMessage}
    (h : ControlMessage.parseStream data = .ok msgs) :
    msgs.flatMap ControlMessage.encode = data := by
  rcases ControlMessage.parseStream_cut data with ⟨-, herror⟩ | ⟨ps, msgs', hcut, hok, -, hmap⟩
  · rw [herror] at h
    cases h
  · rw [hok] at h
    cases h
    rw [List.flatMap_def, hmap, (cut_some hcut).1]

/-- The encodings of messages that have a form of their own are parsed as these messages. -/
theorem ControlMessage.parseStream_encode {msgs : List ControlMessage}
    (h : ∀ m ∈ msgs, m.Streamable) :
    ControlMessage.parseStream (msgs.flatMap ControlMessage.encode) = .ok msgs := by
  have hpieces : ∀ p ∈ msgs.map ControlMessage.encode, IsPiece ControlMessage.extra p := by
    intro p hp
    obtain ⟨m, hm, rfl⟩ := List.mem_map.mp hp
    exact (ControlMessage.parse_encode (h m hm)).1
  have hback : (msgs.map ControlMessage.encode).map ControlMessage.parse = msgs.map .ok := by
    rw [List.map_map]
    exact List.map_congr_left fun m hm => (ControlMessage.parse_encode (h m hm)).2
  rw [List.flatMap_def]
  rcases ControlMessage.parseStream_cut (msgs.map ControlMessage.encode).flatten with
    ⟨hnone, -⟩ | ⟨ps, msgs', hcut, hok, hparse, -⟩
  · rw [cut_flatten hpieces] at hnone
    cases hnone
  · rw [cut_flatten hpieces] at hcut
    cases hcut
    rw [hback] at hparse
    have hsame : msgs = msgs' := List.map_injective_iff.mpr (fun a b hab => by cases hab; rfl) hparse
    rw [hok, hsame]

/-- A stream is refused exactly if the walk over the widths runs past its end. -/
theorem ControlMessage.parseStream_error_iff {data : List UInt8} :
    (∃ e, ControlMessage.parseStream data = .error e) ↔
      ∃ i, Walks ControlMessage.extra data i ∧ data.length < i := by
  rw [← cut_none_iff]
  rcases ControlMessage.parseStream_cut data with ⟨hnone, herror⟩ | ⟨ps, msgs, hcut, hok, -, -⟩
  · exact ⟨fun _ => hnone, fun _ => ⟨_, herror⟩⟩
  · rw [hcut, hok]
    constructor
    · rintro ⟨e, he⟩
      cases he
    · intro h
      cases h

/-- A message takes at least a byte, so the loop makes at most as many rounds as there are bytes. -/
theorem ControlMessage.length_le_encode (msgs : List ControlMessage) :
    msgs.length ≤ (msgs.flatMap ControlMessage.encode).length := by
  induction msgs with
  | nil => exact Nat.le_refl _
  | cons m msgs ih =>
      have hm : 0 < m.encode.length := by
        cases m <;> simp [ControlMessage.encode]
      rw [List.flatMap_cons, List.length_append, List.length_cons]
      omega

/-- The control stream codec: what is parsed is what the messages encode to, messages that have a
form of their own are parsed back from their encodings, and only a truncated stream is refused. -/
theorem ControlMessage.parseStream_codec :
    (∀ data msgs, ControlMessage.parseStream data = .ok msgs →
      msgs.flatMap ControlMessage.encode = data ∧ msgs.length ≤ data.length) ∧
    (∀ msgs : List ControlMessage, (∀ m ∈ msgs, m.Streamable) →
      ControlMessage.parseStream (msgs.flatMap ControlMessage.encode) = .ok msgs) ∧
    ∀ data, (∃ e, ControlMessage.parseStream data = .error e) ↔
      ∃ i, Walks ControlMessage.extra data i ∧ data.length < i := by
  refine ⟨fun data msgs h => ?_, fun msgs h => parseStream_encode h, fun data =>
    parseStream_error_iff⟩
  have hback := ControlMessage.encode_parseStream h
  exact ⟨hback, hback ▸ ControlMessage.length_le_encode msgs⟩

end VeSmart.Protocol
