import PahoMqtt.Packets.Length

/-!
# The fixed header

`FixedHeader`, `pack` and `unpack`, `src/packets/packets.go:315–363`. The control byte holds
the type in its high nibble and the DUP, QoS and RETAIN flags below it; the remaining length
follows as a varint. The header's embedded `ByteSlicePool` and `selfPtr` belong to the packet
object's life in the pools, not to the wire, and are left to the pool modules.
-/

namespace PahoMqtt.Packets

/-- `FixedHeader` (`packets.go:317–325`), its wire fields. `RemainingLength` is a Go `int` that
every writer sets from a length and `unpack` from a `uint32`, so never negative. -/
structure FixedHeader where
  MessageType : UInt8
  Dup : Bool
  Qos : UInt8
  Retain : Bool
  RemainingLength : Nat
  deriving DecidableEq, Repr

/-- `boolToByte` (`packets.go:341–348`). -/
def boolToByte (b : Bool) : UInt8 := if b then 1 else 0

/-- The first byte `pack` writes (`packets.go:352`), in `byte` arithmetic. -/
def FixedHeader.controlByte (fh : FixedHeader) : UInt8 :=
  fh.MessageType <<< 4 ||| boolToByte fh.Dup <<< 3 ||| fh.Qos <<< 1 ||| boolToByte fh.Retain

/-- `FixedHeader.pack` (`packets.go:350–355`). -/
def FixedHeader.pack (fh : FixedHeader) : List UInt8 :=
  fh.controlByte :: encodeLength fh.RemainingLength

/-- `FixedHeader.unpack` (`packets.go:357–363`): all five fields are overwritten, the flags from
`typeAndFlags` and the length from the reader. -/
def FixedHeader.unpack (typeAndFlags : UInt8) (r : List UInt8) :
    Except Fault (FixedHeader × List UInt8) :=
  (decodeLength r).map fun (rLength, r) =>
    ({ MessageType := typeAndFlags >>> 4
       Dup := (typeAndFlags >>> 3) &&& 0x01 > 0
       Qos := (typeAndFlags >>> 1) &&& 0x03
       Retain := typeAndFlags &&& 0x01 > 0
       RemainingLength := rLength }, r)

/-- The spec's example: a PUBLISH with DUP, QoS 2 and RETAIN starts with `0x3D`. -/
example : ({ MessageType := 3, Dup := true, Qos := 2, Retain := true, RemainingLength := 0 } :
    FixedHeader).controlByte = 0x3D := by decide

/-- The four fields of a control byte come back out of it, checked over every type nibble,
QoS and flag. -/
theorem controlByte_fields : ∀ (t : Fin 16) (d : Bool) (q : Fin 4) (r : Bool),
    let c := t.val.toUInt8 <<< 4 ||| boolToByte d <<< 3 ||| q.val.toUInt8 <<< 1 ||| boolToByte r
    c >>> 4 = t.val.toUInt8 ∧ decide ((c >>> 3) &&& 0x01 > 0) = d ∧
      (c >>> 1) &&& 0x03 = q.val.toUInt8 ∧ decide (c &&& 0x01 > 0) = r := by
  decide

theorem uint8_toNat_toUInt8 (x : UInt8) : x.toNat.toUInt8 = x := by
  apply UInt8.toNat.inj
  simp [Nat.toUInt8, UInt8.toNat, UInt8.ofNat, BitVec.toNat_ofNat]

/-- A header whose type nibble and QoS fit their bits unpacks from its own control byte with
every flag restored; only the length is read from the stream. -/
theorem unpack_controlByte (fh : FixedHeader) (ht : fh.MessageType ≤ 15) (hq : fh.Qos ≤ 3)
    (r : List UInt8) :
    FixedHeader.unpack fh.controlByte r =
      (decodeLength r).map fun (rLength, r) => ({ fh with RemainingLength := rLength }, r) := by
  have ht' : fh.MessageType.toNat < 16 := Nat.lt_succ_of_le ht
  have hq' : fh.Qos.toNat < 4 := Nat.lt_succ_of_le hq
  obtain ⟨h1, h2, h3, h4⟩ := controlByte_fields ⟨_, ht'⟩ fh.Dup ⟨_, hq'⟩ fh.Retain
  simp only [uint8_toNat_toUInt8] at h1 h2 h3 h4
  simp only [FixedHeader.unpack, FixedHeader.controlByte, h1, h2, h3, h4]

/-- `unpack` reads a packed header back whole. -/
theorem FixedHeader.unpack_pack (fh : FixedHeader) (rest : List UInt8) (ht : fh.MessageType ≤ 15)
    (hq : fh.Qos ≤ 3) (hl : fh.RemainingLength ≤ maxRemainingLength) :
    FixedHeader.unpack fh.controlByte (encodeLength fh.RemainingLength ++ rest) = .ok (fh, rest) := by
  rw [unpack_controlByte fh ht hq, decodeLength_encodeLength _ _ hl]
  rfl

/-- `pack` writes the control byte and then `encodeLength n`: the fewest base-128 digits that
hold `n`, one to four of them, with the continuation bit on all but the last; `unpack`, given
that byte and a reader over the digits and any `rest`, restores every field of the header and
leaves `rest` unread. -/
theorem FixedHeader.pack_unpack (fh : FixedHeader) (rest : List UInt8)
    (ht : fh.MessageType ≤ 15) (hq : fh.Qos ≤ 3) (hl : fh.RemainingLength ≤ maxRemainingLength) :
    ∃ b, fh.pack = b :: encodeLength fh.RemainingLength ∧
      (1 ≤ (encodeLength fh.RemainingLength).length ∧
        (encodeLength fh.RemainingLength).length ≤ 4 ∧
        fh.RemainingLength < 128 ^ (encodeLength fh.RemainingLength).length ∧
        ∀ j, 1 ≤ j → fh.RemainingLength < 128 ^ j → (encodeLength fh.RemainingLength).length ≤ j) ∧
      (∃ init last, encodeLength fh.RemainingLength = init ++ [last] ∧
        (∀ d ∈ init, d &&& 128 ≠ 0) ∧ last &&& 128 = 0) ∧
      FixedHeader.unpack b (encodeLength fh.RemainingLength ++ rest) = .ok (fh, rest) := by
  refine ⟨fh.controlByte, rfl, ⟨?_, ?_, lt_pow_length_encodeLength _,
    length_encodeLength_le _⟩, encodeLength_continuation _, ?_⟩
  · exact List.length_pos.mpr (encodeLength_ne_nil _)
  · exact length_encodeLength_le _ 4 (by decide) (by simp only [maxRemainingLength] at hl; omega)
  · exact fh.unpack_pack rest ht hq hl

theorem pack_unpack_publish_header :
    FixedHeader.unpack 0x3D ([0xC1, 0x02] ++ [7]) =
      .ok ({ MessageType := 3, Dup := true, Qos := 2, Retain := true, RemainingLength := 321 }, [7]) := by
  obtain ⟨b, hb, -, -, h⟩ := FixedHeader.pack_unpack
    { MessageType := 3, Dup := true, Qos := 2, Retain := true, RemainingLength := 321 } [7]
    (by decide) (by decide) (by decide)
  have hd : encodeLength 321 = [0xC1, 0x02] := by
    rw [encodeLength_of_ge (by decide), encodeLength_of_lt (by decide)]; rfl
  simp only [FixedHeader.pack, hd, List.cons.injEq] at hb h
  rw [← hb.1] at h
  exact h

end PahoMqtt.Packets
