import PahoMqtt.Packets.RoundTrip

/-!
# What `ReadPacket` does on every stream, and with every pool

`NewControlPacketWithHeader` guards the type nibble with `&&`, so the guard never fires, and
indexes the 13-entry `packetPools` with `MessageType-1` computed in `byte`: type nibbles 0, 14
and 15 panic there, DISCONNECT (14) among them. A pooled object keeps every field its kind's
`Unpack` does not set, so a PUBLISH read under QoS 0 into a recycled object carries the old
message ID (`src/packets/packets.go:184–269`, `src/packets/publish.go:44–53`).
-/

namespace PahoMqtt.Packets

/-- The header `unpack` builds has the control byte's high nibble as its type. -/
theorem unpack_messageType (b : UInt8) (r : List UInt8) (n : Nat) (rest : List UInt8)
    (hr : decodeLength r = .ok (n, rest)) :
    ∃ fh, FixedHeader.unpack b r = .ok (fh, rest) ∧ fh.MessageType = b >>> 4 ∧
      fh.RemainingLength = n := by
  simp only [FixedHeader.unpack, hr]
  exact ⟨_, rfl, rfl, rfl⟩

/-- The types whose index `MessageType-1` falls outside `packetPools`. -/
theorem NewControlPacketWithHeader_out_of_range (packetPools : PacketPools) (fh : FixedHeader)
    (h : fh.MessageType = 0 ∨ fh.MessageType = 14 ∨ fh.MessageType = 15) :
    NewControlPacketWithHeader packetPools fh = .error indexOutOfRange := by
  unfold NewControlPacketWithHeader
  rcases h with h | h | h <;> simp only [h] <;> rfl

/-- On a complete fixed header with type nibble 0, 14 (DISCONNECT) or 15, `ReadPacket` panics
indexing `packetPools`, whatever the pools hold; and a PUBLISH body whose topic length prefix is
`0xFFFE` or `0xFFFF` makes `Unpack` panic, whatever object it is read into. -/
theorem ReadPacket_panics :
    (∀ (packetPools : PacketPools) (b : UInt8) (r rest : List UInt8) (n : Nat),
      (b >>> 4 = 0 ∨ b >>> 4 = 14 ∨ b >>> 4 = 15) → decodeLength r = .ok (n, rest) →
      ReadPacket packetPools (b :: r) = .error indexOutOfRange) ∧
    (∀ (q : PublishPacket) (src : List UInt8), 2 ≤ src.length →
      65534 ≤ (loadUint16 src).toNat → q.Unpack src = .error sliceBoundsOutOfRange) := by
  refine ⟨fun packetPools b r rest n hb hr => ?_, fun q src hs hl => ?_⟩
  · obtain ⟨fh, hu, ht, -⟩ := unpack_messageType b r n rest hr
    simp only [ReadPacket, hu, bind, Except.bind,
      NewControlPacketWithHeader_out_of_range packetPools fh (ht ▸ hb)]
  · simp only [PublishPacket.Unpack, loadBytes_wrap src hl hs, bind, Except.bind]

theorem ReadPacket_disconnect_panics (packetPools : PacketPools) :
    ReadPacket packetPools [0xE0, 0x00] = .error indexOutOfRange :=
  ReadPacket_panics.1 packetPools 0xE0 [0x00] [] 0 (.inr (.inl rfl)) rfl

/-! ### Recycled objects -/

/-- A PUBLISH written and read back into a recycled PUBLISH object `q`: every field comes from
the wire except, under QoS 0, the message ID, which is `q`'s. A freshly allocated object has 0
there (`ReadPacket_PublishPacket_Write`). -/
theorem ReadPacket_pooled_PublishPacket_Write (q p : PublishPacket) (rest : List UInt8)
    (ht : p.FixedHeader.MessageType = Publish) (hq : p.FixedHeader.Qos ≤ 2)
    (htopic : p.TopicName.length ≤ 65533)
    (hl : 2 + p.TopicName.length + (if 0 < p.FixedHeader.Qos then 2 else 0) + p.Payload.length ≤
      maxRemainingLength) :
    ReadPacket (fun i => if i = 2 then some (.publish q) else none) (p.Write ++ rest) =
      .ok (.publish { p with
        FixedHeader := { p.FixedHeader with RemainingLength := p.body.length + p.Payload.length }
        MessageID := if 0 < p.FixedHeader.Qos then p.MessageID else q.MessageID }, rest) :=
  (ReadPacket_publishPools_Write (some q) p rest ht hq (by omega) hl).trans (if_pos htopic)

theorem ReadPacket_recycled_message_id :
    ReadPacket (fun i => if i = 2 then some (.publish ⟨⟨Publish, false, 0, false, 0⟩, [], 7, []⟩)
        else none) (PublishPacket.Write ⟨⟨Publish, false, 0, false, 0⟩, [0x61], 0, []⟩ ++ []) =
      .ok (.publish ⟨⟨Publish, false, 0, false, 3⟩, [0x61], 7, []⟩, []) ∧
    ReadPacket emptyPacketPools (PublishPacket.Write ⟨⟨Publish, false, 0, false, 0⟩, [0x61], 0, []⟩ ++ []) =
      .ok (.publish ⟨⟨Publish, false, 0, false, 3⟩, [0x61], 0, []⟩, []) :=
  ⟨ReadPacket_pooled_PublishPacket_Write _ _ [] rfl (by decide) (by decide) (by decide), rfl⟩

end PahoMqtt.Packets
