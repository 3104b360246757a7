import PahoMqtt.Pool.Release
/-!
# The object-level read refines the value-level read

`Packets.ReadPacket` (`src/packets/packets.go:120–139`) takes what `packetPools[i].Get()` hands out
as an oracle and returns a packet value; `Heap.ReadPacket` draws the header, the packet and the
body's slice from the pools of a heap of objects. From a heap that keeps `Heap.Inv` the two agree:
the object-level read fails exactly where the value-level read fails, with the same fault, and
otherwise the packet at the address it returns is the value-level packet, with the oracle reading
off the heap's `packetPools` the packet the pick chooses, and the same bytes left unread. So every
result about the value-level read holds of the objects too.
-/

namespace PahoMqtt

open Packets

namespace Heap

/-- What `packetPools[i].Get()` hands out from the heap: the packet of pool `i` that `pick`
chooses, or `nil`. -/
def packetPoolsGet (h : Heap) (pick : Option Nat) : PacketPools := fun i =>
  (h.packetPools[i]?).bind fun pool =>
    (poolGet pool pick).1.bind fun q => (h.packets[q]?).map PacketObj.cp

/-- `NewControlPacketWithHeader` on the objects returns the value-level packet, at an address
whose packet points at the header `a`, and the same faults. -/
theorem NewControlPacketWithHeader_refines {h : Heap} (hi : h.Inv) (a : Nat) (fh : FixedHeader)
    (pick : Option Nat) :
    (h.NewControlPacketWithHeader a fh pick).map (Option.map fun r => r.1.packets[r.2]?) =
      (Packets.NewControlPacketWithHeader (h.packetPoolsGet pick) fh).map
        (Option.map fun cp => some ⟨cp, a⟩) := by
  have hguard : ¬(fh.MessageType = 0 ∧ fh.MessageType > MaxMessageType) :=
    fun ⟨h0, hgt⟩ => absurd (h0 ▸ hgt) (by decide)
  unfold Heap.NewControlPacketWithHeader Packets.NewControlPacketWithHeader
  rw [if_neg hguard, if_neg hguard]
  dsimp only
  cases hpool : h.packetPools[(fh.MessageType - 1).toNat]? with
  | none =>
    have hge := List.getElem?_eq_none_iff.mp hpool
    rw [if_neg (by rw [← hi.packetPools_length]; omega)]
    rfl
  | some pool =>
    rw [if_pos (hi.packetPools_length ▸ (List.getElem?_eq_some_iff.mp hpool).1)]
    simp only [packetPoolsGet, hpool, Option.some_bind]
    rcases poolGet_cases pool pick with hg | ⟨q, pool', hg, hperm⟩ <;> simp only [hg, Option.none_bind, Option.some_bind]
    · cases hc : newControlPacketWithHeader fh <;> simp [Except.map]
    · have hq := hi.packetPools pool (List.getElem?_mem hpool) q (hperm.symm.subset (List.mem_cons_self _ _))
      rw [List.getElem?_eq_getElem hq]
      simp only [Option.map_some']
      split <;> simp [Except.map, interfaceConversion, *]

theorem map_eq_error {α β : Type} {x : Except Fault α} {f : α → β} {e : Fault}
    (h : x.map f = .error e) : x = .error e := by
  cases x with
  | error e' => cases h; rfl
  | ok a => cases h

/-- `getFixedHeader` and setting the header's fields leave what `packetPools[i].Get()` can hand
out unchanged. -/
theorem packetPoolsGet_of_frame {h h' : Heap} (hpk : h'.packets = h.packets)
    (hpp : h'.packetPools = h.packetPools) : h'.packetPoolsGet = h.packetPoolsGet := by
  funext pick i
  simp only [packetPoolsGet, hpk, hpp]

/-- `ReadPacket` on the objects, from a heap that keeps the invariant, fails exactly as the
value-level `ReadPacket` does, and otherwise returns the address of the packet the value-level
read returns, leaving the same bytes unread. -/
theorem ReadPacket_refines {h : Heap} (hi : h.Inv) (picks : ReadPicks) (stream : List UInt8) :
    (h.ReadPacket picks stream).map (fun r => ((r.1.packets[r.2.1]?).map PacketObj.cp, r.2.2)) =
      (Packets.ReadPacket (h.packetPoolsGet picks.packet) stream).map fun r => (some r.1, r.2) := by
  cases stream with
  | nil => rfl
  | cons b r =>
    obtain ⟨hi0, ha0⟩ := hi.getFixedHeader picks.fixedHeader
    simp only [Heap.ReadPacket, Packets.ReadPacket]
    generalize hg : h.getFixedHeader picks.fixedHeader = g at hi0 ha0 ⊢
    obtain ⟨h0, a⟩ := g
    obtain ⟨-, hpk0, hpp0, -, -⟩ := getFixedHeader_frame hg
    dsimp only at hi0 ha0 ⊢
    cases hu : FixedHeader.unpack b r with
    | error e => rfl
    | ok v =>
    obtain ⟨fh, r1⟩ := v
    dsimp only [bind, Except.bind]
    have hi0' := hi0.modify_header (fun o => { o with fh := fh }) (fun _ => rfl) a
    have hpg : ({ h0 with headers := h0.headers.modify (fun o => { o with fh := fh }) a } :
        Heap).packetPoolsGet = h.packetPoolsGet := packetPoolsGet_of_frame hpk0 hpp0
    have href := NewControlPacketWithHeader_refines hi0' a fh picks.packet
    rw [hpg] at href
    cases hv : Packets.NewControlPacketWithHeader (h.packetPoolsGet picks.packet) fh with
    | error e => rw [hv] at href; rw [map_eq_error href]; rfl
    | ok o =>
    rw [hv] at href
    cases o with
    | none =>
      obtain ⟨_ | ⟨h2, p⟩, hn, hx⟩ := map_eq_ok href
      · rw [hn]; rfl
      · cases hx
    | some cp =>
    obtain ⟨_ | ⟨h2, p⟩, hn, hx⟩ := map_eq_ok href
    · cases hx
    have hcp : h2.packets[p]? = some ⟨cp, a⟩ := Option.some.inj hx
    obtain ⟨hi2, -, -⟩ := hi0'.NewControlPacketWithHeader (by simpa using ha0) hn
    obtain ⟨-, hhd, -, -, -, -⟩ := NewControlPacketWithHeader_frame hn
    obtain ⟨hobj, hh2⟩ : ∃ o, h2.headers[a]? = some o :=
      ⟨_, List.getElem?_eq_getElem (by simpa [hhd, setSelfPtr] using ha0)⟩
    obtain ⟨pool, hpool⟩ : ∃ pool, h2.slices.pools[hobj.pool]? = some pool :=
      ⟨_, List.getElem?_eq_getElem (hi2.header_pool _ (List.getElem?_mem hh2))⟩
    obtain ⟨s', pool', hgb, -, -⟩ := hi2.slices.getByteSlice hpool fh.RemainingLength picks.slice
    rw [hn]
    simp only [hh2, hpool, hgb]
    cases hrf : readFull r1 fh.RemainingLength with
    | error e => rfl
    | ok w =>
    obtain ⟨packetBytes, r2⟩ := w
    simp only [hcp]
    cases hun : cp.Unpack packetBytes with
    | error e => rfl
    | ok cp' =>
    simp only [pure, Except.pure, Except.map, List.getElem?_set_self (List.getElem?_eq_some_iff.mp hcp).1,
      Option.map_some']

/-- A PINGRESP read from the start: the object-level read and the value-level read agree. -/
theorem ReadPacket_refines_pingresp :
    Heap.init.Inv ∧
      (Heap.init.ReadPacket ⟨none, none, none⟩ [0xD0, 0x00]).map
          (fun r => ((r.1.packets[r.2.1]?).map PacketObj.cp, r.2.2)) =
        (Packets.ReadPacket (Heap.init.packetPoolsGet none) [0xD0, 0x00]).map
          fun r => (some r.1, r.2) :=
  ⟨Inv.init, ReadPacket_refines Inv.init ⟨none, none, none⟩ [0xD0, 0x00]⟩

end Heap

end PahoMqtt
