import PahoMqtt.Pool.Slices

/-!
# Releasing a read packet

`FixedHeader.Release` (`src/packets/packets.go:331–339`) and the pools `ReadPacket` draws from
(`packets.go:111–139, 184–269`), at the level of objects: every `FixedHeader` and every packet by
address, `fixedHeaderPool` and the 13 `packetPools` as multisets of addresses, and the slice
pools of `Pool.Slices`. `ReadPacket` sets the header's `selfPtr` to the packet it returns;
`Release` gives the header's slices back and, while `selfPtr` is set, puts the packet and the
header back into their pools. Nothing clears `selfPtr`, so a second `Release` of the same
packet puts both back again: each pool then holds the object twice, and two later reads can
both draw it.
-/

namespace PahoMqtt

open Packets

/-- A `FixedHeader` object (`packets.go:317–325`): the address of its embedded `ByteSlicePool`
among the slice pools, its fields, and `selfPtr`, the address of the packet that owns it. -/
structure FixedHeaderObj where
  pool : Nat
  fh : FixedHeader
  selfPtr : Option Nat
  deriving DecidableEq, Repr

/-- A packet object: its fields and the address of its `*FixedHeader`. -/
structure PacketObj where
  cp : ControlPacket
  header : Nat
  deriving DecidableEq, Repr

/-- The objects and pools of `ReadPacket` and `Release`: the slice pools, every header and
packet by address, `fixedHeaderPool`, and `packetPools`, one multiset per packet type. -/
structure Heap where
  slices : Slices
  headers : List FixedHeaderObj
  packets : List PacketObj
  fixedHeaderPool : List Nat
  packetPools : List (List Nat)
  deriving DecidableEq, Repr

/-- Before the first read: no object, and the `MaxMessageType - 1` empty `packetPools`. -/
def Heap.init : Heap := ⟨Slices.init, [], [], [], List.replicate packetPoolsLen []⟩

/-- What each `Get` of one `ReadPacket` picks. -/
structure ReadPicks where
  fixedHeader : Option Nat
  packet : Option Nat
  slice : Option Nat
  deriving DecidableEq, Repr

namespace Heap

/-- `fixedHeaderPool.Get().(*FixedHeader)` (`packets.go:111–113, 121`): a pooled header, or a
new `&FixedHeader{}` whose embedded `ByteSlicePool` is a new pool at its zero value. -/
def getFixedHeader (h : Heap) (pick : Option Nat) : Heap × Nat :=
  match poolGet h.fixedHeaderPool pick with
  | (some a, pool) => ({ h with fixedHeaderPool := pool }, a)
  | (none, _) =>
    ({ h with
        slices := { h.slices with pools := h.slices.pools ++ [ByteSlicePool.zero] }
        headers := h.headers ++ [⟨h.slices.pools.length, ⟨0, false, 0, false, 0⟩, none⟩] },
      h.headers.length)

/-- `fh.selfPtr = cp` for the header at `a`. -/
def setSelfPtr (headers : List FixedHeaderObj) (a p : Nat) : List FixedHeaderObj :=
  headers.modify (fun o => { o with selfPtr := some p }) a

/-- `NewControlPacketWithHeader(fh)` (`packets.go:184–269`) for the header at address `a`, whose
fields are `fh`: the address of the packet, whose header's `selfPtr` now points at it. The guard
never holds; `packetPools[fh.MessageType-1]` is indexed in `byte`; a pooled packet must have the
header's type, and gets the header while keeping its other fields. -/
def NewControlPacketWithHeader (h : Heap) (a : Nat) (fh : FixedHeader) (pick : Option Nat) :
    Except Fault (Option (Heap × Nat)) :=
  if fh.MessageType = 0 ∧ fh.MessageType > MaxMessageType then .ok none
  else
    let i := (fh.MessageType - 1).toNat
    match h.packetPools[i]? with
    | none => .error indexOutOfRange
    | some pool =>
      match poolGet pool pick with
      | (none, _) =>
        match newControlPacketWithHeader fh with
        | none => .ok none
        | some cp =>
          .ok (some ({ h with
              packets := h.packets ++ [⟨cp, a⟩]
              headers := setSelfPtr h.headers a h.packets.length }, h.packets.length))
      | (some p, pool) =>
        match h.packets[p]? with
        | none => .error nilDereference
        | some obj =>
          if obj.cp.kind = fh.MessageType then
            .ok (some ({ h with
                packetPools := h.packetPools.set i pool
                packets := h.packets.set p ⟨obj.cp.setFixedHeader fh, a⟩
                headers := setSelfPtr h.headers a p }, p))
          else .error interfaceConversion

/-- `ReadPacket` (`packets.go:120–139`) at the level of objects: the heap after, the address of
the packet and the unread stream. The body is read into a slice of the header's pool. -/
def ReadPacket (h : Heap) (picks : ReadPicks) : List UInt8 →
    Except Fault (Heap × Nat × List UInt8)
  | [] => .error (.error "EOF")
  | b :: r => do
    let (h, a) := h.getFixedHeader picks.fixedHeader
    let (fh, r) ← FixedHeader.unpack b r
    let h := { h with headers := h.headers.modify (fun o => { o with fh := fh }) a }
    match ← h.NewControlPacketWithHeader a fh picks.packet with
    | none => .error (.error "Bad data from client")
    | some (h, p) =>
      let some hobj := h.headers[a]? | .error nilDereference
      let some pool := h.slices.pools[hobj.pool]? | .error nilDereference
      let (slices, pool, len) ← h.slices.getByteSlice pool fh.RemainingLength picks.slice
      let h := { h with slices := { slices with pools := slices.pools.set hobj.pool pool } }
      let (packetBytes, r) ← readFull r len
      let some obj := h.packets[p]? | .error nilDereference
      let cp ← obj.cp.Unpack packetBytes
      pure ({ h with packets := h.packets.set p { obj with cp := cp } }, p, r)

/-- `cp.Release()`, that is `FixedHeader.Release` (`packets.go:331–339`) on the packet's header:
its `ByteSlicePool.Release()`, then, while `selfPtr` is set and the type is within
`1..MaxMessageType`, `packetPools[fh.MessageType-1].Put(fh.selfPtr)` and
`fixedHeaderPool.Put(fh)`. -/
def Release (h : Heap) (p : Nat) : Except Fault Heap := do
  let some obj := h.packets[p]? | .error nilDereference
  let some hobj := h.headers[obj.header]? | .error nilDereference
  let some slices := h.slices.step (.Release hobj.pool) | .error nilDereference
  let h := { h with slices := ← slices }
  match hobj.selfPtr with
  | none => pure h
  | some self =>
    if hobj.fh.MessageType > 0 ∧ hobj.fh.MessageType ≤ MaxMessageType then
      let i := (hobj.fh.MessageType - 1).toNat
      match h.packetPools[i]? with
      | none => .error indexOutOfRange
      | some pool =>
        pure { h with
          packetPools := h.packetPools.set i (pool ++ [self])
          fixedHeaderPool := h.fixedHeaderPool ++ [obj.header] }
    else pure h

/-! ### The heap invariant -/

theorem mem_modify {α : Type} {l : List α} {f : α → α} {n : Nat} {o : α}
    (ho : o ∈ l.modify f n) : ∃ o' ∈ l, o = f o' ∨ o = o' := by
  obtain ⟨m, hm⟩ := List.mem_iff_getElem?.mp ho
  rw [List.getElem?_modify, Option.map_eq_map] at hm
  obtain ⟨o', ho', rfl⟩ := Option.map_eq_some'.mp hm
  exact ⟨o', List.getElem?_mem ho', by split <;> simp⟩

theorem length_lt_length_concat {α : Type} (l : List α) (x : α) : l.length < (l ++ [x]).length := by
  rw [List.length_append]
  exact Nat.lt_succ_self _

theorem lt_length_concat {α : Type} {l : List α} {n : Nat} (x : α) (h : n < l.length) :
    n < (l ++ [x]).length :=
  h.trans (length_lt_length_concat l x)

theorem getElem?_concat_ne {α : Type} (l : List α) (x : α) {b : Nat} (hb : b ≠ l.length) :
    (l ++ [x])[b]? = l[b]? := by
  rcases Nat.lt_or_gt_of_ne hb with hb | hb
  · exact List.getElem?_append_left hb
  · rw [List.getElem?_eq_none (by rw [List.length_append, List.length_singleton]; omega),
      List.getElem?_eq_none (by omega)]

theorem range_append_range' (n k : Nat) : List.range n ++ List.range' n k = List.range (n + k) := by
  simpa [List.range_eq_range', Nat.add_comm] using List.range'_append_1 0 n k

/-- Every address the heap holds is in range: each header's pool, each pooled header and packet,
each packet's header; the slice pools keep their own invariant and there are
`MaxMessageType - 1` packet pools. -/
structure Inv (h : Heap) : Prop where
  slices : h.slices.Inv
  header_pool : ∀ o ∈ h.headers, o.pool < h.slices.pools.length
  fixedHeaderPool : ∀ a ∈ h.fixedHeaderPool, a < h.headers.length
  packetPools_length : h.packetPools.length = packetPoolsLen
  packetPools : ∀ l ∈ h.packetPools, ∀ p ∈ l, p < h.packets.length
  packet_header : ∀ o ∈ h.packets, o.header < h.headers.length

theorem Inv.init : Heap.init.Inv where
  slices := Slices.Inv.init
  header_pool := by simp [Heap.init]
  fixedHeaderPool := by simp [Heap.init]
  packetPools_length := List.length_replicate _ _
  packetPools l hl := by simp_all [Heap.init, List.mem_replicate]
  packet_header := by simp [Heap.init]

/-- What `fixedHeaderPool.Get()` can hand out: a pooled header, taken out of the pool, or a new one
at the end of the headers. -/
theorem getFixedHeader_cases (h : Heap) (pick : Option Nat) :
    (∃ a pool, h.fixedHeaderPool.Perm (a :: pool) ∧
      h.getFixedHeader pick = ({ h with fixedHeaderPool := pool }, a)) ∨
    h.getFixedHeader pick = ({ h with
        slices := { h.slices with pools := h.slices.pools ++ [ByteSlicePool.zero] }
        headers := h.headers ++ [⟨h.slices.pools.length, ⟨0, false, 0, false, 0⟩, none⟩] },
      h.headers.length) := by
  unfold getFixedHeader
  rcases poolGet_cases h.fixedHeaderPool pick with hg | ⟨a, pool, hg, hperm⟩ <;> rw [hg]
  · exact .inr rfl
  · exact .inl ⟨a, pool, hperm, rfl⟩

/-- What `NewControlPacketWithHeader` can return: a new packet at the end of the packets, or one
taken out of its type's pool; either way the header at `a` now points at it. -/
theorem NewControlPacketWithHeader_cases {h : Heap} {a : Nat} {fh : FixedHeader}
    {pick : Option Nat} {h' : Heap} {p : Nat}
    (hn : h.NewControlPacketWithHeader a fh pick = .ok (some (h', p))) :
    ∃ pool, h.packetPools[(fh.MessageType - 1).toNat]? = some pool ∧
      ((∃ cp, p = h.packets.length ∧ h' = { h with
          packets := h.packets ++ [⟨cp, a⟩]
          headers := setSelfPtr h.headers a p }) ∨
      (∃ pool' obj, pool.Perm (p :: pool') ∧ h.packets[p]? = some obj ∧ h' = { h with
          packetPools := h.packetPools.set (fh.MessageType - 1).toNat pool'
          packets := h.packets.set p ⟨obj.cp.setFixedHeader fh, a⟩
          headers := setSelfPtr h.headers a p })) := by
  unfold Heap.NewControlPacketWithHeader at hn
  rw [if_neg fun ⟨h0, hgt⟩ => absurd (h0 ▸ hgt) (by decide)] at hn
  obtain ⟨pool, hpool⟩ : ∃ pool, h.packetPools[(fh.MessageType - 1).toNat]? = some pool := by
    cases hx : h.packetPools[(fh.MessageType - 1).toNat]? with
    | none => simp [hx] at hn
    | some pool => exact ⟨pool, rfl⟩
  refine ⟨pool, hpool, ?_⟩
  rcases poolGet_cases pool pick with hg | ⟨q, pool', hg, hperm⟩ <;> simp only [hpool, hg] at hn
  · -- a new packet
    obtain ⟨cp, hc⟩ : ∃ cp, newControlPacketWithHeader fh = some cp := by
      cases hx : newControlPacketWithHeader fh with
      | none => simp [hx] at hn
      | some cp => exact ⟨cp, rfl⟩
    simp only [hc] at hn
    obtain ⟨rfl, rfl⟩ := Prod.mk.inj (Option.some.inj (Except.ok.inj hn))
    exact .inl ⟨cp, rfl, rfl⟩
  · -- a pooled packet of the header's type
    obtain ⟨obj, hobj⟩ : ∃ obj, h.packets[q]? = some obj := by
      cases hx : h.packets[q]? with
      | none => simp [hx] at hn
      | some obj => exact ⟨obj, rfl⟩
    simp only [hobj] at hn
    split at hn
    · obtain ⟨rfl, rfl⟩ := Prod.mk.inj (Option.some.inj (Except.ok.inj hn))
      exact .inr ⟨pool', obj, hperm, hobj, rfl⟩
    · cases hn

/-- `fixedHeaderPool.Get()` changes no header but a new one, and no packet or packet pool; the
header it hands out was in the pool or is new. -/
theorem getFixedHeader_frame {h h0 : Heap} {pick : Option Nat} {a : Nat}
    (hg : h.getFixedHeader pick = (h0, a)) :
    (∀ b, b ≠ a → h0.headers[b]? = h.headers[b]?) ∧ h0.packets = h.packets ∧
      h0.packetPools = h.packetPools ∧ h.headers.length ≤ h0.headers.length ∧
      (h0.fixedHeaderPool ++ [a]).Perm
        (h.fixedHeaderPool ++ List.range' h.headers.length (h0.headers.length - h.headers.length)) := by
  rcases getFixedHeader_cases h pick with ⟨a', pool, hperm, hg'⟩ | hg' <;> rw [hg'] at hg <;>
    cases hg
  · refine ⟨fun _ _ => rfl, rfl, rfl, le_rfl, ?_⟩
    simpa using List.perm_append_comm.trans hperm.symm
  · exact ⟨fun b hb => getElem?_concat_ne _ _ hb, rfl, rfl, by simp, by simp⟩

/-- `NewControlPacketWithHeader` changes no packet but the one it returns, and no packet pool but
that packet's; the packet was in its pool or is new. -/
theorem NewControlPacketWithHeader_frame {h : Heap} {a : Nat} {fh : FixedHeader}
    {pick : Option Nat} {h' : Heap} {p : Nat}
    (hn : h.NewControlPacketWithHeader a fh pick = .ok (some (h', p))) :
    h'.slices = h.slices ∧ h'.headers = setSelfPtr h.headers a p ∧
      h'.fixedHeaderPool = h.fixedHeaderPool ∧ (∀ q, q ≠ p → h'.packets[q]? = h.packets[q]?) ∧
      h.packets.length ≤ h'.packets.length ∧
      (h'.packetPools.flatten ++ [p]).Perm
        (h.packetPools.flatten ++ List.range' h.packets.length (h'.packets.length - h.packets.length)) := by
  obtain ⟨pool, hpool, ⟨cp, rfl, rfl⟩ | ⟨pool', obj, hperm, hobj, rfl⟩⟩ :=
    NewControlPacketWithHeader_cases hn
  · exact ⟨rfl, rfl, rfl, fun q hq => getElem?_concat_ne _ _ hq,
      length_lt_length_concat _ _ |>.le, by simp⟩
  · refine ⟨rfl, rfl, rfl, fun q hq => List.getElem?_set_ne (Ne.symm hq), (List.length_set _ _ _).ge,
      List.perm_iff_count.2 fun x => ?_⟩
    have hset := List.perm_iff_count.1 (perm_flatten_set hpool pool') x
    have htake := List.perm_iff_count.1 hperm x
    rw [← List.singleton_append] at htake
    simp only [List.length_set, Nat.sub_self, List.range'_zero, List.append_nil,
      List.count_append] at hset htake ⊢
    omega

/-- The address of the header the packet at `p` points at. -/
def headerOf (h : Heap) (p : Nat) : Option Nat := (h.packets[p]?).map PacketObj.header

/-- What a read changes besides the slices: it hands out the header `a` and the packet `p`, each
taken out of its pool or new, points the packet at the header, and changes no other object. -/
structure ReadFrame (h h1 : Heap) (a p : Nat) : Prop where
  header : ∀ b, b ≠ a → h1.headers[b]? = h.headers[b]?
  packet : ∀ q, q ≠ p → h1.packets[q]? = h.packets[q]?
  owner : h1.headerOf p = some a
  headers_le : h.headers.length ≤ h1.headers.length
  packets_le : h.packets.length ≤ h1.packets.length
  fixedHeaderPool : (h1.fixedHeaderPool ++ [a]).Perm
    (h.fixedHeaderPool ++ List.range' h.headers.length (h1.headers.length - h.headers.length))
  packetPools : (h1.packetPools.flatten ++ [p]).Perm
    (h.packetPools.flatten ++ List.range' h.packets.length (h1.packets.length - h.packets.length))

section Inv

variable {h : Heap} (hi : h.Inv)
include hi

/-- A header's fields change and its pool stays. -/
theorem Inv.modify_header (f : FixedHeaderObj → FixedHeaderObj) (hf : ∀ o, (f o).pool = o.pool)
    (a : Nat) : { h with headers := h.headers.modify f a }.Inv where
  slices := hi.slices
  header_pool o ho := by
    obtain ⟨o', ho', hfo⟩ := mem_modify ho
    rcases hfo with rfl | rfl
    · exact (hf o').symm ▸ hi.header_pool o' ho'
    · exact hi.header_pool _ ho'
  fixedHeaderPool := by rw [List.length_modify]; exact hi.fixedHeaderPool
  packetPools_length := hi.packetPools_length
  packetPools := hi.packetPools
  packet_header := by rw [List.length_modify]; exact hi.packet_header

theorem Inv.getFixedHeader (pick : Option Nat) :
    (h.getFixedHeader pick).1.Inv ∧ (h.getFixedHeader pick).2 < (h.getFixedHeader pick).1.headers.length := by
  rcases getFixedHeader_cases h pick with ⟨a, pool, hperm, hg⟩ | hg <;> rw [hg]
  · exact ⟨⟨hi.slices, hi.header_pool, fun b hb => hi.fixedHeaderPool b
        (hperm.symm.subset (List.mem_cons_of_mem _ hb)), hi.packetPools_length, hi.packetPools,
        hi.packet_header⟩, hi.fixedHeaderPool a (hperm.symm.subset (List.mem_cons_self _ _))⟩
  · -- a new header, with a new pool
    refine ⟨⟨hi.slices.newPool, List.forall_mem_append.2 ⟨fun o ho => lt_length_concat _
        (hi.header_pool o ho), List.forall_mem_singleton.2 (length_lt_length_concat _ _)⟩,
      fun b hb => lt_length_concat _ (hi.fixedHeaderPool b hb), hi.packetPools_length, hi.packetPools,
      fun o ho => lt_length_concat _ (hi.packet_header o ho)⟩, length_lt_length_concat _ _⟩

theorem Inv.set_slices (s : Slices) (hs : s.Inv) (hlen : s.pools.length = h.slices.pools.length) :
    { h with slices := s }.Inv :=
  ⟨hs, hlen ▸ hi.header_pool, hi.fixedHeaderPool, hi.packetPools_length, hi.packetPools,
    hi.packet_header⟩

theorem Inv.push_packet (o : PacketObj) (ho : o.header < h.headers.length) :
    { h with packets := h.packets ++ [o] }.Inv :=
  ⟨hi.slices, hi.header_pool, hi.fixedHeaderPool, hi.packetPools_length,
    fun l hl q hq => lt_length_concat _ (hi.packetPools l hl q hq),
    List.forall_mem_append.2 ⟨hi.packet_header, List.forall_mem_singleton.2 ho⟩⟩

theorem Inv.set_packet (p : Nat) (o : PacketObj) (ho : o.header < h.headers.length) :
    { h with packets := h.packets.set p o }.Inv :=
  ⟨hi.slices, hi.header_pool, hi.fixedHeaderPool, hi.packetPools_length,
    by simpa using hi.packetPools,
    fun o' ho' => (List.mem_or_eq_of_mem_set ho').elim (hi.packet_header o') (· ▸ ho)⟩

/-- A pool of `packetPools` replaced by one holding packets in range. -/
theorem Inv.set_packetPool (i : Nat) {pool : List Nat} (hpool : ∀ q ∈ pool, q < h.packets.length) :
    { h with packetPools := h.packetPools.set i pool }.Inv :=
  ⟨hi.slices, hi.header_pool, hi.fixedHeaderPool, by simpa using hi.packetPools_length,
    fun l hl => (List.mem_or_eq_of_mem_set hl).elim (hi.packetPools l) (· ▸ hpool),
    hi.packet_header⟩

/-- What `NewControlPacketWithHeader` returns: a packet whose header is the one at `a`, whose
`selfPtr` now points at it, of a type that has a packet pool. -/
theorem Inv.NewControlPacketWithHeader {a : Nat} (ha : a < h.headers.length) {fh : FixedHeader}
    {pick : Option Nat} {h' : Heap} {p : Nat}
    (hn : h.NewControlPacketWithHeader a fh pick = .ok (some (h', p))) :
    h'.Inv ∧ (∃ cp, h'.packets[p]? = some ⟨cp, a⟩) ∧ (fh.MessageType - 1).toNat < packetPoolsLen := by
  obtain ⟨pool, hpool, hcases⟩ := NewControlPacketWithHeader_cases hn
  have hidx := hi.packetPools_length ▸ (List.getElem?_eq_some_iff.mp hpool).1
  have hself := fun p => hi.modify_header (fun o => { o with selfPtr := some p }) (fun _ => rfl) a
  have ha' : ∀ p, a < (setSelfPtr h.headers a p).length := fun _ => by
    rw [setSelfPtr, List.length_modify]; exact ha
  rcases hcases with ⟨cp, rfl, rfl⟩ | ⟨pool', obj, hperm, hobj, rfl⟩
  · -- a new packet
    exact ⟨(hself _).push_packet _ (ha' _), ⟨cp, List.getElem?_concat_length _ _⟩, hidx⟩
  · -- a pooled packet
    have hq := hi.packetPools pool (List.getElem?_mem hpool)
    refine ⟨((hself p).set_packetPool _ fun x hx => hq x
        (hperm.symm.subset (List.mem_cons_of_mem _ hx))).set_packet _ _ (ha' p),
      ⟨obj.cp.setFixedHeader fh, ?_⟩, hidx⟩
    simp [List.getElem?_set, (List.getElem?_eq_some_iff.mp hobj).1]

/-- The packet at `p` as `ReadPacket` returns it: its header's `selfPtr` points back at it, and
its type has a packet pool. -/
def Live (h : Heap) (p : Nat) : Prop :=
  ∃ obj hobj, h.packets[p]? = some obj ∧ h.headers[obj.header]? = some hobj ∧
    hobj.selfPtr = some p ∧ (hobj.fh.MessageType - 1).toNat < packetPoolsLen

/-- A read from a heap that keeps the invariant keeps it, returns a packet as `Live` says, and
changes only what `ReadFrame` says. -/
theorem Inv.ReadPacket {picks : ReadPicks} {stream rest : List UInt8} {h1 : Heap} {p : Nat}
    (hr : h.ReadPacket picks stream = .ok (h1, p, rest)) :
    h1.Inv ∧ h1.Live p ∧ ∃ a, ReadFrame h h1 a p := by
  cases stream with
  | nil => cases hr
  | cons b r =>
    obtain ⟨hi0, ha0⟩ := hi.getFixedHeader picks.fixedHeader
    simp only [Heap.ReadPacket] at hr
    generalize hg : h.getFixedHeader picks.fixedHeader = g at hi0 ha0 hr
    obtain ⟨h0, a⟩ := g
    obtain ⟨hhd0, hpk0, hpp0, hle0, hfhp0⟩ := getFixedHeader_frame hg
    dsimp only at hi0 ha0 hr
    obtain ⟨⟨fh, r1⟩, -, hr⟩ := bind_eq_ok hr
    obtain ⟨_ | ⟨h2, p2⟩, hn, hr⟩ := bind_eq_ok hr
    · cases hr
    obtain ⟨hi2, ⟨cp, hcp⟩, hidx⟩ :=
      (hi0.modify_header (fun o => { o with fh := fh }) (fun _ => rfl) a).NewControlPacketWithHeader
        (by simpa using ha0) hn
    obtain ⟨-, hhd, hfhp, hpk, hle, hpp⟩ := NewControlPacketWithHeader_frame hn
    obtain ⟨hobj, hobj_eq⟩ : ∃ o, h0.headers[a]? = some o := ⟨_, List.getElem?_eq_getElem ha0⟩
    have hh2 : h2.headers[a]? = some { hobj with fh := fh, selfPtr := some p2 } := by
      simp [hhd, setSelfPtr, hobj_eq]
    obtain ⟨pool, hpool⟩ : ∃ pool, h2.slices.pools[hobj.pool]? = some pool :=
      ⟨_, List.getElem?_eq_getElem (hi2.header_pool _ (List.getElem?_mem hh2))⟩
    obtain ⟨s', pool', hg, hpools, hsi⟩ := hi2.slices.getByteSlice hpool fh.RemainingLength picks.slice
    simp only [hh2, hpool, hg, hcp] at hr
    obtain ⟨_, hok, hr⟩ := bind_eq_ok hr
    cases hok
    obtain ⟨_, -, hr⟩ := bind_eq_ok hr
    obtain ⟨cp', -, hr⟩ := bind_eq_ok hr
    obtain ⟨rfl, rfl, -⟩ := Prod.mk.inj_iff.mp (Except.ok.inj hr) |>.imp_right Prod.mk.inj_iff.mp
    have hp2 := (List.getElem?_eq_some_iff.mp hcp).1
    have hlen : h2.headers.length = h0.headers.length := by
      rw [hhd, setSelfPtr, List.length_modify, List.length_modify]
    refine ⟨(hi2.set_slices _ (by rw [hpools]; exact hsi) (by simp [hpools])).set_packet _ _
        (by simpa [hhd, setSelfPtr] using ha0), ⟨⟨cp', a⟩, _, by simp [hp2], hh2, rfl, hidx⟩, a,
      fun b hb => ?_, fun q hq => ?_, by simp [headerOf, hp2], ?_, ?_, ?_, ?_⟩
    · simp only [hhd, setSelfPtr, List.getElem?_modify_ne _ _ (Ne.symm hb)]
      exact hhd0 b hb
    · simp only [List.getElem?_set_ne (Ne.symm hq), hpk q hq, hpk0]
    · simpa only [hlen] using hle0
    · simpa only [List.length_set, hpk0] using hle
    · simpa only [hfhp, hlen] using hfhp0
    · simpa only [List.length_set, hpk0, hpp0] using hpp

end Inv

/-! ### Releasing twice -/

/-- A type whose index `MessageType-1` is within `packetPools` passes `Release`'s range check. -/
theorem messageType_range {t : UInt8} (h : (t - 1).toNat < packetPoolsLen) :
    t > 0 ∧ t ≤ MaxMessageType := by
  by_cases h0 : t = 0
  · subst h0
    exact absurd h (by decide)
  have h1 : (1 : Nat) ≤ t.toNat := Nat.pos_of_ne_zero fun h' => h0 (UInt8.toNat.inj h')
  have h13 : packetPoolsLen = 13 := rfl
  rw [UInt8.toNat_sub_of_le t 1 h1, show (1 : UInt8).toNat = 1 from rfl, h13] at h
  exact ⟨show 0 < t.toNat by omega, show t.toNat ≤ 14 by omega⟩

/-- `Release` of a packet whose header points back at it: the header's slices go back, then the
packet and the header go into their pools. -/
theorem Release_eq {h : Heap} {p : Nat} {obj : PacketObj} {hobj : FixedHeaderObj} {s : Slices}
    {l : List Nat} (hpo : h.packets[p]? = some obj) (hho : h.headers[obj.header]? = some hobj)
    (hself : hobj.selfPtr = some p) (hidx : (hobj.fh.MessageType - 1).toNat < packetPoolsLen)
    (hstep : h.slices.step (.Release hobj.pool) = some (.ok s))
    (hl : h.packetPools[(hobj.fh.MessageType - 1).toNat]? = some l) :
    h.Release p = .ok { h with
      slices := s
      packetPools := h.packetPools.set (hobj.fh.MessageType - 1).toNat (l ++ [p])
      fixedHeaderPool := h.fixedHeaderPool ++ [obj.header] } := by
  simp only [Heap.Release, hpo, hho, hstep, hself, if_pos (messageType_range hidx), hl]
  rfl

section ReleaseLive

variable {h : Heap} (hi : h.Inv)
include hi

/-- Under the invariant the slice pool of every header exists, and releasing it succeeds. -/
theorem Inv.step_Release {o : FixedHeaderObj} (ho : o ∈ h.headers) :
    ∃ pool s, h.slices.pools[o.pool]? = some pool ∧ h.slices.step (.Release o.pool) = some (.ok s) ∧
      s.pools.length = h.slices.pools.length ∧ s.Inv := by
  obtain ⟨pool, hpool⟩ : ∃ pool, h.slices.pools[o.pool]? = some pool :=
    ⟨_, List.getElem?_eq_getElem (hi.header_pool o ho)⟩
  obtain ⟨r, hr⟩ : ∃ r, h.slices.step (.Release o.pool) = some r :=
    ⟨_, by rw [Slices.step, hpool]; rfl⟩
  obtain ⟨s, rfl, hs⟩ := hi.slices.step hr
  exact ⟨pool, s, hpool, hr, by rw [Slices.step_Release_pools hpool hr, List.length_set], hs⟩

/-- `Release` of a live packet succeeds and keeps the invariant: it changes no header or packet,
and puts the packet and its header into their pools. -/
theorem Inv.Release_live {p : Nat} (hl : h.Live p) :
    ∃ obj i l h', h.packets[p]? = some obj ∧ h.packetPools[i]? = some l ∧ h.Release p = .ok h' ∧
      h'.Inv ∧ h'.headers = h.headers ∧ h'.packets = h.packets ∧
      h'.packetPools = h.packetPools.set i (l ++ [p]) ∧
      h'.fixedHeaderPool = h.fixedHeaderPool ++ [obj.header] := by
  obtain ⟨obj, hobj, hpo, hho, hself, hidx⟩ := hl
  obtain ⟨-, s, -, hs, hslen, hsi⟩ := hi.step_Release (List.getElem?_mem hho)
  have hlen := hi.packetPools_length ▸ hidx
  refine ⟨obj, _, _, _, hpo, List.getElem?_eq_getElem hlen,
    Release_eq hpo hho hself hidx hs (List.getElem?_eq_getElem hlen),
    ⟨hsi, fun o ho => hslen ▸ hi.header_pool o ho, List.forall_mem_append.2 ⟨hi.fixedHeaderPool,
      List.forall_mem_singleton.2 (hi.packet_header obj (List.getElem?_mem hpo))⟩,
      by simpa using hi.packetPools_length, fun l hl => ?_, hi.packet_header⟩, rfl, rfl, rfl, rfl⟩
  rcases List.mem_or_eq_of_mem_set hl with hl | rfl
  · exact hi.packetPools l hl
  · exact List.forall_mem_append.2 ⟨hi.packetPools _ (List.getElem_mem hlen),
      List.forall_mem_singleton.2 (List.getElem?_eq_some_iff.mp hpo).1⟩

end ReleaseLive

/-- `Release` twice on a packet `ReadPacket` returned, from any heap that keeps the invariant:
the slices go back once, but the packet and its header go back into their pools each time, so
the second call adds one more copy of each to a pool that already holds it. -/
theorem ReadPacket_Release_twice {h : Heap} (hi : h.Inv) (picks : ReadPicks)
    (stream rest : List UInt8) (h1 : Heap) (p : Nat)
    (hr : h.ReadPacket picks stream = .ok (h1, p, rest)) :
    ∃ h2 h3 a i l, h1.Release p = .ok h2 ∧ h2.Release p = .ok h3 ∧
      (h1.packets[p]?).map PacketObj.header = some a ∧
      h3.slices.byteSlicePools = h2.slices.byteSlicePools ∧
      h3.fixedHeaderPool = h2.fixedHeaderPool ++ [a] ∧ a ∈ h2.fixedHeaderPool ∧
      h2.packetPools[i]? = some l ∧ h3.packetPools = h2.packetPools.set i (l ++ [p]) ∧ p ∈ l := by
  obtain ⟨hi1, ⟨obj, hobj, hpo, hho, hself, hidx⟩, -⟩ := hi.ReadPacket hr
  obtain ⟨pool, s', hpool, hs', -⟩ := hi1.step_Release (List.getElem?_mem hho)
  have hlen := hi1.packetPools_length ▸ hidx
  obtain ⟨l, hl⟩ : ∃ l, h1.packetPools[(hobj.fh.MessageType - 1).toNat]? = some l :=
    ⟨_, List.getElem?_eq_getElem hlen⟩
  refine ⟨_, _, obj.header, _, l ++ [p], Release_eq hpo hho hself hidx hs' hl,
    Release_eq hpo hho hself hidx (Slices.step_Release_empty (Slices.step_Release_pool hpool hs') rfl)
      (List.getElem?_set_self hlen), by simp [hpo], rfl, rfl, by simp, List.getElem?_set_self hlen,
      rfl, by simp⟩

set_option maxRecDepth 4000 in
/-- A PINGRESP read from the start and released twice: the next two reads both draw packet 0
and header 0, so two live packets are one object. -/
theorem ReadPacket_pingresp_released_twice :
    ∃ h1, Heap.init.ReadPacket ⟨none, none, none⟩ [0xD0, 0x00] = .ok (h1, 0, []) ∧
      (∃ h2 h3 a i l, h1.Release 0 = .ok h2 ∧ h2.Release 0 = .ok h3 ∧
        (h1.packets[0]?).map PacketObj.header = some a ∧
        h3.slices.byteSlicePools = h2.slices.byteSlicePools ∧
        h3.fixedHeaderPool = h2.fixedHeaderPool ++ [a] ∧ a ∈ h2.fixedHeaderPool ∧
        h2.packetPools[i]? = some l ∧ h3.packetPools = h2.packetPools.set i (l ++ [0]) ∧ 0 ∈ l) ∧
      ∃ h2 h3 h4 h5, h1.Release 0 = .ok h2 ∧ h2.Release 0 = .ok h3 ∧
        h3.ReadPacket ⟨some 0, some 0, some 0⟩ [0xD0, 0x00] = .ok (h4, 0, []) ∧
        h4.ReadPacket ⟨some 0, some 0, none⟩ [0xD0, 0x00] = .ok (h5, 0, []) ∧
        (h5.packets[0]?).map PacketObj.header = some 0 := by
  exact ⟨_, rfl, ReadPacket_Release_twice Inv.init ⟨none, none, none⟩ [0xD0, 0x00] [] _ 0 rfl,
    _, _, _, _, rfl, rfl, rfl, rfl, rfl⟩

end Heap

end PahoMqtt
