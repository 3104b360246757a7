import PahoMqtt.Pool.Session
/-!
# The slices a packet's body is read into

`ReadPacket` (`src/packets/packets.go:133–137`) reads the body into `cp.getByteSlice(...)`, a slice
that the `ByteSlicePool` embedded in the packet's `FixedHeader` records, and `PublishPacket.Unpack`
and `SubackPacket.Unpack` keep slices of it as the packet's fields. `Release` gives the slices of
the header's pool back to `byteSlicePools`, from which the next `getByteSlice` of that length takes
them. Each header embeds its own pool, so the header at address `i` has the pool at address `i`.

Under the contract of `Pool.Session` the live packets have distinct headers, so by the ledger of
`Pool.Slices` the slices their pools hold are disjoint and none of them is free; and a read, which
takes its slice from a free list or makes a new one, changes the slices of no live packet.
-/

namespace PahoMqtt

open Packets

theorem Slices.getByteSlice_pools {s s' : Slices} {pool pool' : ByteSlicePool} {size len : Nat}
    {pick : Option Nat} (h : s.getByteSlice pool size pick = .ok (s', pool', len)) :
    s'.pools = s.pools := by
  unfold Slices.getByteSlice at h
  split_ifs at h
  all_goals repeat' split at h
  all_goals first | (cases h; rfl) | cases h

section Ledger

variable {s : Slices} (hs : s.Inv)
include hs

/-- Two pools hold no slice holder in common. -/
theorem Slices.Inv.heldIds_disjoint {a b : Nat} {pa pb : ByteSlicePool} (hab : a ≠ b)
    (ha : s.pools[a]? = some pa) (hb : s.pools[b]? = some pb) : pa.heldIds.Disjoint pb.heldIds := by
  have hnd := (hs.ledger.nodup_iff.2 (List.nodup_range _)).of_append_right
  have hpw := List.pairwise_iff_getElem.1 (List.nodup_flatten.1 hnd).2
  obtain ⟨ha', rfl⟩ := List.getElem?_eq_some_iff.mp ha
  obtain ⟨hb', rfl⟩ := List.getElem?_eq_some_iff.mp hb
  rcases Nat.lt_or_gt_of_ne hab with hlt | hlt
  · have := hpw a b (by simpa using ha') (by simpa using hb') hlt
    rwa [List.getElem_map, List.getElem_map] at this
  · have := hpw b a (by simpa using hb') (by simpa using ha') hlt
    rw [List.getElem_map, List.getElem_map] at this
    exact fun x hx hy => this hy hx

/-- No slice holder a pool holds is on a free list. -/
theorem Slices.Inv.heldIds_not_free {a : Nat} {pa : ByteSlicePool} (ha : s.pools[a]? = some pa)
    {x : Nat} (hx : x ∈ pa.heldIds) : x ∉ s.byteSlicePools.flatten := fun hfree =>
  List.disjoint_of_nodup_append (hs.ledger.nodup_iff.2 (List.nodup_range _)) hfree
    (List.mem_flatten.2 ⟨_, List.mem_map.2 ⟨pa, List.getElem?_mem ha, rfl⟩, hx⟩)

end Ledger

namespace Heap

theorem map_modify_of_comp {α β : Type} (l : List α) (f : α → α) (g : α → β)
    (hf : ∀ a, g (f a) = g a) (n : Nat) : (l.modify f n).map g = l.map g :=
  List.ext_getElem? fun m => by
    rw [List.getElem?_map, List.getElem?_map, List.getElem?_modify]
    cases l[m]? with
    | none => rfl
    | some a => by_cases h : n = m <;> simp [h, hf]

/-- Everything one successful `ReadPacket` does, step by step. -/
theorem ReadPacket_cases {h : Heap} {picks : ReadPicks} {stream rest : List UInt8} {h1 : Heap}
    {p : Nat} (hr : h.ReadPacket picks stream = .ok (h1, p, rest)) :
    ∃ b r h0 a fh r1 h2 hobj pool s' pool' len packetBytes obj cp,
      stream = b :: r ∧ h.getFixedHeader picks.fixedHeader = (h0, a) ∧
      FixedHeader.unpack b r = .ok (fh, r1) ∧
      ({ h0 with headers := h0.headers.modify (fun o => { o with fh := fh }) a } :
        Heap).NewControlPacketWithHeader a fh picks.packet = .ok (some (h2, p)) ∧
      h2.headers[a]? = some hobj ∧ h2.slices.pools[hobj.pool]? = some pool ∧
      h2.slices.getByteSlice pool fh.RemainingLength picks.slice = .ok (s', pool', len) ∧
      readFull r1 len = .ok (packetBytes, rest) ∧ h2.packets[p]? = some obj ∧
      obj.cp.Unpack packetBytes = .ok cp ∧
      h1 = { h2 with
        slices := { s' with pools := s'.pools.set hobj.pool pool' }
        packets := h2.packets.set p { obj with cp := cp } } := by
  cases stream with
  | nil => cases hr
  | cons b r =>
    simp only [Heap.ReadPacket] at hr
    generalize hg : h.getFixedHeader picks.fixedHeader = g at hr
    obtain ⟨h0, a⟩ := g
    dsimp only at hr
    obtain ⟨⟨fh, r1⟩, hu, hr⟩ := bind_eq_ok hr
    obtain ⟨_ | ⟨h2, p2⟩, hn, hr⟩ := bind_eq_ok hr
    · cases hr
    dsimp only at hr
    cases hh : h2.headers[a]? with
    | none => simp [hh] at hr
    | some hobj =>
    cases hpool : h2.slices.pools[hobj.pool]? with
    | none => simp [hh, hpool] at hr
    | some pool =>
    simp only [hh, hpool] at hr
    obtain ⟨⟨s', pool', len⟩, hgb, hr⟩ := bind_eq_ok hr
    obtain ⟨⟨packetBytes, r2⟩, hrf, hr⟩ := bind_eq_ok hr
    cases ho : h2.packets[p2]? with
    | none => simp [ho] at hr
    | some obj =>
    simp only [ho] at hr
    obtain ⟨cp, hun, hr⟩ := bind_eq_ok hr
    cases hr
    exact ⟨b, r, h0, a, fh, r1, h2, hobj, pool, s', pool', len, packetBytes, obj, cp, rfl, rfl, hu,
      hn, hh, hpool, hgb, hrf, ho, hun, rfl⟩

/-- `Release` changes no header and no packet, and keeps the number of slice pools. -/
theorem Release_frame {h h' : Heap} {p : Nat} (hrel : h.Release p = .ok h') :
    h'.headers = h.headers ∧ h'.packets = h.packets ∧
      h'.slices.pools.length = h.slices.pools.length := by
  unfold Heap.Release at hrel
  cases hpo : h.packets[p]? with
  | none => simp [hpo] at hrel
  | some obj =>
  cases hho : h.headers[obj.header]? with
  | none => simp [hpo, hho] at hrel
  | some hobj =>
  cases hst : h.slices.step (.Release hobj.pool) with
  | none => simp [hpo, hho, hst] at hrel
  | some r =>
  obtain ⟨pool, hpool, -⟩ := Option.map_eq_some'.mp hst
  simp only [hpo, hho, hst] at hrel
  obtain ⟨s, rfl, hr⟩ := bind_eq_ok hrel
  have hlen : s.pools.length = h.slices.pools.length := by
    rw [Slices.step_Release_pools hpool hst, List.length_set]
  split at hr
  · cases hr; exact ⟨rfl, rfl, hlen⟩
  · split at hr
    · split at hr
      · cases hr
      · cases hr; exact ⟨rfl, rfl, hlen⟩
    · cases hr; exact ⟨rfl, rfl, hlen⟩

/-- Each header embeds its own `ByteSlicePool` (`packets.go:317–318`): the header at address `i`
has the pool at address `i`, and every pool is a header's. -/
def Embedded (h : Heap) : Prop :=
  h.headers.map FixedHeaderObj.pool = List.range h.slices.pools.length

theorem Embedded.init : Heap.init.Embedded := rfl

theorem Embedded.getFixedHeader {h : Heap} (he : h.Embedded) (pick : Option Nat) :
    (h.getFixedHeader pick).1.Embedded := by
  rcases getFixedHeader_cases h pick with ⟨a, pool, -, hg⟩ | hg <;> rw [hg]
  · exact he
  · show (h.headers ++ _).map _ = List.range (h.slices.pools ++ _).length
    rw [List.map_append, he, List.length_append, List.length_singleton, List.range_succ]
    rfl

/-- Setting a header's fields, then `NewControlPacketWithHeader`, keep every header's pool. -/
theorem Embedded.NewControlPacketWithHeader {h0 h2 : Heap} {a p : Nat} {fh : FixedHeader}
    {pick : Option Nat} (he : h0.Embedded)
    (hn : ({ h0 with headers := h0.headers.modify (fun o => { o with fh := fh }) a } :
      Heap).NewControlPacketWithHeader a fh pick = .ok (some (h2, p))) : h2.Embedded := by
  obtain ⟨hsl, hhd, -⟩ := NewControlPacketWithHeader_frame hn
  rw [Embedded, hhd, hsl, setSelfPtr,
    map_modify_of_comp _ (fun o => { o with selfPtr := some p }) FixedHeaderObj.pool (fun _ => rfl),
    map_modify_of_comp _ (fun o => { o with fh := fh }) FixedHeaderObj.pool (fun _ => rfl)]
  exact he

/-- With the pools embedded, the header at `a` has the pool at `a`, which exists. -/
theorem Embedded.pool_eq {h : Heap} (he : h.Embedded) {a : Nat} {o : FixedHeaderObj}
    (hh : h.headers[a]? = some o) : o.pool = a ∧ a < h.slices.pools.length := by
  have hl := congrArg List.length he
  simp only [List.length_map, List.length_range] at hl
  have hlt := hl ▸ (List.getElem?_eq_some_iff.mp hh).1
  have := congrArg (·[a]?) he
  simp only [List.getElem?_map, hh, Option.map_some', List.getElem?_range hlt] at this
  exact ⟨Option.some.inj this, hlt⟩

theorem Embedded.ReadPacket {h : Heap} {picks : ReadPicks} {stream rest : List UInt8} {h1 : Heap}
    {p : Nat} (he : h.Embedded) (hr : h.ReadPacket picks stream = .ok (h1, p, rest)) :
    h1.Embedded := by
  obtain ⟨_, _, h0, _, _, _, h2, _, _, s', _, _, _, _, _, rfl, hg, -, hn, -, -, hgb, -, -, -,
    rfl⟩ := ReadPacket_cases hr
  have he0 : h0.Embedded := by simpa only [hg] using he.getFixedHeader picks.fixedHeader
  show h2.headers.map _ = List.range (s'.pools.set _ _).length
  rw [List.length_set, Slices.getByteSlice_pools hgb]
  exact he0.NewControlPacketWithHeader hn

theorem Embedded.Release {h h' : Heap} {p : Nat} (he : h.Embedded) (hrel : h.Release p = .ok h') :
    h'.Embedded := by
  obtain ⟨hhd, -, hlen⟩ := Release_frame hrel
  rw [Embedded, hhd, hlen]
  exact he

/-- The slice holders the pool of the packet's header holds: the slices its body was read into. -/
def slicesOf (h : Heap) (p : Nat) : List Nat :=
  (((h.packets[p]?).bind fun obj => h.headers[obj.header]?).bind fun o =>
    h.slices.pools[o.pool]?).elim [] ByteSlicePool.heldIds

/-- With the pools embedded in the headers, a packet's slices are those of the pool at its header's
address. -/
theorem slicesOf_eq {h : Heap} (he : h.Embedded) {p a : Nat} (hof : h.headerOf p = some a) :
    h.slicesOf p = (h.slices.pools[a]?).elim [] ByteSlicePool.heldIds := by
  obtain ⟨obj, hpo, rfl⟩ := Option.map_eq_some'.mp hof
  simp only [slicesOf, hpo, Option.some_bind]
  cases hho : h.headers[obj.header]? with
  | none =>
    have hl := congrArg List.length he
    simp only [List.length_map, List.length_range] at hl
    rw [List.getElem?_eq_none (hl ▸ List.getElem?_eq_none_iff.mp hho)]
    rfl
  | some o => rw [Option.some_bind, (he.pool_eq hho).1]

/-- A read changes the slice pool of no header but the one it hands out. -/
theorem ReadPacket_pools_frame {h : Heap} {picks : ReadPicks} {stream rest : List UInt8}
    {h1 : Heap} {p : Nat} (he : h.Embedded) (hr : h.ReadPacket picks stream = .ok (h1, p, rest))
    {b : Nat} (hb : b < h.slices.pools.length) (hba : h1.headerOf p ≠ some b) :
    h1.slices.pools[b]? = h.slices.pools[b]? := by
  obtain ⟨_, _, h0, a, fh, _, h2, hobj, _, s', _, _, _, obj, _, rfl, hg, -, hn, hh, -, hgb, -, ho,
    -, rfl⟩ := ReadPacket_cases hr
  have he0 : h0.Embedded := by simpa only [hg] using he.getFixedHeader picks.fixedHeader
  obtain ⟨hsl, -, -⟩ := NewControlPacketWithHeader_frame hn
  have hobj_pool := ((he0.NewControlPacketWithHeader hn).pool_eq hh).1
  have hab : a ≠ b := by
    intro hab
    obtain ⟨pool, -, hcases⟩ := NewControlPacketWithHeader_cases hn
    apply hba
    have hp2 : (h2.packets[p]?).map PacketObj.header = some a := by
      rcases hcases with ⟨cp, rfl, rfl⟩ | ⟨pool', obj', -, hobj', rfl⟩
      · simp
      · simp [List.getElem?_set, (List.getElem?_eq_some_iff.mp hobj').1]
    rw [← hab]
    simpa [headerOf, List.getElem?_set, (List.getElem?_eq_some_iff.mp ho).1, ho] using hp2
  show (s'.pools.set hobj.pool _)[b]? = _
  rw [hobj_pool, List.getElem?_set_ne hab, Slices.getByteSlice_pools hgb, hsl]
  rcases getFixedHeader_cases h picks.fixedHeader with ⟨_, _, -, hg'⟩ | hg' <;> rw [hg] at hg' <;>
    cases hg'
  · rfl
  · exact List.getElem?_append_left hb

end Heap

/-- Two distinct elements of a list map to distinct values when the values found are distinct. -/
theorem ne_of_nodup_filterMap {α β : Type} [DecidableEq α] {f : α → Option β} {l : List α}
    (hl : (l.filterMap f).Nodup) {p q : α} (hp : p ∈ l) (hq : q ∈ l) (hpq : p ≠ q) {b : β}
    (hfp : f p = some b) (hfq : f q = some b) : False := by
  have hperm := (List.perm_cons_erase hp).trans
    ((List.perm_cons_erase ((List.mem_erase_of_ne (Ne.symm hpq)).2 hq)).cons p)
  have := (hperm.filterMap f).nodup_iff.1 hl
  rw [List.filterMap_cons_some hfp, List.filterMap_cons_some hfq] at this
  exact (List.nodup_cons.1 this).1 (List.mem_cons_self _ _)

namespace Session

variable {s : Session} (hs : s.Inv) (he : s.heap.Embedded)
include hs he

/-- The slices of a live packet are those of the pool at its header's address. -/
theorem Inv.slicesOf_live {p : Nat} (hp : p ∈ s.live) :
    ∃ a pa, s.heap.headerOf p = some a ∧ s.heap.slices.pools[a]? = some pa ∧
      s.heap.slicesOf p = pa.heldIds := by
  obtain ⟨obj, hobj, hpo, hho, -, -⟩ := hs.live p hp
  have hof : s.heap.headerOf p = some obj.header := by simp [Heap.headerOf, hpo]
  obtain ⟨pa, hpa⟩ : ∃ pa, s.heap.slices.pools[obj.header]? = some pa :=
    ⟨_, List.getElem?_eq_getElem (he.pool_eq hho).2⟩
  exact ⟨obj.header, pa, hof, hpa, by rw [Heap.slicesOf_eq he hof, hpa]; rfl⟩

/-- Two live packets hold no slice in common, and none of their slices is free. -/
theorem Inv.slices_disjoint :
    (∀ p ∈ s.live, ∀ q ∈ s.live, p ≠ q → (s.heap.slicesOf p).Disjoint (s.heap.slicesOf q)) ∧
      ∀ p ∈ s.live, ∀ x ∈ s.heap.slicesOf p, x ∉ s.heap.slices.byteSlicePools.flatten := by
  refine ⟨fun p hp q hq hpq => ?_, fun p hp x hx => ?_⟩
  · obtain ⟨a, pa, hpa, hpoola, hsa⟩ := hs.slicesOf_live he hp
    obtain ⟨b, pb, hqb, hpoolb, hsb⟩ := hs.slicesOf_live he hq
    rw [hsa, hsb]
    refine hs.heap.slices.heldIds_disjoint (fun hab => ?_) hpoola hpoolb
    subst hab
    exact ne_of_nodup_filterMap hs.live_disjoint.2.1 hp hq hpq hpa hqb
  · obtain ⟨a, pa, -, hpoola, hsa⟩ := hs.slicesOf_live he hp
    exact hs.heap.slices.heldIds_not_free hpoola (hsa ▸ hx)

/-- A read changes the slices of no live packet. -/
theorem Inv.read_slicesOf {picks : ReadPicks} {stream rest : List UInt8} {h1 : Heap} {p : Nat}
    (hr : s.heap.ReadPacket picks stream = .ok (h1, p, rest)) {q : Nat} (hq : q ∈ s.live) :
    h1.slicesOf q = s.heap.slicesOf q := by
  obtain ⟨hfp, hfa⟩ := hs.read_fresh hr
  obtain ⟨-, -, a, hf⟩ := hs.heap.ReadPacket hr
  obtain ⟨b, pb, hqb, hpoolb, hsb⟩ := hs.slicesOf_live he hq
  have hqp : q ≠ p := fun h => hfp (h ▸ hq)
  have hqb1 : h1.headerOf q = some b := by rw [Heap.headerOf, hf.packet q hqp]; exact hqb
  have hba : h1.headerOf p ≠ some b := fun h => hfa b h (List.mem_filterMap.2 ⟨q, hq, hqb⟩)
  rw [Heap.slicesOf_eq (he.ReadPacket hr) hqb1,
    Heap.ReadPacket_pools_frame he hr (List.getElem?_eq_some_iff.mp hpoolb).1 hba, hpoolb, hsb]
  rfl

end Session

end PahoMqtt
