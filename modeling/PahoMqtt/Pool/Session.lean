import Mathlib.Data.List.Nodup
import PahoMqtt.Pool.Release
/-!
# Releasing each packet once

The contract that `Release` (`src/packets/packets.go:331–339`) leaves to its callers: `incoming`
(`src/net.go:95–98`) reads packets until a read fails, and each packet is released at most once
after it has been read. Under that contract the pools of `Pool.Release` stay a partition of the
objects: the pooled packets and the packets handed out are every packet exactly once, and the
same for the headers. So no two packets handed out share an object or a header, no pool holds one
of them, and each can be released. `Heap.ReadPacket_Release_twice` shows what a second `Release`
breaks.
-/

namespace PahoMqtt

/-- A call on the packet objects: `ReadPacket` of a stream with what each `Get` picks, or `Release`
of a packet. -/
inductive Call where
  | ReadPacket (picks : ReadPicks) (stream : List UInt8)
  | Release (p : Nat)
  deriving DecidableEq, Repr

/-- The heap and the packets read and not yet released, in the order they were read. -/
structure Session where
  heap : Heap
  live : List Nat
  deriving DecidableEq, Repr

namespace Session

/-- Before the first read. -/
def init : Session := ⟨Heap.init, []⟩

/-- One call under the contract. A failed read ends the session, as it ends `incoming`; so does
a `Release` of a packet that is not live, which the contract rules out. -/
def step (s : Session) : Call → Option Session
  | .ReadPacket picks stream =>
    match s.heap.ReadPacket picks stream with
    | .ok (h, p, _) => some ⟨h, s.live ++ [p]⟩
    | .error _ => none
  | .Release p =>
    if p ∈ s.live then
      match s.heap.Release p with
      | .ok h => some ⟨h, s.live.erase p⟩
      | .error _ => none
    else none

/-- The calls in turn; `none` once the session has ended. -/
def run : List Call → Session → Option Session
  | [], s => some s
  | c :: cs, s => (s.step c).bind (run cs)

/-- What one call can do: a read that hands out a packet, or the `Release` of a live packet. -/
theorem step_cases {s s' : Session} {c : Call} (h : s.step c = some s') :
    (∃ picks stream p rest h1, s.heap.ReadPacket picks stream = .ok (h1, p, rest) ∧
      s' = ⟨h1, s.live ++ [p]⟩) ∨
    (∃ p h', p ∈ s.live ∧ s.heap.Release p = .ok h' ∧ s' = ⟨h', s.live.erase p⟩) := by
  cases c with
  | ReadPacket picks stream =>
    simp only [step] at h
    split at h
    · exact .inl ⟨picks, stream, _, _, _, ‹_›, (Option.some.inj h).symm⟩
    · cases h
  | Release p =>
    simp only [step] at h
    split at h
    · split at h
      · exact .inr ⟨p, _, ‹_›, ‹_›, (Option.some.inj h).symm⟩
      · cases h
    · cases h

/-! ### The pools partition the objects -/

/-- A read's bookkeeping: if the pool `X` with `y` is the old pool `Y` with the new addresses
`n, …, m - 1`, and `Y` with the objects handed out `W` are the addresses below `n`, then `X`, `W`
and `y` are the addresses below `m`, and `y` was not handed out. -/
theorem perm_range_of_take {X Y W : List Nat} {y n m : Nat}
    (h1 : (X ++ [y]).Perm (Y ++ List.range' n (m - n))) (h2 : (Y ++ W).Perm (List.range n))
    (hnm : n ≤ m) : (X ++ (W ++ [y])).Perm (List.range m) ∧ y ∉ W := by
  have hr : List.range n ++ List.range' n (m - n) = List.range m := by
    rw [Heap.range_append_range', Nat.add_sub_cancel' hnm]
  refine ⟨List.perm_iff_count.2 fun x => ?_, fun hy => ?_⟩
  · have c2 := List.perm_iff_count.1 h2 x
    have c3 := congrArg (List.count x) hr
    have c1 := List.perm_iff_count.1 h1 x
    simp only [List.count_append] at c1 c2 c3 ⊢
    omega
  · have c2 := List.perm_iff_count.1 h2 y
    have c3 := congrArg (List.count y) hr
    have c1 := List.perm_iff_count.1 h1 y
    have hw := List.count_pos_iff.2 hy
    have hle := List.nodup_iff_count_le_one.1 (List.nodup_range m) y
    simp only [List.count_append, List.count_singleton_self] at c1 c2 c3
    omega

/-- What the calls keep: every live packet is `Live`, and the pooled and live packets, and the
pooled headers and the live packets' headers, are every object exactly once. -/
structure Inv (s : Session) : Prop where
  heap : s.heap.Inv
  live : ∀ p ∈ s.live, s.heap.Live p
  packets : (s.heap.packetPools.flatten ++ s.live).Perm (List.range s.heap.packets.length)
  headers : (s.heap.fixedHeaderPool ++ s.live.filterMap s.heap.headerOf).Perm
    (List.range s.heap.headers.length)

theorem Inv.init : Session.init.Inv where
  heap := Heap.Inv.init
  live := by simp [Session.init]
  packets := by simp [Session.init, Heap.init]
  headers := by simp [Session.init, Heap.init]

section Inv

variable {s : Session} (hs : s.Inv)
include hs

/-- A read keeps the invariant. -/
theorem Inv.read {picks : ReadPicks} {stream rest : List UInt8} {h1 : Heap} {p : Nat}
    (hr : s.heap.ReadPacket picks stream = .ok (h1, p, rest)) : Session.Inv ⟨h1, s.live ++ [p]⟩ := by
  obtain ⟨hi1, hl1, a, hf⟩ := hs.heap.ReadPacket hr
  obtain ⟨hpk, hp⟩ := perm_range_of_take hf.packetPools hs.packets hf.packets_le
  obtain ⟨hhd, ha⟩ := perm_range_of_take hf.fixedHeaderPool hs.headers hf.headers_le
  have hne : ∀ q ∈ s.live, q ≠ p := fun q hq hqp => hp (hqp ▸ hq)
  have hof : ∀ q ∈ s.live, h1.headerOf q = s.heap.headerOf q := fun q hq => by
    rw [Heap.headerOf, Heap.headerOf, hf.packet q (hne q hq)]
  have hmap : (s.live ++ [p]).filterMap h1.headerOf = s.live.filterMap s.heap.headerOf ++ [a] := by
    rw [List.filterMap_append, List.filterMap_congr hof, List.filterMap_cons_some hf.owner,
      List.filterMap_nil]
  refine ⟨hi1, List.forall_mem_append.2 ⟨fun q hq => ?_, List.forall_mem_singleton.2 hl1⟩, hpk,
    hmap ▸ hhd⟩
  obtain ⟨obj, hobj, hpo, hho, hself, hidx⟩ := hs.live q hq
  have hhdr : obj.header ≠ a := fun he => ha (List.mem_filterMap.2 ⟨q, hq, by
    rw [Heap.headerOf, hpo, Option.map_some', he]⟩)
  exact ⟨obj, hobj, hf.packet q (hne q hq) ▸ hpo, hf.header _ hhdr ▸ hho, hself, hidx⟩

/-- A read hands out neither a live packet nor the header of one. -/
theorem Inv.read_fresh {picks : ReadPicks} {stream rest : List UInt8} {h1 : Heap} {p : Nat}
    (hr : s.heap.ReadPacket picks stream = .ok (h1, p, rest)) :
    p ∉ s.live ∧ ∀ a, h1.headerOf p = some a → a ∉ s.live.filterMap s.heap.headerOf := by
  obtain ⟨-, -, a, hf⟩ := hs.heap.ReadPacket hr
  refine ⟨(perm_range_of_take hf.packetPools hs.packets hf.packets_le).2, fun a' ha' => ?_⟩
  rw [hf.owner] at ha'
  exact Option.some.inj ha' ▸ (perm_range_of_take hf.fixedHeaderPool hs.headers hf.headers_le).2

/-- `Release` of a live packet keeps the invariant. -/
theorem Inv.release {p : Nat} {h' : Heap} (hp : p ∈ s.live) (hrel : s.heap.Release p = .ok h') :
    Session.Inv ⟨h', s.live.erase p⟩ := by
  obtain ⟨obj, i, l, h'', hpo, hl, hrel', hi', hhd, hpk, hpp, hfhp⟩ := hs.heap.Release_live (hs.live p hp)
  obtain rfl : h' = h'' := Except.ok.inj (hrel.symm.trans hrel')
  have hof : h'.headerOf = s.heap.headerOf := by
    funext q
    rw [Heap.headerOf, Heap.headerOf, hpk]
  have herase := List.perm_cons_erase hp
  have hmap := herase.filterMap s.heap.headerOf
  rw [List.filterMap_cons_some (by rw [Heap.headerOf, hpo, Option.map_some'])] at hmap
  refine ⟨hi', fun q hq => ?_, List.perm_iff_count.2 fun x => ?_, List.perm_iff_count.2 fun x => ?_⟩
  · have hq := hs.live q (List.mem_of_mem_erase hq)
    rwa [Heap.Live, hpk, hhd]
  · have c1 := List.perm_iff_count.1 (perm_flatten_set hl (l ++ [p])) x
    have c2 := List.perm_iff_count.1 hs.packets x
    have c3 := List.perm_iff_count.1 herase x
    rw [← List.singleton_append] at c3
    simp only [hpp, hpk, List.count_append] at c1 c2 c3 ⊢
    omega
  · have c1 := List.perm_iff_count.1 hs.headers x
    have c2 := List.perm_iff_count.1 hmap x
    rw [← List.singleton_append] at c2
    simp only [hfhp, hof, hhd, List.count_append] at c1 c2 ⊢
    omega

theorem Inv.step {c : Call} {s' : Session} (h : s.step c = some s') : s'.Inv := by
  rcases step_cases h with ⟨_, _, _, _, _, hr, rfl⟩ | ⟨p, h', hp, hrel, rfl⟩
  · exact hs.read hr
  · exact hs.release hp hrel

theorem Inv.run (cs : List Call) {s' : Session} (h : Session.run cs s = some s') : s'.Inv := by
  induction cs generalizing s with
  | nil => exact Option.some.inj h ▸ hs
  | cons c cs ih =>
    obtain ⟨s₁, h1, h2⟩ := Option.bind_eq_some.mp h
    exact ih (hs.step h1) h2

/-- The invariant does not depend on the order of the live packets. -/
theorem Inv.perm {l : List Nat} (hl : l.Perm s.live) : Session.Inv ⟨s.heap, l⟩ where
  heap := hs.heap
  live p hp := hs.live p (hl.subset hp)
  packets := (hl.append_left _).trans hs.packets
  headers := ((hl.filterMap _).append_left _).trans hs.headers

/-- What the invariant gives: the live packets are distinct objects with distinct headers, none
of them or of their headers is in a pool, and each can be released. -/
theorem Inv.live_disjoint :
    s.live.Nodup ∧ (s.live.filterMap s.heap.headerOf).Nodup ∧
      (∀ p ∈ s.live, p ∉ s.heap.packetPools.flatten) ∧
      (∀ a ∈ s.live.filterMap s.heap.headerOf, a ∉ s.heap.fixedHeaderPool) ∧
      ∀ p ∈ s.live, ∃ h', s.heap.Release p = .ok h' := by
  have hpk := hs.packets.nodup_iff.2 (List.nodup_range _)
  have hhd := hs.headers.nodup_iff.2 (List.nodup_range _)
  refine ⟨hpk.of_append_right, hhd.of_append_right,
    fun p hp hpool => List.disjoint_of_nodup_append hpk hpool hp,
    fun a ha hpool => List.disjoint_of_nodup_append hhd hpool ha, fun p hp => ?_⟩
  obtain ⟨-, -, -, h', -, -, hrel, -⟩ := hs.heap.Release_live (hs.live p hp)
  exact ⟨h', hrel⟩

end Inv

/-- From the start, with each packet released at most once after it was read: the live packets
are distinct objects with distinct headers, none of them or of their headers is in a pool, and
each can be released. -/
theorem run_live_disjoint (cs : List Call) (s : Session) (h : Session.run cs init = some s) :
    s.live.Nodup ∧ (s.live.filterMap s.heap.headerOf).Nodup ∧
      (∀ p ∈ s.live, p ∉ s.heap.packetPools.flatten) ∧
      (∀ a ∈ s.live.filterMap s.heap.headerOf, a ∉ s.heap.fixedHeaderPool) ∧
      ∀ p ∈ s.live, ∃ h', s.heap.Release p = .ok h' :=
  (Inv.init.run cs h).live_disjoint

set_option maxRecDepth 4000 in
/-- A PINGRESP read, released, and read again: the second read draws packet 0 and header 0 back
from the pools, and they are the only live objects. -/
theorem run_pingresp_reread :
    ∃ s, Session.run [.ReadPacket ⟨none, none, none⟩ [0xD0, 0x00], .Release 0,
        .ReadPacket ⟨some 0, some 0, some 0⟩ [0xD0, 0x00]] init = some s ∧
      s.live = [0] ∧ s.live.filterMap s.heap.headerOf = [0] ∧
      s.live.Nodup ∧ (s.live.filterMap s.heap.headerOf).Nodup ∧
      (∀ p ∈ s.live, p ∉ s.heap.packetPools.flatten) ∧
      (∀ a ∈ s.live.filterMap s.heap.headerOf, a ∉ s.heap.fixedHeaderPool) ∧
      ∀ p ∈ s.live, ∃ h', s.heap.Release p = .ok h' := by
  exact ⟨_, rfl, rfl, rfl, run_live_disjoint [.ReadPacket ⟨none, none, none⟩ [0xD0, 0x00], .Release 0,
    .ReadPacket ⟨some 0, some 0, some 0⟩ [0xD0, 0x00]] _ rfl⟩

end Session

end PahoMqtt
