import PahoMqtt.Pool.Buffers
import PahoMqtt.Net.Inbound
/-!
# The read path over the objects

`incoming` (`net.go:88–131`), `alllogic` (`net.go:226–382`) and the router's loop
(`part_001:126–161`) over the objects of `Pool.Release`, each step atomic, in any interleaving, with
whatever each pool's `Get` hands out. `alllogic` drops without a `Release` a packet its switch has
no case for, a PUBLISH of QoS 3 and a QoS 0 PUBLISH whose select takes `c.errors`. Main results:
`run_held_disjoint` and `run_held_slices_disjoint`: the packets held are distinct objects, none in
a pool, and every `Release` succeeds.
-/

namespace PahoMqtt

open Packets

namespace Packets.ControlPacket

/-- The kinds whose case of `alllogic` ends with `msg.Release()` (`net.go:249–371`). -/
def releasedByLogic : ControlPacket → Bool
  | .pingresp _ | .suback _ | .unsuback _ _ | .puback _ _ | .pubrec _ | .pubrel _ _ | .pubcomp _ _ =>
    true
  | _ => false

end Packets.ControlPacket

/-- The read path: the heap, the bytes `incoming` has still to read and whether it still reads,
the addresses on `ibound` and `incomingPubChan`, where `alllogic` is and the client it works on,
the acknowledgements of PUBLISH it sent on `oboundP`, and the packets it dropped without a
`Release`. -/
structure Receiver where
  heap : Heap
  wire : List UInt8
  reading : Bool
  ibound : List Nat
  incomingPubChan : List Nat
  logic : Logic
  client : Client
  oboundP : List ControlPacket
  dropped : List Nat

namespace Receiver

/-- One atomic step of one goroutine. -/
inductive Action
  /-- `incoming`: `ReadPacket` with what each `Get` picks, then `c.ibound <- cp`. -/
  | incoming (picks : ReadPicks)
  /-- `alllogic`: `msg := <-c.ibound` and its case; `sent` settles the case's select (the QoS 0
  send on `incomingPubChan` against `c.errors`, the PUBREL or PUBCOMP against
  `time.After(time.Second)`). -/
  | logic (sent : Bool)
  /-- `alllogic`: `pa.MessageID = pp.MessageID`, `c.oboundP <- pa` for the PUBLISH it handed on. -/
  | logicAck
  /-- The router: `message := <-messages`, the callbacks, `message.Release()`. -/
  | router

/-- Before anything is read. -/
def init (wire : List UInt8) (client : Client) : Receiver :=
  ⟨Heap.init, wire, true, [], [], .waiting, client, [], []⟩

/-- One step, or `none` when the goroutine cannot take it or the program has panicked. -/
def step (s : Receiver) : Action → Option Receiver
  | .incoming picks =>
    if s.reading then
      match s.heap.ReadPacket picks s.wire with
      | .ok (h, p, rest) => some { s with heap := h, wire := rest, ibound := s.ibound ++ [p] }
      | .error (.error _) => some { s with reading := false }
      | .error (.panic _) => none
    else none
  | .logic sent =>
    match s.logic, s.ibound with
    | .waiting, p :: ibound =>
      match s.heap.packets[p]? with
      | some ⟨.publish pp, _⟩ =>
        let qos := pp.FixedHeader.Qos
        if qos = 2 ∨ qos = 1 then
          some { s with ibound, incomingPubChan := s.incomingPubChan ++ [p], logic := .acking p qos }
        else if qos = 0 ∧ sent then
          some { s with ibound, incomingPubChan := s.incomingPubChan ++ [p] }
        else some { s with ibound, dropped := s.dropped ++ [p] }
      | some ⟨cp, _⟩ =>
        match s.client.logic sent cp with
        | .ok client =>
          if cp.releasedByLogic then
            match s.heap.Release p with
            | .ok h => some { s with heap := h, ibound, client }
            | .error _ => none
          else some { s with ibound, client, dropped := s.dropped ++ [p] }
        | .error _ => none
      | none => none
    | _, _ => none
  | .logicAck =>
    match s.logic with
    | .acking p qos =>
      match s.heap.packets[p]? with
      | some ⟨.publish pp, _⟩ =>
        some { s with oboundP := s.oboundP ++ [ackPacket qos pp.MessageID], logic := .waiting }
      | _ => none
    | .waiting => none
  | .router =>
    match s.incomingPubChan with
    | p :: incomingPubChan =>
      match s.heap.Release p with
      | .ok h => some { s with heap := h, incomingPubChan }
      | .error _ => none
    | [] => none

/-- The state after a schedule of steps, if every one could be taken. -/
def run : List Action → Receiver → Option Receiver
  | [], s => some s
  | act :: acts, s => (s.step act).bind (run acts)

/-- The packets the goroutines hold: on `ibound`, on `incomingPubChan`, or dropped. -/
def held (s : Receiver) : List Nat := s.ibound ++ s.incomingPubChan ++ s.dropped

/-! ### What each step does to the objects -/

variable {s s' : Receiver}

/-- What one step does to the objects: a read, which hands out a packet; a `Release` of a held
packet; or nothing, the held packets only moving between the goroutines. -/
theorem step_objects {act : Action} (h : s.step act = some s') :
    (∃ picks p rest, s.heap.ReadPacket picks s.wire = .ok (s'.heap, p, rest) ∧
      s'.held.Perm (s.held ++ [p])) ∨
    (s'.heap = s.heap ∧ s'.held.Perm s.held) ∨
    (∃ p, p ∈ s.held ∧ s.heap.Release p = .ok s'.heap ∧ s'.held.Perm (s.held.erase p)) := by
  cases act with
  | incoming picks =>
    simp only [step] at h
    split at h
    · split at h
      · cases h
        refine .inl ⟨picks, _, _, ‹_›, List.perm_iff_count.2 fun x => ?_⟩
        simp only [held, List.count_append]
        omega
      · cases h
        exact .inr (.inl ⟨rfl, .refl _⟩)
      · cases h
    · cases h
  | logic sent =>
    cases hl : s.logic with
    | acking _ _ => simp [step, hl] at h
    | waiting =>
    cases hib : s.ibound with
    | nil => simp [step, hl, hib] at h
    | cons p ibound =>
    have hheld : s.held = p :: (ibound ++ s.incomingPubChan ++ s.dropped) := by
      simp only [held, hib, List.cons_append]
    have hmove : ∀ l : List Nat, l.Perm (ibound ++ s.incomingPubChan ++ s.dropped ++ [p]) →
        l.Perm s.held := fun l hl => hl.trans (hheld ▸ List.perm_append_singleton _ _)
    cases hpk : s.heap.packets[p]? with
    | none => simp [step, hl, hib, hpk] at h
    | some obj =>
    simp only [step, hl, hib, hpk] at h
    split at h
    · -- a PUBLISH goes to the router, or is dropped
      split_ifs at h <;> cases h <;>
        refine .inr (.inl ⟨rfl, hmove _ (List.perm_iff_count.2 fun x => ?_)⟩) <;>
        simp only [held, List.count_append] <;> omega
    · -- every other kind
      split at h
      · split at h
        · split at h
          · cases h
            refine .inr (.inr ⟨p, hheld ▸ List.mem_cons_self _ _, ‹_›, ?_⟩)
            rw [hheld, List.erase_cons_head]
            rfl
          · cases h
        · cases h
          refine .inr (.inl ⟨rfl, hmove _ (List.perm_iff_count.2 fun x => ?_)⟩)
          simp only [held, List.count_append]
          omega
      · cases h
    · cases h
  | logicAck =>
    simp only [step] at h
    split at h
    · split at h
      · cases h
        exact .inr (.inl ⟨rfl, .refl _⟩)
      · cases h
    · cases h
  | router =>
    cases hc : s.incomingPubChan with
    | nil => simp [step, hc] at h
    | cons p chan =>
    simp only [step, hc] at h
    split at h
    · cases h
      have hheld : s.held.Perm (p :: (s.ibound ++ chan ++ s.dropped)) := by
        rw [held, hc, List.append_assoc, List.cons_append, List.append_assoc]
        exact List.perm_middle
      refine .inr (.inr ⟨p, hheld.symm.subset (List.mem_cons_self _ _), ‹_›, ?_⟩)
      have := hheld.erase p
      rw [List.erase_cons_head] at this
      exact this.symm
    · cases h
/-! ### The goroutines keep the release-once contract -/

/-- The invariant of `Pool.Session`, with the packets the goroutines hold as the live packets. -/
def Inv (s : Receiver) : Prop := Session.Inv ⟨s.heap, s.held⟩

theorem Inv.init (wire : List UInt8) (client : Client) : (init wire client).Inv :=
  Session.Inv.init

theorem Inv.step (hs : s.Inv) {act : Action} (h : s.step act = some s') : s'.Inv := by
  rcases step_objects h with ⟨_, p, _, hr, hp⟩ | ⟨hh, hp⟩ | ⟨p, hp, hrel, hperm⟩
  · exact (Session.Inv.read hs hr).perm hp
  · show Session.Inv ⟨s'.heap, s'.held⟩
    rw [hh]
    exact hs.perm hp
  · exact (Session.Inv.release hs hp hrel).perm hperm

theorem Inv.run (hs : s.Inv) (acts : List Action) (h : Receiver.run acts s = some s') : s'.Inv := by
  induction acts generalizing s with
  | nil => exact Option.some.inj h ▸ hs
  | cons act acts ih =>
    obtain ⟨s₁, h1, h2⟩ := Option.bind_eq_some.mp h
    exact ih (hs.step h1) h2

/-- In every interleaving of `incoming`, `alllogic` and the router from the start, whatever each
pool's `Get` hands out: the packets the goroutines hold are distinct objects with distinct
headers, none of them or of their headers is in a pool, each can be released, and the next read
hands out none of them and none of their headers. -/
theorem run_held_disjoint (wire : List UInt8) (client : Client) (acts : List Action)
    (s : Receiver) (h : Receiver.run acts (init wire client) = some s) :
    s.held.Nodup ∧ (s.held.filterMap s.heap.headerOf).Nodup ∧
      (∀ p ∈ s.held, p ∉ s.heap.packetPools.flatten) ∧
      (∀ a ∈ s.held.filterMap s.heap.headerOf, a ∉ s.heap.fixedHeaderPool) ∧
      (∀ p ∈ s.held, ∃ h', s.heap.Release p = .ok h') ∧
      ∀ picks h1 p rest, s.heap.ReadPacket picks s.wire = .ok (h1, p, rest) →
        p ∉ s.held ∧ ∀ a, h1.headerOf p = some a → a ∉ s.held.filterMap s.heap.headerOf := by
  have hs := (Inv.init wire client).run acts h
  exact ⟨hs.live_disjoint.1, hs.live_disjoint.2.1, hs.live_disjoint.2.2.1, hs.live_disjoint.2.2.2.1,
    hs.live_disjoint.2.2.2.2, fun _ _ _ _ hr => Session.Inv.read_fresh hs hr⟩

/-! ### No slice of a held packet is handed out -/

theorem embedded_step (he : s.heap.Embedded) {act : Action} (h : s.step act = some s') :
    s'.heap.Embedded := by
  rcases step_objects h with ⟨_, _, _, hr, -⟩ | ⟨hh, -⟩ | ⟨_, -, hrel, -⟩
  · exact he.ReadPacket hr
  · exact hh ▸ he
  · exact he.Release hrel

theorem embedded_run (he : s.heap.Embedded) (acts : List Action)
    (h : Receiver.run acts s = some s') : s'.heap.Embedded := by
  induction acts generalizing s with
  | nil => exact Option.some.inj h ▸ he
  | cons act acts ih =>
    obtain ⟨s₁, h1, h2⟩ := Option.bind_eq_some.mp h
    exact ih (embedded_step he h1) h2

/-- In every interleaving of `incoming`, `alllogic` and the router from the start, whatever each
pool's `Get` hands out: the slices that the headers of the held packets hold, where their bodies
were read, are disjoint from one held packet to another and none of them is free; and the next
read changes the slices of no held packet. So no read writes into the body of a packet a goroutine
holds. -/
theorem run_held_slices_disjoint (wire : List UInt8) (client : Client) (acts : List Action)
    (s : Receiver) (h : Receiver.run acts (init wire client) = some s) :
    (∀ p ∈ s.held, ∀ q ∈ s.held, p ≠ q → (s.heap.slicesOf p).Disjoint (s.heap.slicesOf q)) ∧
      (∀ p ∈ s.held, ∀ x ∈ s.heap.slicesOf p, x ∉ s.heap.slices.byteSlicePools.flatten) ∧
      ∀ picks h1 p rest, s.heap.ReadPacket picks s.wire = .ok (h1, p, rest) →
        ∀ q ∈ s.held, h1.slicesOf q = s.heap.slicesOf q := by
  have hs := (Inv.init wire client).run acts h
  have he := embedded_run Heap.Embedded.init acts h
  exact ⟨(Session.Inv.slices_disjoint hs he).1, (Session.Inv.slices_disjoint hs he).2,
    fun _ _ _ _ hr _ hq => Session.Inv.read_slicesOf hs he hr hq⟩

set_option maxRecDepth 4000 in
/-- A QoS 1 PUBLISH and a PINGRESP: the PUBLISH goes through `alllogic`, is acknowledged and
released by the router; the PINGRESP is then read into header 0 again, and is the one packet
held. -/
theorem run_publish_then_pingresp :
    ∃ s, Receiver.run [.incoming ⟨none, none, none⟩, .logic true, .logicAck, .router,
        .incoming ⟨some 0, some 0, some 0⟩]
        (init [0x32, 0x05, 0x00, 0x01, 0x61, 0x00, 0x01, 0xD0, 0x00] ⟨fun _ => none, false, []⟩) =
        some s ∧
      s.held = [1] ∧ s.held.filterMap s.heap.headerOf = [0] ∧
      s.oboundP = [ackPacket 1 1] ∧
      s.held.Nodup ∧ (s.held.filterMap s.heap.headerOf).Nodup ∧
      (∀ p ∈ s.held, p ∉ s.heap.packetPools.flatten) ∧
      (∀ a ∈ s.held.filterMap s.heap.headerOf, a ∉ s.heap.fixedHeaderPool) ∧
      (∀ p ∈ s.held, ∃ h', s.heap.Release p = .ok h') ∧
      ∀ picks h1 p rest, s.heap.ReadPacket picks s.wire = .ok (h1, p, rest) →
        p ∉ s.held ∧ ∀ a, h1.headerOf p = some a → a ∉ s.held.filterMap s.heap.headerOf :=
  ⟨_, rfl, rfl, rfl, rfl, run_held_disjoint [0x32, 0x05, 0x00, 0x01, 0x61, 0x00, 0x01, 0xD0, 0x00]
    ⟨fun _ => none, false, []⟩ [.incoming ⟨none, none, none⟩, .logic true, .logicAck, .router,
      .incoming ⟨some 0, some 0, some 0⟩] _ rfl⟩

set_option maxRecDepth 4000 in
/-- Two PUBLISH packets, the first still queued on `incomingPubChan` when the second is read: their
bodies are in the two slices the reads took, one each. -/
theorem run_two_publishes_slices :
    ∃ s, Receiver.run [.incoming ⟨none, none, none⟩, .logic true, .incoming ⟨none, none, none⟩]
        (init [0x30, 0x04, 0x00, 0x01, 0x61, 0x62, 0x30, 0x04, 0x00, 0x01, 0x61, 0x63]
          ⟨fun _ => none, false, []⟩) = some s ∧
      s.held = [1, 0] ∧ s.heap.slicesOf 0 = [0] ∧ s.heap.slicesOf 1 = [1] ∧
      (∀ p ∈ s.held, ∀ q ∈ s.held, p ≠ q → (s.heap.slicesOf p).Disjoint (s.heap.slicesOf q)) ∧
      (∀ p ∈ s.held, ∀ x ∈ s.heap.slicesOf p, x ∉ s.heap.slices.byteSlicePools.flatten) ∧
      ∀ picks h1 p rest, s.heap.ReadPacket picks s.wire = .ok (h1, p, rest) →
        ∀ q ∈ s.held, h1.slicesOf q = s.heap.slicesOf q :=
  ⟨_, rfl, rfl, rfl, rfl, run_held_slices_disjoint
    [0x30, 0x04, 0x00, 0x01, 0x61, 0x62, 0x30, 0x04, 0x00, 0x01, 0x61, 0x63]
    ⟨fun _ => none, false, []⟩ [.incoming ⟨none, none, none⟩, .logic true,
      .incoming ⟨none, none, none⟩] _ rfl⟩

end Receiver

end PahoMqtt
