import Mathlib.Data.List.Nodup
import PahoMqtt.Packets.Decode
import PahoMqtt.Net.Logic

/-!
# Inbound PUBLISH objects: reader, logic and router

`incoming` (`net.go:88–131`) reads each PUBLISH into an object `Get` may take from
`packetPools[Publish-1]`; `alllogic` (`net.go:274–329`) hands it to the router on
`incomingPubChan` and only then reads its `MessageID` for the acknowledgement; the router
(`part_001:126–161`) releases it (`packets.go:331–339`). Steps are atomic, over a heap of PUBLISH
objects, on wires of PUBLISH packets (`Net/Receiver` reads every kind). Main results:
`located_nodup`, `oboundP_prefix_expectedAcks_of_fresh` and `alllogic_acks_recycled_object`.
-/

namespace PahoMqtt

open Packets

/-- Where `alllogic` is: at `<-c.ibound`, or holding the PUBLISH object at address `pp`, already
sent on `incomingPubChan`, whose acknowledgement for QoS `qos` it has still to send. -/
inductive Logic
  | waiting
  | acking (pp : Nat) (qos : UInt8)
  deriving DecidableEq, Repr

/-- The shared state: the bytes `incoming` has still to read, the PUBLISH objects by address, the
addresses in `packetPools[Publish-1]`, the three channels, and where `alllogic` is. -/
structure Inbound where
  wire : List UInt8
  heap : List PublishPacket
  pool : List Nat
  ibound : List Nat
  incomingPubChan : List Nat
  oboundP : List ControlPacket
  logic : Logic
  deriving DecidableEq, Repr

/-- One atomic step of one goroutine. -/
inductive Action
  /-- The reader: `ReadPacket` into the released object at the given address, or into a fresh
  one when `Get` returns `nil`, then `c.ibound <- cp`. The object is written before the send. -/
  | incoming (pooled : Option Nat)
  /-- The logic: `msg := <-c.ibound`, `switch pp.Qos`, `c.incomingPubChan <- pp`. -/
  | logic
  /-- The logic: `msg := <-c.ibound`, a QoS 0 PUBLISH whose select takes `<-c.errors`: the object
  is handed to no one. -/
  | logicErrors
  /-- The logic: `pa.MessageID = pp.MessageID`, `c.oboundP <- pa`. -/
  | logicAck
  /-- The router: `message := <-messages`, the callbacks, `message.Release()`. -/
  | router
  deriving DecidableEq, Repr

namespace Inbound

/-- The session before anything is read from `wire`. -/
def init (wire : List UInt8) : Inbound := ⟨wire, [], [], [], [], [], .waiting⟩

/-- One action, or `none` when the goroutine cannot take it: a `Get` of an object not in the pool,
a stream that does not start with a PUBLISH, an empty channel, `alllogic` in the wrong place, the
`c.errors` case for a PUBLISH that is not QoS 0. -/
def step (s : Inbound) : Action → Option Inbound
  | .incoming pooled =>
    if pooled.all (· ∈ s.pool) then
      match ReadPacket (publishPools (pooled.bind (s.heap[·]?))) s.wire, pooled with
      | .ok (.publish pp, rest), none =>
        some { s with wire := rest, heap := s.heap ++ [pp], ibound := s.ibound ++ [s.heap.length] }
      | .ok (.publish pp, rest), some a =>
        some { s with
          wire := rest
          heap := s.heap.set a pp
          pool := s.pool.erase a
          ibound := s.ibound ++ [a] }
      | _, _ => none
    else none
  | .logic =>
    match s.logic, s.ibound with
    | .waiting, a :: ibound =>
      s.heap[a]?.map fun pp =>
        let qos := pp.FixedHeader.Qos
        if qos = 2 ∨ qos = 1 then
          { s with ibound, incomingPubChan := s.incomingPubChan ++ [a], logic := .acking a qos }
        else if qos = 0 then { s with ibound, incomingPubChan := s.incomingPubChan ++ [a] }
        else { s with ibound }
    | _, _ => none
  | .logicErrors =>
    match s.logic, s.ibound with
    | .waiting, a :: ibound =>
      s.heap[a]?.bind fun pp => if pp.FixedHeader.Qos = 0 then some { s with ibound } else none
    | _, _ => none
  | .logicAck =>
    match s.logic with
    | .acking a qos => s.heap[a]?.map fun pp =>
      { s with oboundP := s.oboundP ++ [ackPacket qos pp.MessageID], logic := .waiting }
    | .waiting => none
  | .router =>
    match s.incomingPubChan with
    | a :: incomingPubChan => some { s with incomingPubChan, pool := s.pool ++ [a] }
    | [] => none

/-- The state after a schedule of actions, if every one could be taken. -/
def run : List Action → Inbound → Option Inbound
  | [], s => some s
  | act :: acts, s => (s.step act).bind (run acts)

end Inbound

/-- The bytes on the wire for a sequence of PUBLISH packets. -/
def wireOf (ps : List PublishPacket) : List UInt8 := ps.flatMap PublishPacket.Write

/-- The acknowledgements the wire asks for, in order: one per QoS 1 or 2 PUBLISH, with that
PUBLISH's message ID. -/
def expectedAcks (ps : List PublishPacket) : List ControlPacket :=
  ps.filterMap fun p =>
    if p.FixedHeader.Qos = 2 ∨ p.FixedHeader.Qos = 1 then some (ackPacket p.FixedHeader.Qos p.MessageID)
    else none

/-! ### What each action can do -/

namespace Inbound

variable {s s' : Inbound}

theorem step_incoming_none (h : s.step (.incoming none) = some s') :
    ∃ pp rest, ReadPacket (publishPools none) s.wire = .ok (.publish pp, rest) ∧
      s' = { s with wire := rest, heap := s.heap ++ [pp], ibound := s.ibound ++ [s.heap.length] } := by
  simp only [step, Option.all_none, if_true, Option.bind_none] at h
  split at h
  · exact ⟨_, _, ‹_›, (Option.some.inj h).symm⟩
  · cases ‹none = some _›
  · cases h

theorem step_incoming_some {a : Nat} (h : s.step (.incoming (some a)) = some s') :
    a ∈ s.pool ∧ ∃ pp rest, ReadPacket (publishPools s.heap[a]?) s.wire = .ok (.publish pp, rest) ∧
      s' = { s with
        wire := rest
        heap := s.heap.set a pp
        pool := s.pool.erase a
        ibound := s.ibound ++ [a] } := by
  simp only [step, Option.all_some, Option.some_bind] at h
  split at h
  · rename_i hmem
    refine ⟨of_decide_eq_true hmem, ?_⟩
    split at h
    · cases ‹some a = none›
    · obtain rfl := Option.some.inj ‹some a = some _›
      exact ⟨_, _, ‹_›, (Option.some.inj h).symm⟩
    · cases h
  · cases h

theorem step_logic (h : s.step .logic = some s') :
    ∃ a ibound pp, s.logic = .waiting ∧ s.ibound = a :: ibound ∧ s.heap[a]? = some pp ∧
      s' = if pp.FixedHeader.Qos = 2 ∨ pp.FixedHeader.Qos = 1 then
          { s with
            ibound
            incomingPubChan := s.incomingPubChan ++ [a]
            logic := .acking a pp.FixedHeader.Qos }
        else if pp.FixedHeader.Qos = 0 then
          { s with ibound, incomingPubChan := s.incomingPubChan ++ [a] }
        else { s with ibound } := by
  simp only [step] at h
  split at h
  · obtain ⟨pp, hpp, rfl⟩ := Option.map_eq_some'.mp h
    exact ⟨_, _, pp, ‹_›, ‹_›, hpp, rfl⟩
  · cases h

theorem step_logicErrors (h : s.step .logicErrors = some s') :
    ∃ a ibound pp, s.logic = .waiting ∧ s.ibound = a :: ibound ∧ s.heap[a]? = some pp ∧
      pp.FixedHeader.Qos = 0 ∧ s' = { s with ibound } := by
  simp only [step] at h
  split at h
  · obtain ⟨pp, hpp, h⟩ := Option.bind_eq_some.mp h
    split at h
    · exact ⟨_, _, pp, ‹_›, ‹_›, hpp, ‹_›, (Option.some.inj h).symm⟩
    · cases h
  · cases h

theorem step_logicAck (h : s.step .logicAck = some s') :
    ∃ a qos pp, s.logic = .acking a qos ∧ s.heap[a]? = some pp ∧
      s' = { s with oboundP := s.oboundP ++ [ackPacket qos pp.MessageID], logic := .waiting } := by
  simp only [step] at h
  split at h
  · obtain ⟨pp, hpp, rfl⟩ := Option.map_eq_some'.mp h
    exact ⟨_, _, pp, ‹_›, hpp, rfl⟩
  · cases h

theorem step_router (h : s.step .router = some s') :
    ∃ a incomingPubChan, s.incomingPubChan = a :: incomingPubChan ∧
      s' = { s with incomingPubChan, pool := s.pool ++ [a] } := by
  simp only [step] at h
  split at h
  · exact ⟨_, _, ‹_›, (Option.some.inj h).symm⟩
  · cases h

theorem step_incoming_none_eq {pp : PublishPacket} {rest : List UInt8}
    (h : ReadPacket (publishPools none) s.wire = .ok (.publish pp, rest)) :
    s.step (.incoming none) =
      some { s with wire := rest, heap := s.heap ++ [pp], ibound := s.ibound ++ [s.heap.length] } := by
  simp only [step, Option.all_none, if_true, Option.none_bind, h]

theorem step_incoming_some_eq {a : Nat} {q pp : PublishPacket} {rest : List UInt8}
    (ha : a ∈ s.pool) (hq : s.heap[a]? = some q)
    (h : ReadPacket (publishPools (some q)) s.wire = .ok (.publish pp, rest)) :
    s.step (.incoming (some a)) =
      some { s with
        wire := rest
        heap := s.heap.set a pp
        pool := s.pool.erase a
        ibound := s.ibound ++ [a] } := by
  simp only [step, Option.all_some, ha, decide_True, if_true, Option.some_bind, hq, h]

theorem step_logic_eq {a : Nat} {ibound : List Nat} {pp : PublishPacket}
    (hl : s.logic = .waiting) (hib : s.ibound = a :: ibound) (hpp : s.heap[a]? = some pp) :
    s.step .logic = some
      (if pp.FixedHeader.Qos = 2 ∨ pp.FixedHeader.Qos = 1 then
        { s with
          ibound
          incomingPubChan := s.incomingPubChan ++ [a]
          logic := .acking a pp.FixedHeader.Qos }
      else if pp.FixedHeader.Qos = 0 then
        { s with ibound, incomingPubChan := s.incomingPubChan ++ [a] }
      else { s with ibound }) := by
  simp only [step, hl, hib, hpp, Option.map_some']

/-- What every step of a schedule keeps holds after the whole schedule. -/
theorem run_invariant {P : Inbound → Prop} {acts : List Action}
    (hstep : ∀ act ∈ acts, ∀ t t', P t → t.step act = some t' → P t') (hs : P s)
    (h : run acts s = some s') : P s' := by
  induction acts generalizing s with
  | nil => exact Option.some.inj h ▸ hs
  | cons act acts ih =>
    obtain ⟨t, ht, hrun⟩ := Option.bind_eq_some.mp h
    exact ih (fun a ha => hstep a (List.mem_cons_of_mem _ ha))
      (hstep act (List.mem_cons_self _ _) _ _ hs ht) hrun

end Inbound

/-! ### Every object is in one place at a time -/

namespace Inbound

/-- Where the objects the goroutines pass around are: queued on `ibound` or `incomingPubChan`,
or released to the pool. -/
def located (s : Inbound) : List Nat := s.ibound ++ s.incomingPubChan ++ s.pool

variable {s s' : Inbound}

/-- One step moves an object from one place to the next, drops it (`alllogic` on a QoS above 2, or
on a QoS 0 whose select takes `c.errors`), or, for a fresh object, adds the new heap address. -/
theorem step_located {act : Action} (h : s.step act = some s') :
    (List.Perm s'.located s.located ∧ s'.heap.length = s.heap.length) ∨
    (List.Perm s'.located (s.heap.length :: s.located) ∧ s'.heap.length = s.heap.length + 1) ∨
    (List.Sublist s'.located s.located ∧ s'.heap.length = s.heap.length) := by
  cases act with
  | incoming pooled =>
    cases pooled with
    | none =>
      obtain ⟨pp, rest, -, rfl⟩ := step_incoming_none h
      refine .inr (.inl ⟨?_, List.length_append _ _⟩)
      simpa only [located, List.append_assoc, List.singleton_append] using List.perm_middle
    | some a =>
      obtain ⟨ha, pp, rest, -, rfl⟩ := step_incoming_some h
      refine .inl ⟨?_, List.length_set _ _ _⟩
      have hpool : List.Perm (s.incomingPubChan ++ s.pool) (a :: (s.incomingPubChan ++ s.pool.erase a)) :=
        ((List.perm_cons_erase ha).append_left _).trans List.perm_middle
      simp only [located, List.append_assoc, List.singleton_append]
      exact (hpool.append_left _).symm
  | logic =>
    obtain ⟨a, ibound, pp, -, hib, -, rfl⟩ := step_logic h
    have hmove : List.Perm (ibound ++ (s.incomingPubChan ++ [a]) ++ s.pool) s.located := by
      simp only [located, hib, List.append_assoc, List.singleton_append, List.nil_append,
        List.cons_append]
      exact (List.perm_middle.append_left _).trans List.perm_middle
    split_ifs
    · exact .inl ⟨hmove, rfl⟩
    · exact .inl ⟨hmove, rfl⟩
    · refine .inr (.inr ⟨?_, rfl⟩)
      simp only [located, hib, List.cons_append]
      exact List.sublist_cons_self _ _
  | logicErrors =>
    obtain ⟨a, ibound, pp, -, hib, -, -, rfl⟩ := step_logicErrors h
    refine .inr (.inr ⟨?_, rfl⟩)
    simp only [located, hib, List.cons_append]
    exact List.sublist_cons_self _ _
  | logicAck =>
    obtain ⟨a, qos, pp, -, -, rfl⟩ := step_logicAck h
    exact .inl ⟨List.Perm.refl _, rfl⟩
  | router =>
    obtain ⟨a, incomingPubChan, hipc, rfl⟩ := step_router h
    refine .inl ⟨?_, rfl⟩
    simp only [located, hipc, List.append_assoc, List.cons_append]
    exact (((List.perm_append_singleton _ _).append_left _).trans List.perm_middle).append_left _

end Inbound

/-- No object is in two places, and every object in a place is on the heap: the reader never
takes an object from the pool that is still queued, and the router never releases one twice. -/
structure Owned (s : Inbound) : Prop where
  nodup : s.located.Nodup
  lt : ∀ a ∈ s.located, a < s.heap.length

namespace Owned

variable {s s' : Inbound}

theorem init (wire : List UInt8) : Owned (.init wire) := ⟨List.nodup_nil, fun _ h => by cases h⟩

theorem step {act : Action} (hs : Owned s) (h : s.step act = some s') : Owned s' := by
  rcases Inbound.step_located h with ⟨hp, hl⟩ | ⟨hp, hl⟩ | ⟨hp, hl⟩
  · exact ⟨hp.nodup_iff.mpr hs.nodup, fun a ha => hl ▸ hs.lt a (hp.mem_iff.mp ha)⟩
  · refine ⟨hp.nodup_iff.mpr (List.nodup_cons.mpr ⟨fun hm => Nat.lt_irrefl _ (hs.lt _ hm),
      hs.nodup⟩), fun a ha => ?_⟩
    rcases List.mem_cons.mp (hp.mem_iff.mp ha) with rfl | ha'
    · omega
    · have := hs.lt a ha'; omega
  · exact ⟨hp.nodup hs.nodup, fun a ha => hl ▸ hs.lt a (hp.subset ha)⟩

/-- `Get` never hands out an object that is queued on `ibound`. -/
theorem not_mem_ibound (hs : Owned s) {b : Nat} (hb : b ∈ s.pool) : b ∉ s.ibound :=
  fun hib => List.disjoint_of_nodup_append hs.nodup (List.mem_append_left _ hib) hb

/-- A read decodes the PUBLISH into an object it then queues, and leaves every queued object as it
was. -/
theorem step_incoming {pooled : Option Nat} (hs : Owned s) (h : s.step (.incoming pooled) = some s') :
    ∃ obj pp b, ReadPacket (publishPools obj) s.wire = .ok (.publish pp, s'.wire) ∧
      s'.ibound = s.ibound ++ [b] ∧ s'.heap[b]? = some pp ∧
      (∀ a ∈ s.ibound, s'.heap[a]? = s.heap[a]?) ∧ s'.logic = s.logic ∧ s'.oboundP = s.oboundP := by
  have hlt : ∀ a ∈ s.ibound, a < s.heap.length :=
    fun a ha => hs.lt a (List.mem_append_left _ (List.mem_append_left _ ha))
  cases pooled with
  | none =>
    obtain ⟨pp, rest, hr, rfl⟩ := Inbound.step_incoming_none h
    exact ⟨_, pp, _, hr, rfl, List.getElem?_concat_length _ _,
      fun a ha => List.getElem?_append_left (hlt a ha), rfl, rfl⟩
  | some b =>
    obtain ⟨hb, pp, rest, hr, rfl⟩ := Inbound.step_incoming_some h
    exact ⟨_, pp, b, hr, rfl, List.getElem?_set_self (hs.lt b (List.mem_append_right _ hb)),
      fun a ha => List.getElem?_set_ne (fun (hba : b = a) => hs.not_mem_ibound hb (hba ▸ ha)), rfl, rfl⟩

end Owned

/-! ### Reading the wire -/

/-- A PUBLISH that reads back from its own bytes: type PUBLISH, QoS at most 2, a topic `loadBytes`
can read, and a remaining length within four digits. -/
def Packets.PublishPacket.Readable (p : PublishPacket) : Prop :=
  p.FixedHeader.MessageType = Publish ∧ p.FixedHeader.Qos ≤ 2 ∧ p.TopicName.length ≤ 65533 ∧
    2 + p.TopicName.length + (if 0 < p.FixedHeader.Qos then 2 else 0) + p.Payload.length ≤
      maxRemainingLength

instance (p : PublishPacket) : Decidable p.Readable := inferInstanceAs (Decidable (_ ∧ _))

/-- The object `q` holds what `alllogic` reads of PUBLISH `p`: its QoS, and its ID under QoS > 0. -/
def Decoded (p q : PublishPacket) : Prop :=
  q.FixedHeader.Qos = p.FixedHeader.Qos ∧ (0 < p.FixedHeader.Qos → q.MessageID = p.MessageID)

/-- A readable PUBLISH read back from its bytes, into the pooled object or a fresh one. -/
theorem ReadPacket_Write_decoded (pooled : Option PublishPacket) {p : PublishPacket}
    (hp : p.Readable) (rest : List UInt8) :
    ∃ q, ReadPacket (publishPools pooled) (p.Write ++ rest) = .ok (.publish q, rest) ∧ Decoded p q :=
  let ⟨ht, hq, htopic, hl⟩ := hp
  ⟨_, (ReadPacket_publishPools_Write pooled p rest ht hq (by omega) hl).trans (if_pos htopic), rfl,
    fun h0 => if_pos h0⟩

theorem wireOf_drop {ps : List PublishPacket} {k : Nat} (hk : k < ps.length) :
    wireOf (ps.drop k) = ps[k].Write ++ wireOf (ps.drop (k + 1)) := by
  rw [List.drop_eq_getElem_cons hk, wireOf, List.flatMap_cons]; rfl

/-- A read from a wire of readable PUBLISHes of which the first `k` are read takes the next one,
into whatever object. -/
theorem read_next {ps : List PublishPacket} (hps : ∀ p ∈ ps, p.Readable) {k : Nat}
    {pooled : Option PublishPacket} {wire rest : List UInt8} {pp : PublishPacket}
    (hw : wire = wireOf (ps.drop k))
    (h : ReadPacket (publishPools pooled) wire = .ok (.publish pp, rest)) :
    ∃ hk : k < ps.length, rest = wireOf (ps.drop (k + 1)) ∧ Decoded ps[k] pp := by
  have hk : k < ps.length := by
    refine Nat.lt_of_not_le fun hk => ?_
    rw [hw, List.drop_eq_nil_of_le hk] at h
    cases h
  rw [hw, wireOf_drop hk] at h
  obtain ⟨q, hq, hd⟩ := ReadPacket_Write_decoded pooled (hps _ (List.getElem_mem hk))
    (wireOf (ps.drop (k + 1)))
  rw [h] at hq
  simp only [Except.ok.injEq, Prod.mk.injEq, ControlPacket.publish.injEq] at hq
  obtain ⟨rfl, rfl⟩ := hq
  exact ⟨hk, rfl, hd⟩

/-! ### The acknowledgements `alllogic` has sent -/

theorem expectedAcks_take_succ {ps : List PublishPacket} {k : Nat} {p : PublishPacket}
    (hp : ps[k]? = some p) :
    expectedAcks (ps.take (k + 1)) = expectedAcks (ps.take k) ++
      if p.FixedHeader.Qos = 2 ∨ p.FixedHeader.Qos = 1 then [ackPacket p.FixedHeader.Qos p.MessageID]
      else [] := by
  unfold expectedAcks
  rw [List.take_succ, hp, List.filterMap_append]
  split <;> simp_all

/-- A PUBACK or PUBREC with its message ID cleared: an acknowledgement compared by kind and QoS
only. -/
def withoutMessageID : ControlPacket → ControlPacket
  | .puback fh _ => .puback fh 0
  | .pubrec p => .pubrec { p with MessageID := 0 }
  | cp => cp

@[simp] theorem withoutMessageID_ackPacket (qos : UInt8) (MessageID : UInt16) :
    withoutMessageID (ackPacket qos MessageID) = ackPacket qos 0 := by
  unfold ackPacket; split <;> rfl

/-- Where `alllogic` is after taking the first `m` messages from `ibound`, the acknowledgements
compared through `view`: waiting, with each of the `m` that asks for one acknowledged, or acking
the last of them, with its QoS. -/
def LogicInv (view : ControlPacket → ControlPacket) (ps : List PublishPacket) (m : Nat)
    (logic : Logic) (oboundP : List ControlPacket) : Prop :=
  (logic = .waiting ∧ oboundP.map view = (expectedAcks (ps.take m)).map view) ∨
  ∃ a n p, m = n + 1 ∧ ps[n]? = some p ∧ logic = .acking a p.FixedHeader.Qos ∧
    (p.FixedHeader.Qos = 2 ∨ p.FixedHeader.Qos = 1) ∧
    oboundP.map view = (expectedAcks (ps.take n)).map view

namespace LogicInv

variable {view : ControlPacket → ControlPacket} {ps : List PublishPacket} {m : Nat}
  {oboundP : List ControlPacket} {p : PublishPacket}

theorem waiting (hl : LogicInv view ps m .waiting oboundP) :
    oboundP.map view = (expectedAcks (ps.take m)).map view := by
  rcases hl with ⟨-, h⟩ | ⟨_, _, _, -, -, h, -⟩
  · exact h
  · cases h

/-- `alllogic` takes the next message, of QoS 1 or 2, and is now to acknowledge it. -/
theorem take_ack (a : Nat) (hl : LogicInv view ps m .waiting oboundP) (hp : ps[m]? = some p)
    (hq : p.FixedHeader.Qos = 2 ∨ p.FixedHeader.Qos = 1) :
    LogicInv view ps (m + 1) (.acking a p.FixedHeader.Qos) oboundP :=
  .inr ⟨a, m, p, rfl, hp, rfl, hq, hl.waiting⟩

/-- `alllogic` takes the next message, which asks for no acknowledgement. -/
theorem take_noack (hl : LogicInv view ps m .waiting oboundP) (hp : ps[m]? = some p)
    (hq : ¬(p.FixedHeader.Qos = 2 ∨ p.FixedHeader.Qos = 1)) :
    LogicInv view ps (m + 1) .waiting oboundP :=
  .inl ⟨rfl, by rw [expectedAcks_take_succ hp, if_neg hq, List.append_nil, hl.waiting]⟩

/-- `alllogic` sends an acknowledgement whose ID looks through `view` like the one the message it
took asks for. -/
theorem acked {a : Nat} {qos : UInt8} {MessageID : UInt16}
    (hl : LogicInv view ps m (.acking a qos) oboundP)
    (hid : ∀ n p, m = n + 1 → ps[n]? = some p →
      view (ackPacket qos MessageID) = view (ackPacket qos p.MessageID)) :
    LogicInv view ps m .waiting (oboundP ++ [ackPacket qos MessageID]) := by
  rcases hl with ⟨h, -⟩ | ⟨a', n, p, rfl, hp, hla, hq, hob⟩
  · cases h
  · cases hla
    refine .inl ⟨rfl, ?_⟩
    rw [expectedAcks_take_succ hp, if_pos hq, List.map_append, List.map_append, hob,
      List.map_singleton, List.map_singleton, hid n p rfl hp]

/-- The acknowledgements sent so far are, through `view`, the first ones the wire asks for. -/
theorem oboundP_expected {logic : Logic} (hl : LogicInv view ps m logic oboundP) :
    oboundP.map view <+: (expectedAcks ps).map view := by
  rcases hl with ⟨-, hob⟩ | ⟨_, _, _, -, -, -, -, hob⟩ <;>
    exact hob ▸ ((List.take_prefix _ ps).filterMap _).map view

end LogicInv

/-! ### The queue `ibound` -/

/-- `ibound` holds, in order, objects decoded from the PUBLISHes `m`, `m + 1`, … of `ps`. -/
def Queued (ps : List PublishPacket) (m : Nat) (ibound : List Nat) (heap : List PublishPacket) :
    Prop :=
  ∀ i a q, ibound[i]? = some a → heap[a]? = some q → ∃ p, ps[m + i]? = some p ∧ Decoded p q

/-- Queueing an object decoded from the next PUBLISH, by a read that leaves the queued objects
alone. -/
theorem Queued.push {ps : List PublishPacket} {m : Nat} {ibound : List Nat}
    {heap heap' : List PublishPacket} {b : Nat} {p pp : PublishPacket}
    (hq : Queued ps m ibound heap) (hkeep : ∀ a ∈ ibound, heap'[a]? = heap[a]?)
    (hb : heap'[b]? = some pp) (hp : ps[m + ibound.length]? = some p) (hd : Decoded p pp) :
    Queued ps m (ibound ++ [b]) heap' := by
  intro i a q hia hqa
  rcases Nat.lt_or_ge i ibound.length with hi | hi
  · rw [List.getElem?_append_left hi] at hia
    rw [hkeep a (List.getElem?_mem hia)] at hqa
    exact hq i a q hia hqa
  · obtain ⟨j, rfl⟩ := Nat.exists_eq_add_of_le hi
    rw [List.getElem?_append_right hi, Nat.add_sub_cancel_left] at hia
    cases j with
    | zero =>
      rw [List.getElem?_cons_zero, Option.some.injEq] at hia
      subst hia
      rw [hb, Option.some.injEq] at hqa
      subst hqa
      exact ⟨p, hp, hd⟩
    | succ j => cases hia

/-- The invariant of every run on the bytes of the PUBLISHes `ps`: the reader has read the first
`k`, `alllogic` has taken the first `m`, and `ibound` holds objects decoded from the others, in
order. -/
structure QueueInv (view : ControlPacket → ControlPacket) (ps : List PublishPacket) (k m : Nat)
    (s : Inbound) : Prop where
  wire : s.wire = wireOf (ps.drop k)
  length_ibound : m + s.ibound.length = k
  queued : Queued ps m s.ibound s.heap
  acks : LogicInv view ps m s.logic s.oboundP

/-- The acknowledgement `alllogic` is about to send, with the ID it will read from the object it
holds, looks through `view` like the one the message it took asks for. -/
def AckAgrees (view : ControlPacket → ControlPacket) (ps : List PublishPacket) (m : Nat)
    (s : Inbound) : Prop :=
  ∀ a qos pp, s.logic = .acking a qos → s.heap[a]? = some pp → ∀ n p, m = n + 1 → ps[n]? = some p →
    view (ackPacket qos pp.MessageID) = view (ackPacket qos p.MessageID)

namespace QueueInv

variable {view : ControlPacket → ControlPacket} {ps : List PublishPacket} {k m : Nat}
  {s s' : Inbound}

theorem init (view : ControlPacket → ControlPacket) (ps : List PublishPacket) :
    QueueInv view ps 0 0 (.init (wireOf ps)) :=
  ⟨rfl, rfl, (fun _ _ _ h => by cases h), .inl ⟨rfl, rfl⟩⟩

theorem step_incoming (hps : ∀ p ∈ ps, p.Readable) (ho : Owned s) (hi : QueueInv view ps k m s)
    {pooled : Option Nat} (h : s.step (.incoming pooled) = some s') :
    QueueInv view ps (k + 1) m s' := by
  obtain ⟨obj, pp, b, hr, hib, hb, hkeep, hl, hob⟩ := ho.step_incoming h
  obtain ⟨hk, hw, hd⟩ := read_next hps hi.wire hr
  have hp : ps[m + s.ibound.length]? = some ps[k] := by
    rw [hi.length_ibound]; exact List.getElem?_eq_getElem hk
  refine ⟨hw, ?_, hib ▸ hi.queued.push hkeep hb hp hd, by rw [hl, hob]; exact hi.acks⟩
  rw [hib, List.length_append, List.length_singleton, ← Nat.add_assoc, hi.length_ibound]

/-- `alllogic` takes the head of `ibound`, decoded from message `m`; the rest is queued from
message `m + 1` on. -/
theorem pop (hi : QueueInv view ps k m s) {a : Nat} {ibound : List Nat} {pp : PublishPacket}
    (hib : s.ibound = a :: ibound) (hpp : s.heap[a]? = some pp) :
    (∃ p, ps[m]? = some p ∧ Decoded p pp) ∧ m + 1 + ibound.length = k ∧
      Queued ps (m + 1) ibound s.heap := by
  refine ⟨by simpa using hi.queued 0 a pp (by rw [hib, List.getElem?_cons_zero]) hpp, ?_,
    fun i a q hia hqa => ?_⟩
  · rw [← hi.length_ibound, hib, List.length_cons]; omega
  · rw [Nat.add_right_comm]
    exact hi.queued (i + 1) a q (by rw [hib, List.getElem?_cons_succ]; exact hia) hqa

theorem step_logic (hi : QueueInv view ps k m s) (h : s.step .logic = some s') :
    QueueInv view ps k (m + 1) s' := by
  obtain ⟨a, ibound, pp, hw, hib, hpp, rfl⟩ := Inbound.step_logic h
  obtain ⟨⟨p, hp, hd⟩, hlen, hq⟩ := hi.pop hib hpp
  have hl : LogicInv view ps m .waiting s.oboundP := hw ▸ hi.acks
  rw [hd.1]
  split_ifs with h2
  · exact ⟨hi.wire, hlen, hq, hl.take_ack a hp h2⟩
  all_goals exact ⟨hi.wire, hlen, hq, hw ▸ hl.take_noack hp h2⟩

theorem step_logicErrors (hi : QueueInv view ps k m s) (h : s.step .logicErrors = some s') :
    QueueInv view ps k (m + 1) s' := by
  obtain ⟨a, ibound, pp, hw, hib, hpp, h0, rfl⟩ := Inbound.step_logicErrors h
  obtain ⟨⟨p, hp, hd⟩, hlen, hq⟩ := hi.pop hib hpp
  have hl : LogicInv view ps m .waiting s.oboundP := hw ▸ hi.acks
  exact ⟨hi.wire, hlen, hq, hw ▸ hl.take_noack hp (by rw [← hd.1, h0]; decide)⟩

/-- While bytes are left, the reader can read the next PUBLISH into a fresh object. -/
theorem incoming_isSome (hps : ∀ p ∈ ps, p.Readable) (hi : QueueInv view ps k m s)
    (hw : s.wire ≠ []) : (s.step (.incoming none)).isSome := by
  have hk : k < ps.length := Nat.lt_of_not_le fun hk => hw (by rw [hi.wire, List.drop_eq_nil_of_le hk]; rfl)
  obtain ⟨q, hr, -⟩ := ReadPacket_Write_decoded none (hps _ (List.getElem_mem hk))
    (wireOf (ps.drop (k + 1)))
  rw [← wireOf_drop hk, ← hi.wire] at hr
  rw [Inbound.step_incoming_none_eq hr]
  rfl

theorem step_logicAck (hi : QueueInv view ps k m s) (hid : AckAgrees view ps m s)
    (h : s.step .logicAck = some s') : QueueInv view ps k m s' := by
  obtain ⟨a, qos, pp, hla, hpp, rfl⟩ := Inbound.step_logicAck h
  have hl := hi.acks
  rw [hla] at hl
  exact ⟨hi.wire, hi.length_ibound, hi.queued, hl.acked (hid a qos pp hla hpp)⟩

theorem step_router (hi : QueueInv view ps k m s) (h : s.step .router = some s') :
    QueueInv view ps k m s' := by
  obtain ⟨a, incomingPubChan, -, rfl⟩ := Inbound.step_router h
  exact ⟨hi.wire, hi.length_ibound, hi.queued, hi.acks⟩

end QueueInv

/-! ### Without recycling every acknowledgement is its own message's -/

/-- The object `alllogic` holds while acking still has the ID of the message it took. -/
def AckingHeld (ps : List PublishPacket) (m : Nat) (s : Inbound) : Prop :=
  ∀ a qos, s.logic = .acking a qos →
    ∃ n p q, m = n + 1 ∧ ps[n]? = some p ∧ s.heap[a]? = some q ∧ q.MessageID = p.MessageID

namespace AckingHeld

variable {ps : List PublishPacket} {m : Nat} {s s' : Inbound}

theorem init (wire : List UInt8) : AckingHeld ps 0 (.init wire) := fun _ _ h => by cases h

theorem ackAgrees (ha : AckingHeld ps m s) : AckAgrees id ps m s := by
  intro a qos pp hla hpp n p hm hp
  obtain ⟨n', p', q, hm', hp', hq, hid⟩ := ha a qos hla
  obtain rfl : n' = n := by omega
  rw [hp] at hp'
  rw [hpp] at hq
  cases hp'
  cases hq
  rw [hid]

theorem step_incoming_none (ha : AckingHeld ps m s) (h : s.step (.incoming none) = some s') :
    AckingHeld ps m s' := by
  obtain ⟨pp, rest, -, rfl⟩ := Inbound.step_incoming_none h
  intro a qos hla
  obtain ⟨n, p, q, hm, hp, hq, hid⟩ := ha a qos hla
  obtain ⟨hlt, -⟩ := List.getElem?_eq_some_iff.mp hq
  exact ⟨n, p, q, hm, hp, (List.getElem?_append_left hlt).trans hq, hid⟩

theorem step_logic {view : ControlPacket → ControlPacket} {k : Nat} (hi : QueueInv view ps k m s)
    (h : s.step .logic = some s') : AckingHeld ps (m + 1) s' := by
  obtain ⟨a, ibound, pp, hw, hib, hpp, rfl⟩ := Inbound.step_logic h
  obtain ⟨p, hp, hd⟩ := hi.queued 0 a pp (by rw [hib, List.getElem?_cons_zero]) hpp
  intro a' qos hla
  split_ifs at hla ⊢ with h2
  · cases hla
    refine ⟨m, p, pp, rfl, hp, hpp, hd.2 ?_⟩
    rcases h2 with h2 | h2 <;> rw [← hd.1, h2] <;> decide
  all_goals exact nomatch hla.symm.trans hw

theorem step_logicErrors (h : s.step .logicErrors = some s') : AckingHeld ps (m + 1) s' := by
  obtain ⟨a, ibound, pp, hw, -, -, -, rfl⟩ := Inbound.step_logicErrors h
  exact fun _ _ hla => nomatch hla.symm.trans hw

theorem step_logicAck (h : s.step .logicAck = some s') : AckingHeld ps m s' := by
  obtain ⟨a, qos, pp, -, -, rfl⟩ := Inbound.step_logicAck h
  exact fun _ _ hla => nomatch hla

theorem step_router (ha : AckingHeld ps m s) (h : s.step .router = some s') :
    AckingHeld ps m s' := by
  obtain ⟨a, incomingPubChan, -, rfl⟩ := Inbound.step_router h
  exact ha

end AckingHeld

/-- The invariant of runs in which `Get` always returns `nil`: objects are owned, the queue
invariant holds with acknowledgements compared whole, and the object being acknowledged is the
message's own. -/
def FreshInv (ps : List PublishPacket) (s : Inbound) : Prop :=
  Owned s ∧ ∃ k m, QueueInv id ps k m s ∧ AckingHeld ps m s

theorem FreshInv.init (ps : List PublishPacket) : FreshInv ps (.init (wireOf ps)) :=
  ⟨Owned.init _, 0, 0, QueueInv.init id ps, AckingHeld.init _⟩

theorem FreshInv.step {ps : List PublishPacket} {s s' : Inbound} {act : Action}
    (hps : ∀ p ∈ ps, p.Readable) (hact : ∀ b, act ≠ .incoming (some b)) (hi : FreshInv ps s)
    (h : s.step act = some s') : FreshInv ps s' := by
  obtain ⟨ho, k, m, hq, ha⟩ := hi
  refine ⟨ho.step h, ?_⟩
  cases act with
  | incoming pooled =>
    cases pooled with
    | none => exact ⟨_, _, hq.step_incoming hps ho h, ha.step_incoming_none h⟩
    | some b => exact absurd rfl (hact b)
  | logic => exact ⟨_, _, hq.step_logic h, AckingHeld.step_logic hq h⟩
  | logicErrors => exact ⟨_, _, hq.step_logicErrors h, AckingHeld.step_logicErrors h⟩
  | logicAck => exact ⟨_, _, hq.step_logicAck ha.ackAgrees h, AckingHeld.step_logicAck h⟩
  | router => exact ⟨_, _, hq.step_router h, ha.step_router h⟩

/-- When `Get` never hands out a released object, the acknowledgements `alllogic` has sent on
`oboundP`, in every interleaving of the three goroutines, are the first ones the wire asks for:
one per QoS 1 or 2 PUBLISH, in wire order, each with its own message's ID. -/
theorem oboundP_prefix_expectedAcks_of_fresh (ps : List PublishPacket)
    (hps : ∀ p ∈ ps, p.Readable) (acts : List Action)
    (hacts : ∀ a, Action.incoming (some a) ∉ acts) (s : Inbound)
    (h : Inbound.run acts (.init (wireOf ps)) = some s) : s.oboundP <+: expectedAcks ps := by
  obtain ⟨-, k, m, hq, -⟩ := Inbound.run_invariant
    (fun act hact _ _ hi ht => hi.step hps (fun b hb => hacts b (hb ▸ hact)) ht) (FreshInv.init ps) h
  simpa only [List.map_id] using hq.acks.oboundP_expected

/-- The schedule of `alllogic_acks_recycled_object` with a fresh object for the second message:
the first acknowledgement carries ID 1. -/
theorem oboundP_prefix_two_publishes :
    Inbound.run [.incoming none, .logic, .router, .incoming none, .logicAck]
        (.init (wireOf [⟨⟨Publish, false, 1, false, 0⟩, [0x61], 1, []⟩,
          ⟨⟨Publish, false, 1, false, 0⟩, [0x61], 2, []⟩])) =
      some ⟨[], [⟨⟨Publish, false, 1, false, 5⟩, [0x61], 1, []⟩,
        ⟨⟨Publish, false, 1, false, 5⟩, [0x61], 2, []⟩], [0], [1], [], [ackPacket 1 1], .waiting⟩ ∧
    [ackPacket 1 1] <+: expectedAcks [⟨⟨Publish, false, 1, false, 0⟩, [0x61], 1, []⟩,
      ⟨⟨Publish, false, 1, false, 0⟩, [0x61], 2, []⟩] :=
  let ps : List PublishPacket := [⟨⟨Publish, false, 1, false, 0⟩, [0x61], 1, []⟩,
    ⟨⟨Publish, false, 1, false, 0⟩, [0x61], 2, []⟩]
  have hrun : Inbound.run [.incoming none, .logic, .router, .incoming none, .logicAck]
      (.init (wireOf ps)) = some ⟨[], [⟨⟨Publish, false, 1, false, 5⟩, [0x61], 1, []⟩,
        ⟨⟨Publish, false, 1, false, 5⟩, [0x61], 2, []⟩], [0], [1], [], [ackPacket 1 1], .waiting⟩ :=
    rfl
  ⟨hrun, oboundP_prefix_expectedAcks_of_fresh ps (by decide) _ (by simp) _ hrun⟩

/-! ### With recycling only message IDs can be wrong -/

/-- The invariant of every run: objects are owned, and the queue invariant holds with
acknowledgements compared without their IDs. -/
def KindsInv (ps : List PublishPacket) (s : Inbound) : Prop :=
  Owned s ∧ ∃ k m, QueueInv withoutMessageID ps k m s

theorem KindsInv.init (ps : List PublishPacket) : KindsInv ps (.init (wireOf ps)) :=
  ⟨Owned.init _, 0, 0, QueueInv.init withoutMessageID ps⟩

theorem KindsInv.step {ps : List PublishPacket} {s s' : Inbound} {act : Action}
    (hps : ∀ p ∈ ps, p.Readable) (hi : KindsInv ps s) (h : s.step act = some s') :
    KindsInv ps s' := by
  obtain ⟨ho, k, m, hq⟩ := hi
  refine ⟨ho.step h, ?_⟩
  cases act with
  | incoming pooled => exact ⟨_, _, hq.step_incoming hps ho h⟩
  | logic => exact ⟨_, _, hq.step_logic h⟩
  | logicErrors => exact ⟨_, _, hq.step_logicErrors h⟩
  | logicAck =>
    exact ⟨_, _, hq.step_logicAck (fun _ _ _ _ _ _ _ _ _ => by
      simp only [withoutMessageID_ackPacket]) h⟩
  | router => exact ⟨_, _, hq.step_router h⟩

/-- In every interleaving of the three goroutines, whatever objects `Get` hands out, the
acknowledgements `alllogic` has sent on `oboundP` are, but for their message IDs, the first ones
the wire asks for: one per QoS 1 or 2 PUBLISH, in wire order, a PUBREC for QoS 2 and a PUBACK for
QoS 1. Recycling can give an acknowledgement a wrong ID, never a wrong kind, QoS, count or
order. -/
theorem oboundP_kinds_expectedAcks (ps : List PublishPacket) (hps : ∀ p ∈ ps, p.Readable)
    (acts : List Action) (s : Inbound) (h : Inbound.run acts (.init (wireOf ps)) = some s) :
    s.oboundP.map withoutMessageID <+: (expectedAcks ps).map withoutMessageID :=
  let ⟨_, _, _, hq⟩ := Inbound.run_invariant (fun _ _ _ _ hi ht => KindsInv.step hps hi ht)
    (KindsInv.init ps) h
  hq.acks.oboundP_expected

/-- The recycling schedule on two QoS 1 PUBLISHes: one PUBACK, as the wire asks, with the second
message's ID. -/
theorem oboundP_kinds_recycled :
    Inbound.run [.incoming none, .logic, .router, .incoming (some 0), .logicAck]
        (.init (wireOf [⟨⟨Publish, false, 1, false, 0⟩, [0x61], 1, []⟩,
          ⟨⟨Publish, false, 1, false, 0⟩, [0x61], 2, []⟩])) =
      some ⟨[], [⟨⟨Publish, false, 1, false, 5⟩, [0x61], 2, []⟩], [], [0], [], [ackPacket 1 2],
        .waiting⟩ ∧
    [ackPacket 1 2].map withoutMessageID <+:
      (expectedAcks [⟨⟨Publish, false, 1, false, 0⟩, [0x61], 1, []⟩,
        ⟨⟨Publish, false, 1, false, 0⟩, [0x61], 2, []⟩]).map withoutMessageID :=
  let ps : List PublishPacket := [⟨⟨Publish, false, 1, false, 0⟩, [0x61], 1, []⟩,
    ⟨⟨Publish, false, 1, false, 0⟩, [0x61], 2, []⟩]
  have hrun : Inbound.run [.incoming none, .logic, .router, .incoming (some 0), .logicAck]
      (.init (wireOf ps)) = some ⟨[], [⟨⟨Publish, false, 1, false, 5⟩, [0x61], 2, []⟩], [], [0], [],
        [ackPacket 1 2], .waiting⟩ :=
    rfl
  ⟨hrun, oboundP_kinds_expectedAcks ps (by decide) _ _ hrun⟩

/-! ### Every object is in one place at a time, and every PUBLISH can be read -/

/-- On the bytes of readable PUBLISHes, in every interleaving of the three goroutines, whatever
objects `Get` hands out: each PUBLISH object is queued on `ibound`, queued on `incomingPubChan` or
in the pool at most once, and only objects on the heap are, so none is released twice or handed
out while still queued; and while bytes are left the reader can read the next PUBLISH. -/
theorem located_nodup (ps : List PublishPacket) (hps : ∀ p ∈ ps, p.Readable) (acts : List Action)
    (s : Inbound) (h : Inbound.run acts (.init (wireOf ps)) = some s) :
    s.located.Nodup ∧ (∀ a ∈ s.located, a < s.heap.length) ∧
      (s.wire ≠ [] → (s.step (.incoming none)).isSome) :=
  let ⟨ho, _, _, hq⟩ := Inbound.run_invariant (fun _ _ _ _ hi ht => KindsInv.step hps hi ht)
    (KindsInv.init ps) h
  ⟨ho.nodup, ho.lt, hq.incoming_isSome hps⟩

/-- Three QoS 1 PUBLISHes, the second read into the object released after the first: that object
is queued on `ibound` once and is nowhere else, and the third can be read. -/
theorem located_nodup_recycled :
    ∃ s, Inbound.run [.incoming none, .logic, .router, .incoming (some 0)]
        (.init (wireOf [⟨⟨Publish, false, 1, false, 0⟩, [0x61], 1, []⟩,
          ⟨⟨Publish, false, 1, false, 0⟩, [0x61], 2, []⟩,
          ⟨⟨Publish, false, 1, false, 0⟩, [0x61], 3, []⟩])) = some s ∧
      s.located.Nodup ∧ (∀ a ∈ s.located, a < s.heap.length) ∧
        (s.wire ≠ [] → (s.step (.incoming none)).isSome) :=
  ⟨_, rfl, located_nodup [⟨⟨Publish, false, 1, false, 0⟩, [0x61], 1, []⟩,
    ⟨⟨Publish, false, 1, false, 0⟩, [0x61], 2, []⟩, ⟨⟨Publish, false, 1, false, 0⟩, [0x61], 3, []⟩]
    (by decide) [.incoming none, .logic, .router, .incoming (some 0)] _ rfl⟩

/-! ### With recycling an acknowledgement can carry the next message's ID -/

theorem ackPacket_inj {qos : UInt8} {a b : UInt16} (h : ackPacket qos a = ackPacket qos b) : a = b := by
  unfold ackPacket at h
  split at h
  · exact PubrecPacket.mk.inj (ControlPacket.pubrec.inj h) |>.2
  · exact (ControlPacket.puback.inj h).2

/-- For every wire that starts with a QoS 1 or 2 PUBLISH `p₁` followed by a QoS > 0 PUBLISH `p₂`,
one schedule has the reader read `p₁` into a fresh object, the logic hand it to the router, the
router release it, the reader read `p₂` into the same object, and the logic then acknowledge `p₁`
with `p₂`'s ID: not the acknowledgement the wire asks for whenever the two IDs differ. -/
theorem alllogic_acks_recycled_object (p₁ p₂ : PublishPacket) (rest : List PublishPacket)
    (h₁ : p₁.Readable) (h₂ : p₂.Readable)
    (hq₁ : p₁.FixedHeader.Qos = 2 ∨ p₁.FixedHeader.Qos = 1) (hq₂ : 0 < p₂.FixedHeader.Qos) :
    ∃ s, Inbound.run [.incoming none, .logic, .router, .incoming (some 0), .logicAck]
        (.init (wireOf (p₁ :: p₂ :: rest))) = some s ∧
      s.oboundP = [ackPacket p₁.FixedHeader.Qos p₂.MessageID] ∧
      (p₁.MessageID ≠ p₂.MessageID → ¬ s.oboundP <+: expectedAcks (p₁ :: p₂ :: rest)) := by
  obtain ⟨q₁, hr₁, hd₁⟩ := ReadPacket_Write_decoded none h₁ (p₂.Write ++ wireOf rest)
  obtain ⟨q₂, hr₂, hd₂⟩ := ReadPacket_Write_decoded (some q₁) h₂ (wireOf rest)
  have e₁ : (Inbound.init (wireOf (p₁ :: p₂ :: rest))).step (.incoming none) =
      some ⟨p₂.Write ++ wireOf rest, [q₁], [], [0], [], [], .waiting⟩ :=
    Inbound.step_incoming_none_eq (by simpa [Inbound.init, wireOf] using hr₁)
  have e₂ : Inbound.step ⟨p₂.Write ++ wireOf rest, [q₁], [], [0], [], [], .waiting⟩ .logic =
      some ⟨p₂.Write ++ wireOf rest, [q₁], [], [], [0], [], .acking 0 p₁.FixedHeader.Qos⟩ := by
    rw [@Inbound.step_logic_eq ⟨p₂.Write ++ wireOf rest, [q₁], [], [0], [], [], .waiting⟩ 0 [] q₁
      rfl rfl rfl, hd₁.1, if_pos hq₁]
    rfl
  have e₃ : Inbound.step ⟨p₂.Write ++ wireOf rest, [q₁], [], [], [0], [], .acking 0 p₁.FixedHeader.Qos⟩
      .router = some ⟨p₂.Write ++ wireOf rest, [q₁], [0], [], [], [], .acking 0 p₁.FixedHeader.Qos⟩ :=
    rfl
  have e₄ : Inbound.step ⟨p₂.Write ++ wireOf rest, [q₁], [0], [], [], [], .acking 0 p₁.FixedHeader.Qos⟩
      (.incoming (some 0)) =
      some ⟨wireOf rest, [q₂], [], [0], [], [], .acking 0 p₁.FixedHeader.Qos⟩ :=
    Inbound.step_incoming_some_eq (List.mem_singleton_self 0) rfl hr₂
  have hid : q₂.MessageID = p₂.MessageID := hd₂.2 hq₂
  refine ⟨⟨wireOf rest, [q₂], [], [0], [], [ackPacket p₁.FixedHeader.Qos q₂.MessageID], .waiting⟩,
    ?_, by rw [hid], fun hne hpre => hne ?_⟩
  · simp only [Inbound.run, e₁, e₂, e₃, e₄, Option.some_bind]
    rfl
  · have hhead : expectedAcks (p₁ :: p₂ :: rest) =
        ackPacket p₁.FixedHeader.Qos p₁.MessageID :: expectedAcks (p₂ :: rest) := by
      simp [expectedAcks, hq₁]
    rw [hhead, hid] at hpre
    exact (ackPacket_inj (List.cons_prefix_cons.mp hpre).1).symm

/-- Two QoS 1 PUBLISHes with IDs 1 and 2 on topic `a`: the first is acknowledged with ID 2. -/
theorem alllogic_acks_recycled_object_one_two :
    Inbound.run [.incoming none, .logic, .router, .incoming (some 0), .logicAck]
        (.init (wireOf [⟨⟨Publish, false, 1, false, 0⟩, [0x61], 1, []⟩,
          ⟨⟨Publish, false, 1, false, 0⟩, [0x61], 2, []⟩])) =
      some ⟨[], [⟨⟨Publish, false, 1, false, 5⟩, [0x61], 2, []⟩], [], [0], [], [ackPacket 1 2],
        .waiting⟩ ∧
    ¬ [ackPacket 1 2] <+: expectedAcks [⟨⟨Publish, false, 1, false, 0⟩, [0x61], 1, []⟩,
      ⟨⟨Publish, false, 1, false, 0⟩, [0x61], 2, []⟩] :=
  let ⟨_, _, hob, hne⟩ := alllogic_acks_recycled_object ⟨⟨Publish, false, 1, false, 0⟩, [0x61], 1, []⟩
    ⟨⟨Publish, false, 1, false, 0⟩, [0x61], 2, []⟩ [] (by decide) (by decide) (by decide) (by decide)
  ⟨rfl, hob ▸ hne (by decide)⟩

end PahoMqtt
