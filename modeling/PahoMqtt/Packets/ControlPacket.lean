import PahoMqtt.Packets.FixedHeader

/-!
# Control packets and `ReadPacket`

The packet structs of `src/packets/publish.go`, `pubrec.go`, `suback.go` and `subscribe.go`,
their `Write` and `Unpack`, and `NewControlPacket`, `NewControlPacketWithHeader` and
`ReadPacket` of `src/packets/packets.go:111–305`. A packet is a tagged variant over the
fourteen kinds. The structs of CONNECT, CONNACK, PUBACK, PUBREL, PUBCOMP, UNSUBACK, PINGREQ,
PINGRESP and DISCONNECT are not in the repository's files: they are modelled from the spec,
with the message ID it gives the acknowledgements and no body for the rest.

`sync.Pool.Get` returns any object put into the pool, or `nil`; `ReadPacket` takes what each
`packetPools[i].Get()` returns as an argument, a `PacketPools`. The header and byte slices it
draws from `fixedHeaderPool` and the slice pools are overwritten in full before they are read,
so at the level of values they do not show.
-/

namespace PahoMqtt.Packets

/-! ### Packet types -/

/-- `Connect` (`packets.go:55`). -/
def Connect : UInt8 := 1
/-- `Connack` (`packets.go:56`). -/
def Connack : UInt8 := 2
/-- `Publish` (`packets.go:57`). -/
def Publish : UInt8 := 3
/-- `Puback` (`packets.go:58`). -/
def Puback : UInt8 := 4
/-- `Pubrec` (`packets.go:59`). -/
def Pubrec : UInt8 := 5
/-- `Pubrel` (`packets.go:60`). -/
def Pubrel : UInt8 := 6
/-- `Pubcomp` (`packets.go:61`). -/
def Pubcomp : UInt8 := 7
/-- `Subscribe` (`packets.go:62`). -/
def Subscribe : UInt8 := 8
/-- `Suback` (`packets.go:63`). -/
def Suback : UInt8 := 9
/-- `Unsubscribe` (`packets.go:64`). -/
def Unsubscribe : UInt8 := 10
/-- `Unsuback` (`packets.go:65`). -/
def Unsuback : UInt8 := 11
/-- `Pingreq` (`packets.go:66`). -/
def Pingreq : UInt8 := 12
/-- `Pingresp` (`packets.go:67`). -/
def Pingresp : UInt8 := 13
/-- `Disconnect` (`packets.go:68`). -/
def Disconnect : UInt8 := 14
/-- `MaxMessageType` (`packets.go:69`). -/
def MaxMessageType : UInt8 := 14

/-! ### Packet structs -/

/-- `PublishPacket` (`publish.go:11–16`). -/
structure PublishPacket where
  FixedHeader : FixedHeader
  TopicName : List UInt8
  MessageID : UInt16
  Payload : List UInt8
  deriving DecidableEq, Repr

/-- `PubrecPacket` (`pubrec.go:9–12`). -/
structure PubrecPacket where
  FixedHeader : FixedHeader
  MessageID : UInt16
  deriving DecidableEq, Repr

/-- `SubackPacket` (`suback.go:10–14`). -/
structure SubackPacket where
  FixedHeader : FixedHeader
  MessageID : UInt16
  GrantedQoss : List UInt8
  deriving DecidableEq, Repr

/-- `SubscribePacket` (`subscribe.go:10–15`). -/
structure SubscribePacket where
  FixedHeader : FixedHeader
  MessageID : UInt16
  Topics : List (List UInt8)
  Qoss : List UInt8
  deriving DecidableEq, Repr

/-- `UnsubscribePacket` (`pubrec.go:50–54`). -/
structure UnsubscribePacket where
  FixedHeader : FixedHeader
  MessageID : UInt16
  Topics : List (List UInt8)
  deriving DecidableEq, Repr

/-- `ControlPacket` (`packets.go:25–32`), one variant per kind. Modelled from the spec for the
kinds whose structs are missing: the acknowledgements carry a message ID, and CONNECT, CONNACK,
PINGREQ, PINGRESP and DISCONNECT only their header, since no modelled function reads more. -/
inductive ControlPacket where
  | connect (fh : FixedHeader)
  | connack (fh : FixedHeader)
  | publish (p : PublishPacket)
  | puback (fh : FixedHeader) (MessageID : UInt16)
  | pubrec (p : PubrecPacket)
  | pubrel (fh : FixedHeader) (MessageID : UInt16)
  | pubcomp (fh : FixedHeader) (MessageID : UInt16)
  | subscribe (p : SubscribePacket)
  | suback (p : SubackPacket)
  | unsubscribe (p : UnsubscribePacket)
  | unsuback (fh : FixedHeader) (MessageID : UInt16)
  | pingreq (fh : FixedHeader)
  | pingresp (fh : FixedHeader)
  | disconnect (fh : FixedHeader)
  deriving DecidableEq, Repr

namespace ControlPacket

/-- The packet-type constant of the packet's dynamic type. -/
def kind : ControlPacket → UInt8
  | connect _ => Connect
  | connack _ => Connack
  | publish _ => Publish
  | puback _ _ => Puback
  | pubrec _ => Pubrec
  | pubrel _ _ => Pubrel
  | pubcomp _ _ => Pubcomp
  | subscribe _ => Subscribe
  | suback _ => Suback
  | unsubscribe _ => Unsubscribe
  | unsuback _ _ => Unsuback
  | pingreq _ => Pingreq
  | pingresp _ => Pingresp
  | disconnect _ => Disconnect

/-- `cp.FixedHeader = fh`: the packet keeps every other field. -/
def setFixedHeader (fh : FixedHeader) : ControlPacket → ControlPacket
  | connect _ => connect fh
  | connack _ => connack fh
  | publish p => publish { p with FixedHeader := fh }
  | puback _ id => puback fh id
  | pubrec p => pubrec { p with FixedHeader := fh }
  | pubrel _ id => pubrel fh id
  | pubcomp _ id => pubcomp fh id
  | subscribe p => subscribe { p with FixedHeader := fh }
  | suback p => suback { p with FixedHeader := fh }
  | unsubscribe p => unsubscribe { p with FixedHeader := fh }
  | unsuback _ id => unsuback fh id
  | pingreq _ => pingreq fh
  | pingresp _ => pingresp fh
  | disconnect _ => disconnect fh

end ControlPacket

/-! ### Allocation -/

/-- `newControlPacketWithHeader` (`packets.go:271–305`): a freshly allocated packet of the
header's type, every other field at its zero value. -/
def newControlPacketWithHeader (fh : FixedHeader) : Option ControlPacket :=
  match fh.MessageType.toNat with
  | 1 => some (.connect fh)
  | 2 => some (.connack fh)
  | 3 => some (.publish ⟨fh, [], 0, []⟩)
  | 4 => some (.puback fh 0)
  | 5 => some (.pubrec ⟨fh, 0⟩)
  | 6 => some (.pubrel fh 0)
  | 7 => some (.pubcomp fh 0)
  | 8 => some (.subscribe ⟨fh, 0, [], []⟩)
  | 9 => some (.suback ⟨fh, 0, []⟩)
  | 10 => some (.unsubscribe ⟨fh, 0, []⟩)
  | 11 => some (.unsuback fh 0)
  | 12 => some (.pingreq fh)
  | 13 => some (.pingresp fh)
  | 14 => some (.disconnect fh)
  | _ => none

/-- `NewControlPacket` (`packets.go:145–179`): an empty packet of the type; PUBREL, SUBSCRIBE and
UNSUBSCRIBE get QoS 1 in their header. -/
def NewControlPacket (packetType : UInt8) : Option ControlPacket :=
  newControlPacketWithHeader
    { MessageType := packetType, Dup := false, Retain := false, RemainingLength := 0,
      Qos := if packetType = Pubrel ∨ packetType = Subscribe ∨ packetType = Unsubscribe
        then 1 else 0 }

/-- What each `packetPools[i].Get()` hands out in one call: an object `Release` put back into
that pool, or `nil`. -/
def PacketPools := Nat → Option ControlPacket

/-- Every pool empty. -/
def emptyPacketPools : PacketPools := fun _ => none

/-- The length of the array `packetPools [MaxMessageType - 1]sync.Pool` (`packets.go:114`). -/
def packetPoolsLen : Nat := MaxMessageType.toNat - 1

/-- `NewControlPacketWithHeader` (`packets.go:184–269`). The guard is written with `&&` and is
never true; the index `fh.MessageType-1` is computed in `byte` and checked against the
13-entry array. A pooled object gets the new header and keeps its other fields; the type
assertion `pooled.(*T)` panics on an object of another type. -/
def NewControlPacketWithHeader (packetPools : PacketPools) (fh : FixedHeader) :
    Except Fault (Option ControlPacket) :=
  if fh.MessageType = 0 ∧ fh.MessageType > MaxMessageType then .ok none
  else if (fh.MessageType - 1).toNat < packetPoolsLen then
    match packetPools (fh.MessageType - 1).toNat with
    | none => .ok (newControlPacketWithHeader fh)
    | some pooled =>
      if pooled.kind = fh.MessageType then .ok (some (pooled.setFixedHeader fh))
      else .error (.panic "interface conversion")
  else .error indexOutOfRange

/-! ### Decoding bodies -/

/-- `PublishPacket.Unpack` (`publish.go:44–53`): `MessageID` is set only under QoS > 0, and
`src[2:]` panics on a body too short for it. -/
def PublishPacket.Unpack (p : PublishPacket) (src : List UInt8) : Except Fault PublishPacket := do
  let (TopicName, endIdx) ← loadBytes src
  let src ← sliceFrom src endIdx
  if p.FixedHeader.Qos > 0 then
    let MessageID := loadUint16 src
    let src ← sliceFrom src 2
    pure { p with TopicName := TopicName, MessageID := MessageID, Payload := src }
  else pure { p with TopicName := TopicName, Payload := src }

/-- `PubrecPacket.Unpack` (`pubrec.go:32–34`). -/
def PubrecPacket.Unpack (pr : PubrecPacket) (src : List UInt8) : PubrecPacket :=
  { pr with MessageID := loadUint16 src }

/-- `SubackPacket.Unpack` (`suback.go:37–44`); `src[2:]` runs only when `len(src) ≥ 2`. -/
def SubackPacket.Unpack (sa : SubackPacket) (src : List UInt8) : SubackPacket :=
  { sa with MessageID := loadUint16 src, GrantedQoss := if src.length < 2 then [] else src.drop 2 }

/-- The `for len(src) > 2` loop of `SubscribePacket.Unpack` (`subscribe.go:48–58`), appending to
`Topics` and `Qoss` as it finds entries. `src[end:]` is within `src` (`loadBytes_end_le`). -/
@[semireducible] def subscribeUnpackLoop (src : List UInt8) (Topics : List (List UInt8)) (Qoss : List UInt8) :
    Except Fault (List (List UInt8) × List UInt8) :=
  if 2 < src.length then
    match loadString src with
    | .error e => .error e
    | .ok (topic, endIdx) =>
      let src' := src.drop endIdx
      if src'.length < 1 then .ok (Topics, Qoss)
      else subscribeUnpackLoop (src'.drop 1) (Topics ++ [topic]) (Qoss ++ [loadByte src'])
  else .ok (Topics, Qoss)
termination_by src.length
decreasing_by simp only [List.length_drop] at *; omega

/-- `SubscribePacket.Unpack` (`subscribe.go:42–59`). -/
def SubscribePacket.Unpack (s : SubscribePacket) (src : List UInt8) :
    Except Fault SubscribePacket :=
  let s := { s with MessageID := loadUint16 src }
  if src.length < 2 then .ok s
  else (subscribeUnpackLoop (src.drop 2) s.Topics s.Qoss).map fun (Topics, Qoss) =>
    { s with Topics := Topics, Qoss := Qoss }

/-- The `for topic != ""` loop of `UnsubscribePacket.Unpack` (`pubrec.go:83–86`). It starts at
the first byte of `src`, where the message ID is. `src[end:]` is within `src`. -/
@[semireducible] def unsubscribeUnpackLoop (src : List UInt8) (Topics : List (List UInt8)) :
    Except Fault (List (List UInt8)) :=
  match _h : loadString src with
  | .error e => .error e
  | .ok (topic, endIdx) =>
    if _hne : topic = [] then .ok Topics
    else unsubscribeUnpackLoop (src.drop endIdx) (Topics ++ [topic])
termination_by src.length
decreasing_by
  have := loadBytes_end_of_ne_nil _h _hne
  simp only [List.length_drop]; omega

/-- `UnsubscribePacket.Unpack` (`pubrec.go:79–87`). -/
def UnsubscribePacket.Unpack (u : UnsubscribePacket) (src : List UInt8) :
    Except Fault UnsubscribePacket :=
  (unsubscribeUnpackLoop src u.Topics).map fun Topics =>
    { u with MessageID := loadUint16 src, Topics := Topics }

/-- `cp.Unpack(packetBytes)`, by the packet's dynamic type. Modelled from the spec for the kinds
whose code is missing: an acknowledgement reads its message ID with `loadUint16`, the others
read nothing. -/
def ControlPacket.Unpack : ControlPacket → List UInt8 → Except Fault ControlPacket
  | .publish p, src => .publish <$> p.Unpack src
  | .pubrec p, src => .ok (.pubrec (p.Unpack src))
  | .suback p, src => .ok (.suback (p.Unpack src))
  | .subscribe p, src => .subscribe <$> p.Unpack src
  | .unsubscribe p, src => .unsubscribe <$> p.Unpack src
  | .puback fh _, src => .ok (.puback fh (loadUint16 src))
  | .pubrel fh _, src => .ok (.pubrel fh (loadUint16 src))
  | .pubcomp fh _, src => .ok (.pubcomp fh (loadUint16 src))
  | .unsuback fh _, src => .ok (.unsuback fh (loadUint16 src))
  | cp, _ => .ok cp

/-- `ReadPacket` (`packets.go:120–139`): the packet and the unread stream. -/
def ReadPacket (packetPools : PacketPools) : List UInt8 → Except Fault (ControlPacket × List UInt8)
  | [] => .error (.error "EOF")
  | b :: r => do
    let (fh, r) ← FixedHeader.unpack b r
    match ← NewControlPacketWithHeader packetPools fh with
    | none => .error (.error "Bad data from client")
    | some cp =>
      let (packetBytes, r) ← readFull r fh.RemainingLength
      let cp ← cp.Unpack packetBytes
      pure (cp, r)

theorem NewControlPacketWithHeader_empty (fh : FixedHeader) (h1 : 1 ≤ fh.MessageType.toNat)
    (h2 : fh.MessageType.toNat ≤ 13) :
    NewControlPacketWithHeader emptyPacketPools fh = .ok (newControlPacketWithHeader fh) := by
  have hne : fh.MessageType ≠ 0 := fun h => by simp [h] at h1
  have hi : (fh.MessageType - 1).toNat = fh.MessageType.toNat - 1 :=
    UInt8.toNat_sub_of_le _ _ (by show (1 : Nat) ≤ fh.MessageType.toNat; exact h1)
  simp only [NewControlPacketWithHeader, hne, false_and, if_false, hi, packetPoolsLen]
  rw [if_pos (by show fh.MessageType.toNat - 1 < 14 - 1; omega)]
  rfl

/-- `ReadPacket` on a packed header and exactly `RemainingLength` body bytes: the header comes
back, `NewControlPacketWithHeader` picks the object, and `Unpack` gets the body. -/
theorem ReadPacket_pack (packetPools : PacketPools) (fh : FixedHeader) (body rest : List UInt8)
    (ht : fh.MessageType ≤ 15) (hq : fh.Qos ≤ 3) (hl : body.length ≤ maxRemainingLength) :
    ReadPacket packetPools ({ fh with RemainingLength := body.length }.pack ++ body ++ rest) =
      match NewControlPacketWithHeader packetPools { fh with RemainingLength := body.length } with
      | .error e => .error e
      | .ok none => .error (.error "Bad data from client")
      | .ok (some cp) => (cp.Unpack body).map fun cp => (cp, rest) := by
  have hu := FixedHeader.unpack_pack { fh with RemainingLength := body.length } (body ++ rest)
    ht hq hl
  simp only [FixedHeader.pack, List.cons_append, List.append_assoc, ReadPacket, hu, bind,
    Except.bind]
  rcases NewControlPacketWithHeader packetPools { fh with RemainingLength := body.length }
    with e | _ | cp
  · rfl
  · rfl
  · simp only [readFull_append]
    cases cp.Unpack body <;> rfl

/-! ### Encoding -/

/-- The variable header `PublishPacket.Write` builds (`publish.go:29–32`). -/
def PublishPacket.body (p : PublishPacket) : List UInt8 :=
  encodeBytes p.TopicName ++ if p.FixedHeader.Qos > 0 then encodeUint16 p.MessageID else []

/-- `PublishPacket.Write` (`publish.go:25–40`): the bytes given to `w.Write`. The header's
`RemainingLength` is first set to the body's and payload's length. -/
def PublishPacket.Write (p : PublishPacket) : List UInt8 :=
  { p.FixedHeader with RemainingLength := p.body.length + p.Payload.length }.pack ++
    p.body ++ p.Payload

/-- `PubrecPacket.Write` (`pubrec.go:20–28`). -/
def PubrecPacket.Write (pr : PubrecPacket) : List UInt8 :=
  { pr.FixedHeader with RemainingLength := 2 }.pack ++ encodeUint16 pr.MessageID

/-- `SubackPacket.Write` (`suback.go:22–33`). -/
def SubackPacket.Write (sa : SubackPacket) : List UInt8 :=
  let body := encodeUint16 sa.MessageID ++ sa.GrantedQoss
  { sa.FixedHeader with RemainingLength := body.length }.pack ++ body

/-- The entries of `SubscribePacket.Write`'s loop (`subscribe.go:28–31`); `s.Qoss[i]` panics
past the end of `Qoss`. -/
def subscribeEntries : List (List UInt8) → List UInt8 → Except Fault (List UInt8)
  | [], _ => .ok []
  | _ :: _, [] => .error indexOutOfRange
  | topic :: topics, qos :: qoss =>
    (subscribeEntries topics qoss).map fun rest => encodeString topic ++ qos :: rest

/-- `SubscribePacket.Write` (`subscribe.go:23–38`). -/
def SubscribePacket.Write (s : SubscribePacket) : Except Fault (List UInt8) :=
  (subscribeEntries s.Topics s.Qoss).map fun entries =>
    let body := encodeUint16 s.MessageID ++ entries
    { s.FixedHeader with RemainingLength := body.length }.pack ++ body

/-- `UnsubscribePacket.Write` (`pubrec.go:62–75`). -/
def UnsubscribePacket.Write (u : UnsubscribePacket) : List UInt8 :=
  let body := encodeUint16 u.MessageID ++ (u.Topics.map encodeString).flatten
  { u.FixedHeader with RemainingLength := body.length }.pack ++ body

end PahoMqtt.Packets
