import PahoMqtt.Packets.ControlPacket

/-!
# Round trips through `ReadPacket`

What `ReadPacket` returns, starting from empty packet pools, on the bytes `Write` emits for
PUBLISH, SUBSCRIBE, UNSUBSCRIBE, SUBACK and PUBREC (`src/packets/publish.go`, `subscribe.go`,
`pubrec.go`, `suback.go`).
`loadBytes` computes its end offset in `uint16`, so a topic or filter of 65,534 or 65,535 bytes
is written correctly and read back with a panic; and `UnsubscribePacket.Unpack` starts its topic
loop on the message ID.
-/

namespace PahoMqtt.Packets

/-! ### PUBLISH -/

theorem encodeBytes_eq_encodeString (field : List UInt8) : encodeBytes field = encodeString field :=
  rfl

theorem sliceFrom_encodeUint16 (num : UInt16) (rest : List UInt8) :
    sliceFrom (encodeUint16 num ++ rest) 2 = .ok rest :=
  sliceFrom_append _ _

/-- `Unpack` after a topic that `loadBytes` can read: the rest is the message ID, under
QoS > 0, and the payload. -/
theorem PublishPacket.Unpack_encodeString (q : PublishPacket) (topic rest : List UInt8)
    (h : topic.length ≤ 65533) :
    q.Unpack (encodeString topic ++ rest) =
      if q.FixedHeader.Qos > 0 then
        (sliceFrom rest 2).map fun payload =>
          { q with TopicName := topic, MessageID := loadUint16 rest, Payload := payload }
      else .ok { q with TopicName := topic, Payload := rest } := by
  have hs := sliceFrom_append (encodeString topic) rest
  rw [length_encodeString] at hs
  simp only [PublishPacket.Unpack, loadBytes_encodeString _ _ h, hs, bind, Except.bind]
  split
  · cases sliceFrom rest 2 <;> rfl
  · rfl

/-- `Unpack` of a PUBLISH body into an object whose header has the body's QoS: the topic,
payload and (under QoS > 0) message ID are set, everything else is kept. -/
theorem PublishPacket.Unpack_body (q p : PublishPacket) (hq : q.FixedHeader.Qos = p.FixedHeader.Qos)
    (htopic : p.TopicName.length ≤ 65535) :
    q.Unpack (p.body ++ p.Payload) =
      if p.TopicName.length ≤ 65533 then
        .ok { q with
          TopicName := p.TopicName
          MessageID := if 0 < p.FixedHeader.Qos then p.MessageID else q.MessageID
          Payload := p.Payload }
      else .error sliceBoundsOutOfRange := by
  rw [PublishPacket.body, encodeBytes_eq_encodeString, List.append_assoc]
  by_cases hl : p.TopicName.length ≤ 65533
  · rw [if_pos hl, PublishPacket.Unpack_encodeString _ _ _ hl, hq]
    by_cases h0 : 0 < p.FixedHeader.Qos
    · simp only [gt_iff_lt, h0, if_true, loadUint16_encodeUint16, sliceFrom_encodeUint16]
      rfl
    · simp only [gt_iff_lt, h0, if_false, List.nil_append]
  · rw [if_neg hl]
    simp only [PublishPacket.Unpack, loadBytes_encodeString_wrap _ _ (by omega) htopic, bind,
      Except.bind]

theorem PublishPacket.length_body (p : PublishPacket) :
    p.body.length = 2 + p.TopicName.length + if 0 < p.FixedHeader.Qos then 2 else 0 := by
  simp only [PublishPacket.body, List.length_append, encodeBytes_eq_encodeString,
    length_encodeString, gt_iff_lt]
  split <;> simp <;> omega

theorem PublishPacket.Write_append (p : PublishPacket) (rest : List UInt8) :
    p.Write ++ rest =
      { p.FixedHeader with RemainingLength := (p.body ++ p.Payload).length }.pack ++
        (p.body ++ p.Payload) ++ rest := by
  simp only [PublishPacket.Write, List.length_append, List.append_assoc]

/-- The pools as `ReadPacket` finds them when only the PUBLISH pool (index 2) can hold an object:
the pooled object, or none. -/
def publishPools (pooled : Option PublishPacket) : PacketPools :=
  fun i => if i = 2 then pooled.map .publish else none

theorem publishPools_none : publishPools none = emptyPacketPools :=
  funext fun _ => ite_self _

/-- For a PUBLISH header `NewControlPacketWithHeader` hands out the pooled object, or a fresh one,
with the new header and the object's other fields. -/
theorem NewControlPacketWithHeader_publishPools (pooled : Option PublishPacket) (fh : FixedHeader)
    (ht : fh.MessageType = Publish) :
    NewControlPacketWithHeader (publishPools pooled) fh =
      .ok (some (.publish { pooled.getD ⟨fh, [], 0, []⟩ with FixedHeader := fh })) := by
  cases pooled <;> simp only [NewControlPacketWithHeader, newControlPacketWithHeader, ht] <;> rfl

/-- A PUBLISH written and read back into the pooled object, or into a fresh one: for a topic of
at most 65,533 bytes every field comes from the wire except, under QoS 0, the message ID, which
is the object's (0 when fresh); a longer topic panics in `loadBytes`. -/
theorem ReadPacket_publishPools_Write (pooled : Option PublishPacket) (p : PublishPacket)
    (rest : List UInt8) (ht : p.FixedHeader.MessageType = Publish) (hq : p.FixedHeader.Qos ≤ 2)
    (htopic : p.TopicName.length ≤ 65535)
    (hl : 2 + p.TopicName.length + (if 0 < p.FixedHeader.Qos then 2 else 0) + p.Payload.length ≤
      maxRemainingLength) :
    ReadPacket (publishPools pooled) (p.Write ++ rest) =
      if p.TopicName.length ≤ 65533 then
        .ok (.publish { p with
          FixedHeader := { p.FixedHeader with RemainingLength := p.body.length + p.Payload.length }
          MessageID := if 0 < p.FixedHeader.Qos then p.MessageID else pooled.elim 0 (·.MessageID) },
          rest)
      else .error sliceBoundsOutOfRange := by
  have hq' : p.FixedHeader.Qos ≤ 3 := UInt8.le_trans hq (by decide)
  have ht' : p.FixedHeader.MessageType ≤ 15 := by rw [ht]; decide
  have hlen : (p.body ++ p.Payload).length ≤ maxRemainingLength := by
    rw [List.length_append, PublishPacket.length_body]; exact hl
  rw [PublishPacket.Write_append, ReadPacket_pack _ _ _ _ ht' hq' hlen,
    NewControlPacketWithHeader_publishPools pooled
      { p.FixedHeader with RemainingLength := (p.body ++ p.Payload).length } ht]
  simp only [ControlPacket.Unpack]
  rw [PublishPacket.Unpack_body _ p ?hq htopic]
  case hq => rfl
  cases pooled <;> split <;> simp [Functor.map, Except.map, List.length_append]

/-- A PUBLISH with QoS 0, 1 or 2 and a topic of at most 65,535 bytes, written and read back from
empty pools with any bytes after it: for a topic of at most 65,533 bytes `ReadPacket` returns the
packet, with its header's remaining length set and its message ID kept only under QoS > 0, and
leaves the rest unread; for a topic of 65,534 or 65,535 bytes it panics in `loadBytes`. -/
theorem ReadPacket_PublishPacket_Write (p : PublishPacket) (rest : List UInt8)
    (ht : p.FixedHeader.MessageType = Publish) (hq : p.FixedHeader.Qos ≤ 2)
    (htopic : p.TopicName.length ≤ 65535)
    (hl : 2 + p.TopicName.length + (if 0 < p.FixedHeader.Qos then 2 else 0) + p.Payload.length ≤
      maxRemainingLength) :
    ReadPacket emptyPacketPools (p.Write ++ rest) =
      if p.TopicName.length ≤ 65533 then
        .ok (.publish { p with
          FixedHeader := { p.FixedHeader with RemainingLength := p.body.length + p.Payload.length }
          MessageID := if 0 < p.FixedHeader.Qos then p.MessageID else 0 }, rest)
      else .error sliceBoundsOutOfRange := by
  rw [← publishPools_none]
  exact ReadPacket_publishPools_Write none p rest ht hq htopic hl

theorem ReadPacket_PublishPacket_Write_long_topic :
    ReadPacket emptyPacketPools
        (PublishPacket.Write ⟨⟨Publish, false, 0, false, 0⟩, List.replicate 65535 0x61, 0, []⟩ ++ []) =
      .error sliceBoundsOutOfRange :=
  (ReadPacket_PublishPacket_Write _ [] rfl (by decide) (List.length_replicate _ _).le
    (by rw [List.length_replicate]; decide)).trans (if_neg (by rw [List.length_replicate]; decide))

/-! ### SUBSCRIBE -/

/-- `SubscribePacket.Write`'s entries for topics and QoS bytes of equal length, and what the
`Unpack` loop makes of them: every entry, in order, unless a filter is too long for
`loadBytes`. -/
theorem subscribeUnpackLoop_subscribeEntries (topics : List (List UInt8)) (qoss : List UInt8)
    (hlen : topics.length = qoss.length) (htop : ∀ t ∈ topics, t.length ≤ 65535) :
    ∃ entries, subscribeEntries topics qoss = .ok entries ∧
      entries.length = (topics.map fun t => 3 + t.length).sum ∧
      ∀ Topics Qoss, subscribeUnpackLoop entries Topics Qoss =
        if ∀ t ∈ topics, t.length ≤ 65533 then .ok (Topics ++ topics, Qoss ++ qoss)
        else .error sliceBoundsOutOfRange := by
  induction topics generalizing qoss with
  | nil =>
    obtain rfl : qoss = [] := List.eq_nil_of_length_eq_zero hlen.symm
    refine ⟨[], rfl, rfl, fun Topics Qoss => ?_⟩
    rw [subscribeUnpackLoop]
    simp
  | cons t ts ih =>
    obtain ⟨q, qs, rfl⟩ : ∃ q qs, qoss = q :: qs :=
      List.exists_cons_of_length_eq_add_one hlen.symm
    obtain ⟨entries, he, hel, hloop⟩ :=
      ih qs (by simpa using hlen) (fun x hx => htop x (List.mem_cons_of_mem t hx))
    refine ⟨encodeString t ++ q :: entries, by simp [subscribeEntries, he, Except.map], ?_,
      fun Topics Qoss => ?_⟩
    · simp [hel]; omega
    · rw [subscribeUnpackLoop, if_pos (by simp; omega)]
      by_cases ht : t.length ≤ 65533
      · have hd : (encodeString t ++ q :: entries).drop (t.length + 2) = q :: entries :=
          List.drop_left' (length_encodeString t)
        simp only [loadString, loadBytes_encodeString _ _ ht, hd, List.length_cons]
        rw [if_neg (by omega)]
        simp only [List.drop_one, List.tail_cons, loadByte, hloop, List.forall_mem_cons, ht,
          true_and, List.append_assoc, List.singleton_append]
      · simp only [loadString, loadBytes_encodeString_wrap _ _ (by omega)
          (htop t (List.mem_cons_self t ts)), List.forall_mem_cons, ht, false_and, if_false]

/-- A SUBSCRIBE with equally many filters and QoS bytes, each filter of at most 65,535 bytes,
written and read back from empty pools with any bytes after it: when every filter has at most
65,533 bytes `ReadPacket` returns the packet, header flags, message ID, filters and QoS bytes
all kept, and leaves the rest unread; a filter of 65,534 or 65,535 bytes makes it panic. -/
theorem ReadPacket_SubscribePacket_Write (s : SubscribePacket) (rest : List UInt8)
    (ht : s.FixedHeader.MessageType = Subscribe) (hq : s.FixedHeader.Qos ≤ 3)
    (hlen : s.Topics.length = s.Qoss.length) (htopics : ∀ t ∈ s.Topics, t.length ≤ 65535)
    (hl : 2 + (s.Topics.map fun t => 3 + t.length).sum ≤ maxRemainingLength) :
    ∃ bytes, s.Write = .ok bytes ∧
      ReadPacket emptyPacketPools (bytes ++ rest) =
        if ∀ t ∈ s.Topics, t.length ≤ 65533 then
          .ok (.subscribe { s with FixedHeader := { s.FixedHeader with
            RemainingLength := 2 + (s.Topics.map fun t => 3 + t.length).sum } }, rest)
        else .error sliceBoundsOutOfRange := by
  obtain ⟨entries, he, hel, hloop⟩ :=
    subscribeUnpackLoop_subscribeEntries s.Topics s.Qoss hlen htopics
  have hbody : (encodeUint16 s.MessageID ++ entries).length =
      2 + (s.Topics.map fun t => 3 + t.length).sum := by
    simp [hel]
  have ht' : s.FixedHeader.MessageType ≤ 15 := by rw [ht]; decide
  refine ⟨_, by simp only [SubscribePacket.Write, he]; rfl, ?_⟩
  rw [ReadPacket_pack _ _ _ _ ht' hq (hbody ▸ hl),
    NewControlPacketWithHeader_empty _ (by simp [ht]; decide) (by simp [ht]; decide)]
  have hn : newControlPacketWithHeader
      { s.FixedHeader with RemainingLength := (encodeUint16 s.MessageID ++ entries).length } =
      some (.subscribe ⟨{ s.FixedHeader with
        RemainingLength := (encodeUint16 s.MessageID ++ entries).length }, 0, [], []⟩) := by
    simp only [newControlPacketWithHeader, ht]; rfl
  have hd : (encodeUint16 s.MessageID ++ entries).drop 2 = entries := List.drop_left' rfl
  simp only [hn, ControlPacket.Unpack, SubscribePacket.Unpack, loadUint16_encodeUint16, hd,
    hloop]
  rw [if_neg (by simp), hbody]
  split <;> simp [Functor.map, Except.map]

theorem ReadPacket_SubscribePacket_Write_long_filter :
    ∃ bytes, SubscribePacket.Write
        ⟨⟨Subscribe, false, 1, false, 0⟩, 0, [List.replicate 65535 0x61], [0]⟩ = .ok bytes ∧
      ReadPacket emptyPacketPools (bytes ++ []) = .error sliceBoundsOutOfRange := by
  obtain ⟨bytes, hw, hr⟩ := ReadPacket_SubscribePacket_Write
    ⟨⟨Subscribe, false, 1, false, 0⟩, 0, [List.replicate 65535 0x61], [0]⟩ [] rfl (by decide) rfl
    (fun t ht => by rw [List.mem_singleton.mp ht, List.length_replicate])
    (by rw [List.map_singleton, List.sum_cons, List.sum_nil, List.length_replicate]; decide)
  exact ⟨bytes, hw, hr.trans (if_neg fun h =>
    absurd (h _ (List.mem_singleton_self _)) (by rw [List.length_replicate]; decide))⟩

/-! ### UNSUBSCRIBE -/

/-- With message ID 0 the topic loop reads the ID as an empty first filter and stops. -/
theorem unsubscribeUnpackLoop_id_zero (entries : List UInt8) (Topics : List (List UInt8)) :
    unsubscribeUnpackLoop (encodeUint16 0 ++ entries) Topics = .ok Topics := by
  have h : loadString (encodeUint16 0 ++ entries) = .ok ([], 2) :=
    loadBytes_encodeString [] entries (Nat.zero_le _)
  rw [unsubscribeUnpackLoop]
  split
  · next e he => rw [h] at he; cases he
  · next topic e he =>
    rw [h] at he
    cases he
    rfl

/-- An UNSUBSCRIBE with message ID 0, written and read back from empty pools with any bytes
after it, comes back with the ID and no topic filters at all, whatever filters it had. -/
theorem ReadPacket_UnsubscribePacket_Write_id_zero (u : UnsubscribePacket) (rest : List UInt8)
    (ht : u.FixedHeader.MessageType = Unsubscribe) (hq : u.FixedHeader.Qos ≤ 3)
    (hid : u.MessageID = 0)
    (hl : 2 + (u.Topics.map fun t => 2 + t.length).sum ≤ maxRemainingLength) :
    ReadPacket emptyPacketPools (u.Write ++ rest) =
      .ok (.unsubscribe { u with
        FixedHeader := { u.FixedHeader with
          RemainingLength := 2 + (u.Topics.map fun t => 2 + t.length).sum }
        Topics := [] }, rest) := by
  have hbody : (encodeUint16 u.MessageID ++ (u.Topics.map encodeString).flatten).length =
      2 + (u.Topics.map fun t => 2 + t.length).sum := by
    simp [List.length_flatten, List.map_map, Function.comp_def, Nat.add_comm]
  have ht' : u.FixedHeader.MessageType ≤ 15 := by rw [ht]; decide
  rw [UnsubscribePacket.Write, ReadPacket_pack _ _ _ _ ht' hq (hbody ▸ hl),
    NewControlPacketWithHeader_empty _ (by simp [ht]; decide) (by simp [ht]; decide)]
  have hn : newControlPacketWithHeader { u.FixedHeader with RemainingLength :=
      (encodeUint16 u.MessageID ++ (u.Topics.map encodeString).flatten).length } =
      some (.unsubscribe ⟨{ u.FixedHeader with RemainingLength :=
        (encodeUint16 u.MessageID ++ (u.Topics.map encodeString).flatten).length }, 0, []⟩) := by
    simp only [newControlPacketWithHeader, ht]; rfl
  simp only [hn, ControlPacket.Unpack, UnsubscribePacket.Unpack]
  simp only [hid, unsubscribeUnpackLoop_id_zero, loadUint16_encodeUint16]
  rw [← hid, hbody]
  rfl

theorem ReadPacket_UnsubscribePacket_Write_drops_filter :
    ReadPacket emptyPacketPools
        (UnsubscribePacket.Write ⟨⟨Unsubscribe, false, 1, false, 0⟩, 0, [[0x61]]⟩ ++ []) =
      .ok (.unsubscribe ⟨⟨Unsubscribe, false, 1, false, 5⟩, 0, []⟩, []) :=
  ReadPacket_UnsubscribePacket_Write_id_zero _ [] rfl (by decide) rfl (by decide)

/-! ### SUBACK and PUBREC -/

/-- A SUBACK written and read back from empty pools with any bytes after it: `ReadPacket` returns
the packet with its header flags, message ID and granted QoS list, the header's remaining length
set to the body's, and leaves the rest unread. -/
theorem ReadPacket_SubackPacket_Write (sa : SubackPacket) (rest : List UInt8)
    (ht : sa.FixedHeader.MessageType = Suback) (hq : sa.FixedHeader.Qos ≤ 3)
    (hl : 2 + sa.GrantedQoss.length ≤ maxRemainingLength) :
    ReadPacket emptyPacketPools (sa.Write ++ rest) =
      .ok (.suback { sa with FixedHeader :=
        { sa.FixedHeader with RemainingLength := 2 + sa.GrantedQoss.length } }, rest) := by
  have hbody : (encodeUint16 sa.MessageID ++ sa.GrantedQoss).length = 2 + sa.GrantedQoss.length := by
    simp
  have ht' : sa.FixedHeader.MessageType ≤ 15 := by rw [ht]; decide
  rw [SubackPacket.Write, ReadPacket_pack _ _ _ _ ht' hq (hbody ▸ hl),
    NewControlPacketWithHeader_empty _ (by rw [ht]; decide) (by rw [ht]; decide)]
  have hn : newControlPacketWithHeader { sa.FixedHeader with
      RemainingLength := (encodeUint16 sa.MessageID ++ sa.GrantedQoss).length } =
      some (.suback ⟨{ sa.FixedHeader with
        RemainingLength := (encodeUint16 sa.MessageID ++ sa.GrantedQoss).length }, 0, []⟩) := by
    simp only [newControlPacketWithHeader, ht]; rfl
  have hd : (encodeUint16 sa.MessageID ++ sa.GrantedQoss).drop 2 = sa.GrantedQoss :=
    List.drop_left' rfl
  simp only [hn, ControlPacket.Unpack, SubackPacket.Unpack, loadUint16_encodeUint16, hd]
  rw [if_neg (by simp), hbody]
  rfl

/-- A PUBREC written and read back from empty pools with any bytes after it: `ReadPacket` returns
the packet with its header flags and message ID, remaining length 2, and leaves the rest unread. -/
theorem ReadPacket_PubrecPacket_Write (pr : PubrecPacket) (rest : List UInt8)
    (ht : pr.FixedHeader.MessageType = Pubrec) (hq : pr.FixedHeader.Qos ≤ 3) :
    ReadPacket emptyPacketPools (pr.Write ++ rest) =
      .ok (.pubrec { pr with FixedHeader := { pr.FixedHeader with RemainingLength := 2 } }, rest) := by
  have ht' : pr.FixedHeader.MessageType ≤ 15 := by rw [ht]; decide
  have hp := ReadPacket_pack emptyPacketPools pr.FixedHeader (encodeUint16 pr.MessageID) rest ht' hq
    (by rw [length_encodeUint16]; decide)
  rw [length_encodeUint16] at hp
  rw [PubrecPacket.Write, hp,
    NewControlPacketWithHeader_empty _ (by rw [ht]; decide) (by rw [ht]; decide)]
  have hn : newControlPacketWithHeader { pr.FixedHeader with RemainingLength := 2 } =
      some (.pubrec ⟨{ pr.FixedHeader with RemainingLength := 2 }, 0⟩) := by
    simp only [newControlPacketWithHeader, ht]; rfl
  have hid : loadUint16 (encodeUint16 pr.MessageID) = pr.MessageID := by
    simpa using loadUint16_encodeUint16 pr.MessageID []
  simp only [hn, ControlPacket.Unpack, PubrecPacket.Unpack, hid]
  rfl

/-- SUBACK and PUBREC round trips: each packet comes back of its kind, with its header flags and
message ID (and the SUBACK's granted QoS list), and the bytes after it are left unread. -/
theorem ReadPacket_SubackPacket_PubrecPacket_Write (sa : SubackPacket) (pr : PubrecPacket)
    (rest : List UInt8) (hsa : sa.FixedHeader.MessageType = Suback) (hsq : sa.FixedHeader.Qos ≤ 3)
    (hl : 2 + sa.GrantedQoss.length ≤ maxRemainingLength)
    (hpr : pr.FixedHeader.MessageType = Pubrec) (hpq : pr.FixedHeader.Qos ≤ 3) :
    ReadPacket emptyPacketPools (sa.Write ++ rest) =
        .ok (.suback { sa with FixedHeader :=
          { sa.FixedHeader with RemainingLength := 2 + sa.GrantedQoss.length } }, rest) ∧
      ReadPacket emptyPacketPools (pr.Write ++ rest) =
        .ok (.pubrec { pr with FixedHeader := { pr.FixedHeader with RemainingLength := 2 } }, rest) :=
  ⟨ReadPacket_SubackPacket_Write sa rest hsa hsq hl, ReadPacket_PubrecPacket_Write pr rest hpr hpq⟩

/-- The SUBACK of the spec's subscribe example, grants `[0, 1, 0x80]` for message 5, and a PUBREC
for message 7, each followed by a PINGRESP. -/
theorem ReadPacket_suback_mixed_grants :
    ReadPacket emptyPacketPools (SubackPacket.Write ⟨⟨Suback, false, 0, false, 0⟩, 5, [0, 1, 0x80]⟩ ++
        [0xD0, 0x00]) =
      .ok (.suback ⟨⟨Suback, false, 0, false, 5⟩, 5, [0, 1, 0x80]⟩, [0xD0, 0x00]) ∧
    ReadPacket emptyPacketPools (PubrecPacket.Write ⟨⟨Pubrec, false, 0, false, 0⟩, 7⟩ ++
        [0xD0, 0x00]) =
      .ok (.pubrec ⟨⟨Pubrec, false, 0, false, 2⟩, 7⟩, [0xD0, 0x00]) :=
  ReadPacket_SubackPacket_PubrecPacket_Write ⟨⟨Suback, false, 0, false, 0⟩, 5, [0, 1, 0x80]⟩
    ⟨⟨Pubrec, false, 0, false, 0⟩, 7⟩ [0xD0, 0x00] rfl (by decide) (by decide) rfl (by decide)

end PahoMqtt.Packets
