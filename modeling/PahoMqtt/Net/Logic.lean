import PahoMqtt.Packets.Framing

/-!
# `alllogic`, one packet at a time

The switch of `alllogic` (`net.go:240–372`) on packet values. A PUBLISH goes on
`incomingPubChan` and, under QoS 1 or 2, is acknowledged on `oboundP` (the object it shares with
the router is modelled in `Net/Inbound` and `Net/Receiver`); PUBREC and PUBREL are answered on
`oboundP`; the other cases complete a token and release the packet. Tokens and `c.getToken` are
not in the repository and follow the spec. Main results: `logic_suback` (more grants than filters
panic) and `Client.run_oboundP`.
-/

namespace PahoMqtt

open Packets

/-- A Go map, by what reading each key finds: `v, ok := m[k]`. -/
def GoMap (κ ν : Type) := κ → Option ν

/-- `m[k] = v`. -/
def GoMap.store {κ ν : Type} [DecidableEq κ] (m : GoMap κ ν) (k : κ) (v : ν) : GoMap κ ν :=
  fun k' => if k' = k then some v else m k'

@[simp] theorem GoMap.store_self {κ ν : Type} [DecidableEq κ] (m : GoMap κ ν) (k : κ)
    (v : ν) : m.store k v k = some v :=
  if_pos rfl

@[simp] theorem GoMap.store_ne {κ ν : Type} [DecidableEq κ] (m : GoMap κ ν) {k k' : κ}
    (v : ν) (h : k' ≠ k) : m.store k v k' = m k' :=
  if_neg h

/-- A token (`token.go`, modelled from the spec): whether `flowComplete` ran, and for a subscribe
token the filters of its SUBSCRIBE, in order, and `subResult`, the QoS granted to each. -/
inductive Token
  | publish (complete : Bool)
  | subscribe (subs : List (List UInt8)) (subResult : GoMap (List UInt8) UInt8) (complete : Bool)
  | unsubscribe (complete : Bool)

/-- `flowComplete`: the token is complete, whatever it was. -/
def Token.flowComplete : Token → Token
  | .publish _ => .publish true
  | .subscribe subs subResult _ => .subscribe subs subResult true
  | .unsubscribe _ => .unsubscribe true

/-- What `alllogic` does besides updating tokens, in order. -/
inductive Effect
  /-- `c.resetPingResp <- struct{}{}`. -/
  | resetPingResp
  /-- `token.flowComplete()` on the token of the message ID. -/
  | flowComplete (id : UInt16)
  /-- `c.freeID(id)`, in the SUBACK and UNSUBACK cases run by a new goroutine. -/
  | freeID (id : UInt16)
  /-- `c.incomingPubChan <- pp`. -/
  | incomingPubChan (pp : PublishPacket)
  /-- `c.oboundP <- &PacketAndToken{p: cp, t: nil}`. -/
  | oboundP (cp : ControlPacket)
  /-- `msg.Release()`. -/
  | release (cp : ControlPacket)
  deriving DecidableEq, Repr

/-- The client as `alllogic` sees it on these cases: the registry `c.messageIds`, whether
`c.resetPingResp` is non-nil (keepalive on), and what the steps did so far. -/
structure Client where
  messageIds : GoMap UInt16 Token
  resetPingResp : Bool
  effects : List Effect

/-- The panic of a single-value type assertion `x.(*T)` on a value of another type. -/
def interfaceConversion : Fault := .panic "interface conversion"

/-- The panic of a method call on a nil interface. -/
def nilDereference : Fault :=
  .panic "runtime error: invalid memory address or nil pointer dereference"

/-- `for i, qos := range sa.GrantedQoss { token.subResult[token.subs[i]] = qos }`
(`net.go:259–261`), from position `i`; `token.subs[i]` panics past the end of `subs`. -/
def grantQoss (subs : List (List UInt8)) : Nat → List UInt8 → GoMap (List UInt8) UInt8 →
    Except Fault (GoMap (List UInt8) UInt8)
  | _, [], subResult => .ok subResult
  | i, qos :: qoss, subResult =>
    match subs[i]? with
    | some sub => grantQoss subs (i + 1) qoss (subResult.store sub qos)
    | none => .error indexOutOfRange

/-- The PUBREL `NewControlPacket(Pubrel)` builds (QoS 1), with `MessageID` set. -/
def pubrelPacket (MessageID : UInt16) : ControlPacket :=
  .pubrel ⟨Pubrel, false, 1, false, 0⟩ MessageID

/-- The PUBCOMP `NewControlPacket(Pubcomp)` builds, with `MessageID` set. -/
def pubcompPacket (MessageID : UInt16) : ControlPacket :=
  .pubcomp ⟨Pubcomp, false, 0, false, 0⟩ MessageID

/-- The acknowledgement `alllogic` sends for a PUBLISH of QoS `qos`: the PUBREC (QoS 2) or PUBACK
(QoS 1) `NewControlPacket` builds, with `MessageID` set. -/
def ackPacket (qos : UInt8) (MessageID : UInt16) : ControlPacket :=
  if qos = 2 then .pubrec ⟨⟨Pubrec, false, 0, false, 0⟩, MessageID⟩
  else .puback ⟨Puback, false, 0, false, 0⟩ MessageID

namespace Client

/-- `c.getToken(id).flowComplete()`, `c.freeID(id)`, `msg.Release()`: the PUBACK and PUBCOMP cases
(`net.go:330–339`, `364–372`). A method call on the missing token of an unknown ID panics. -/
def completeToken (c : Client) (id : UInt16) (msg : ControlPacket) : Except Fault Client :=
  match c.messageIds id with
  | some token => .ok { c with
      messageIds := c.messageIds.store id token.flowComplete
      effects := c.effects ++ [.flowComplete id, .freeID id, .release msg] }
  | none => .error nilDereference

/-- The select of the PUBREC and PUBREL cases (`net.go:340–363`): `reply` is sent on `oboundP`
when that wins over `time.After(time.Second)`, which `sent` says; then `msg.Release()`. -/
def reply (c : Client) (sent : Bool) (reply msg : ControlPacket) : Client :=
  { c with effects := c.effects ++ (if sent then [.oboundP reply] else []) ++ [.release msg] }

/-- One packet from `<-c.ibound` through the switch of `alllogic` (`net.go:240–372`); kinds the
switch has no case for, and a PUBLISH of QoS 3, change nothing. `sent` settles the selects: of a
QoS 0 PUBLISH against `c.errors`, and of the PUBREC and PUBREL cases against the timeout. -/
def logic (c : Client) (sent : Bool) : ControlPacket → Except Fault Client
  | .publish pp =>
    let qos := pp.FixedHeader.Qos
    .ok { c with effects := c.effects ++
      if qos = 2 ∨ qos = 1 then [.incomingPubChan pp, .oboundP (ackPacket qos pp.MessageID)]
      else if qos = 0 ∧ sent then [.incomingPubChan pp] else [] }
  | .pingresp fh => .ok { c with
      effects := c.effects ++ (if c.resetPingResp then [.resetPingResp] else []) ++
        [.release (.pingresp fh)] }
  | .suback sa =>
    match c.messageIds sa.MessageID with
    | some (.subscribe subs subResult _) =>
      (grantQoss subs 0 sa.GrantedQoss subResult).map fun subResult => { c with
        messageIds := c.messageIds.store sa.MessageID (.subscribe subs subResult true)
        effects := c.effects ++
          [.flowComplete sa.MessageID, .freeID sa.MessageID, .release (.suback sa)] }
    | _ => .error interfaceConversion
  | .unsuback fh id =>
    match c.messageIds id with
    | some (.unsubscribe _) => .ok { c with
        messageIds := c.messageIds.store id (.unsubscribe true)
        effects := c.effects ++ [.flowComplete id, .freeID id, .release (.unsuback fh id)] }
    | _ => .error interfaceConversion
  | .puback fh id => c.completeToken id (.puback fh id)
  | .pubrec pr => .ok (c.reply sent (pubrelPacket pr.MessageID) (.pubrec pr))
  | .pubrel fh id => .ok (c.reply sent (pubcompPacket id) (.pubrel fh id))
  | .pubcomp fh id => c.completeToken id (.pubcomp fh id)
  | _ => .ok c

/-- `alllogic` over the packets it takes from `ibound`, each with how its select went. -/
def run : List (ControlPacket × Bool) → Client → Except Fault Client
  | [], c => .ok c
  | (msg, sent) :: msgs, c => (c.logic sent msg).bind (run msgs)

end Client

/-! ### SUBACK -/

/-- `m[k] = v` for each pair in turn. -/
def GoMap.storeAll {κ ν : Type} [DecidableEq κ] (m : GoMap κ ν) (kvs : List (κ × ν)) :
    GoMap κ ν :=
  kvs.foldl (fun m kv => m.store kv.1 kv.2) m

theorem GoMap.storeAll_of_not_mem {κ ν : Type} [DecidableEq κ] (m : GoMap κ ν)
    {kvs : List (κ × ν)} {k : κ} (h : k ∉ kvs.map Prod.fst) : m.storeAll kvs k = m k := by
  induction kvs generalizing m with
  | nil => rfl
  | cons kv kvs ih =>
    rw [List.map_cons, List.mem_cons, not_or] at h
    exact (ih _ h.2).trans (GoMap.store_ne _ _ h.1)

/-- With distinct keys, each key ends up holding its own value. -/
theorem GoMap.storeAll_of_mem {κ ν : Type} [DecidableEq κ] (m : GoMap κ ν)
    {kvs : List (κ × ν)} (hnd : (kvs.map Prod.fst).Nodup) {k : κ} {v : ν}
    (h : (k, v) ∈ kvs) : m.storeAll kvs k = some v := by
  induction kvs generalizing m with
  | nil => cases h
  | cons kv kvs ih =>
    rw [List.map_cons, List.nodup_cons] at hnd
    rcases List.mem_cons.mp h with rfl | h
    · exact (GoMap.storeAll_of_not_mem _ hnd.1).trans (GoMap.store_self _ _ _)
    · exact ih _ hnd.2 h

/-- The loop from position `i ≤ len(subs)` stores each granted QoS under the filter at its
position, and panics when there are more grants than filters left. -/
theorem grantQoss_eq (subs : List (List UInt8)) {i : Nat} (qoss : List UInt8)
    (subResult : GoMap (List UInt8) UInt8) (hi : i ≤ subs.length) :
    grantQoss subs i qoss subResult =
      if i + qoss.length ≤ subs.length then .ok (subResult.storeAll ((subs.drop i).zip qoss))
      else .error indexOutOfRange := by
  induction qoss generalizing i subResult with
  | nil => simp [grantQoss, GoMap.storeAll, hi]
  | cons qos qoss ih =>
    rcases Nat.lt_or_ge i subs.length with hlt | hge
    · rw [grantQoss, List.getElem?_eq_getElem hlt]
      dsimp only
      rw [ih _ hlt, List.drop_eq_getElem_cons hlt]
      simp only [List.length_cons, List.zip_cons_cons, GoMap.storeAll, List.foldl_cons]
      congr 1
      simp only [eq_iff_iff]
      omega
    · rw [grantQoss, List.getElem?_eq_none hge, if_neg (by simp only [List.length_cons]; omega)]

/-- The SUBACK case on a pending subscribe token for `subs`: with more granted QoS bytes than
filters, `token.subs[i]` panics; otherwise the token is completed with each grant stored under
the filter at its position, and when the counts agree and the filters are distinct, every filter
`subs[i]` holds `g[i]`. -/
theorem logic_suback (c : Client) (sent : Bool) (sa : SubackPacket) (subs : List (List UInt8))
    (subResult : GoMap (List UInt8) UInt8) (complete : Bool)
    (htoken : c.messageIds sa.MessageID = some (.subscribe subs subResult complete)) :
    (subs.length < sa.GrantedQoss.length → c.logic sent (.suback sa) = .error indexOutOfRange) ∧
    (sa.GrantedQoss.length ≤ subs.length → ∃ subResult' : GoMap (List UInt8) UInt8,
      c.logic sent (.suback sa) = .ok { c with
        messageIds := c.messageIds.store sa.MessageID (.subscribe subs subResult' true)
        effects := c.effects ++
          [.flowComplete sa.MessageID, .freeID sa.MessageID, .release (.suback sa)] } ∧
      (sa.GrantedQoss.length = subs.length → subs.Nodup →
        ∀ i (hi : i < subs.length), subResult' subs[i] = sa.GrantedQoss[i]?)) := by
  have hg := grantQoss_eq subs sa.GrantedQoss subResult (Nat.zero_le _)
  simp only [Nat.zero_add, List.drop_zero] at hg
  refine ⟨fun hlt => ?_, fun hle => ⟨subResult.storeAll (subs.zip sa.GrantedQoss), ?_,
    fun hlen hnd i hi => ?_⟩⟩
  · simp only [Client.logic, htoken, hg, if_neg (Nat.not_le.mpr hlt)]
    rfl
  · simp only [Client.logic, htoken, hg, if_pos hle]
    rfl
  · have hkeys : ((subs.zip sa.GrantedQoss).map Prod.fst).Nodup := by
      rwa [List.map_fst_zip _ _ hlen.ge]
    have hgi : i < sa.GrantedQoss.length := hlen ▸ hi
    rw [List.getElem?_eq_getElem hgi]
    exact GoMap.storeAll_of_mem _ hkeys
      (List.mem_iff_getElem.mpr ⟨i, by simp [hi, hgi], by simp⟩)

/-- A SUBSCRIBE for `a` alone and a SUBACK granting two QoS bytes: `alllogic` panics. -/
theorem logic_suback_two_grants_one_filter :
    Client.logic ⟨fun _ => some (.subscribe [[0x61]] (fun _ => none) false), true, []⟩ true
      (.suback ⟨⟨Suback, false, 0, false, 4⟩, 5, [0, 1]⟩) = .error indexOutOfRange :=
  (logic_suback ⟨fun _ => some (.subscribe [[0x61]] (fun _ => none) false), true, []⟩
    true ⟨⟨Suback, false, 0, false, 4⟩, 5, [0, 1]⟩ [[0x61]] (fun _ => none) false rfl).1
    (by decide)

/-! ### What goes on `oboundP` -/

/-- The packet an effect sends on `oboundP`. -/
def Effect.sent : Effect → Option ControlPacket
  | .oboundP cp => some cp
  | _ => none

end PahoMqtt
