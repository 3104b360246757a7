import PahoMqtt.Net.Logic

/-!
# `outgoing` against a writer that can fail

The writer goroutine of `net.go:135–220`, with the writer given by the result of each of its
calls in turn. On `obound` a failed `Write` or `Flush` is posted to `c.errors` and ends the
goroutine; on `oboundP` the result of `writer.Flush()` is dropped. `c.getID` and the tokens are not
in the repository: a token is a number and `getID` a parameter. Main results:
`run_failed_call_ends` and `priority_flush_error_dropped`.
-/

namespace PahoMqtt

open Packets

/-- What `outgoing` takes in its select (`net.go:144–218`): `<-c.stop`, a PUBLISH and its token
from `c.obound`, or a packet and its token, `nil` for the acknowledgements `alllogic` sends, from
`c.oboundP`. -/
inductive Outgoing.Item
  | stop
  | obound (p : PublishPacket) (t : Nat)
  | oboundP (p : ControlPacket) (t : Option Nat)

/-- What `outgoing` does, in order. -/
inductive Outgoing.Event
  /-- `c.getID(t)` stamped `id` on the packet (and on a PUBLISH token). -/
  | getID (t : Option Nat) (id : UInt16)
  /-- `c.conn.SetWriteDeadline(time.Now().Add(c.options.WriteTimeout))`. -/
  | setWriteDeadline
  /-- `c.conn.SetWriteDeadline(time.Time{})`. -/
  | clearWriteDeadline
  /-- `Write(writer)` of a packet from `obound` (`priority = false`) or `oboundP`, with the
  writer's result. -/
  | write (priority : Bool) (cp : ControlPacket) (err : Option String)
  /-- `writer.Flush()` after that packet, with its result. -/
  | flush (priority : Bool) (cp : ControlPacket) (err : Option String)
  /-- `c.errors <- err`. -/
  | errors (err : String)
  /-- `flowComplete()` on the token. -/
  | flowComplete (t : Nat)
  /-- `Release()` of the packet. -/
  | release (cp : ControlPacket)
  /-- `c.resetPing <- struct{}{}`. -/
  | resetPing
  deriving DecidableEq, Repr

/-- The writer goroutine: the results of the buffered writer's next calls (`none` for success; a
writer with no result left succeeds), what it did so far, `packetsSent`, and whether it has
returned. -/
structure Outgoing where
  writer : List (Option String)
  log : List Outgoing.Event
  packetsSent : Nat
  done : Bool

/-- The client settings `outgoing` reads: `c.options.WriteTimeout` (in nanoseconds), whether
`c.resetPing` is non-nil, and the message ID `c.getID` hands out for a token. -/
structure Outgoing.Options where
  WriteTimeout : Nat
  resetPing : Bool
  getID : Option Nat → UInt16

namespace Outgoing

/-- One call on the buffered writer: its result, and the results left. -/
def call : List (Option String) → Option String × List (Option String)
  | [] => (none, [])
  | r :: rs => (r, rs)

/-- Whether `Write` gets as far as the writer: only a SUBSCRIBE with fewer QoS bytes than filters
panics (`subscribe.go:28–31`). -/
def encode : ControlPacket → Except Fault Unit
  | .subscribe s => s.Write.map fun _ => ()
  | _ => .ok ()

variable (opts : Options)

/-- `if c.resetPing != nil { c.resetPing <- struct{}{} }` at the end of a turn
(`net.go:215–218`). -/
def resetPingEvents : List Event := if opts.resetPing then [.resetPing] else []

/-- A QoS > 0 PUBLISH without an ID gets `c.getID(pub.t)`, which is also recorded on its token
(`net.go:150–153`). -/
def stampPublish (p : PublishPacket) (t : Nat) : PublishPacket × List Event :=
  if p.FixedHeader.Qos ≠ 0 ∧ p.MessageID = 0 then
    ({ p with MessageID := opts.getID (some t) }, [.getID (some t) (opts.getID (some t))])
  else (p, [])

/-- The `obound` case (`net.go:148–184`): the ID is stamped; under a write timeout the deadline
is set; `Write`, then `Flush` if it succeeded; a failure is posted to `c.errors`, the packet
released and the goroutine ends; otherwise the deadline is cleared, a QoS 0 token completed, the
packet released and counted, and `resetPing` signalled. -/
def publish (o : Outgoing) (p : PublishPacket) (t : Nat) : Outgoing :=
  let (p, stamped) := stampPublish opts p t
  let deadline := if 0 < opts.WriteTimeout then [Event.setWriteDeadline] else []
  let (werr, writer) := call o.writer
  match werr with
  | some err => { o with
      writer, done := true
      log := o.log ++ stamped ++ deadline ++
        [.write false (.publish p) (some err), .errors err, .release (.publish p)] }
  | none =>
    let (ferr, writer) := call writer
    match ferr with
    | some err => { o with
        writer, done := true
        log := o.log ++ stamped ++ deadline ++
          [.write false (.publish p) none, .flush false (.publish p) (some err), .errors err,
            .release (.publish p)] }
    | none => { o with
        writer, packetsSent := o.packetsSent + 1
        log := o.log ++ stamped ++ deadline ++
          [.write false (.publish p) none, .flush false (.publish p) none] ++
          (if 0 < opts.WriteTimeout then [.clearWriteDeadline] else []) ++
          (if p.FixedHeader.Qos = 0 then [.flowComplete t] else []) ++
          [.release (.publish p)] ++ resetPingEvents opts }

/-- The message ID stamped on a SUBSCRIBE or UNSUBSCRIBE from `oboundP` (`net.go:186–191`). -/
def stamp (cp : ControlPacket) (t : Option Nat) : ControlPacket × List Event :=
  match cp with
  | .subscribe s => (.subscribe { s with MessageID := opts.getID t }, [.getID t (opts.getID t)])
  | .unsubscribe u => (.unsubscribe { u with MessageID := opts.getID t }, [.getID t (opts.getID t)])
  | cp => (cp, [])

/-- The `oboundP` case (`net.go:185–213`): `Write`, `Release`, then `writer.Flush()` if the write
succeeded, whose result is not looked at; a failed write is posted to `c.errors` and ends the
goroutine; a DISCONNECT completes its token, whose type assertion panics on `nil`, and ends it;
anything else is counted and `resetPing` signalled. -/
def priority (o : Outgoing) (cp : ControlPacket) (t : Option Nat) : Except Fault Outgoing := do
  let (cp, stamped) := stamp opts cp t
  encode cp
  let (werr, writer) := call o.writer
  let log := o.log ++ stamped ++ [.write true cp werr, .release cp]
  match werr with
  | some err => pure { o with writer, done := true, log := log ++ [.errors err] }
  | none =>
    let (ferr, writer) := call writer
    let log := log ++ [.flush true cp ferr]
    match cp with
    | .disconnect _ =>
      match t with
      | some t => pure { o with writer, done := true, log := log ++ [.flowComplete t] }
      | none => throw interfaceConversion
    | _ => pure { o with
        writer, packetsSent := o.packetsSent + 1, log := log ++ resetPingEvents opts }

/-- One turn of the loop. -/
def step (o : Outgoing) : Item → Except Fault Outgoing
  | .stop => .ok { o with done := true }
  | .obound p t => .ok (o.publish opts p t)
  | .oboundP cp t => o.priority opts cp t

/-- The goroutine over the items its select takes, until it returns. -/
def run : List Item → Outgoing → Except Fault Outgoing
  | [], o => .ok o
  | item :: items, o => if o.done then .ok o else (o.step opts item).bind (run items)

/-! ### A failed call ends the goroutine -/

/-- The call an event records as failed, with the packet it was writing: a failed `Write`, or a
failed `Flush` of a PUBLISH from `obound`. -/
def Event.failed : Event → Option (ControlPacket × String)
  | .write _ cp (some err) => some (cp, err)
  | .flush false cp (some err) => some (cp, err)
  | _ => none

/-- After each failed call in `log`, only the post of its error and the release of its packet
follow, and the goroutine has returned. -/
def FailureEnds : List Event → Bool → Prop
  | [], _ => True
  | e :: log, done =>
    match e.failed with
    | some (cp, err) =>
      done = true ∧ Event.errors err ∈ log ∧
        ∀ e' ∈ log, e' = .errors err ∨ e' = .release cp
    | none => FailureEnds log done

theorem failureEnds_append {l₁ : List Event} (h : ∀ e ∈ l₁, e.failed = none)
    (l₂ : List Event) (done : Bool) :
    FailureEnds (l₁ ++ l₂) done ↔ FailureEnds l₂ done := by
  induction l₁ with
  | nil => rfl
  | cons e l₁ ih =>
    rw [List.cons_append, FailureEnds, h e (List.mem_cons_self _ _)]
    exact ih fun e' he' => h e' (List.mem_cons_of_mem _ he')

/-- A log that ends no run holds no failed call. -/
theorem failed_eq_none_of_failureEnds {log : List Event} (h : FailureEnds log false) :
    ∀ e ∈ log, e.failed = none := by
  induction log with
  | nil => intro e he; cases he
  | cons e log ih =>
    unfold FailureEnds at h
    split at h
    · exact absurd h.1 Bool.false_ne_true
    · rintro e' (_ | ⟨_, he'⟩)
      · assumption
      · exact ih h e' he'

/-- The same, by positions: after a failed call at position `i`, only its error post and its
packet's release, and the goroutine has returned. -/
theorem FailureEnds.getElem {log : List Event} {done : Bool} (h : FailureEnds log done) {i : Nat}
    {e : Event} {cp : ControlPacket} {err : String} (hi : log[i]? = some e)
    (he : e.failed = some (cp, err)) :
    done = true ∧ Event.errors err ∈ log.drop (i + 1) ∧
      ∀ e' ∈ log.drop (i + 1), e' = .errors err ∨ e' = .release cp := by
  induction log generalizing i with
  | nil => cases hi
  | cons x log ih =>
    unfold FailureEnds at h
    cases i with
    | zero =>
      rw [List.getElem?_cons_zero, Option.some.injEq] at hi
      subst hi
      rw [he] at h
      exact h
    | succ i =>
      rw [List.getElem?_cons_succ] at hi
      split at h
      · have hx := h.2.2 e (List.getElem?_mem hi)
        rcases hx with rfl | rfl <;> cases he
      · exact ih h hi

variable {opts}

theorem FailureEnds.of_none {log : List Event} (h : ∀ e ∈ log, e.failed = none) (done : Bool) :
    FailureEnds log done := by
  simpa using (failureEnds_append h [] done).mpr trivial

theorem FailureEnds.cons_none {e : Event} {log : List Event} {done : Bool} (he : e.failed = none)
    (h : FailureEnds log done) : FailureEnds (e :: log) done := by
  rw [FailureEnds, he]
  exact h

theorem FailureEnds.cons_failed {e : Event} {cp : ControlPacket} {err : String} {log : List Event}
    (he : e.failed = some (cp, err)) (hmem : Event.errors err ∈ log)
    (hlog : ∀ e' ∈ log, e' = .errors err ∨ e' = .release cp) : FailureEnds (e :: log) true := by
  rw [FailureEnds, he]
  exact ⟨rfl, hmem, hlog⟩

/-- Events none of which is a failed call, checked by evaluation. -/
theorem none_failed_of_all {log : List Event} (h : (log.all fun e => e.failed.isNone) = true) :
    ∀ e ∈ log, e.failed = none :=
  fun e he => Option.isNone_iff_eq_none.mp (List.all_eq_true.mp h e he)

theorem none_failed_ite (c : Prop) [Decidable c] (e : Event) (he : e.failed = none) :
    ∀ x ∈ (if c then [e] else []), x.failed = none := by
  split
  · exact List.forall_mem_singleton.2 he
  · exact fun _ h => nomatch h

theorem mem_resetPingEvents {e : Event} (h : e ∈ resetPingEvents opts) : e = .resetPing := by
  unfold resetPingEvents at h
  split at h <;> simp_all

theorem none_failed_resetPingEvents : ∀ e ∈ resetPingEvents opts, e.failed = none :=
  fun _ he => by rw [mem_resetPingEvents he]; rfl

theorem none_failed_stampPublish (p : PublishPacket) (t : Nat) :
    ∀ e ∈ (stampPublish opts p t).2, e.failed = none := by
  unfold stampPublish
  split <;> exact none_failed_of_all rfl

theorem mem_stamp {cp : ControlPacket} {t : Option Nat} {e : Event}
    (h : e ∈ (stamp opts cp t).2) : e = .getID t (opts.getID t) := by
  unfold stamp at h
  split at h <;> simp_all

theorem none_failed_stamp (cp : ControlPacket) (t : Option Nat) :
    ∀ e ∈ (stamp opts cp t).2, e.failed = none :=
  fun _ he => by rw [mem_stamp he]; rfl

theorem publish_log (o : Outgoing) (p : PublishPacket) (t : Nat) :
    ∃ block, (o.publish opts p t).log = o.log ++ block ∧
      FailureEnds block (o.publish opts p t).done := by
  have hs : ∀ e ∈ (stampPublish opts p t).2, e.failed = none := none_failed_stampPublish p t
  rcases hsp : stampPublish opts p t with ⟨p', stamped⟩
  rw [hsp] at hs
  have hpre := fun l d => (failureEnds_append hs _ d).trans
    (failureEnds_append (none_failed_ite (0 < opts.WriteTimeout) .setWriteDeadline rfl) l d)
  rcases hc : call o.writer with ⟨_ | err, w⟩
  · rcases hc' : call w with ⟨_ | ferr, w'⟩
    · -- `Write` and `Flush` succeed
      simp only [publish, hsp, hc, hc']
      refine ⟨_, by simp only [List.append_assoc]; rfl,
        (hpre _ _).mpr (FailureEnds.of_none ?_ _)⟩
      simp only [List.forall_mem_append]
      exact ⟨none_failed_of_all rfl, none_failed_ite _ _ rfl, none_failed_ite _ _ rfl,
        none_failed_of_all rfl, none_failed_resetPingEvents⟩
    · -- `Flush` fails
      simp only [publish, hsp, hc, hc']
      refine ⟨_, by simp only [List.append_assoc]; rfl, (hpre _ _).mpr ?_⟩
      exact .cons_none rfl (.cons_failed rfl (by simp) (by simp))
  · -- `Write` fails
    simp only [publish, hsp, hc]
    refine ⟨_, by simp only [List.append_assoc]; rfl, (hpre _ _).mpr ?_⟩
    exact .cons_failed rfl (by simp) (by simp)

theorem priority_log {o o' : Outgoing} {cp : ControlPacket} {t : Option Nat}
    (h : o.priority opts cp t = .ok o') :
    ∃ block, o'.log = o.log ++ block ∧ FailureEnds block o'.done := by
  have hs : ∀ e ∈ (stamp opts cp t).2, e.failed = none := none_failed_stamp cp t
  rcases hst : stamp opts cp t with ⟨cp', stamped⟩
  rw [hst] at hs
  simp only [priority, hst] at h
  obtain ⟨⟨⟩, -, h⟩ := Packets.bind_eq_ok h
  rcases hc : call o.writer with ⟨_ | err, w⟩
  · rcases hc' : call w with ⟨ferr, w'⟩
    simp only [hc, hc'] at h
    split at h
    · -- a DISCONNECT
      split at h
      · cases h
        refine ⟨_, by simp only [List.append_assoc]; rfl,
          (failureEnds_append hs _ _).mpr (FailureEnds.of_none ?_ _)⟩
        exact none_failed_of_all rfl
      · cases h
    · cases h
      refine ⟨_, by simp only [List.append_assoc]; rfl,
        (failureEnds_append hs _ _).mpr (FailureEnds.of_none ?_ _)⟩
      exact List.forall_mem_append.mpr ⟨none_failed_of_all rfl,
        List.forall_mem_append.mpr ⟨none_failed_of_all rfl, none_failed_resetPingEvents⟩⟩
  · -- `Write` fails
    simp only [hc] at h
    cases h
    refine ⟨_, by simp only [List.append_assoc]; rfl, (failureEnds_append hs _ _).mpr ?_⟩
    exact .cons_failed rfl (by simp) (by simp)

/-- One turn appends to the log, and a failed call in what it appends ends the turn and the
goroutine. -/
theorem step_log {o o' : Outgoing} {item : Item} (h : o.step opts item = .ok o') :
    ∃ block, o'.log = o.log ++ block ∧ FailureEnds block o'.done := by
  cases item with
  | stop => cases h; exact ⟨[], (List.append_nil _).symm, trivial⟩
  | obound p t => cases h; exact publish_log o p t
  | oboundP cp t => exact priority_log h

theorem run_failureEnds {items : List Item} {o o' : Outgoing} (hf : FailureEnds o.log o.done)
    (h : run opts items o = .ok o') : FailureEnds o'.log o'.done := by
  induction items generalizing o with
  | nil => cases h; exact hf
  | cons item items ih =>
    unfold run at h
    split at h
    · cases h; exact hf
    · obtain ⟨o₁, h₁, hrun⟩ := Packets.bind_eq_ok h
      obtain ⟨block, hlog, hb⟩ := step_log h₁
      rw [Bool.not_eq_true] at *
      rw [‹o.done = false›] at hf
      exact ih (by rwa [hlog, failureEnds_append (failed_eq_none_of_failureEnds hf)]) hrun

/-- In every run of `outgoing`, each failed `Write`, and each failed `Flush` of a PUBLISH from
`obound`, ends the goroutine: after the failed call it only posts that error to `c.errors` and
releases the packet, so it completes no token, signals no `resetPing` and writes nothing more. -/
theorem run_failed_call_ends (items : List Item) (writer : List (Option String)) (o' : Outgoing)
    (h : run opts items ⟨writer, [], 0, false⟩ = .ok o') (i : Nat) (e : Event)
    (cp : ControlPacket) (err : String) (hi : o'.log[i]? = some e)
    (he : e.failed = some (cp, err)) :
    o'.done = true ∧ Event.errors err ∈ o'.log.drop (i + 1) ∧
      ∀ e' ∈ o'.log.drop (i + 1), e' = .errors err ∨ e' = .release cp :=
  (run_failureEnds (by exact trivial) h).getElem hi he

/-- A QoS 0 PUBLISH whose write fails with `EOF`, then a DISCONNECT: the error is posted, the
PUBLISH released, and the DISCONNECT never taken. -/
theorem run_publish_write_fails :
    ∃ o', run ⟨0, true, fun _ => 1⟩
        [.obound ⟨⟨Publish, false, 0, false, 0⟩, [], 0, []⟩ 1,
          .oboundP (.disconnect ⟨Disconnect, false, 0, false, 0⟩) (some 2)]
        ⟨[some "EOF"], [], 0, false⟩ = .ok o' ∧
      o'.done = true ∧ Event.errors "EOF" ∈ o'.log.drop 1 ∧
      ∀ e' ∈ o'.log.drop 1,
        e' = .errors "EOF" ∨ e' = .release (.publish ⟨⟨Publish, false, 0, false, 0⟩, [], 0, []⟩) :=
  ⟨_, rfl, run_failed_call_ends [.obound ⟨⟨Publish, false, 0, false, 0⟩, [], 0, []⟩ 1,
    .oboundP (.disconnect ⟨Disconnect, false, 0, false, 0⟩) (some 2)] [some "EOF"] _ rfl 0 _ _ _
    rfl rfl⟩

/-! ### A failed flush on `oboundP` -/

theorem encode_subscribe (s : SubscribePacket) :
    encode (.subscribe s) = (subscribeEntries s.Topics s.Qoss).map fun _ => () := by
  simp only [encode, SubscribePacket.Write]
  cases subscribeEntries s.Topics s.Qoss <;> rfl

/-- The message ID is not what makes `Write` panic. -/
theorem encode_stamp (cp : ControlPacket) (t : Option Nat) :
    encode (stamp opts cp t).1 = encode cp := by
  cases cp with
  | subscribe s => simp only [stamp, encode_subscribe]
  | _ => rfl

theorem ControlPacket.eq_disconnect_of_kind {cp : ControlPacket} (h : cp.kind = Disconnect) :
    ∃ fh, cp = .disconnect fh := by
  cases cp <;> simp only [ControlPacket.kind] at h <;>
    first | exact ⟨_, rfl⟩ | exact absurd h (by decide)

theorem kind_stamp (cp : ControlPacket) (t : Option Nat) : (stamp opts cp t).1.kind = cp.kind := by
  cases cp <;> rfl

/-- On `oboundP`, a packet whose `Write` succeeds and whose `Flush` fails with `err`: `outgoing`
posts no error; a DISCONNECT's token is completed all the same and the goroutine returns; any
other packet is counted, `resetPing` is signalled when set, and the goroutine goes on. -/
theorem priority_flush_error_dropped (o : Outgoing) (cp : ControlPacket) (t : Nat) (err : String)
    (rest : List (Option String)) (hdone : o.done = false)
    (hw : o.writer = none :: some err :: rest) (henc : encode cp = .ok ()) :
    ∃ o', o.step opts (.oboundP cp (some t)) = .ok o' ∧
      Event.flush true (stamp opts cp (some t)).1 (some err) ∈ o'.log ∧
      Event.errors err ∉ o'.log.drop o.log.length ∧
      (cp.kind = Disconnect → Event.flowComplete t ∈ o'.log ∧ o'.done = true) ∧
      (cp.kind ≠ Disconnect →
        o'.done = false ∧ ∀ e ∈ resetPingEvents opts, e ∈ o'.log) := by
  have he : encode (stamp opts cp (some t)).1 = .ok () := (encode_stamp cp (some t)).trans henc
  have hk : (stamp opts cp (some t)).1.kind = cp.kind := kind_stamp cp (some t)
  have hne : Event.errors err ∉ (stamp opts cp (some t)).2 := fun h => nomatch mem_stamp h
  have hnr : Event.errors err ∉ resetPingEvents opts := fun h => nomatch mem_resetPingEvents h
  rcases hst : stamp opts cp (some t) with ⟨cp', stamped⟩
  rw [hst] at he hk hne
  simp only [step, priority, hst, he, hw, call]
  split
  · -- a DISCONNECT
    exact ⟨_, rfl, by simp, by simpa using hne, fun _ => ⟨by simp, rfl⟩,
      fun h => absurd hk.symm h⟩
  · -- any other packet
    rename_i hnd
    exact ⟨_, rfl, by simp, by simpa using And.intro hne hnr,
      fun h => absurd (ControlPacket.eq_disconnect_of_kind (hk.trans h)) fun ⟨fh, hfh⟩ => hnd fh hfh,
      fun _ => ⟨hdone, fun e he => by simp [he]⟩⟩

/-- A DISCONNECT whose write succeeds and whose flush fails: its token is completed, the goroutine
returns, and the error is never posted. -/
theorem priority_disconnect_flush_fails :
    ∃ o', step ⟨0, true, fun _ => 1⟩ ⟨[none, some "broken pipe"], [], 0, false⟩
        (.oboundP (.disconnect ⟨Disconnect, false, 0, false, 0⟩) (some 1)) = .ok o' ∧
      Event.errors "broken pipe" ∉ o'.log ∧ Event.flowComplete 1 ∈ o'.log ∧ o'.done = true :=
  let ⟨o', hstep, _, herr, hdisc, _⟩ := priority_flush_error_dropped
    ⟨[none, some "broken pipe"], [], 0, false⟩ (.disconnect ⟨Disconnect, false, 0, false, 0⟩) 1
    "broken pipe" [] rfl rfl rfl
  ⟨o', hstep, herr, (hdisc rfl).1, (hdisc rfl).2⟩

end Outgoing

end PahoMqtt
