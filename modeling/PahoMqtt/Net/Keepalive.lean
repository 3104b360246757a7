import Mathlib.Data.List.Basic

/-!
# The keepalive loop

`keepalive` (`ping.go:25–61`) over two Go timers (before Go 1.23: `Stop` and `Reset` leave a value
already in `C`), with time passing as the action `advance` between any two steps and a `select`
taking any ready case. Durations are in nanoseconds. Main results: `connLost_justified` (the
connection is declared lost only after a PINGREQ left unanswered for `PingTimeout`) and
`pingreqs_without_resets` (with no traffic at most one PINGREQ, not before `KeepAlive`).
-/

namespace PahoMqtt

/-- A `time.Timer`: the time it fires at while it is active, and whether a value waits in `C`. -/
structure Timer where
  deadline : Option Nat
  fired : Bool
  deriving DecidableEq, Repr

namespace Timer

/-- `time.NewTimer(d)` at time `now`. -/
def NewTimer (now d : Nat) : Timer := ⟨some (now + d), false⟩

/-- `t.Stop()`: no longer active; a value already in `C` stays there. -/
def Stop (t : Timer) : Timer := { t with deadline := none }

/-- `t.Reset(d)` at time `now`: active again, firing at `now + d`; a value already in `C` stays. -/
def Reset (t : Timer) (now d : Nat) : Timer := { t with deadline := some (now + d) }

/-- `<-t.C`, once a value is there. -/
def recv (t : Timer) : Timer := { t with fired := false }

/-- The runtime at time `now`: an active timer whose time has come sends on `C` (dropping the
value when the slot is full) and is no longer active. -/
def fire (t : Timer) (now : Nat) : Timer :=
  match t.deadline with
  | some d => if d ≤ now then ⟨none, true⟩ else t
  | none => t

theorem fire_cases (t : Timer) (now : Nat) :
    (t.deadline = none ∧ t.fire now = t) ∨
    (∃ d, t.deadline = some d ∧ now < d ∧ t.fire now = t) ∨
    (∃ d, t.deadline = some d ∧ d ≤ now ∧ t.fire now = ⟨none, true⟩) := by
  unfold fire
  rcases t.deadline with _ | d
  · exact .inl ⟨rfl, rfl⟩
  · by_cases hd : d ≤ now
    · exact .inr (.inr ⟨d, rfl, hd, if_pos hd⟩)
    · exact .inr (.inl ⟨d, rfl, Nat.lt_of_not_le hd, if_neg hd⟩)

end Timer

/-- The fields of `c.options` that `keepalive` reads. -/
structure Options where
  KeepAlive : Nat
  PingTimeout : Nat
  deriving DecidableEq, Repr

/-- What `keepalive` has done, with the time: a PINGREQ written to the connection, or a
`resetPingResp` received. -/
inductive Event
  | pingreq (t : Nat)
  | pingresp (t : Nat)
  deriving DecidableEq, Repr

/-- The loop runs, has returned on `c.stop`, or has returned after `c.internalConnLost`. -/
inductive Status
  | running
  | stopped
  | connLost
  deriving DecidableEq, Repr

/-- The clock, the two timers, whether the loop runs, and what it has done. -/
structure Keepalive where
  now : Nat
  pingTimer : Timer
  pingRespTimer : Timer
  status : Status
  log : List Event
  deriving DecidableEq, Repr

namespace Keepalive

/-- Time passing, or one case of `keepalive`'s `select`. -/
inductive Action
  /-- The clock moves on by `d`; the runtime fires every timer whose time has come. -/
  | advance (d : Nat)
  /-- `case <-c.stop` -/
  | stop
  /-- `case <-c.resetPingResp` -/
  | resetPingResp
  /-- `case <-c.resetPing` -/
  | resetPing
  /-- `case <-pingTimer.C` -/
  | pingTimer
  /-- `case <-pingRespTimer.C` -/
  | pingRespTimer
  deriving DecidableEq, Repr

variable (o : Options)

/-- The state when `keepalive` enters its loop; `pingRespTimer` is created for 10 s and stopped. -/
def start : Keepalive :=
  ⟨0, Timer.NewTimer 0 o.KeepAlive, (Timer.NewTimer 0 10000000000).Stop, .running, []⟩

/-- The clock moves on by `d` and the runtime fires every timer whose time has come. -/
def advance (s : Keepalive) (d : Nat) : Keepalive :=
  { s with
    now := s.now + d
    pingTimer := s.pingTimer.fire (s.now + d)
    pingRespTimer := s.pingRespTimer.fire (s.now + d) }

/-- One case of the `select` (`ping.go:31–58`), or `none` when its channel has nothing. -/
def select (s : Keepalive) : Action → Option Keepalive
  | .stop => some { s with
      pingTimer := s.pingTimer.Stop
      pingRespTimer := s.pingRespTimer.Stop
      status := .stopped }
  | .resetPingResp => some { s with
      pingRespTimer := s.pingRespTimer.Stop
      pingTimer := s.pingTimer.Reset s.now o.PingTimeout
      log := s.log ++ [.pingresp s.now] }
  | .resetPing => some { s with pingTimer := s.pingTimer.Reset s.now o.PingTimeout }
  | .pingTimer =>
    if s.pingTimer.fired then some { s with
      pingTimer := s.pingTimer.recv
      pingRespTimer := s.pingRespTimer.Reset s.now o.PingTimeout
      log := s.log ++ [.pingreq s.now] }
    else none
  | .pingRespTimer =>
    if s.pingRespTimer.fired then some { s with
      pingRespTimer := s.pingRespTimer.recv
      pingTimer := s.pingTimer.Stop
      status := .connLost }
    else none
  | .advance _ => none

/-- Time passes whatever the loop does; a case of the `select` is taken only while it runs. -/
def step (s : Keepalive) : Action → Option Keepalive
  | .advance d => some (s.advance d)
  | act => if s.status = .running then s.select o act else none

/-- The state after a schedule, if every action could be taken. -/
def run : List Action → Keepalive → Option Keepalive
  | [], s => some s
  | act :: acts, s => (s.step o act).bind (run acts)

variable {o} {s s' : Keepalive} {act : Action}

theorem step_cases (h : s.step o act = some s') :
    (∃ d, act = .advance d ∧ s' = s.advance d) ∨ (s.status = .running ∧ s.select o act = some s') := by
  unfold step at h
  split at h
  · exact .inl ⟨_, rfl, (Option.some.inj h).symm⟩
  · split at h
    · exact .inr ⟨‹_›, h⟩
    · cases h

/-- What every step of a schedule keeps holds after the whole schedule. -/
theorem run_invariant {P : Keepalive → Prop} {acts : List Action}
    (hstep : ∀ act ∈ acts, ∀ t t', P t → t.step o act = some t' → P t') (hs : P s)
    (h : run o acts s = some s') : P s' := by
  induction acts generalizing s with
  | nil => exact Option.some.inj h ▸ hs
  | cons act acts ih =>
    obtain ⟨t, ht, hrun⟩ := Option.bind_eq_some.mp h
    exact ih (fun a ha => hstep a (List.mem_cons_of_mem _ ha))
      (hstep act (List.mem_cons_self _ _) _ _ hs ht) hrun

end Keepalive

/-! ### A lost connection has an unanswered PINGREQ -/

/-- The PINGREQ at position `i` of the log, written at `t₀`: no PINGRESP was handled after it
before `t₀ + PingTimeout`. -/
def Unanswered (PingTimeout : Nat) (log : List Event) (i t₀ : Nat) : Prop :=
  log[i]? = some (.pingreq t₀) ∧ ∀ j t, i < j → log[j]? = some (.pingresp t) → t₀ + PingTimeout ≤ t

/-- Some PINGREQ went unanswered for `PingTimeout` by time `now`. -/
def Overdue (PingTimeout : Nat) (log : List Event) (now : Nat) : Prop :=
  ∃ i t₀, Unanswered PingTimeout log i t₀ ∧ t₀ + PingTimeout ≤ now

variable {PT : Nat} {log : List Event}

theorem Unanswered.append {i t₀ : Nat} {e : Event} (h : Unanswered PT log i t₀)
    (he : ∀ t, e = .pingresp t → t₀ + PT ≤ t) : Unanswered PT (log ++ [e]) i t₀ := by
  obtain ⟨hlt, -⟩ := List.getElem?_eq_some_iff.mp h.1
  refine ⟨(List.getElem?_append_left hlt).trans h.1, fun j t hij hj => ?_⟩
  rcases Nat.lt_or_ge j log.length with hj' | hj'
  · rw [List.getElem?_append_left hj'] at hj
    exact h.2 j t hij hj
  · rw [List.getElem?_append_right hj'] at hj
    exact he t (List.mem_singleton.mp (List.getElem?_mem hj)).symm

/-- A PINGREQ just written is unanswered. -/
theorem unanswered_pingreq (t₀ : Nat) : Unanswered PT (log ++ [.pingreq t₀]) log.length t₀ := by
  refine ⟨List.getElem?_concat_length _ _, fun j t hij hj => ?_⟩
  rw [List.getElem?_append_right hij.le] at hj
  have : j - log.length = (j - log.length - 1) + 1 := by omega
  rw [this] at hj
  cases hj

theorem Overdue.mono {now now' : Nat} (h : Overdue PT log now) (hle : now ≤ now') :
    Overdue PT log now' :=
  let ⟨i, t₀, hu, ht⟩ := h
  ⟨i, t₀, hu, Nat.le_trans ht hle⟩

theorem Overdue.append {now : Nat} {e : Event} (h : Overdue PT log now)
    (he : ∀ t, e = .pingresp t → now ≤ t) : Overdue PT (log ++ [e]) now :=
  let ⟨i, t₀, hu, ht⟩ := h
  ⟨i, t₀, hu.append fun t h => Nat.le_trans ht (he t h), ht⟩

/-- While `pingRespTimer` is active it fires `PingTimeout` after an unanswered PINGREQ; a value in
its channel, or a lost connection, means a PINGREQ is overdue. -/
structure Safe (PingTimeout : Nat) (s : Keepalive) : Prop where
  armed : ∀ d, s.pingRespTimer.deadline = some d →
    ∃ i t₀, Unanswered PingTimeout s.log i t₀ ∧ d = t₀ + PingTimeout ∧ s.now ≤ d
  fired : s.pingRespTimer.fired = true → Overdue PingTimeout s.log s.now
  connLost : s.status = .connLost → Overdue PingTimeout s.log s.now

namespace Safe

variable {o : Options} {s s' : Keepalive}

theorem start (o : Options) : Safe o.PingTimeout (Keepalive.start o) :=
  ⟨(fun _ h => nomatch h), (fun h => nomatch h), (fun h => nomatch h)⟩

theorem advance (hs : Safe PT s) (d : Nat) : Safe PT (s.advance d) := by
  have hmono : s.now ≤ s.now + d := Nat.le_add_right _ _
  have hc : s.status = .connLost → Overdue PT s.log (s.now + d) := fun h => (hs.connLost h).mono hmono
  rcases Timer.fire_cases s.pingRespTimer (s.now + d) with ⟨hn, hf⟩ | ⟨e, hd, hlt, hf⟩ | ⟨e, hd, hle, hf⟩
  · refine ⟨fun e he => ?_, fun h => (hs.fired (hf ▸ h)).mono hmono, hc⟩
    simp only [Keepalive.advance, hf, hn] at he
    cases he
  · refine ⟨fun e' he => ?_, fun h => (hs.fired (hf ▸ h)).mono hmono, hc⟩
    simp only [Keepalive.advance, hf, hd, Option.some.injEq] at he
    obtain ⟨i, t₀, hu, rfl, -⟩ := hs.armed e hd
    exact ⟨i, t₀, hu, he.symm, he ▸ hlt.le⟩
  · obtain ⟨i, t₀, hu, rfl, -⟩ := hs.armed e hd
    refine ⟨fun e' he => ?_, fun _ => ⟨i, t₀, hu, hle⟩, hc⟩
    simp only [Keepalive.advance, hf] at he
    cases he

theorem select (hs : Safe o.PingTimeout s) {act : Keepalive.Action}
    (h : s.select o act = some s') : Safe o.PingTimeout s' := by
  cases act with
  | advance d => cases h
  | stop =>
    cases h
    exact ⟨(fun _ h => nomatch h), hs.fired, (fun h => nomatch h)⟩
  | resetPingResp =>
    cases h
    have he : ∀ t, Event.pingresp s.now = .pingresp t → s.now ≤ t := fun t h => by cases h; rfl
    exact ⟨(fun _ h => nomatch h), fun h => (hs.fired h).append he,
      fun h => (hs.connLost h).append he⟩
  | resetPing =>
    cases h
    exact ⟨hs.armed, hs.fired, hs.connLost⟩
  | pingTimer =>
    simp only [Keepalive.select] at h
    split at h
    · cases h
      have he : ∀ t, Event.pingreq s.now = .pingresp t → s.now ≤ t := fun t h => nomatch h
      refine ⟨fun d hd => ?_, fun h => (hs.fired h).append he, fun h => (hs.connLost h).append he⟩
      cases hd
      exact ⟨_, _, unanswered_pingreq s.now, rfl, Nat.le_add_right _ _⟩
    · cases h
  | pingRespTimer =>
    simp only [Keepalive.select] at h
    split at h
    · cases h
      exact ⟨hs.armed, (fun h => nomatch h), fun _ => hs.fired ‹_›⟩
    · cases h

theorem step (hs : Safe o.PingTimeout s) {act : Keepalive.Action} (h : s.step o act = some s') :
    Safe o.PingTimeout s' := by
  rcases Keepalive.step_cases h with ⟨d, -, rfl⟩ | ⟨-, h⟩
  · exact hs.advance d
  · exact hs.select h

end Safe

/-- In every run of `keepalive`, whatever the timing of the clock, the traffic and the PINGRESPs,
the connection is declared lost only after a PINGREQ written at some `t₀` after which no
PINGRESP was handled before `t₀ + PingTimeout`, and not before that time. -/
theorem connLost_justified (o : Options) (acts : List Keepalive.Action) (s : Keepalive)
    (h : Keepalive.run o acts (Keepalive.start o) = some s) (hs : s.status = .connLost) :
    ∃ i t₀ : Nat, s.log[i]? = some (.pingreq t₀) ∧ t₀ + o.PingTimeout ≤ s.now ∧
      ∀ j t, i < j → s.log[j]? = some (.pingresp t) → t₀ + o.PingTimeout ≤ t :=
  let ⟨i, t₀, ⟨hi, hr⟩, hle⟩ :=
    (Keepalive.run_invariant (fun _ _ _ _ hs ht => hs.step ht) (Safe.start o) h).connLost hs
  ⟨i, t₀, hi, hle, hr⟩

/-- An idle connection with `KeepAlive` and `PingTimeout` of 1 s: a PINGREQ at 1 s, no PINGRESP,
the connection lost at 2 s. -/
theorem connLost_idle_one_second :
    Keepalive.run ⟨1000000000, 1000000000⟩
        [.advance 1000000000, .pingTimer, .advance 1000000000, .pingRespTimer]
        (Keepalive.start ⟨1000000000, 1000000000⟩) =
      some ⟨2000000000, ⟨none, false⟩, ⟨none, false⟩, .connLost, [.pingreq 1000000000]⟩ ∧
    ∃ i t₀ : Nat, [Event.pingreq 1000000000][i]? = some (.pingreq t₀) ∧ t₀ + 1000000000 ≤ 2000000000 ∧
      ∀ j t, i < j → [Event.pingreq 1000000000][j]? = some (.pingresp t) → t₀ + 1000000000 ≤ t :=
  have hrun : Keepalive.run ⟨1000000000, 1000000000⟩
      [.advance 1000000000, .pingTimer, .advance 1000000000, .pingRespTimer]
      (Keepalive.start ⟨1000000000, 1000000000⟩) =
      some ⟨2000000000, ⟨none, false⟩, ⟨none, false⟩, .connLost, [.pingreq 1000000000]⟩ :=
    rfl
  ⟨hrun, connLost_justified _ _ _ hrun rfl⟩

/-! ### Without traffic one PINGREQ -/

/-- The invariant of runs with no `resetPing` and no `resetPingResp`: `pingTimer` is armed only
for `KeepAlive` and only before the PINGREQ, a value in its channel came at `KeepAlive` or later,
and the log is empty or that one PINGREQ. -/
structure Idle (KeepAlive : Nat) (s : Keepalive) : Prop where
  log : s.log = [] ∨ ∃ t, KeepAlive ≤ t ∧ s.log = [.pingreq t]
  deadline : ∀ d, s.pingTimer.deadline = some d → d = KeepAlive ∧ s.log = []
  fired : s.pingTimer.fired = true → KeepAlive ≤ s.now ∧ s.log = [] ∧ s.pingTimer.deadline = none

namespace Idle

variable {KA : Nat} {o : Options} {s s' : Keepalive}

theorem start (o : Options) : Idle o.KeepAlive (Keepalive.start o) :=
  ⟨.inl rfl, fun _ h => ⟨(Option.some.inj h).symm.trans (Nat.zero_add _), rfl⟩, (fun h => nomatch h)⟩

theorem advance (hi : Idle KA s) (d : Nat) : Idle KA (s.advance d) := by
  rcases Timer.fire_cases s.pingTimer (s.now + d) with ⟨hn, hf⟩ | ⟨e, hd, hlt, hf⟩ | ⟨e, hd, hle, hf⟩
  · refine ⟨hi.log, fun e he => hi.deadline e (hf ▸ he), fun h => ?_⟩
    obtain ⟨hle, hl, hn'⟩ := hi.fired (hf ▸ h)
    exact ⟨Nat.le_trans hle (Nat.le_add_right _ _), hl, by simp only [Keepalive.advance, hf, hn']⟩
  · refine ⟨hi.log, fun e he => hi.deadline e (hf ▸ he), fun h => ?_⟩
    have := (hi.fired (hf ▸ h)).2.2
    rw [hd] at this
    cases this
  · obtain ⟨rfl, hl⟩ := hi.deadline e hd
    refine ⟨hi.log, fun e he => ?_, fun _ => ⟨hle, hl, by simp only [Keepalive.advance, hf]⟩⟩
    simp only [Keepalive.advance, hf] at he
    cases he

theorem select (hi : Idle o.KeepAlive s) {act : Keepalive.Action}
    (hp : act ≠ .resetPing) (hr : act ≠ .resetPingResp) (h : s.select o act = some s') :
    Idle o.KeepAlive s' := by
  cases act with
  | advance d => cases h
  | stop =>
    cases h
    exact ⟨hi.log, (fun _ h => nomatch h), fun h => ⟨(hi.fired h).1, (hi.fired h).2.1, rfl⟩⟩
  | resetPingResp => exact absurd rfl hr
  | resetPing => exact absurd rfl hp
  | pingTimer =>
    simp only [Keepalive.select] at h
    split at h
    · cases h
      obtain ⟨hle, hl, hn⟩ := hi.fired ‹_›
      refine ⟨.inr ⟨s.now, hle, by rw [hl]; rfl⟩, (fun d hd => nomatch hn.symm.trans hd),
        (fun h => nomatch h)⟩
    · cases h
  | pingRespTimer =>
    simp only [Keepalive.select] at h
    split at h
    · cases h
      exact ⟨hi.log, (fun _ h => nomatch h), fun h => ⟨(hi.fired h).1, (hi.fired h).2.1, rfl⟩⟩
    · cases h

theorem step (hi : Idle o.KeepAlive s) {act : Keepalive.Action} (hp : act ≠ .resetPing)
    (hr : act ≠ .resetPingResp) (h : s.step o act = some s') : Idle o.KeepAlive s' := by
  rcases Keepalive.step_cases h with ⟨d, -, rfl⟩ | ⟨-, h⟩
  · exact hi.advance d
  · exact hi.select hp hr h

end Idle

/-- In every run with no `resetPing` (no packet went out) and no `resetPingResp` (no PINGRESP
came in), `keepalive` has written at most one PINGREQ, and not before `KeepAlive`, however long
it runs. -/
theorem pingreqs_without_resets (o : Options) (acts : List Keepalive.Action)
    (hacts : Keepalive.Action.resetPing ∉ acts ∧ Keepalive.Action.resetPingResp ∉ acts)
    (s : Keepalive) (h : Keepalive.run o acts (Keepalive.start o) = some s) :
    s.log = [] ∨ ∃ t, o.KeepAlive ≤ t ∧ s.log = [.pingreq t] :=
  (Keepalive.run_invariant
    (fun _ ha _ _ hi ht => hi.step (fun h => hacts.1 (h ▸ ha)) (fun h => hacts.2 (h ▸ ha)) ht)
    (Idle.start o) h).log

/-- Ten seconds of an idle connection with `KeepAlive` and `PingTimeout` of 1 s, the PINGRESP
timer never taken: one PINGREQ, at 1 s. -/
theorem pingreqs_idle_ten_seconds :
    Keepalive.run ⟨1000000000, 1000000000⟩ [.advance 1000000000, .pingTimer, .advance 9000000000]
        (Keepalive.start ⟨1000000000, 1000000000⟩) =
      some ⟨10000000000, ⟨none, false⟩, ⟨none, true⟩, .running, [.pingreq 1000000000]⟩ ∧
    ([Event.pingreq 1000000000] = [] ∨
      ∃ t, 1000000000 ≤ t ∧ [Event.pingreq 1000000000] = [.pingreq t]) :=
  have hrun : Keepalive.run ⟨1000000000, 1000000000⟩
      [.advance 1000000000, .pingTimer, .advance 9000000000]
      (Keepalive.start ⟨1000000000, 1000000000⟩) =
      some ⟨10000000000, ⟨none, false⟩, ⟨none, true⟩, .running, [.pingreq 1000000000]⟩ :=
    rfl
  ⟨hrun, pingreqs_without_resets _ _ ⟨by decide, by decide⟩ _ hrun⟩

end PahoMqtt
