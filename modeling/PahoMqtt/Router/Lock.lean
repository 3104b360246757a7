import PahoMqtt.Router.Dispatch
/-!
# The router's read-write lock

The `sync.RWMutex` of `router` (`part_001:71–77`) made explicit: `addRoute` and `deleteRoute` take
the write lock (`part_001:91`, `part_001:106`), the dispatch loop the read lock, given up around
each ordered-mode route callback (`part_001:132–151`). Main results: `locked_run_refines` (every
run under the lock is a run of `Router.run`), `default_handler_route_call_blocks` (a default
handler that changes the routes in ordered mode deadlocks) and `locked_run_progress`.
-/

namespace PahoMqtt

variable {H : Type}

/-- A call on the route list from outside the dispatch walk. -/
inductive RouteCall (H : Type)
  /-- `addRoute(topic, callback)` (`part_001:90–101`). -/
  | addRoute (topic : List UInt8) (callback : H)
  /-- `deleteRoute(topic)` (`part_001:105–114`). -/
  | deleteRoute (topic : List UInt8)

namespace RouteCall

/-- The call as a step of the atomic model. -/
def action : RouteCall H → Router.Action H
  | .addRoute topic callback => .addRoute topic callback
  | .deleteRoute topic => .deleteRoute topic

/-- The router after the call's body, run under the write lock. -/
def apply : RouteCall H → Router H → Router H
  | .addRoute topic callback, r =>
    { r with elems := elemsAddRoute topic callback r.fresh r.elems, fresh := r.fresh + 1 }
  | .deleteRoute topic, r => { r with elems := elemsDeleteRoute topic r.elems }

@[simp]
theorem dispatch_apply (c : RouteCall H) (r : Router H) : (c.apply r).dispatch = r.dispatch := by
  cases c <;> rfl

/-- Outside the walk the atomic model takes the call as the body under the write lock does. -/
theorem step_action (c : RouteCall H) {r : Router H} (hl : r.dispatch.holdsLock = false)
    (order : Bool) : r.step order c.action = some (c.apply r) := by
  cases c <;> simp [action, apply, Router.step, hl]

end RouteCall

/-! ### The walk is at an element of the list -/

/-- `e.Next()` is an element of the list. -/
theorem isSome_lookup_nextElem {es : List (Nat × Route H)} {e e' : Nat}
    (h : nextElem e es = some e') : (es.lookup e').isSome := by
  induction es with
  | nil => cases h
  | cons x xs ih =>
    rw [List.lookup_cons]
    split
    · rfl
    · simp only [nextElem] at h
      split at h
      · cases xs with
        | nil => cases h
        | cons y ys =>
          cases h
          simp [List.lookup_cons]
      · exact ih h

/-- While the walk holds the read lock, it is at an element of the list. -/
def Router.AtElem (s : Router H) : Prop :=
  ∀ topic sent e, s.dispatch = .walking topic sent e → (s.elems.lookup e).isSome

namespace Router.AtElem

variable {order : Bool} {s s' : Router H}

theorem init (defaultHandler : Option H) : (newRouter defaultHandler).AtElem :=
  fun _ _ _ h => nomatch h

theorem walkFrom (s : Router H) (topic : List UInt8) (sent : Bool) (e : Nat) :
    ∀ topic' sent' e', s.walkFrom topic sent e = .walking topic' sent' e' →
      (s.elems.lookup e').isSome := by
  intro _ _ _ hw
  unfold Router.walkFrom at hw
  split at hw
  · cases hw
    exact isSome_lookup_nextElem ‹_›
  · cases hw

/-- Every step leaves the walk at an element: it starts at the first one, moves with `e.Next()`,
and the list changes only outside the walk. -/
theorem of_step {act : Router.Action H} (h : s.step order act = some s') : s'.AtElem := by
  cases act with
  | receive topic =>
    obtain ⟨-, rfl⟩ := Router.step_receive h
    intro _ _ e hd
    cases hx : s.elems with
    | nil => simp [hx] at hd
    | cons x xs =>
      simp only [hx, List.head?_cons, Dispatch.walking.injEq] at hd
      simp [hd.2.2.symm, List.lookup_cons]
  | visit =>
    obtain ⟨topic, sent, e, r, -, -, rfl⟩ := Router.step_visit h
    split
    · cases order
      · exact walkFrom s topic true e
      · exact fun _ _ _ hd => nomatch hd
    · exact walkFrom s topic sent e
  | resume =>
    obtain ⟨topic, e, -, rfl⟩ := Router.step_resume h
    exact walkFrom s topic true e
  | finish =>
    obtain ⟨-, -, -, rfl⟩ := Router.step_finish h
    exact fun _ _ _ hd => nomatch hd
  | addRoute topic callback =>
    obtain ⟨hl, rfl⟩ := Router.step_addRoute h
    exact fun _ _ _ hd => absurd hl (by simp [show s.dispatch = _ from hd, Dispatch.holdsLock])
  | deleteRoute topic =>
    obtain ⟨hl, rfl⟩ := Router.step_deleteRoute h
    exact fun _ _ _ hd => absurd hl (by simp [show s.dispatch = _ from hd, Dispatch.holdsLock])

end Router.AtElem

/-- The goroutine inside `r.Lock()` past its writer mutex: it keeps new readers out and waits for
the readers there are to leave. -/
inductive Writer (H : Type)
  /-- The dispatch goroutine, at the first of the default handler's route calls still to make. -/
  | handler
  /-- Another goroutine in `addRoute` or `deleteRoute`: also a route callback, which in ordered
  mode runs with the read lock released, and in concurrent mode the default handler. -/
  | other (call : RouteCall H)

/-- The router with its lock: the atomic model's state, the number of read holds, the goroutine in
`Lock`, and, while the default handler runs, the route calls it has still to make. -/
structure LockedRouter (H : Type) where
  router : Router H
  readers : Nat
  writer : Option (Writer H)
  handler : Option (List (RouteCall H))

namespace LockedRouter

/-- `newRouter()` after `setDefaultHandler`, with the lock free. -/
def init (defaultHandler : Option H) : LockedRouter H := ⟨newRouter defaultHandler, 0, none, none⟩

/-- A step of the dispatch goroutine, or of a goroutine calling the route list. -/
inductive Action (H : Type)
  /-- `message := <-messages`, `r.RLock()`, and the walk starts, as `Router.Action.receive`. -/
  | receive (topic : List UInt8)
  /-- `Router.Action.visit`, with `r.RUnlock()` where the walk leaves the lock: in ordered mode
  before a matching route's callback, and out of the loop. -/
  | visit
  /-- Ordered mode: the callback returns, `r.RLock()`, and `e.Next()`, as
  `Router.Action.resume`. -/
  | resume
  /-- After the loop: in ordered mode with nothing sent and a default handler, `r.RLock()` and the
  handler starts; otherwise `message.Release()`, as `Router.Action.finish`, with in concurrent
  mode the default handler on a goroutine of its own. -/
  | finish
  /-- The default handler's next route call reaches `r.Lock()`. -/
  | handlerCall
  /-- The default handler returns: `r.RUnlock()` and `message.Release()`. -/
  | handlerReturn
  /-- Another goroutine's route call reaches `r.Lock()`. -/
  | call (c : RouteCall H)
  /-- The goroutine in `r.Lock()` has the lock once no reader is left, runs its call's body, and
  `r.Unlock()`s. -/
  | write

variable (order : Bool) (handlerCalls : List UInt8 → List (RouteCall H))

/-- One step, or `none` while it waits. `handlerCalls topic` are the route calls the default
handler makes for a message on `topic` in ordered mode. -/
def step (s : LockedRouter H) : Action H → Option (LockedRouter H)
  | .receive topic =>
    if s.writer.isSome then none
    else (s.router.step order (.receive topic)).map fun r =>
      { s with router := r, readers := s.readers + r.dispatch.holdsLock.toNat }
  | .visit =>
    (s.router.step order .visit).map fun r =>
      { s with router := r, readers := s.readers - 1 + r.dispatch.holdsLock.toNat }
  | .resume =>
    if s.writer.isSome then none
    else (s.router.step order .resume).map fun r =>
      { s with router := r, readers := s.readers + r.dispatch.holdsLock.toNat }
  | .finish =>
    match s.router.dispatch, s.handler with
    | .walked topic sent, none =>
      if order && !sent && s.router.defaultHandler.isSome then
        if s.writer.isSome then none
        else some { s with readers := s.readers + 1, handler := some (handlerCalls topic) }
      else (s.router.step order .finish).map fun r => { s with router := r }
    | _, _ => none
  | .handlerCall =>
    match s.handler, s.writer with
    | some (_ :: _), none => some { s with writer := some .handler }
    | _, _ => none
  | .handlerReturn =>
    match s.handler with
    | some [] => (s.router.step order .finish).map fun r =>
      { s with router := r, readers := s.readers - 1, handler := none }
    | _ => none
  | .call c => if s.writer.isSome then none else some { s with writer := some (.other c) }
  | .write =>
    if s.readers = 0 then
      match s.writer, s.handler with
      | some (.other c), _ => some { s with router := c.apply s.router, writer := none }
      | some .handler, some (c :: cs) =>
        some { s with router := c.apply s.router, writer := none, handler := some cs }
      | _, _ => none
    else none

/-- The state after a schedule, if every step could be taken. -/
def run : List (Action H) → LockedRouter H → Option (LockedRouter H)
  | [], s => some s
  | act :: acts, s => (s.step order handlerCalls act).bind (run acts)

/-- The read lock is held once by the walk and once by the default handler, and by nothing else;
the default handler runs after a walk that sent nothing; and the dispatch goroutine is in `Lock`
only for a route call of the handler. -/
structure LockInv (s : LockedRouter H) : Prop where
  readers : s.readers = s.router.dispatch.holdsLock.toNat + s.handler.isSome.toNat
  handler : ∀ calls, s.handler = some calls → ∃ topic, s.router.dispatch = .walked topic false
  writer : s.writer = some .handler → ∃ c cs, s.handler = some (c :: cs)

namespace LockInv

variable {order handlerCalls} {s s' : LockedRouter H}

theorem init (defaultHandler : Option H) : LockInv (init defaultHandler) :=
  ⟨rfl, fun _ h => (nomatch h), fun h => (nomatch h)⟩

/-- Away from `walked`, the default handler does not run. -/
theorem handler_eq_none (hs : LockInv s) (hd : ∀ topic, s.router.dispatch ≠ .walked topic false) :
    s.handler = none := by
  cases hh : s.handler with
  | none => rfl
  | some calls => exact absurd (hs.handler calls hh).choose_spec (hd _)

/-- With no reader in, neither the walk nor the default handler is under way. -/
theorem free (hs : LockInv s) (h0 : s.readers = 0) :
    s.router.dispatch.holdsLock = false ∧ s.handler = none := by
  have h := hs.readers
  rw [h0, eq_comm, Nat.add_eq_zero] at h
  simpa using h

theorem readers_eq_zero (hs : LockInv s) (hl : s.router.dispatch.holdsLock = false)
    (hh : s.handler = none) : s.readers = 0 := by
  rw [hs.readers, hl, hh]
  rfl

/-- A walk step with the default handler not running keeps the invariant. -/
theorem walk (hs : LockInv s) (hh : s.handler = none) (r : Router H) {n : Nat}
    (hn : n = r.dispatch.holdsLock.toNat) : LockInv { s with router := r, readers := n } :=
  ⟨by simp [hn, hh], fun _ h => (nomatch hh.symm.trans h),
    fun hw => absurd ((hs.writer hw).choose_spec.choose_spec) (by simp [hh])⟩

/-- Every step keeps the invariant and is a step of the atomic model in the same mode, or leaves
its state as it is. -/
theorem step (hs : LockInv s) {act : Action H} (h : s.step order handlerCalls act = some s') :
    LockInv s' ∧ (s'.router = s.router ∨ ∃ a, s.router.step order a = some s'.router) := by
  cases act with
  | receive topic =>
    simp only [LockedRouter.step] at h
    split at h
    · cases h
    · obtain ⟨r, hr, rfl⟩ := Option.map_eq_some'.mp h
      have hd := (Router.step_receive hr).1
      have hh := hs.handler_eq_none fun _ => by simp [hd]
      have h0 : s.readers = 0 := by simp [hs.readers, hd, hh, Dispatch.holdsLock]
      exact ⟨hs.walk hh r (by rw [h0, Nat.zero_add]), Or.inr ⟨_, hr⟩⟩
  | visit =>
    simp only [LockedRouter.step] at h
    obtain ⟨r, hr, rfl⟩ := Option.map_eq_some'.mp h
    obtain ⟨_, _, _, _, hd, -⟩ := Router.step_visit hr
    have hh := hs.handler_eq_none fun _ => by simp [hd]
    have h1 : s.readers = 1 := by simp [hs.readers, hd, hh, Dispatch.holdsLock]
    exact ⟨hs.walk hh r (by rw [h1, Nat.sub_self, Nat.zero_add]), Or.inr ⟨_, hr⟩⟩
  | resume =>
    simp only [LockedRouter.step] at h
    split at h
    · cases h
    · obtain ⟨r, hr, rfl⟩ := Option.map_eq_some'.mp h
      obtain ⟨_, _, hd, -⟩ := Router.step_resume hr
      have hh := hs.handler_eq_none fun _ => by simp [hd]
      have h0 : s.readers = 0 := by simp [hs.readers, hd, hh, Dispatch.holdsLock]
      exact ⟨hs.walk hh r (by rw [h0, Nat.zero_add]), Or.inr ⟨_, hr⟩⟩
  | finish =>
    simp only [LockedRouter.step] at h
    split at h
    · rename_i topic sent hd hh
      have h0 : s.readers = 0 := by simp [hs.readers, hd, hh, Dispatch.holdsLock]
      split at h
      · split at h
        · cases h
        · rename_i hsent hw
          cases h
          have hf : sent = false := by simp only [Bool.and_eq_true, Bool.not_eq_true'] at hsent; exact hsent.1.2
          exact ⟨⟨by simp [h0, hd, Dispatch.holdsLock], fun _ _ => ⟨topic, hf ▸ hd⟩,
            fun hw' => absurd (congrArg Option.isSome hw') hw⟩, Or.inl rfl⟩
      · obtain ⟨r, hr, rfl⟩ := Option.map_eq_some'.mp h
        have hidle : r.dispatch = .idle := by obtain ⟨-, -, -, rfl⟩ := Router.step_finish hr; rfl
        exact ⟨hs.walk hh r (by rw [h0, hidle]; rfl), Or.inr ⟨_, hr⟩⟩
    · cases h
  | handlerCall =>
    simp only [LockedRouter.step] at h
    split at h
    · cases h
      exact ⟨⟨hs.readers, hs.handler, fun _ => ⟨_, _, ‹_›⟩⟩, Or.inl rfl⟩
    · cases h
  | handlerReturn =>
    simp only [LockedRouter.step] at h
    split at h
    · rename_i hh
      obtain ⟨r, hr, rfl⟩ := Option.map_eq_some'.mp h
      have hidle : r.dispatch = .idle := by obtain ⟨-, -, -, rfl⟩ := Router.step_finish hr; rfl
      obtain ⟨_, hd⟩ := hs.handler [] hh
      have h1 : s.readers = 1 := by rw [hs.readers, hd, hh]; rfl
      have hw : s.writer ≠ some .handler := fun hw => by
        obtain ⟨_, _, h'⟩ := hs.writer hw
        simp [hh] at h'
      exact ⟨⟨by rw [h1, hidle]; rfl, fun _ h => (nomatch h),
        fun h => absurd h hw⟩, Or.inr ⟨_, hr⟩⟩
    · cases h
  | call c =>
    simp only [LockedRouter.step] at h
    split at h
    · cases h
    · cases h
      exact ⟨⟨hs.readers, hs.handler, fun h => (nomatch h)⟩, Or.inl rfl⟩
  | write =>
    simp only [LockedRouter.step] at h
    split at h
    · rename_i h0
      obtain ⟨hl, hh⟩ := hs.free h0
      split at h
      · cases h
        exact ⟨⟨by simp [h0, hh, hl], fun _ h => (nomatch hh.symm.trans h), fun h => (nomatch h)⟩,
          Or.inr ⟨_, RouteCall.step_action _ hl order⟩⟩
      · exact absurd hh (by simp [‹s.handler = _›])
      · cases h
    · cases h

/-- What every step keeps holds after every schedule, and every schedule is matched by one of the
atomic model in the same mode. -/
theorem run (hs : LockInv s) {acts : List (Action H)}
    (h : run order handlerCalls acts s = some s') :
    LockInv s' ∧ ∃ acts', Router.run order acts' s.router = some s'.router := by
  induction acts generalizing s with
  | nil => exact Option.some.inj h ▸ ⟨hs, [], rfl⟩
  | cons act acts ih =>
    obtain ⟨t, ht, hrun⟩ := Option.bind_eq_some.mp h
    obtain ⟨ht', hsim⟩ := hs.step ht
    obtain ⟨hs', acts', hacts⟩ := ih ht' hrun
    refine ⟨hs', ?_⟩
    rcases hsim with heq | ⟨a, ha⟩
    · exact ⟨acts', heq ▸ hacts⟩
    · exact ⟨a :: acts', by rw [Router.run, ha, Option.some_bind, hacts]⟩

end LockInv

section Blocked

variable {order handlerCalls} {s s' : LockedRouter H} {topic : List UInt8} {sent : Bool}
  {c : RouteCall H} {cs : List (RouteCall H)}

/-- With a reader in and the default handler running with a route call still to make, a step can
only put a goroutine in `Lock`, and none can once one is there. -/
theorem step_blocked (hr : s.readers ≠ 0) (hd : s.router.dispatch = .walked topic sent)
    (hh : s.handler = some (c :: cs)) {act : Action H}
    (h : s.step order handlerCalls act = some s') :
    s.writer = none ∧ ∃ w, s' = { s with writer := some w } := by
  cases act with
  | receive | visit | resume | finish | handlerReturn | write =>
    simp [LockedRouter.step, Router.step, hd, hh, hr] at h
  | handlerCall =>
    simp only [LockedRouter.step] at h
    split at h
    · exact ⟨‹_›, _, (Option.some.inj h).symm⟩
    · cases h
  | call c =>
    simp only [LockedRouter.step] at h
    split at h
    · cases h
    · exact ⟨Option.not_isSome_iff_eq_none.mp ‹_›, _, (Option.some.inj h).symm⟩

/-- From there, no schedule changes the router, the default handler's calls or the read holds. -/
theorem run_blocked (hr : s.readers ≠ 0) (hd : s.router.dispatch = .walked topic sent)
    (hh : s.handler = some (c :: cs)) {acts : List (Action H)}
    (h : run order handlerCalls acts s = some s') :
    s'.router = s.router ∧ s'.handler = s.handler ∧ s'.readers = s.readers := by
  induction acts generalizing s with
  | nil => exact Option.some.inj h ▸ ⟨rfl, rfl, rfl⟩
  | cons act acts ih =>
    obtain ⟨t, ht, hrun⟩ := Option.bind_eq_some.mp h
    obtain ⟨-, w, rfl⟩ := step_blocked hr hd hh ht
    have ht' := ih (by exact hr) (by exact hd) (by exact hh) hrun
    exact ht'

/-- From there, once a goroutine is in `Lock`, nothing can move. -/
theorem stuck_of_writer (hr : s.readers ≠ 0) (hd : s.router.dispatch = .walked topic sent)
    (hh : s.handler = some (c :: cs)) (hw : s.writer.isSome) (act : Action H) :
    s.step order handlerCalls act = none := by
  cases h : s.step order handlerCalls act with
  | none => rfl
  | some s' => simp [(step_blocked hr hd hh h).1] at hw

end Blocked

/-- In ordered mode, once the default handler runs with a route call still to make, in every
interleaving that follows the route list stays as it is, the message is never finished and the
handler never returns; and once any goroutine is in `Lock`, no step can be taken: the handler's
`Lock` waits for the read lock its own goroutine holds. -/
theorem default_handler_route_call_blocks (handlerCalls : List UInt8 → List (RouteCall H))
    (defaultHandler : Option H) (acts acts' : List (Action H)) (s s' : LockedRouter H)
    (c : RouteCall H) (cs : List (RouteCall H))
    (hs : run true handlerCalls acts (init defaultHandler) = some s)
    (hh : s.handler = some (c :: cs)) (h : run true handlerCalls acts' s = some s') :
    s'.router = s.router ∧ s'.handler = s.handler ∧
      (s'.writer.isSome → ∀ act, s'.step true handlerCalls act = none) := by
  have hi := ((LockInv.init defaultHandler).run hs).1
  obtain ⟨topic, hd⟩ := hi.handler _ hh
  have hr : s.readers ≠ 0 := by simp [hi.readers, hh]
  obtain ⟨hrt, hht, hrd⟩ := run_blocked hr hd hh h
  exact ⟨hrt, hht, stuck_of_writer (hrd ▸ hr) (hrt ▸ hd) (hht ▸ hh)⟩

/-- A default handler that adds a route for `a` on every message: on the first message, its
`Lock` waits for the read lock of its own goroutine. -/
theorem default_handler_addRoute_blocks :
    ∃ s s', run true (fun _ => [.addRoute [97] 1]) [.receive [97], .finish]
        (init (some (0 : Nat))) = some s ∧ s.handler = some [.addRoute [97] 1] ∧
      run true (fun _ => [.addRoute [97] 1]) [.handlerCall] s = some s' ∧
      s'.router = s.router ∧ s'.handler = s.handler ∧
      (s'.writer.isSome → ∀ act, s'.step true (fun _ => [.addRoute [97] 1]) act = none) :=
  ⟨_, _, rfl, rfl, rfl, default_handler_route_call_blocks (fun _ => [.addRoute [97] 1]) (some 0)
    [.receive [97], .finish] [.handlerCall] _ _ (.addRoute [97] 1) [] rfl rfl rfl⟩

/-! ### Progress outside the default handler's route calls -/

section Progress

variable {order handlerCalls} {s : LockedRouter H}

/-- The walk can always visit the element it is at. -/
theorem visit_isSome (hat : s.router.AtElem) {topic : List UInt8} {sent : Bool} {e : Nat}
    (hd : s.router.dispatch = .walking topic sent e) :
    (s.step order handlerCalls .visit).isSome := by
  obtain ⟨r, hr⟩ := Option.isSome_iff_exists.mp (hat _ _ _ hd)
  simp [LockedRouter.step, Router.step, hd, hr]

/-- With no reader in, the goroutine in `Lock` has the lock. -/
theorem write_isSome (hs : LockInv s) (h0 : s.readers = 0) {w : Writer H}
    (hw : s.writer = some w) : (s.step order handlerCalls .write).isSome := by
  cases w with
  | handler =>
    obtain ⟨_, _, hh⟩ := hs.writer hw
    simp [(hs.free h0).2] at hh
  | other c => simp [LockedRouter.step, h0, hw]

/-- Outside a default handler with a route call still to make, either nothing is under way, or
the loop or the goroutine in `Lock` can take its next step. -/
theorem LockInv.progress (hs : LockInv s) (hat : s.router.AtElem)
    (hh : ∀ c cs, s.handler ≠ some (c :: cs)) :
    (s.router.dispatch = .idle ∧ s.writer = none) ∨
      ∃ act ∈ [Action.visit, .resume, .finish, .handlerReturn, .write],
        (s.step order handlerCalls act).isSome := by
  cases hd : s.router.dispatch with
  | walking topic sent e => exact .inr ⟨.visit, by simp, visit_isSome hat hd⟩
  | idle =>
    have h0 := hs.readers_eq_zero (by simp [hd, Dispatch.holdsLock])
      (hs.handler_eq_none (by simp [hd]))
    cases hw : s.writer with
    | none => exact .inl ⟨rfl, rfl⟩
    | some w => exact .inr ⟨.write, by simp, write_isSome hs h0 hw⟩
  | calling topic e =>
    have h0 := hs.readers_eq_zero (by simp [hd, Dispatch.holdsLock])
      (hs.handler_eq_none (by simp [hd]))
    cases hw : s.writer with
    | none => exact .inr ⟨.resume, by simp, by simp [LockedRouter.step, Router.step, hd, hw]⟩
    | some w => exact .inr ⟨.write, by simp, write_isSome hs h0 hw⟩
  | walked topic sent =>
    cases hhd : s.handler with
    | some calls =>
      cases calls with
      | nil =>
        exact .inr ⟨.handlerReturn, by simp, by simp [LockedRouter.step, Router.step, hd, hhd]⟩
      | cons c cs => exact absurd hhd (hh c cs)
    | none =>
      have h0 := hs.readers_eq_zero (by simp [hd, Dispatch.holdsLock]) hhd
      cases hw : s.writer with
      | none =>
        refine .inr ⟨.finish, by simp, ?_⟩
        simp only [LockedRouter.step, hd, hhd, hw]
        split <;> simp [Router.step, hd]
      | some w => exact .inr ⟨.write, by simp, write_isSome hs h0 hw⟩

end Progress

/-- In every interleaving of the dispatch loop, in ordered or concurrent mode, with route calls
from other goroutines under the lock, whatever route calls the default handler makes: unless the
default handler is running with a route call still to make, either nothing is under way (the loop
waits for a message and no goroutine is in `Lock`), or the loop, the default handler or the
goroutine in `Lock` can take its next step. So, with the result above, a route call from the
ordered-mode default handler is the one way the router deadlocks. -/
theorem locked_run_progress (order : Bool) (handlerCalls : List UInt8 → List (RouteCall H))
    (defaultHandler : Option H) (acts : List (Action H)) (s : LockedRouter H)
    (h : run order handlerCalls acts (init defaultHandler) = some s)
    (hh : ∀ c cs, s.handler ≠ some (c :: cs)) :
    (s.router.dispatch = .idle ∧ s.writer = none) ∨
      ∃ act ∈ [Action.visit, .resume, .finish, .handlerReturn, .write],
        (s.step order handlerCalls act).isSome := by
  obtain ⟨hs, acts', hr⟩ := (LockInv.init defaultHandler).run h
  exact hs.progress (Router.run_invariant (fun _ _ _ _ ht => Router.AtElem.of_step ht)
    (Router.AtElem.init defaultHandler) hr) hh

/-- The schedule of `locked_run_skips_a_plus` up to the deletion: the walk has given up the read
lock for the callback of `a/b`, whose `deleteRoute` is in `Lock` and can go on. -/
theorem locked_run_progress_callback :
    ∃ s, run true (fun _ => []) [.call (.addRoute [97, 47, 98] 1), .write,
        .call (.addRoute [97, 47, 43] 2), .write, .receive [97, 47, 98], .visit,
        .call (.deleteRoute [97, 47, 98])] (init (none : Option Nat)) = some s ∧
      (∀ c cs, s.handler ≠ some (c :: cs)) ∧
      ((s.router.dispatch = .idle ∧ s.writer = none) ∨
        ∃ act ∈ [Action.visit, .resume, .finish, .handlerReturn, .write],
          (s.step true (fun _ => []) act).isSome) :=
  ⟨_, rfl, (fun _ _ h => nomatch h), locked_run_progress true (fun _ => []) none
    [.call (.addRoute [97, 47, 98] 1), .write, .call (.addRoute [97, 47, 43] 2), .write,
      .receive [97, 47, 98], .visit, .call (.deleteRoute [97, 47, 98])] _ rfl
    (fun _ _ h => nomatch h)⟩

end LockedRouter

end PahoMqtt
