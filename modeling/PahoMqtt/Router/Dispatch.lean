import PahoMqtt.Router.Routes

/-!
# Dispatching messages to the routes

`router.matchAndDispatch` (`part_001:126–161`) walks the route list, a `container/list` whose
elements keep their identity, under the read lock, and calls each route whose filter covers the
topic, or the default handler. In ordered mode the lock is released around each callback, so the
list can change mid-walk. Main results: `delivered_calls_nodup` (both modes),
`concurrent_delivered_eq_spec` and `ordered_dispatch_skips_deleted`.
-/

namespace PahoMqtt

variable {H : Type}

/-- `route.matchBytes(topic)` (`part_001:67–69`): `routeIncludesTopic` alone, without the byte
equality that `match` also accepts. -/
def Route.matchBytes (r : Route H) (topic : List UInt8) : Bool :=
  routeIncludesTopic r.topicBytes topic

/-! ### The route list as a `container/list` -/

/-- `addRoute` on the list's elements (`part_001:90–101`): the first element whose route
`match`es `topic` takes the new callback and keeps its identity; with none, `PushBack` adds the
element `fresh`. -/
def elemsAddRoute (topic : List UInt8) (callback : H) (fresh : Nat) :
    List (Nat × Route H) → List (Nat × Route H)
  | [] => [(fresh, ⟨topic, callback⟩)]
  | e :: es =>
    if e.2.matchTopic topic then (e.1, { e.2 with callback }) :: es
    else e :: elemsAddRoute topic callback fresh es

/-- `deleteRoute` on the list's elements (`part_001:105–114`): `Remove` of the first element whose
route `match`es `topic`. -/
def elemsDeleteRoute (topic : List UInt8) (es : List (Nat × Route H)) : List (Nat × Route H) :=
  es.eraseP (·.2.matchTopic topic)

/-- `e.Next()`: the element after `e`; `nil` when `e` is the last one or has been removed, since
`Remove` clears the removed element's links. -/
def nextElem (e : Nat) : List (Nat × Route H) → Option Nat
  | [] => none
  | x :: xs => if x.1 = e then xs.head?.map (·.1) else nextElem e xs

theorem routes_elemsAddRoute (topic : List UInt8) (callback : H) (fresh : Nat)
    (es : List (Nat × Route H)) :
    (elemsAddRoute topic callback fresh es).map Prod.snd =
      addRoute topic callback (es.map Prod.snd) := by
  induction es with
  | nil => rfl
  | cons e es ih =>
    cases h : e.2.matchTopic topic
    · simp only [elemsAddRoute, addRoute, replaceOrAppend, h, Bool.false_eq_true, ite_false,
        List.map_cons, ih]
    · simp [elemsAddRoute, addRoute, replaceOrAppend, h]

theorem routes_elemsDeleteRoute (topic : List UInt8) (es : List (Nat × Route H)) :
    (elemsDeleteRoute topic es).map Prod.snd = deleteRoute topic (es.map Prod.snd) := by
  rw [deleteRoute, List.eraseP_map]
  rfl

theorem ids_elemsAddRoute (topic : List UInt8) (callback : H) (fresh : Nat)
    (es : List (Nat × Route H)) :
    (elemsAddRoute topic callback fresh es).map (·.1) =
      if es.any (·.2.matchTopic topic) then es.map (·.1) else es.map (·.1) ++ [fresh] := by
  induction es with
  | nil => rfl
  | cons e es ih =>
    cases h : e.2.matchTopic topic
    · simp only [elemsAddRoute, h, Bool.false_eq_true, ite_false, List.map_cons, ih, List.any_cons,
        Bool.false_or]
      split <;> rfl
    · simp [elemsAddRoute, h]

/-- Element identities increase from front to back and stay below `fresh`: `PushBack` puts a new
element behind all the others. -/
structure ElemsOrdered (es : List (Nat × Route H)) (fresh : Nat) : Prop where
  increasing : (es.map (·.1)).Pairwise (· < ·)
  lt_fresh : ∀ x ∈ es, x.1 < fresh

namespace ElemsOrdered

variable {es : List (Nat × Route H)} {fresh : Nat}

theorem nodup (h : ElemsOrdered es fresh) : (es.map (·.1)).Nodup :=
  h.increasing.imp Nat.ne_of_lt

theorem addRoute (h : ElemsOrdered es fresh) (topic : List UInt8) (callback : H) :
    ElemsOrdered (elemsAddRoute topic callback fresh es) (fresh + 1) := by
  have hid := ids_elemsAddRoute topic callback fresh es
  have hlt : ∀ i ∈ es.map (·.1), i < fresh := by
    simpa only [List.mem_map, forall_exists_index, and_imp, forall_apply_eq_imp_iff₂] using
      h.lt_fresh
  refine ⟨?_, fun x hx => ?_⟩
  · rw [hid]
    split
    · exact h.increasing
    · exact List.pairwise_append.mpr ⟨h.increasing, List.pairwise_singleton _ _,
        fun i hi j hj => List.mem_singleton.mp hj ▸ hlt i hi⟩
  · have hx' : x.1 ∈ (elemsAddRoute topic callback fresh es).map (·.1) := List.mem_map_of_mem _ hx
    rw [hid] at hx'
    split at hx'
    · exact Nat.lt_succ_of_lt (hlt _ hx')
    · rcases List.mem_append.mp hx' with hx' | hx'
      · exact Nat.lt_succ_of_lt (hlt _ hx')
      · exact List.mem_singleton.mp hx' ▸ Nat.lt_succ_self _

theorem deleteRoute (h : ElemsOrdered es fresh) (topic : List UInt8) :
    ElemsOrdered (elemsDeleteRoute topic es) fresh :=
  ⟨h.increasing.sublist ((List.eraseP_sublist es).map _),
    fun x hx => h.lt_fresh x (List.mem_of_mem_eraseP hx)⟩

end ElemsOrdered

/-- The walk moves forward: the element after `e` has a larger identity. -/
theorem lt_nextElem {es : List (Nat × Route H)} {e e' : Nat}
    (h : (es.map (·.1)).Pairwise (· < ·)) (hn : nextElem e es = some e') : e < e' := by
  induction es with
  | nil => cases hn
  | cons x xs ih =>
    rw [List.map_cons, List.pairwise_cons] at h
    simp only [nextElem] at hn
    split at hn
    · rename_i hx
      cases xs with
      | nil => cases hn
      | cons y ys =>
        cases hn
        exact hx ▸ h.1 y.1 (List.mem_cons_self _ _)
    · exact ih h.2 hn

/-- With distinct identities, the element at position `k` is found by its identity, and the one
after it is at position `k + 1`. -/
theorem lookup_nextElem_of_getElem {es : List (Nat × Route H)} (hnd : (es.map (·.1)).Nodup)
    {k e : Nat} {r : Route H} (hk : es[k]? = some (e, r)) :
    es.lookup e = some r ∧ nextElem e es = (es.map (·.1))[k + 1]? := by
  induction es generalizing k with
  | nil => cases hk
  | cons x xs ih =>
    rw [List.map_cons, List.nodup_cons] at hnd
    cases k with
    | zero =>
      rw [List.getElem?_cons_zero, Option.some.injEq] at hk
      subst hk
      refine ⟨List.lookup_cons_self, ?_⟩
      rw [nextElem, if_pos rfl, List.map_cons, List.getElem?_cons_succ]
      cases xs <;> simp
    | succ k =>
      rw [List.getElem?_cons_succ] at hk
      have hne : x.1 ≠ e := fun hxe =>
        hnd.1 (hxe ▸ List.mem_map_of_mem (·.1) (List.getElem?_mem hk))
      obtain ⟨hl, hn⟩ := ih hnd.2 hk
      refine ⟨?_, ?_⟩
      · rw [List.lookup_cons, show (e == x.1) = false from beq_false_of_ne (Ne.symm hne)]
        exact hl
      · rw [nextElem, if_neg hne, hn, List.map_cons, List.getElem?_cons_succ]

/-! ### The dispatch loop -/

/-- Where the dispatch goroutine is. -/
inductive Dispatch
  /-- At `case message := <-messages`. -/
  | idle
  /-- Holding the read lock, at element `e` of the walk for a message on `topic`. -/
  | walking (topic : List UInt8) (sent : Bool) (e : Nat)
  /-- Ordered mode: the read lock released while the callback of element `e` runs. -/
  | calling (topic : List UInt8) (e : Nat)
  /-- Out of the loop, the read lock released. -/
  | walked (topic : List UInt8) (sent : Bool)
  deriving DecidableEq, Repr

/-- Whether the dispatch goroutine holds the read lock, so that `addRoute` and `deleteRoute`, which
take the write lock, have to wait. -/
def Dispatch.holdsLock : Dispatch → Bool
  | .walking .. => true
  | _ => false

/-- A message the loop is done with: its topic, the routes when the loop took it, and the callbacks
called for it, each with its element (`none` for the default handler). -/
structure Delivery (H : Type) where
  topic : List UInt8
  routes : List (Route H)
  calls : List (Option Nat × H)

/-- The route list's elements, the next element identity, the default handler, the dispatch
goroutine, the callbacks called for the message in hand, and the messages done with. -/
structure Router (H : Type) where
  elems : List (Nat × Route H)
  fresh : Nat
  defaultHandler : Option H
  dispatch : Dispatch
  taken : List (Route H)
  calls : List (Option Nat × H)
  delivered : List (Delivery H)

/-- `newRouter()` (`part_001:81–85`) after `setDefaultHandler` (`part_001:118–120`). -/
def newRouter (defaultHandler : Option H) : Router H := ⟨[], 0, defaultHandler, .idle, [], [], []⟩

namespace Router

/-- A step of the dispatch goroutine, or a call on the route list from another goroutine. -/
inductive Action (H : Type)
  /-- `message := <-messages`, `sent := false`, `r.RLock()`, `e := r.routes.Front()`. -/
  | receive (topic : List UInt8)
  /-- `matchBytes` on the element in hand, its callback if it matches (in ordered mode after
  `r.RUnlock()`, otherwise with `go`), and in concurrent mode or on no match `e.Next()`. -/
  | visit
  /-- Ordered mode: the callback returns, `r.RLock()`, `e.Next()`. -/
  | resume
  /-- `r.RUnlock()`, the default handler if nothing was sent, `message.Release()`. -/
  | finish
  /-- `addRoute(topic, callback)` from another goroutine. -/
  | addRoute (topic : List UInt8) (callback : H)
  /-- `deleteRoute(topic)` from another goroutine. -/
  | deleteRoute (topic : List UInt8)

variable (order : Bool)

/-- `e = e.Next()`: on to the next element, or out of the loop at `nil`. -/
def walkFrom (s : Router H) (topic : List UInt8) (sent : Bool) (e : Nat) : Dispatch :=
  match nextElem e s.elems with
  | some e' => .walking topic sent e'
  | none => .walked topic sent

/-- One step, or `none` when it cannot be taken now. -/
def step (s : Router H) : Action H → Option (Router H)
  | .receive topic =>
    match s.dispatch with
    | .idle => some { s with
        dispatch := match s.elems.head? with
          | some x => .walking topic false x.1
          | none => .walked topic false
        taken := s.elems.map Prod.snd
        calls := [] }
    | _ => none
  | .visit =>
    match s.dispatch with
    | .walking topic sent e =>
      (s.elems.lookup e).map fun r =>
        if r.matchBytes topic then
          { s with
            calls := s.calls ++ [(some e, r.callback)]
            dispatch := if order then .calling topic e else s.walkFrom topic true e }
        else { s with dispatch := s.walkFrom topic sent e }
    | _ => none
  | .resume =>
    match s.dispatch with
    | .calling topic e => some { s with dispatch := s.walkFrom topic true e }
    | _ => none
  | .finish =>
    match s.dispatch with
    | .walked topic sent => some { s with
        dispatch := .idle
        calls := []
        delivered := s.delivered ++ [⟨topic, s.taken,
          if sent then s.calls else s.calls ++ (s.defaultHandler.map ((none, ·))).toList⟩] }
    | _ => none
  | .addRoute topic callback =>
    if s.dispatch.holdsLock then none
    else some { s with elems := elemsAddRoute topic callback s.fresh s.elems, fresh := s.fresh + 1 }
  | .deleteRoute topic =>
    if s.dispatch.holdsLock then none
    else some { s with elems := elemsDeleteRoute topic s.elems }

/-- The state after a schedule, if every step could be taken. -/
def run : List (Action H) → Router H → Option (Router H)
  | [], s => some s
  | act :: acts, s => (s.step order act).bind (run acts)

variable {order} {s s' : Router H}

theorem step_receive {topic : List UInt8} (h : s.step order (.receive topic) = some s') :
    s.dispatch = .idle ∧ s' = { s with
      dispatch := match s.elems.head? with
        | some x => .walking topic false x.1
        | none => .walked topic false
      taken := s.elems.map Prod.snd
      calls := [] } := by
  simp only [step] at h
  split at h
  · exact ⟨‹_›, (Option.some.inj h).symm⟩
  · cases h

theorem step_visit (h : s.step order .visit = some s') :
    ∃ topic sent e r, s.dispatch = .walking topic sent e ∧ s.elems.lookup e = some r ∧
      s' = if r.matchBytes topic then
          { s with
            calls := s.calls ++ [(some e, r.callback)]
            dispatch := if order then .calling topic e else s.walkFrom topic true e }
        else { s with dispatch := s.walkFrom topic sent e } := by
  simp only [step] at h
  split at h
  · obtain ⟨r, hr, rfl⟩ := Option.map_eq_some'.mp h
    exact ⟨_, _, _, r, ‹_›, hr, rfl⟩
  · cases h

theorem step_resume (h : s.step order .resume = some s') :
    ∃ topic e, s.dispatch = .calling topic e ∧ s' = { s with dispatch := s.walkFrom topic true e } := by
  simp only [step] at h
  split at h
  · exact ⟨_, _, ‹_›, (Option.some.inj h).symm⟩
  · cases h

theorem step_finish (h : s.step order .finish = some s') :
    ∃ topic sent, s.dispatch = .walked topic sent ∧ s' = { s with
      dispatch := .idle
      calls := []
      delivered := s.delivered ++ [⟨topic, s.taken,
        if sent then s.calls else s.calls ++ (s.defaultHandler.map ((none, ·))).toList⟩] } := by
  simp only [step] at h
  split at h
  · exact ⟨_, _, ‹_›, (Option.some.inj h).symm⟩
  · cases h

theorem step_addRoute {topic : List UInt8} {callback : H}
    (h : s.step order (.addRoute topic callback) = some s') :
    s.dispatch.holdsLock = false ∧
      s' = { s with elems := elemsAddRoute topic callback s.fresh s.elems, fresh := s.fresh + 1 } := by
  simp only [step] at h
  split at h
  · cases h
  · exact ⟨Bool.eq_false_iff.mpr ‹_›, (Option.some.inj h).symm⟩

theorem step_deleteRoute {topic : List UInt8} (h : s.step order (.deleteRoute topic) = some s') :
    s.dispatch.holdsLock = false ∧ s' = { s with elems := elemsDeleteRoute topic s.elems } := by
  simp only [step] at h
  split at h
  · cases h
  · exact ⟨Bool.eq_false_iff.mpr ‹_›, (Option.some.inj h).symm⟩

/-- What every step keeps holds after every schedule. -/
theorem run_invariant {P : Router H → Prop} {acts : List (Action H)}
    (hstep : ∀ t t' act, P t → t.step order act = some t' → P t') (hs : P s)
    (h : run order acts s = some s') : P s' := by
  induction acts generalizing s with
  | nil => exact Option.some.inj h ▸ hs
  | cons act acts ih =>
    obtain ⟨t, ht, hrun⟩ := Option.bind_eq_some.mp h
    exact ih (hstep _ _ act hs ht) hrun

end Router

/-! ### No element is called twice for one message -/

/-- The elements whose callbacks were called, in order. -/
def callIds (calls : List (Option Nat × H)) : List Nat := calls.filterMap (·.1)

/-- The element identities are ordered, and the callbacks called for the message in hand came
from elements before the one the walk is at, in increasing order, as for every message done. -/
structure WalkInv (s : Router H) : Prop where
  elems : ElemsOrdered s.elems s.fresh
  calls : (callIds s.calls).Pairwise (· < ·)
  walking : ∀ topic sent e, s.dispatch = .walking topic sent e → ∀ i ∈ callIds s.calls, i < e
  calling : ∀ topic e, s.dispatch = .calling topic e → ∀ i ∈ callIds s.calls, i ≤ e
  delivered : ∀ d ∈ s.delivered, (callIds d.calls).Pairwise (· < ·)

namespace WalkInv

variable {order : Bool} {s s' : Router H}

theorem init (defaultHandler : Option H) : WalkInv (newRouter defaultHandler) :=
  ⟨⟨List.Pairwise.nil, fun _ h => nomatch h⟩, List.Pairwise.nil, (fun _ _ _ _ _ h => nomatch h),
    (fun _ _ _ _ h => nomatch h), fun _ h => nomatch h⟩

/-- Leaving element `e` with every call from an element up to `e`: the walk is at a later element,
or out of the loop. -/
theorem walkFrom_lt (hel : ElemsOrdered s.elems s.fresh) {calls : List (Option Nat × H)}
    {topic : List UInt8} {sent : Bool} {e : Nat} (hle : ∀ i ∈ callIds calls, i ≤ e) :
    ∀ topic' sent' e', s.walkFrom topic sent e = .walking topic' sent' e' →
      ∀ i ∈ callIds calls, i < e' := by
  intro topic' sent' e' hw i hi
  unfold Router.walkFrom at hw
  split at hw
  · cases hw
    exact Nat.lt_of_le_of_lt (hle i hi) (lt_nextElem hel.increasing ‹_›)
  · cases hw

/-- `e.Next()` never leaves the goroutine inside a callback. -/
theorem walkFrom_ne_calling (s : Router H) (topic : List UInt8) (sent : Bool) (e : Nat) :
    ∀ topic' e', s.walkFrom topic sent e ≠ .calling topic' e' := by
  intro topic' e' hc
  unfold Router.walkFrom at hc
  split at hc <;> cases hc

/-- With no call for the message in hand, only the element order and the messages done count. -/
theorem of_calls_nil (hel : ElemsOrdered s.elems s.fresh) (hcalls : s.calls = [])
    (hdel : ∀ d ∈ s.delivered, (callIds d.calls).Pairwise (· < ·)) : WalkInv s :=
  have hnil : ∀ i, i ∉ callIds s.calls := by simp [hcalls, callIds]
  ⟨hel, by simp [hcalls, callIds], (fun _ _ _ _ i hi => absurd hi (hnil i)),
    (fun _ _ _ i hi => absurd hi (hnil i)), hdel⟩

theorem step (hs : WalkInv s) {act : Router.Action H} (h : s.step order act = some s') :
    WalkInv s' := by
  cases act with
  | receive topic =>
    obtain ⟨-, rfl⟩ := Router.step_receive h
    exact of_calls_nil hs.elems rfl hs.delivered
  | visit =>
    obtain ⟨topic, sent, e, r, hd, -, rfl⟩ := Router.step_visit h
    have hlt := hs.walking topic sent e hd
    split
    · have hids : callIds (s.calls ++ [(some e, r.callback)]) = callIds s.calls ++ [e] := by
        simp [callIds]
      have hle : ∀ i ∈ callIds (s.calls ++ [(some e, r.callback)]), i ≤ e := by
        rw [hids]
        intro i hi
        rcases List.mem_append.mp hi with hi | hi
        · exact Nat.le_of_lt (hlt i hi)
        · exact Nat.le_of_eq (List.mem_singleton.mp hi)
      refine ⟨hs.elems, ?_, ?_, ?_, hs.delivered⟩
      · rw [hids]
        exact List.pairwise_append.mpr ⟨hs.calls, List.pairwise_singleton _ _,
          fun i hi j hj => List.mem_singleton.mp hj ▸ hlt i hi⟩
      · split
        · exact fun _ _ _ h => nomatch h
        · exact walkFrom_lt hs.elems hle
      · split
        · intro topic' e' hc
          cases hc
          exact hle
        · exact fun topic' e' hc => absurd hc (walkFrom_ne_calling s topic true e topic' e')
    · exact ⟨hs.elems, hs.calls, walkFrom_lt hs.elems fun i hi => Nat.le_of_lt (hlt i hi),
        fun topic' e' hc => absurd hc (walkFrom_ne_calling s topic sent e topic' e'), hs.delivered⟩
  | resume =>
    obtain ⟨topic, e, hd, rfl⟩ := Router.step_resume h
    exact ⟨hs.elems, hs.calls, walkFrom_lt hs.elems (hs.calling topic e hd),
      fun topic' e' hc => absurd hc (walkFrom_ne_calling s topic true e topic' e'), hs.delivered⟩
  | finish =>
    obtain ⟨topic, sent, -, rfl⟩ := Router.step_finish h
    refine of_calls_nil hs.elems rfl fun d hd => ?_
    rcases List.mem_append.mp hd with hd | hd
    · exact hs.delivered d hd
    · rw [List.mem_singleton.mp hd]
      split
      · exact hs.calls
      · cases s.defaultHandler <;> simpa [callIds] using hs.calls
  | addRoute topic callback =>
    obtain ⟨hl, rfl⟩ := Router.step_addRoute h
    exact ⟨hs.elems.addRoute topic callback, hs.calls, hs.walking, hs.calling, hs.delivered⟩
  | deleteRoute topic =>
    obtain ⟨hl, rfl⟩ := Router.step_deleteRoute h
    exact ⟨hs.elems.deleteRoute topic, hs.calls, hs.walking, hs.calling, hs.delivered⟩

end WalkInv

/-- In every interleaving of the dispatch loop with `addRoute` and `deleteRoute` calls, in
ordered and in concurrent mode, no message is delivered twice through the same element of the
route list. -/
theorem delivered_calls_nodup (order : Bool) (defaultHandler : Option H)
    (acts : List (Router.Action H)) (s : Router H)
    (h : Router.run order acts (newRouter defaultHandler) = some s) :
    ∀ d ∈ s.delivered, (d.calls.filterMap (·.1)).Nodup :=
  fun d hd => ((Router.run_invariant (fun _ _ _ hs ht => hs.step ht) (WalkInv.init defaultHandler)
    h).delivered d hd).imp Nat.ne_of_lt

/-- The schedule of `ordered_dispatch_skips_deleted`: `a/b` and `a/+`, a message on `a/b`, and the
first callback deleting `a/b`. -/
theorem delivered_calls_nodup_deleted :
    Router.run true [.addRoute [97, 47, 98] 1, .addRoute [97, 47, 43] 2, .receive [97, 47, 98],
        .visit, .deleteRoute [97, 47, 98], .resume, .finish] (newRouter (none : Option Nat)) =
      some ⟨[(1, ⟨[97, 47, 43], 2⟩)], 2, none, .idle, [⟨[97, 47, 98], 1⟩, ⟨[97, 47, 43], 2⟩], [],
        [⟨[97, 47, 98], [⟨[97, 47, 98], 1⟩, ⟨[97, 47, 43], 2⟩], [(some 0, 1)]⟩]⟩ ∧
    ∀ d ∈ [(⟨[97, 47, 98], [⟨[97, 47, 98], 1⟩, ⟨[97, 47, 43], 2⟩], [(some 0, 1)]⟩ : Delivery Nat)],
      (d.calls.filterMap (·.1)).Nodup :=
  have hrun : Router.run true [.addRoute [97, 47, 98] 1, .addRoute [97, 47, 43] 2,
      .receive [97, 47, 98], .visit, .deleteRoute [97, 47, 98], .resume, .finish]
      (newRouter (none : Option Nat)) =
      some ⟨[(1, ⟨[97, 47, 43], 2⟩)], 2, none, .idle, [⟨[97, 47, 98], 1⟩, ⟨[97, 47, 43], 2⟩], [],
        [⟨[97, 47, 98], [⟨[97, 47, 98], 1⟩, ⟨[97, 47, 43], 2⟩], [(some 0, 1)]⟩]⟩ :=
    rfl
  ⟨hrun, delivered_calls_nodup true none _ _ hrun⟩

/-! ### Concurrent mode delivers to exactly the covering routes -/

/-- The callbacks of the routes that cover `topic`, in list order. -/
def matchCalls (topic : List UInt8) (routes : List (Route H)) : List H :=
  (routes.filter (·.matchBytes topic)).map (·.callback)

/-- What `matchAndDispatch` is for, in its comment and in the spec: the callback of every route
that covers the topic, in list order, or the default handler when there is one and no route
covers it. -/
def dispatchSpec (routes : List (Route H)) (defaultHandler : Option H) (topic : List UInt8) :
    List H :=
  if (matchCalls topic routes).isEmpty then defaultHandler.toList else matchCalls topic routes

theorem matchCalls_take_succ (topic : List UInt8) {routes : List (Route H)} {k : Nat}
    {r : Route H} (hk : routes[k]? = some r) :
    matchCalls topic (routes.take (k + 1)) =
      matchCalls topic (routes.take k) ++ if r.matchBytes topic then [r.callback] else [] := by
  rw [matchCalls, matchCalls, List.take_succ, hk, List.filter_append]
  split <;> simp_all

/-- The invariant of concurrent-mode runs: the default handler is `defaultHandler`; during a walk
the list is the one the message was taken with, the walk is at position `k`, and the calls so far
are those of the covering routes before `k`; after the walk they are those of all covering
routes; the loop is never inside a callback; and every message done got `dispatchSpec`. -/
structure ConcurrentInv (defaultHandler : Option H) (s : Router H) : Prop where
  walk : WalkInv s
  default : s.defaultHandler = defaultHandler
  walking : ∀ topic sent e, s.dispatch = .walking topic sent e →
    s.elems.map Prod.snd = s.taken ∧ ∃ k, (s.elems.map (·.1))[k]? = some e ∧
      s.calls.map Prod.snd = matchCalls topic (s.taken.take k) ∧ sent = !s.calls.isEmpty
  walked : ∀ topic sent, s.dispatch = .walked topic sent →
    s.calls.map Prod.snd = matchCalls topic s.taken ∧ sent = !s.calls.isEmpty
  calling : ∀ topic e, s.dispatch ≠ .calling topic e
  delivered : ∀ d ∈ s.delivered, d.calls.map Prod.snd = dispatchSpec d.routes defaultHandler d.topic

namespace ConcurrentInv

variable {dh : Option H} {s s' : Router H}

theorem init (defaultHandler : Option H) : ConcurrentInv defaultHandler (newRouter defaultHandler) :=
  ⟨WalkInv.init defaultHandler, rfl, (fun _ _ _ h => nomatch h), (fun _ _ h => nomatch h),
    (fun _ _ h => nomatch h), fun _ h => nomatch h⟩

/-- Leaving position `k` of the walk with the calls `calls` of the covering routes up to `k`, and
`sent` telling whether there are any: the walk is at position `k + 1`, or out of the loop with
every covering route called. -/
theorem walkOn (hs : ConcurrentInv dh s) {topic : List UInt8} {sent : Bool} {e k : Nat}
    {calls : List (Option Nat × H)} (hw : WalkInv { s with calls, dispatch := s.walkFrom topic sent e })
    (hel : s.elems.map Prod.snd = s.taken)
    (hnext : nextElem e s.elems = (s.elems.map (·.1))[k + 1]?)
    (hc : calls.map Prod.snd = matchCalls topic (s.taken.take (k + 1)))
    (hsent : sent = !calls.isEmpty) :
    ConcurrentInv dh { s with calls, dispatch := s.walkFrom topic sent e } := by
  have hwf : s.walkFrom topic sent e = match (s.elems.map (·.1))[k + 1]? with
      | some e' => .walking topic sent e'
      | none => .walked topic sent := by
    rw [Router.walkFrom, hnext]
  refine ⟨hw, hs.default, fun t sn e' hd => ?_, fun t sn hd => ?_,
    fun t e' hd => WalkInv.walkFrom_ne_calling s topic sent e t e' hd, hs.delivered⟩
  · have hd' := hwf.symm.trans hd
    split at hd'
    · cases hd'
      exact ⟨hel, k + 1, ‹_›, hc, hsent⟩
    · cases hd'
  · have hd' := hwf.symm.trans hd
    split at hd'
    · cases hd'
    · cases hd'
      have hlen : s.taken.length ≤ k + 1 := by
        rw [← hel, List.length_map]
        exact (List.length_map _ _).symm.trans_le (List.getElem?_eq_none_iff.mp ‹_›)
      exact ⟨by rw [hc, List.take_of_length_le hlen], hsent⟩

theorem step (hs : ConcurrentInv dh s) {act : Router.Action H} (h : s.step false act = some s') :
    ConcurrentInv dh s' := by
  have hw := hs.walk.step h
  cases act with
  | receive topic =>
    obtain ⟨-, rfl⟩ := Router.step_receive h
    revert hw
    cases s.elems with
    | nil =>
      exact fun hw => ⟨hw, hs.default, (fun _ _ _ h => nomatch h),
        (fun _ _ h => by cases h; exact ⟨rfl, rfl⟩), (fun _ _ h => nomatch h), hs.delivered⟩
    | cons x xs =>
      exact fun hw => ⟨hw, hs.default, (fun _ _ _ h => by cases h; exact ⟨rfl, 0, List.getElem?_cons_zero, rfl, rfl⟩),
        (fun _ _ h => nomatch h), (fun _ _ h => nomatch h), hs.delivered⟩
  | visit =>
    obtain ⟨topic, sent, e, r, hd, hr, rfl⟩ := Router.step_visit h
    obtain ⟨hel, k, hk, hc, hsent⟩ := hs.walking topic sent e hd
    obtain ⟨x, hx, rfl⟩ := Option.map_eq_some'.mp (List.getElem?_map .. ▸ hk)
    obtain ⟨hl, hnext⟩ := lookup_nextElem_of_getElem hs.walk.elems.nodup hx
    obtain rfl : r = x.2 := Option.some.inj (hr.symm.trans hl)
    have htk : s.taken[k]? = some x.2 := by rw [← hel, List.getElem?_map, hx]; rfl
    have hstep := matchCalls_take_succ topic htk
    by_cases hm : x.2.matchBytes topic = true
    · rw [if_pos hm] at hw ⊢
      simp only [Bool.false_eq_true, ite_false] at hw ⊢
      exact hs.walkOn hw hel hnext (by rw [hstep, if_pos hm, ← hc, List.map_append]; rfl) (by simp)
    · rw [if_neg hm] at hw ⊢
      exact hs.walkOn hw hel hnext (by rw [hstep, if_neg hm, List.append_nil, hc]) hsent
  | resume =>
    obtain ⟨topic, e, hd, -⟩ := Router.step_resume h
    exact absurd hd (hs.calling topic e)
  | finish =>
    obtain ⟨topic, sent, hd, rfl⟩ := Router.step_finish h
    obtain ⟨hc, hsent⟩ := hs.walked topic sent hd
    refine ⟨hw, hs.default, (fun _ _ _ h => nomatch h), (fun _ _ h => nomatch h),
      (fun _ _ h => nomatch h), fun d hd' => ?_⟩
    rcases List.mem_append.mp hd' with hd' | hd'
    · exact hs.delivered d hd'
    · rw [List.mem_singleton.mp hd', dispatchSpec, ← hc, ← hs.default]
      cases hcalls : s.calls with
      | nil => cases s.defaultHandler <;> simp [hsent, hcalls]
      | cons c cs => simp [hsent, hcalls]
  | addRoute topic callback =>
    obtain ⟨hl, rfl⟩ := Router.step_addRoute h
    exact ⟨hw, hs.default, fun t sn e hd => absurd (hd ▸ hl) Bool.noConfusion, hs.walked,
      hs.calling, hs.delivered⟩
  | deleteRoute topic =>
    obtain ⟨hl, rfl⟩ := Router.step_deleteRoute h
    exact ⟨hw, hs.default, fun t sn e hd => absurd (hd ▸ hl) Bool.noConfusion, hs.walked,
      hs.calling, hs.delivered⟩

end ConcurrentInv

/-- In concurrent mode, in every interleaving of the dispatch loop with `addRoute` and
`deleteRoute`, every message the loop is done with went to the callbacks of exactly the routes
that covered its topic when the loop took it, in list order and once each, or to the default
handler when none covered it. -/
theorem concurrent_delivered_eq_spec (defaultHandler : Option H) (acts : List (Router.Action H))
    (s : Router H) (h : Router.run false acts (newRouter defaultHandler) = some s) :
    ∀ d ∈ s.delivered, d.calls.map Prod.snd = dispatchSpec d.routes defaultHandler d.topic :=
  (Router.run_invariant (fun _ _ _ hs ht => hs.step ht) (ConcurrentInv.init defaultHandler) h).delivered

/-- Concurrent mode with `a/b` and `a/+` and a message on `a/b`: both callbacks, in list order. -/
theorem concurrent_delivered_both_routes :
    Router.run false [.addRoute [97, 47, 98] 1, .addRoute [97, 47, 43] 2, .receive [97, 47, 98],
        .visit, .visit, .finish] (newRouter (none : Option Nat)) =
      some ⟨[(0, ⟨[97, 47, 98], 1⟩), (1, ⟨[97, 47, 43], 2⟩)], 2, none, .idle,
        [⟨[97, 47, 98], 1⟩, ⟨[97, 47, 43], 2⟩], [],
        [⟨[97, 47, 98], [⟨[97, 47, 98], 1⟩, ⟨[97, 47, 43], 2⟩], [(some 0, 1), (some 1, 2)]⟩]⟩ ∧
    ∀ d ∈ [(⟨[97, 47, 98], [⟨[97, 47, 98], 1⟩, ⟨[97, 47, 43], 2⟩], [(some 0, 1), (some 1, 2)]⟩ :
        Delivery Nat)], d.calls.map Prod.snd = dispatchSpec d.routes none d.topic :=
  have hrun : Router.run false [.addRoute [97, 47, 98] 1, .addRoute [97, 47, 43] 2,
      .receive [97, 47, 98], .visit, .visit, .finish] (newRouter (none : Option Nat)) =
      some ⟨[(0, ⟨[97, 47, 98], 1⟩), (1, ⟨[97, 47, 43], 2⟩)], 2, none, .idle,
        [⟨[97, 47, 98], 1⟩, ⟨[97, 47, 43], 2⟩], [],
        [⟨[97, 47, 98], [⟨[97, 47, 98], 1⟩, ⟨[97, 47, 43], 2⟩], [(some 0, 1), (some 1, 2)]⟩]⟩ :=
    rfl
  ⟨hrun, concurrent_delivered_eq_spec none _ _ hrun⟩

/-! ### Ordered mode: a route deleted during its callback ends the walk -/

/-- `e.Next()` on an element no longer in the list is `nil`: `Remove` clears its links. -/
theorem nextElem_eq_none {es : List (Nat × Route H)} {e : Nat} (he : e ∉ es.map (·.1)) :
    nextElem e es = none := by
  induction es with
  | nil => rfl
  | cons x xs ih =>
    rw [List.map_cons, List.mem_cons, not_or] at he
    rw [nextElem, if_neg fun hx => he.1 hx.symm, ih he.2]

/-- In ordered mode, in every interleaving from `newRouter`, with any default handler: once the
element whose callback runs has been removed from the list, by that callback or by another
goroutine, resuming ends the walk, and the message is delivered with the callbacks already called,
all from that element or before it. No element after it is called for the message, though one may
still be subscribed and cover the topic, where `dispatchSpec` asks for every covering route. -/
theorem ordered_dispatch_skips_deleted (defaultHandler : Option H) (acts : List (Router.Action H))
    (s : Router H) (topic : List UInt8) (e : Nat)
    (h : Router.run true acts (newRouter defaultHandler) = some s)
    (hc : s.dispatch = .calling topic e) (he : e ∉ s.elems.map (·.1)) :
    ∃ s', Router.run true [.resume, .finish] s = some s' ∧
      s'.delivered = s.delivered ++ [⟨topic, s.taken, s.calls⟩] ∧ ∀ i ∈ callIds s.calls, i ≤ e := by
  have hs := Router.run_invariant (fun _ _ _ hs ht => hs.step ht) (WalkInv.init defaultHandler) h
  refine ⟨{ s with
    dispatch := .idle
    calls := []
    delivered := s.delivered ++ [⟨topic, s.taken, s.calls⟩] }, ?_, rfl, hs.calling topic e hc⟩
  simp [Router.run, Router.step, hc, Router.walkFrom, nextElem_eq_none he]

/-- `a/b` then `a/+`, a message on `a/b`, and the callback of `a/b` deleting its route: the walk
ends after that callback, and `a/+`, still subscribed and covering `a/b`, is not called. -/
theorem ordered_dispatch_skips_a_plus :
    ∃ s, Router.run true [.addRoute [97, 47, 98] 1, .addRoute [97, 47, 43] 2, .receive [97, 47, 98],
        .visit, .deleteRoute [97, 47, 98]] (newRouter (none : Option Nat)) = some s ∧
      s.calls.map Prod.snd = [1] ∧ s.elems.map Prod.snd = [⟨[97, 47, 43], 2⟩] ∧
      ∃ s', Router.run true [.resume, .finish] s = some s' ∧
        s'.delivered = s.delivered ++ [⟨[97, 47, 98], s.taken, s.calls⟩] ∧
        ∀ i ∈ callIds s.calls, i ≤ 0 :=
  ⟨_, rfl, rfl, rfl, ordered_dispatch_skips_deleted none [.addRoute [97, 47, 98] 1,
    .addRoute [97, 47, 43] 2, .receive [97, 47, 98], .visit, .deleteRoute [97, 47, 98]] _
    [97, 47, 98] 0 rfl rfl (by decide)⟩

end PahoMqtt
