import Mathlib.Data.List.Nodup
import PahoMqtt.Router.Match

/-!
# The route list

`router.addRoute` and `router.deleteRoute` (`part_001:90–114`) walk the route list and act on the
first route whose `route.match` accepts the given filter. `route.match` is byte equality or
`routeIncludesTopic`, so an earlier wildcard filter that covers the new filter, read as a topic,
is selected in its place: `addRoute("a/b", cb)` after `addRoute("a/+", cb₀)` gives `a/+` the
callback `cb` and adds no route for `a/b`. The reference model selects by byte equality. Both keep
the filters of the list pairwise distinct, and while no stored filter has a wildcard they are the
same function.
-/

namespace PahoMqtt

/-- A `route`: the bytes of a subscription filter and the handler for the topics it covers. The
handler is a parameter: the router only stores, replaces and drops it. -/
structure Route (Handler : Type) where
  topicBytes : List UInt8
  callback : Handler
  deriving DecidableEq, Repr

variable {H : Type}

/-- `route.match(topic)` (`part_001:63–65`): identical bytes, or a filter that covers `topic`. -/
def Route.matchTopic (r : Route H) (topic : List UInt8) : Bool :=
  r.topicBytes == topic || routeIncludesTopic r.topicBytes topic

/-- The loop of `addRoute`, for any way `hit` of selecting a route: the first selected route takes
the new callback; with none selected, `⟨topic, callback⟩` goes at the back. -/
def replaceOrAppend (hit : Route H → Bool) (topic : List UInt8) (callback : H) :
    List (Route H) → List (Route H)
  | [] => [⟨topic, callback⟩]
  | r :: routes =>
    if hit r then { r with callback := callback } :: routes
    else r :: replaceOrAppend hit topic callback routes

/-- `router.addRoute(topic, callback)`. -/
def addRoute (topic : List UInt8) (callback : H) (routes : List (Route H)) : List (Route H) :=
  replaceOrAppend (·.matchTopic topic) topic callback routes

/-- `router.deleteRoute(topic)`: drop the first route whose `match` accepts `topic`. -/
def deleteRoute (topic : List UInt8) (routes : List (Route H)) : List (Route H) :=
  routes.eraseP (·.matchTopic topic)

/-- The reference `addRoute`: replace the callback of the route with identical filter bytes, or
append. -/
def addRouteSpec (topic : List UInt8) (callback : H) (routes : List (Route H)) : List (Route H) :=
  replaceOrAppend (·.topicBytes == topic) topic callback routes

/-- The reference `deleteRoute`: drop the route with identical filter bytes. -/
def deleteRouteSpec (topic : List UInt8) (routes : List (Route H)) : List (Route H) :=
  routes.eraseP (·.topicBytes == topic)

/-- A call on the router's route list. -/
inductive RouteOp (H : Type)
  | addRoute (topic : List UInt8) (callback : H)
  | deleteRoute (topic : List UInt8)
  deriving DecidableEq, Repr

/-- The route list after a sequence of calls, each made under the router's lock. -/
def runRouteOps : List (RouteOp H) → List (Route H) → List (Route H)
  | [], routes => routes
  | .addRoute topic callback :: ops, routes => runRouteOps ops (addRoute topic callback routes)
  | .deleteRoute topic :: ops, routes => runRouteOps ops (deleteRoute topic routes)

/-- The reference route list after a sequence of calls. -/
def runRouteOpsSpec : List (RouteOp H) → List (Route H) → List (Route H)
  | [], routes => routes
  | .addRoute topic callback :: ops, routes => runRouteOpsSpec ops (addRouteSpec topic callback routes)
  | .deleteRoute topic :: ops, routes => runRouteOpsSpec ops (deleteRouteSpec topic routes)

/-! ### Filters of the list -/

/-- The filters after `replaceOrAppend`: unchanged when a route was selected, else one more at the
back. -/
theorem filters_replaceOrAppend (hit : Route H → Bool) (topic : List UInt8) (callback : H)
    (routes : List (Route H)) :
    (replaceOrAppend hit topic callback routes).map (·.topicBytes) =
      if routes.any hit then routes.map (·.topicBytes) else routes.map (·.topicBytes) ++ [topic] := by
  induction routes with
  | nil => rfl
  | cons r routes ih => by_cases h : hit r <;> simp [replaceOrAppend, h, ih]; split <;> rfl

/-- Any selection that takes a route with identical filter bytes keeps the filters distinct. -/
theorem nodup_filters_replaceOrAppend {hit : Route H → Bool} {topic : List UInt8}
    (hhit : ∀ r, r.topicBytes = topic → hit r = true) (callback : H) {routes : List (Route H)}
    (hnd : (routes.map (·.topicBytes)).Nodup) :
    ((replaceOrAppend hit topic callback routes).map (·.topicBytes)).Nodup := by
  rw [filters_replaceOrAppend]
  split
  · exact hnd
  · rename_i hnone
    refine hnd.append (List.nodup_singleton _) ?_
    simp only [List.disjoint_singleton, List.mem_map, not_exists, not_and]
    intro r hr he
    exact hnone (List.any_eq_true.mpr ⟨r, hr, hhit r he⟩)

theorem nodup_filters_eraseP (hit : Route H → Bool) {routes : List (Route H)}
    (hnd : (routes.map (·.topicBytes)).Nodup) : ((routes.eraseP hit).map (·.topicBytes)).Nodup :=
  ((List.eraseP_sublist routes).map _).nodup hnd

/-- Whatever the calls, `addRoute` and `deleteRoute` never leave two routes with one filter. -/
theorem nodup_filters_runRouteOps (ops : List (RouteOp H)) {routes : List (Route H)}
    (hnd : (routes.map (·.topicBytes)).Nodup) : ((runRouteOps ops routes).map (·.topicBytes)).Nodup := by
  induction ops generalizing routes with
  | nil => exact hnd
  | cons op ops ih =>
    cases op with
    | addRoute topic callback =>
      exact ih (nodup_filters_replaceOrAppend (fun r h => by simp [Route.matchTopic, h]) callback hnd)
    | deleteRoute topic => exact ih (nodup_filters_eraseP _ hnd)

/-- `a/+`, then `a/b` (which `a/+` takes), then deleting `a/b`: one filter throughout. -/
theorem nodup_filters_covered_filter :
    ((runRouteOps [.addRoute [97, 47, 43] 1, .addRoute [97, 47, 98] 2, .deleteRoute [97, 47, 98]]
      ([] : List (Route Nat))).map (·.topicBytes)).Nodup :=
  nodup_filters_runRouteOps _ List.nodup_nil

/-! ### Without wildcards the router is the reference model -/

/-- On a route whose filter has no wildcards, `match` is byte equality. -/
theorem Route.matchTopic_of_literal {r : Route H} (hp : plus ∉ r.topicBytes)
    (hh : hash ∉ r.topicBytes) (topic : List UInt8) :
    r.matchTopic topic = (r.topicBytes == topic) := by
  simp [Route.matchTopic, routeIncludesTopic_of_literal topic hp hh]

theorem replaceOrAppend_congr {hit hit' : Route H → Bool} (topic : List UInt8) (callback : H)
    {routes : List (Route H)} (h : ∀ r ∈ routes, hit r = hit' r) :
    replaceOrAppend hit topic callback routes = replaceOrAppend hit' topic callback routes := by
  induction routes with
  | nil => rfl
  | cons r routes ih =>
    simp only [List.mem_cons, forall_eq_or_imp] at h
    simp [replaceOrAppend, h.1, ih h.2]

private theorem eraseP_congr {hit hit' : Route H → Bool} {routes : List (Route H)}
    (h : ∀ r ∈ routes, hit r = hit' r) : routes.eraseP hit = routes.eraseP hit' := by
  induction routes with
  | nil => rfl
  | cons r routes ih =>
    simp only [List.mem_cons, forall_eq_or_imp] at h
    simp [List.eraseP_cons, h.1, ih h.2]

/-- A route after `replaceOrAppend` has a filter that was there before, or the new one. -/
theorem mem_replaceOrAppend {hit : Route H → Bool} {topic : List UInt8} {callback : H}
    {routes : List (Route H)} {r : Route H} (hr : r ∈ replaceOrAppend hit topic callback routes) :
    (∃ r' ∈ routes, r'.topicBytes = r.topicBytes) ∨ r.topicBytes = topic := by
  have hf := List.mem_map_of_mem (·.topicBytes) hr
  rw [filters_replaceOrAppend] at hf
  split at hf <;> simp_all [List.mem_map]

/-- While no filter stored or added carries a wildcard, the route list the router keeps is the
reference model's, whatever the calls. -/
theorem runRouteOps_eq_spec (ops : List (RouteOp H)) (routes : List (Route H))
    (hops : ∀ topic callback, RouteOp.addRoute topic callback ∈ ops → plus ∉ topic ∧ hash ∉ topic)
    (hroutes : ∀ r ∈ routes, plus ∉ r.topicBytes ∧ hash ∉ r.topicBytes) :
    runRouteOps ops routes = runRouteOpsSpec ops routes := by
  induction ops generalizing routes with
  | nil => rfl
  | cons op ops ih =>
    have hsel : ∀ topic, ∀ r ∈ routes, r.matchTopic topic = (r.topicBytes == topic) :=
      fun topic r hr => Route.matchTopic_of_literal (hroutes r hr).1 (hroutes r hr).2 topic
    have hops' : ∀ topic callback, RouteOp.addRoute topic callback ∈ ops →
        plus ∉ topic ∧ hash ∉ topic := fun t c h => hops t c (List.mem_cons_of_mem _ h)
    cases op with
    | addRoute topic callback =>
      have hnew := hops topic callback (List.mem_cons_self _ _)
      rw [runRouteOps, runRouteOpsSpec, addRoute, addRouteSpec,
        replaceOrAppend_congr topic callback (hsel topic)]
      refine ih _ hops' fun r hr => ?_
      rcases mem_replaceOrAppend hr with ⟨r', hr', he⟩ | he
      · exact he ▸ hroutes r' hr'
      · exact he ▸ hnew
    | deleteRoute topic =>
      rw [runRouteOps, runRouteOpsSpec, deleteRoute, deleteRouteSpec, eraseP_congr (hsel topic)]
      exact ih _ hops' fun r hr => hroutes r (List.mem_of_mem_eraseP hr)

/-- `a/b`, `a/c`, `a/b` again, and a delete by the wildcard `a/+`, which removes nothing. -/
theorem runRouteOps_literal_filters :
    runRouteOps [.addRoute [97, 47, 98] 1, .addRoute [97, 47, 99] 2, .addRoute [97, 47, 98] 3,
        .deleteRoute [97, 47, 43]] ([] : List (Route Nat)) =
      runRouteOpsSpec [.addRoute [97, 47, 98] 1, .addRoute [97, 47, 99] 2, .addRoute [97, 47, 98] 3,
        .deleteRoute [97, 47, 43]] [] :=
  runRouteOps_eq_spec _ _ (fun topic callback h => by
    simp only [List.mem_cons, RouteOp.addRoute.injEq, reduceCtorEq, List.mem_nil_iff,
      or_false] at h
    rcases h with ⟨rfl, -⟩ | ⟨rfl, -⟩ | ⟨rfl, -⟩ <;> decide) (by simp)

/-- `a/+` then `a/b`: the router gives `a/+` the second callback and has no route for `a/b`; the
reference model keeps both routes. -/
theorem addRoute_covered_filter :
    runRouteOps [.addRoute [97, 47, 43] 1, .addRoute [97, 47, 98] 2] [] = [⟨[97, 47, 43], 2⟩] ∧
      runRouteOpsSpec [.addRoute [97, 47, 43] 1, .addRoute [97, 47, 98] 2] [] =
        [⟨[97, 47, 43], 1⟩, ⟨[97, 47, 98], (2 : Nat)⟩] := by
  decide

end PahoMqtt
