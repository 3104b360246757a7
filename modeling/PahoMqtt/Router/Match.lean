import Mathlib.Data.List.Basic

/-!
# Topic filter matching

`routeIncludesTopic` (`part_001:32–59`) decides whether a subscription filter covers a topic
name with one byte walk over both strings. Beside it stands the legible MQTT reading: split both
strings at `/` and match level by level, `+` taking one level and a final `#` the rest, the parent
level included. On valid filters the walk agrees with the level reading except when the filter
has more levels than the topic: there the walk answers `false`, so `a/#` does not cover `a`.
-/

namespace PahoMqtt

/-- The level separator `'/'`. -/
def slash : UInt8 := 47
/-- The single-level wildcard `'+'`. -/
def plus : UInt8 := 43
/-- The multi-level wildcard `'#'`. -/
def hash : UInt8 := 35

@[simp] theorem slash_ne_hash : slash ≠ hash := by decide
@[simp] theorem slash_ne_plus : slash ≠ plus := by decide
@[simp] theorem plus_ne_hash : plus ≠ hash := by decide
@[simp] theorem hash_ne_plus : hash ≠ plus := by decide

/-! ### The byte walk -/

/-- The `for rp` loop of `routeIncludesTopic`, from route position `rp` and topic position `tp`
given as the suffixes still to read: `#` accepts, `+` skips the topic to its next `/`, any other
byte must equal the topic byte, and at the end of the route the topic must be used up. -/
def routeIncludesTopicLoop : List UInt8 → List UInt8 → Bool
  | [], topic => topic.isEmpty
  | r :: route, topic =>
    if r = hash then true
    else if r = plus then routeIncludesTopicLoop route (topic.dropWhile (· != slash))
    else match topic with
      | [] => false
      | t :: topic => if r != t then false else routeIncludesTopicLoop route topic

/-- `routeIncludesTopic(route, topic)`: the empty cases first, then the byte walk. -/
def routeIncludesTopic (route topic : List UInt8) : Bool :=
  if route.length = 0 then topic.length = 0
  else if topic.length = 0 then route.length = 1 && route.head? == some hash
  else routeIncludesTopicLoop route topic

/-! ### The level reading -/

/-- The levels of a filter or topic, `strings.Split(s, "/")`: never empty. -/
def levels (s : List UInt8) : List (List UInt8) := s.splitOn slash

/-- Level-wise MQTT matching: `#` covers whatever remains, the parent level included; `+` covers
exactly one level, possibly empty; a literal level covers only an identical level. -/
def matchLevels : List (List UInt8) → List (List UInt8) → Bool
  | [], ts => ts.isEmpty
  | f :: fs, ts => f = [hash] ||
    match ts with
    | [] => false
    | t :: ts => (f = [plus] || f = t) && matchLevels fs ts

/-- Whether filter `f` covers topic `t` under MQTT level semantics. -/
def topicMatches (f t : List UInt8) : Bool := matchLevels (levels f) (levels t)

/-- Every level is `+`, a `#` that closes the filter, or a literal free of both wildcards. -/
def validFilterLevels : List (List UInt8) → Bool
  | [] => true
  | l :: ls =>
    (l = [plus] || (ls.isEmpty && l = [hash]) || (!l.contains plus && !l.contains hash)) &&
      validFilterLevels ls

/-- A valid topic filter: non-empty, `+` only as a whole level, `#` only as the last level. -/
def validFilter (f : List UInt8) : Bool := !f.isEmpty && validFilterLevels (levels f)

/-- A valid topic name: non-empty and free of wildcards. -/
def validTopic (t : List UInt8) : Bool := !t.isEmpty && !t.contains plus && !t.contains hash

/-! ### Levels of a byte string -/

private theorem not_beq_slash {s : List UInt8} (h : slash ∉ s) : ∀ x ∈ s, ¬(x == slash) = true :=
  fun _ hx hp => h (beq_iff_eq.mp hp ▸ hx)

theorem levels_of_not_mem {s : List UInt8} (h : slash ∉ s) : levels s = [s] :=
  List.splitOnP_eq_single _ _ (not_beq_slash h)

theorem levels_append_slash {l : List UInt8} (h : slash ∉ l) (s : List UInt8) :
    levels (l ++ slash :: s) = l :: levels s :=
  List.splitOnP_first (· == slash) _ (not_beq_slash h) _ (beq_self_eq_true _) _

theorem levels_ne_nil (s : List UInt8) : levels s ≠ [] := List.splitOnP_ne_nil _ _

/-- Every byte string is a first level `s₁` with its remaining levels `ls`, followed either by
the end (no further level) or by a `/` and a shorter string whose levels are `ls`. -/
theorem levels_cases (s : List UInt8) : ∃ s₁ r ls, s = s₁ ++ r ∧ slash ∉ s₁ ∧
    levels s = s₁ :: ls ∧
    ((r = [] ∧ ls = []) ∨ ∃ s', r = slash :: s' ∧ ls = levels s' ∧ s'.length < s.length) := by
  induction s with
  | nil => exact ⟨[], [], [], rfl, List.not_mem_nil _, rfl, .inl ⟨rfl, rfl⟩⟩
  | cons c s ih =>
    by_cases hc : c = slash
    · subst hc
      exact ⟨[], slash :: s, levels s, rfl, List.not_mem_nil _,
        levels_append_slash (List.not_mem_nil _) s, .inr ⟨s, rfl, rfl, Nat.lt_succ_self _⟩⟩
    · obtain ⟨s₁, r, ls, rfl, h₁, -, hr⟩ := ih
      have h₁' : slash ∉ c :: s₁ := by simp [h₁, Ne.symm hc]
      refine ⟨c :: s₁, r, ls, rfl, h₁', ?_, ?_⟩
      · rcases hr with ⟨rfl, rfl⟩ | ⟨s', rfl, rfl, -⟩
        · simpa using levels_of_not_mem h₁'
        · exact levels_append_slash h₁' s'
      · rcases hr with hr | ⟨s', rfl, hls, hlt⟩
        · exact .inl hr
        · exact .inr ⟨s', rfl, hls, by simp at hlt ⊢; omega⟩

/-! ### The walk, one level at a time -/

@[simp] theorem routeIncludesTopicLoop_nil (topic : List UInt8) :
    routeIncludesTopicLoop [] topic = topic.isEmpty := rfl

@[simp] theorem routeIncludesTopicLoop_hash (route topic : List UInt8) :
    routeIncludesTopicLoop (hash :: route) topic = true := rfl

@[simp] theorem routeIncludesTopicLoop_slash_nil (route : List UInt8) :
    routeIncludesTopicLoop (slash :: route) [] = false := rfl

/-- Two separators are passed together. -/
@[simp] theorem routeIncludesTopicLoop_slash_slash (route topic : List UInt8) :
    routeIncludesTopicLoop (slash :: route) (slash :: topic) = routeIncludesTopicLoop route topic :=
  rfl

/-- A literal route level against one topic level: the walk compares them byte by byte and goes
on past both only when they are equal. -/
theorem routeIncludesTopicLoop_literal {l t₁ : List UInt8} (rest trest : List UInt8)
    (hs : slash ∉ l) (hp : plus ∉ l) (hh : hash ∉ l) (ht : slash ∉ t₁)
    (hr : rest = [] ∨ ∃ r, rest = slash :: r) (htr : trest = [] ∨ ∃ r, trest = slash :: r) :
    routeIncludesTopicLoop (l ++ rest) (t₁ ++ trest) =
      (decide (l = t₁) && routeIncludesTopicLoop rest trest) := by
  induction l generalizing t₁ with
  | nil =>
    cases t₁ with
    | nil => simp
    | cons c t₁ =>
      have hc : slash ≠ c := fun h => ht (h ▸ List.mem_cons_self _ _)
      rcases hr with rfl | ⟨r, rfl⟩ <;> simp [routeIncludesTopicLoop, hc]
  | cons a l ih =>
    simp only [List.mem_cons, not_or] at hs hp hh
    have ha : ¬a = hash ∧ ¬a = plus ∧ ¬a = slash := ⟨Ne.symm hh.1, Ne.symm hp.1, Ne.symm hs.1⟩
    cases t₁ with
    | nil =>
      rcases htr with rfl | ⟨r, rfl⟩ <;> simp [routeIncludesTopicLoop, ha]
    | cons c t₁ =>
      simp only [List.mem_cons, not_or] at ht
      by_cases hac : a = c
      · subst hac
        simp [routeIncludesTopicLoop, ha, ih hs.2 hp.2 hh.2 ht.2]
      · simp [routeIncludesTopicLoop, ha, hac]

/-- A `+` route level skips exactly one topic level. -/
theorem routeIncludesTopicLoop_plus {t₁ : List UInt8} (rest trest : List UInt8) (ht : slash ∉ t₁)
    (htr : trest = [] ∨ ∃ r, trest = slash :: r) :
    routeIncludesTopicLoop (plus :: rest) (t₁ ++ trest) = routeIncludesTopicLoop rest trest := by
  have hskip : ∀ a ∈ t₁, (a != slash) = true := fun a ha => bne_iff_ne.mpr fun h => ht (h ▸ ha)
  have hend : trest.dropWhile (· != slash) = trest := by
    rcases htr with rfl | ⟨r, rfl⟩ <;> simp
  simp [routeIncludesTopicLoop, List.dropWhile_append_of_pos hskip, hend]

/-- One filter level other than `#` against one topic level. -/
theorem routeIncludesTopicLoop_level {l t₁ : List UInt8} (rest trest : List UInt8)
    (hs : slash ∉ l) (hl : l = [plus] ∨ (plus ∉ l ∧ hash ∉ l)) (ht : slash ∉ t₁)
    (hr : rest = [] ∨ ∃ r, rest = slash :: r) (htr : trest = [] ∨ ∃ r, trest = slash :: r) :
    routeIncludesTopicLoop (l ++ rest) (t₁ ++ trest) =
      ((decide (l = [plus]) || decide (l = t₁)) && routeIncludesTopicLoop rest trest) := by
  rcases hl with rfl | ⟨hp, hh⟩
  · simpa using routeIncludesTopicLoop_plus rest trest ht htr
  · have hnp : l ≠ [plus] := fun h => hp (h ▸ List.mem_singleton_self _)
    simp [routeIncludesTopicLoop_literal rest trest hs hp hh ht hr htr, hnp]

/-! ### The level reading, one level at a time -/

@[simp] theorem matchLevels_nil (ts : List (List UInt8)) : matchLevels [] ts = ts.isEmpty := rfl

@[simp] theorem matchLevels_hash (fs ts : List (List UInt8)) :
    matchLevels ([hash] :: fs) ts = true := by
  simp [matchLevels]

theorem matchLevels_cons_cons {f : List UInt8} (fs : List (List UInt8)) (t : List UInt8)
    (ts : List (List UInt8)) (h : f ≠ [hash]) :
    matchLevels (f :: fs) (t :: ts) =
      ((decide (f = [plus]) || decide (f = t)) && matchLevels fs ts) := by
  simp [matchLevels, h]

theorem validFilterLevels_cons {l : List UInt8} {ls : List (List UInt8)} :
    validFilterLevels (l :: ls) = true ↔
      (l = [plus] ∨ (ls = [] ∧ l = [hash]) ∨ (plus ∉ l ∧ hash ∉ l)) ∧
        validFilterLevels ls = true := by
  simp [validFilterLevels, or_assoc]

/-! ### The walk against the level reading -/

/-- On a filter whose levels are valid, the byte walk is the level reading restricted to filters
with no more levels than the topic: the walk never accepts a topic that ends before the filter. -/
theorem routeIncludesTopicLoop_eq_matchLevels (f t : List UInt8)
    (hf : validFilterLevels (levels f) = true) :
    routeIncludesTopicLoop f t =
      (matchLevels (levels f) (levels t) && decide ((levels f).length ≤ (levels t).length)) := by
  obtain ⟨n, hn⟩ : ∃ n, f.length = n := ⟨_, rfl⟩
  induction n using Nat.strong_induction_on generalizing f t with
  | _ n ih =>
  obtain ⟨t₁, trest, tl, rfl, ht₁, htl, htr⟩ := levels_cases t
  have htr' : trest = [] ∨ ∃ r, trest = slash :: r := by
    rcases htr with ⟨rfl, -⟩ | ⟨t', rfl, -⟩
    exacts [.inl rfl, .inr ⟨t', rfl⟩]
  -- past a `/`, the filter's remaining levels meet the topic's remaining levels
  have hrest : ∀ f', f'.length < n → validFilterLevels (levels f') = true →
      routeIncludesTopicLoop (slash :: f') trest =
        (matchLevels (levels f') tl && decide ((levels f').length ≤ tl.length)) := by
    intro f' hlt hv
    rcases htr with ⟨rfl, rfl⟩ | ⟨t', rfl, rfl, -⟩
    · simp [levels_ne_nil]
    · rw [routeIncludesTopicLoop_slash_slash, ih _ hlt f' t' hv rfl]
  obtain ⟨l, frest, fl, rfl, hl, hfl, hfr⟩ := levels_cases f
  rw [hfl, htl]
  rw [hfl, validFilterLevels_cons] at hf
  rcases hfr with ⟨rfl, rfl⟩ | ⟨f', rfl, rfl, hlen⟩
  · by_cases hh : l = [hash]
    · subst hh; simp
    have hl' : l = [plus] ∨ (plus ∉ l ∧ hash ∉ l) :=
      hf.1.imp_right (Or.resolve_left · fun h => hh h.2)
    rw [routeIncludesTopicLoop_level [] trest hl hl' ht₁ (.inl rfl) htr',
      matchLevels_cons_cons _ _ _ hh]
    rcases htr with ⟨rfl, rfl⟩ | ⟨t', rfl, rfl, -⟩ <;> simp [levels_ne_nil]
  · have hl' : l = [plus] ∨ (plus ∉ l ∧ hash ∉ l) := by simpa [levels_ne_nil] using hf.1
    have hh : l ≠ [hash] := by rintro rfl; simp at hl'
    rw [routeIncludesTopicLoop_level (slash :: f') trest hl hl' ht₁ (.inr ⟨f', rfl⟩) htr',
      hrest f' (by omega) hf.2, matchLevels_cons_cons _ _ _ hh]
    simp [Bool.and_assoc]

/-- On a filter with valid levels and a non-empty topic, `routeIncludesTopic` is MQTT matching
restricted to filters with no more levels than the topic. -/
theorem routeIncludesTopic_eq_topicMatches (f t : List UInt8)
    (hf : validFilterLevels (levels f) = true) (ht : t ≠ []) :
    routeIncludesTopic f t =
      (topicMatches f t && decide ((levels f).length ≤ (levels t).length)) := by
  rw [routeIncludesTopic, topicMatches, ← routeIncludesTopicLoop_eq_matchLevels f t hf]
  cases f <;> simp [ht]

/-- A filter without wildcards covers exactly itself. -/
theorem routeIncludesTopicLoop_of_literal {f : List UInt8} (t : List UInt8) (hp : plus ∉ f)
    (hh : hash ∉ f) : routeIncludesTopicLoop f t = decide (f = t) := by
  induction f generalizing t with
  | nil => cases t <;> rfl
  | cons a f ih =>
    simp only [List.mem_cons, not_or] at hp hh
    have ha : ¬a = hash ∧ ¬a = plus := ⟨Ne.symm hh.1, Ne.symm hp.1⟩
    cases t with
    | nil => simp [routeIncludesTopicLoop, ha]
    | cons c t =>
      by_cases hac : a = c
      · subst hac; simp [routeIncludesTopicLoop, ha, ih t hp.2 hh.2]
      · simp [routeIncludesTopicLoop, ha, hac]

theorem routeIncludesTopic_of_literal {f : List UInt8} (t : List UInt8) (hp : plus ∉ f)
    (hh : hash ∉ f) : routeIncludesTopic f t = decide (f = t) := by
  rw [routeIncludesTopic, routeIncludesTopicLoop_of_literal t hp hh]
  cases f with
  | nil => cases t <;> rfl
  | cons a f =>
    have ha : a ≠ hash := fun h => hh (h ▸ List.mem_cons_self _ _)
    cases t <;> simp [ha]

/-- `+/#` against `x`: a valid filter, a non-empty topic, and the walk against the levels. -/
theorem routeIncludesTopic_plus_hash : validFilterLevels (levels [43, 47, 35]) = true ∧
    [120] ≠ ([] : List UInt8) ∧
    routeIncludesTopic [43, 47, 35] [120] =
      (topicMatches [43, 47, 35] [120] &&
        decide ((levels [43, 47, 35]).length ≤ (levels [120]).length)) :=
  ⟨by decide, by decide, routeIncludesTopic_eq_topicMatches _ _ (by decide) (by decide)⟩

/-- `a/#` against `a`: a valid filter and topic that MQTT matches through the parent level, and
that `routeIncludesTopic` rejects. -/
theorem routeIncludesTopic_misses_parent_level :
    validFilter [97, 47, 35] = true ∧ validTopic [97] = true ∧
      topicMatches [97, 47, 35] [97] = true ∧ routeIncludesTopic [97, 47, 35] [97] = false := by
  decide

end PahoMqtt
