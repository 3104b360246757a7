import Mathlib.Data.List.Perm.Basic
import PahoMqtt.Net.Logic

/-!
# Byte slice pools

`src/unnamed/part_000`. Slices of up to `MAX_SLICE_SIZE` bytes live in `sliceHolder`s; a free
holder waits in `byteSlicePools[k]`, where `k` is the length of its slice; a `ByteSlicePool`
records the holders it handed out in the first `numPooledSlices` entries of `pooledSlices`, and
`Release` puts them back on the free lists. Each `sync.Pool` is a multiset whose `Get` returns
any element or nothing.

Over every sequence of `getByteSlice` and `Release` calls on any number of pools, every
`getByteSlice(size)` returns a slice of length `size`, no index is out of range, every holder on
`byteSlicePools[k]` has a slice of length `k`, and every holder is in exactly one place: on one
free list, or held by one pool, once.
-/

namespace PahoMqtt

open Packets

/-- `MAX_SLICE_SIZE` (`part_000:8`). -/
def MAX_SLICE_SIZE : Nat := 256

/-- `MAX_POOLED_SLICES` (`part_000:9`). -/
def MAX_POOLED_SLICES : Nat := 256

/-- `Get` on a `sync.Pool` taken as a multiset: the object at the position the runtime picks,
taken out, or `nil` when it picks none or a position past the end. -/
def poolGet {α : Type} (pool : List α) : Option Nat → Option α × List α
  | some i =>
    match pool[i]? with
    | some a => (some a, pool.eraseIdx i)
    | none => (none, pool)
  | none => (none, pool)

/-- A `ByteSlicePool` (`part_000:18–21`): the array `pooledSlices` of holder addresses, `none`
for `nil`, and `numPooledSlices`. -/
structure ByteSlicePool where
  pooledSlices : List (Option Nat)
  numPooledSlices : Nat
  deriving DecidableEq, Repr

/-- The zero `ByteSlicePool`, as in a new `FixedHeader` or `&ByteSlicePool{}`. -/
def ByteSlicePool.zero : ByteSlicePool := ⟨List.replicate MAX_POOLED_SLICES none, 0⟩

/-- The holders a pool records: its first `numPooledSlices` entries. -/
def ByteSlicePool.held (pool : ByteSlicePool) : List (Option Nat) :=
  pool.pooledSlices.take pool.numPooledSlices

/-- The slice pools: each `sliceHolder` by address, with the length of its slice (its bytes are
written before they are read); `byteSlicePools`, a free list per slice length; every
`ByteSlicePool` by address; and `objectPools`, where `Release` puts its pool. -/
structure Slices where
  holders : List Nat
  byteSlicePools : List (List Nat)
  pools : List ByteSlicePool
  objectPools : List Nat
  deriving DecidableEq, Repr

/-- Before any slice is asked for: `MAX_SLICE_SIZE + 1` empty free lists (`part_000:12`). -/
def Slices.init : Slices := ⟨[], List.replicate (MAX_SLICE_SIZE + 1) [], [], []⟩

namespace Slices

/-- `pool.getByteSlice(size)` (`part_000:34–51`): the slices and the pool after, and the length of
the slice returned. Above `MAX_SLICE_SIZE`, or with `MAX_POOLED_SLICES` slices held, a fresh
slice bypasses the pools; otherwise the holder `byteSlicePools[size].Get()` returns, or a new one
with a fresh slice, is recorded at `pooledSlices[numPooledSlices]`. -/
def getByteSlice (s : Slices) (pool : ByteSlicePool) (size : Nat) (pick : Option Nat) :
    Except Fault (Slices × ByteSlicePool × Nat) :=
  if size > MAX_SLICE_SIZE then .ok (s, pool, size)
  else if pool.numPooledSlices = MAX_POOLED_SLICES then .ok (s, pool, size)
  else
    match s.byteSlicePools[size]? with
    | none => .error indexOutOfRange
    | some free =>
      let (got, free) := poolGet free pick
      let (holder, holders) :=
        match got with
        | some holder => (holder, s.holders)
        | none => (s.holders.length, s.holders ++ [size])
      if pool.numPooledSlices < pool.pooledSlices.length then
        match holders[holder]? with
        | some len => .ok ({ s with holders, byteSlicePools := s.byteSlicePools.set size free },
            ⟨pool.pooledSlices.set pool.numPooledSlices (some holder), pool.numPooledSlices + 1⟩,
            len)
        | none => .error nilDereference
      else .error indexOutOfRange

/-- The loop of `Release` (`part_000:54–57`) from entry `i`, with `n` entries left:
`holder := pool.pooledSlices[i]`, then `byteSlicePools[len(holder.slice)].Put(holder)`. -/
def releaseLoop (holders : List Nat) (pooledSlices : List (Option Nat)) :
    Nat → Nat → List (List Nat) → Except Fault (List (List Nat))
  | _, 0, free => .ok free
  | i, n + 1, free =>
    match pooledSlices[i]? with
    | none => .error indexOutOfRange
    | some none => .error nilDereference
    | some (some holder) =>
      match holders[holder]? with
      | none => .error nilDereference
      | some len =>
        match free[len]? with
        | none => .error indexOutOfRange
        | some l => releaseLoop holders pooledSlices (i + 1) n (free.set len (l ++ [holder]))

/-- `pool.Release()` (`part_000:53–60`) of the pool at address `a`: its holders go back to the
free lists, `numPooledSlices` to 0, and the pool into `objectPools`. -/
def Release (s : Slices) (a : Nat) (pool : ByteSlicePool) : Except Fault (Slices × ByteSlicePool) :=
  (releaseLoop s.holders pool.pooledSlices 0 pool.numPooledSlices s.byteSlicePools).map fun free =>
    ({ s with byteSlicePools := free, objectPools := s.objectPools ++ [a] },
      { pool with numPooledSlices := 0 })

/-- A call on the slice pools. -/
inductive Action
  /-- A new `ByteSlicePool` at its zero value. -/
  | newPool
  /-- `getByteSlice(size)` on the pool at an address, with what `Get` picks. -/
  | getByteSlice (a size : Nat) (pick : Option Nat)
  /-- `Release()` on the pool at an address. -/
  | Release (a : Nat)

/-- One call, or `none` when it names no pool. -/
def step (s : Slices) : Action → Option (Except Fault Slices)
  | .newPool => some (.ok { s with pools := s.pools ++ [ByteSlicePool.zero] })
  | .getByteSlice a size pick => s.pools[a]?.map fun pool =>
    (s.getByteSlice pool size pick).map fun r => { r.1 with pools := r.1.pools.set a r.2.1 }
  | .Release a => s.pools[a]?.map fun pool =>
    (s.Release a pool).map fun r => { r.1 with pools := r.1.pools.set a r.2 }

/-- The calls in turn, until one panics; `none` if one names no pool. -/
def run : List Action → Slices → Option (Except Fault Slices)
  | [], s => some (.ok s)
  | act :: acts, s =>
    (s.step act).bind fun
      | .ok s => run acts s
      | .error e => some (.error e)

end Slices

/-! ### Lists of lists -/

section Lists

variable {α : Type}

theorem set_eq_self_of_getElem? {l : List α} {i : Nat} {a : α} (h : l[i]? = some a) :
    l.set i a = l := by
  refine List.ext_getElem? fun j => ?_
  rw [List.getElem?_set]
  split
  · subst_vars
    rw [if_pos (List.getElem?_eq_some_iff.mp h).1, h]
  · rfl

theorem perm_cons_eraseIdx {l : List α} {i : Nat} {a : α} (h : l[i]? = some a) :
    l.Perm (a :: l.eraseIdx i) := by
  obtain ⟨hi, rfl⟩ := List.getElem?_eq_some_iff.mp h
  rw [List.eraseIdx_eq_take_drop_succ]
  conv_lhs => rw [← List.take_append_drop i l, List.drop_eq_getElem_cons hi]
  exact List.perm_middle

/-- Replacing the list at `k` trades its elements for the new ones. -/
theorem perm_flatten_set {l : List (List α)} {k : Nat} {y : List α} (hk : l[k]? = some y)
    (x : List α) : ((l.set k x).flatten ++ y).Perm (l.flatten ++ x) := by
  classical
  obtain ⟨hkl, rfl⟩ := List.getElem?_eq_some_iff.mp hk
  rw [List.set_eq_take_append_cons_drop, if_pos hkl]
  conv_rhs => rw [← List.take_append_drop k l, List.drop_eq_getElem_cons hkl]
  simp only [List.flatten_append, List.flatten_cons, List.append_assoc]
  refine List.Perm.append_left _ (List.perm_iff_count.2 fun a => ?_)
  simp only [List.count_append]
  omega

theorem poolGet_cases (l : List α) (pick : Option Nat) :
    poolGet l pick = (none, l) ∨ ∃ a l', poolGet l pick = (some a, l') ∧ l.Perm (a :: l') := by
  unfold poolGet
  split
  · split
    · exact .inr ⟨_, _, rfl, perm_cons_eraseIdx ‹_›⟩
    · exact .inl rfl
  · exact .inl rfl

end Lists

/-! ### The ownership invariant -/

namespace ByteSlicePool

/-- The holders a pool records, by address. -/
def heldIds (pool : ByteSlicePool) : List Nat := pool.held.filterMap id

/-- A pool's own invariant: the array has `MAX_POOLED_SLICES` entries, at most that many are
recorded, and every recorded entry is a holder. -/
structure Inv (pool : ByteSlicePool) : Prop where
  length : pool.pooledSlices.length = MAX_POOLED_SLICES
  num_le : pool.numPooledSlices ≤ MAX_POOLED_SLICES
  isSome : ∀ x ∈ pool.held, x.isSome

theorem Inv.zero : ByteSlicePool.zero.Inv :=
  ⟨List.length_replicate _ _, Nat.zero_le _, fun _ hx => by simp [ByteSlicePool.zero, held] at hx⟩

@[simp] theorem heldIds_zero : ByteSlicePool.zero.heldIds = [] := rfl

@[simp] theorem heldIds_released (pool : ByteSlicePool) :
    { pool with numPooledSlices := 0 }.heldIds = [] := by
  simp [heldIds, held]

theorem Inv.released {pool : ByteSlicePool} (hp : pool.Inv) :
    { pool with numPooledSlices := 0 }.Inv :=
  ⟨hp.length, Nat.zero_le _, by simp [held]⟩

section Record

variable {pool : ByteSlicePool} (hp : pool.Inv) (hnum : pool.numPooledSlices ≠ MAX_POOLED_SLICES)
  (h : Nat)
include hp hnum

theorem Inv.num_lt : pool.numPooledSlices < pool.pooledSlices.length := by
  have := hp.num_le
  rw [hp.length]
  omega

/-- Recording a holder at `pooledSlices[numPooledSlices]` appends it to what the pool holds. -/
theorem held_record :
    ByteSlicePool.held ⟨pool.pooledSlices.set pool.numPooledSlices (some h),
      pool.numPooledSlices + 1⟩ = pool.held ++ [some h] := by
  simp only [held, List.take_succ, List.set_take,
    List.set_eq_of_length_le (List.length_take_le _ _),
    List.getElem?_set_self (hp.num_lt hnum), Option.toList_some]

theorem heldIds_record :
    ByteSlicePool.heldIds ⟨pool.pooledSlices.set pool.numPooledSlices (some h),
      pool.numPooledSlices + 1⟩ = pool.heldIds ++ [h] := by
  simp [heldIds, held_record hp hnum]

theorem Inv.record :
    ByteSlicePool.Inv ⟨pool.pooledSlices.set pool.numPooledSlices (some h),
      pool.numPooledSlices + 1⟩ := by
  refine ⟨by simp [hp.length], ?_, ?_⟩
  · have := hp.num_le
    show pool.numPooledSlices + 1 ≤ _
    omega
  · rw [held_record hp hnum]
    exact List.forall_mem_append.2 ⟨hp.isSome, List.forall_mem_singleton.2 rfl⟩

end Record

end ByteSlicePool

namespace Slices

/-- Every holder on `byteSlicePools[k]` has a slice of length `k`. -/
def FreeLengths (holders : List Nat) (free : List (List Nat)) : Prop :=
  ∀ (k : Nat) (l : List Nat), free[k]? = some l → ∀ h ∈ l, holders[h]? = some k

/-- Where every holder is: on the free lists, then held by each pool in turn. -/
def ledger (s : Slices) : List Nat :=
  s.byteSlicePools.flatten ++ (s.pools.map ByteSlicePool.heldIds).flatten

/-- The invariant of the slice pools. Its last field says that the holders on the free lists and
those held by the pools are every holder ever made, each once: no holder is both free and held,
held by two pools, held twice by one, or on a free list twice. -/
structure Inv (s : Slices) : Prop where
  free_count : s.byteSlicePools.length = MAX_SLICE_SIZE + 1
  pools : ∀ pool ∈ s.pools, pool.Inv
  free_lengths : FreeLengths s.holders s.byteSlicePools
  holder_le : ∀ len ∈ s.holders, len ≤ MAX_SLICE_SIZE
  ledger : s.ledger.Perm (List.range s.holders.length)

theorem Inv.init : Slices.init.Inv where
  free_count := List.length_replicate _ _
  pools := by simp [Slices.init]
  free_lengths _ _ hk _ hh := by
    simp only [Slices.init, List.getElem?_replicate] at hk
    split at hk <;> simp_all
  holder_le := by simp [Slices.init]
  ledger := by simp [Slices.init, Slices.ledger, List.flatten_replicate_nil]

theorem FreeLengths.set {holders : List Nat} {free : List (List Nat)} (hf : FreeLengths holders free)
    {k : Nat} {l : List Nat} (hl : ∀ h ∈ l, holders[h]? = some k) :
    FreeLengths holders (free.set k l) := by
  intro k' l' hk' h hh
  rw [List.getElem?_set] at hk'
  split at hk'
  · subst_vars
    split at hk' <;> simp_all
  · exact hf k' l' hk' h hh

theorem FreeLengths.append {holders : List Nat} {free : List (List Nat)}
    (hf : FreeLengths holders free) (len : Nat) : FreeLengths (holders ++ [len]) free :=
  fun k l hk h hh => by
    have hh := hf k l hk h hh
    rwa [List.getElem?_append_left (List.getElem?_eq_some_iff.mp hh).1]

theorem perm_heldIds_set {pools : List ByteSlicePool} {a : Nat} {pool : ByteSlicePool}
    (ha : pools[a]? = some pool) (pool' : ByteSlicePool) :
    (((pools.set a pool').map ByteSlicePool.heldIds).flatten ++ pool.heldIds).Perm
      ((pools.map ByteSlicePool.heldIds).flatten ++ pool'.heldIds) := by
  rw [List.map_set]
  exact perm_flatten_set (by simp [ha]) _

section Inv

variable {s : Slices} (hs : s.Inv)
include hs

theorem Inv.lt_of_mem_ledger {h : Nat} (hh : h ∈ s.ledger) : h < s.holders.length :=
  List.mem_range.mp (hs.ledger.subset hh)

theorem Inv.lt_of_mem_heldIds {a : Nat} {pool : ByteSlicePool} (ha : s.pools[a]? = some pool)
    {h : Nat} (hh : h ∈ pool.heldIds) : h < s.holders.length :=
  hs.lt_of_mem_ledger <| List.mem_append_right _ <|
    List.mem_flatten_of_mem (List.mem_map_of_mem _ (List.getElem?_mem ha)) hh

theorem Inv.pools_set {a : Nat} {pool' : ByteSlicePool} (hp : pool'.Inv) :
    ∀ q ∈ s.pools.set a pool', q.Inv := fun q hq =>
  (List.mem_or_eq_of_mem_set hq).elim (hs.pools q) (· ▸ hp)

/-- `getByteSlice(size)` on a pool of the slices returns a slice of length `size` and keeps the
invariant. -/
theorem Inv.getByteSlice {a : Nat} {pool : ByteSlicePool} (ha : s.pools[a]? = some pool)
    (size : Nat) (pick : Option Nat) :
    ∃ s' pool', s.getByteSlice pool size pick = .ok (s', pool', size) ∧ s'.pools = s.pools ∧
      { s' with pools := s.pools.set a pool' }.Inv := by
  have hp := hs.pools pool (List.getElem?_mem ha)
  have hkeep : { s with pools := s.pools.set a pool }.Inv := by
    rwa [set_eq_self_of_getElem? ha]
  unfold Slices.getByteSlice
  by_cases hbig : size > MAX_SLICE_SIZE
  · exact ⟨s, pool, if_pos hbig, rfl, hkeep⟩
  by_cases hfull : pool.numPooledSlices = MAX_POOLED_SLICES
  · exact ⟨s, pool, by rw [if_neg hbig, if_pos hfull], rfl, hkeep⟩
  obtain ⟨free, hfree⟩ : ∃ free, s.byteSlicePools[size]? = some free :=
    ⟨_, List.getElem?_eq_getElem (by rw [hs.free_count]; omega)⟩
  rw [if_neg hbig, if_neg hfull, hfree]
  -- recording a holder adds it to what the pool holds
  have hheld := fun h => ByteSlicePool.heldIds_record hp hfull h ▸ perm_heldIds_set ha
    ⟨pool.pooledSlices.set pool.numPooledSlices (some h), pool.numPooledSlices + 1⟩
  rcases poolGet_cases free pick with hg | ⟨h, free', hg, hperm⟩ <;>
    simp only [hg, if_pos (hp.num_lt hfull)]
  · -- a new holder, with a fresh slice of length `size`
    rw [List.getElem?_concat_length]
    refine ⟨_, _, rfl, rfl, ?_⟩
    rw [set_eq_self_of_getElem? hfree]
    refine ⟨hs.free_count, hs.pools_set (hp.record hfull _), hs.free_lengths.append size,
      List.forall_mem_append.2 ⟨hs.holder_le, List.forall_mem_singleton.2 (not_lt.mp hbig)⟩,
      List.perm_iff_count.2 fun x => ?_⟩
    have hpools := List.perm_iff_count.1 (hheld s.holders.length) x
    have hledger := List.perm_iff_count.1 hs.ledger x
    simp only [Slices.ledger, List.length_append, List.length_singleton, List.range_succ,
      List.count_append] at hpools hledger ⊢
    omega
  · -- a free holder of length `size`
    have hmem : ∀ y ∈ free', y ∈ free := fun y hy => hperm.symm.subset (List.mem_cons_of_mem _ hy)
    rw [hs.free_lengths size free hfree h (hperm.symm.subset (List.mem_cons_self _ _))]
    refine ⟨_, _, rfl, rfl, by simp [hs.free_count], hs.pools_set (hp.record hfull _),
      hs.free_lengths.set fun y hy => hs.free_lengths size free hfree y (hmem y hy), hs.holder_le,
      List.perm_iff_count.2 fun x => ?_⟩
    have hpools := List.perm_iff_count.1 (hheld h) x
    have hledger := List.perm_iff_count.1 hs.ledger x
    have hfrees := List.perm_iff_count.1 (perm_flatten_set hfree free') x
    have hget := List.perm_iff_count.1 hperm x
    rw [← List.singleton_append] at hget
    simp only [Slices.ledger, List.count_append] at hpools hledger hfrees hget ⊢
    omega

end Inv

section Release

variable {holders : List Nat} {ps : List (Option Nat)}
  (hle : ∀ len ∈ holders, len ≤ MAX_SLICE_SIZE)
include hle

/-- The loop of `Release` over entries `i` to `i + n`, each a holder, puts each on the free list of
its slice's length, and neither index is out of range. -/
theorem releaseLoop_ok (n : Nat) : ∀ (i : Nat) (free : List (List Nat)),
    free.length = MAX_SLICE_SIZE + 1 → FreeLengths holders free → i + n ≤ ps.length →
    (∀ x ∈ (ps.drop i).take n, ∃ h ∈ x, h < holders.length) →
    ∃ free', releaseLoop holders ps i n free = .ok free' ∧ free'.length = MAX_SLICE_SIZE + 1 ∧
      FreeLengths holders free' ∧
      free'.flatten.Perm (free.flatten ++ ((ps.drop i).take n).filterMap id) := by
  induction n with
  | zero => exact fun _ free hlen hf _ _ => ⟨free, rfl, hlen, hf, by simp⟩
  | succ n ih =>
    intro i free hlen hf hi hx
    have hcons : (ps.drop i).take (n + 1) = ps[i] :: (ps.drop (i + 1)).take n := by
      rw [List.drop_eq_getElem_cons (by omega), List.take_succ_cons]
    rw [hcons] at hx ⊢
    obtain ⟨h, hh, hlt⟩ := hx _ (List.mem_cons_self _ _)
    have hps : ps[i]? = some (some h) := by
      rw [List.getElem?_eq_getElem (by omega), Option.mem_def.mp hh]
    have hlen' := hle _ (List.getElem_mem hlt)
    obtain ⟨l, hl⟩ : ∃ l, free[holders[h]]? = some l :=
      ⟨_, List.getElem?_eq_getElem (by omega)⟩
    have hf' : FreeLengths holders (free.set holders[h] (l ++ [h])) := hf.set fun y hy =>
      (List.mem_append.mp hy).elim (hf _ l hl y) fun hy =>
        List.mem_singleton.mp hy ▸ List.getElem?_eq_getElem hlt
    obtain ⟨free', hrun, hlen'', hf'', hperm⟩ := ih (i + 1) _ (by simp [hlen]) hf' (by omega)
      fun x hx' => hx x (List.mem_cons_of_mem _ hx')
    refine ⟨free', ?_, hlen'', hf'', List.perm_iff_count.2 fun x => ?_⟩
    · simp only [releaseLoop, hps, List.getElem?_eq_getElem hlt, hl, hrun]
    · have hids : (ps[i] :: (ps.drop (i + 1)).take n).filterMap id =
          [h] ++ ((ps.drop (i + 1)).take n).filterMap id := by
        rw [Option.mem_def.mp hh]
        rfl
      have h1 := List.perm_iff_count.1 hperm x
      have h2 := List.perm_iff_count.1 (perm_flatten_set hl (l ++ [h])) x
      rw [hids]
      simp only [List.count_append] at h1 h2 ⊢
      omega

end Release

section Inv

variable {s : Slices} (hs : s.Inv)
include hs

/-- `Release()` on a pool of the slices puts what it holds back on the free lists and keeps the
invariant. -/
theorem Inv.Release {a : Nat} {pool : ByteSlicePool} (ha : s.pools[a]? = some pool) :
    ∃ s' pool', s.Release a pool = .ok (s', pool') ∧ s'.pools = s.pools ∧
      { s' with pools := s.pools.set a pool' }.Inv := by
  have hp := hs.pools pool (List.getElem?_mem ha)
  have hheld : (pool.pooledSlices.drop 0).take pool.numPooledSlices = pool.held := rfl
  obtain ⟨free', hrun, hlen, hf, hperm⟩ := releaseLoop_ok hs.holder_le pool.numPooledSlices 0
    s.byteSlicePools hs.free_count hs.free_lengths (by rw [hp.length]; exact Nat.zero_add _ ▸ hp.num_le)
    (by
      rw [hheld]
      intro x hx
      obtain ⟨h, rfl⟩ := Option.isSome_iff_exists.mp (hp.isSome x hx)
      exact ⟨h, rfl, hs.lt_of_mem_heldIds ha (List.mem_filterMap.mpr ⟨_, hx, rfl⟩)⟩)
  refine ⟨{ s with byteSlicePools := free', objectPools := s.objectPools ++ [a] },
    { pool with numPooledSlices := 0 }, by rw [Slices.Release, hrun]; rfl, rfl, hlen,
    hs.pools_set hp.released, hf, hs.holder_le, ?_⟩
  rw [hheld] at hperm
  refine List.perm_iff_count.2 fun x => ?_
  have h1 := List.perm_iff_count.1 (perm_heldIds_set ha { pool with numPooledSlices := 0 }) x
  have h2 := List.perm_iff_count.1 hs.ledger x
  have h3 := List.perm_iff_count.1 hperm x
  simp only [Slices.ledger, List.count_append, ByteSlicePool.heldIds_released, List.count_nil] at h1 h2 h3 ⊢
  simp only [ByteSlicePool.heldIds] at h1
  omega

theorem Inv.newPool : { s with pools := s.pools ++ [ByteSlicePool.zero] }.Inv where
  free_count := hs.free_count
  pools q hq := (List.mem_append.mp hq).elim (hs.pools q) fun hq =>
    List.mem_singleton.mp hq ▸ ByteSlicePool.Inv.zero
  free_lengths := hs.free_lengths
  holder_le := hs.holder_le
  ledger := by simpa [Slices.ledger] using hs.ledger

/-- Every call on a pool of the slices succeeds and keeps the invariant. -/
theorem Inv.step {act : Action} {r : Except Fault Slices} (h : s.step act = some r) :
    ∃ s', r = .ok s' ∧ s'.Inv := by
  cases act with
  | newPool => exact ⟨_, (Option.some.inj h).symm, hs.newPool⟩
  | getByteSlice a size pick =>
    obtain ⟨pool, ha, rfl⟩ := Option.map_eq_some'.mp h
    obtain ⟨s', pool', hg, hpools, hinv⟩ := hs.getByteSlice ha size pick
    rw [hg]
    exact ⟨_, rfl, by dsimp only; rwa [hpools]⟩
  | Release a =>
    obtain ⟨pool, ha, rfl⟩ := Option.map_eq_some'.mp h
    obtain ⟨s', pool', hg, hpools, hinv⟩ := hs.Release ha
    rw [hg]
    exact ⟨_, rfl, by dsimp only; rwa [hpools]⟩

end Inv

/-- `Release()` changes no pool but the one released, which then holds nothing. -/
theorem step_Release_pools {s s' : Slices} {a : Nat} {pool : ByteSlicePool}
    (hp : s.pools[a]? = some pool) (h : s.step (.Release a) = some (.ok s')) :
    s'.pools = s.pools.set a { pool with numPooledSlices := 0 } := by
  simp only [step, hp, Option.map_some', Option.some.injEq] at h
  obtain ⟨⟨s₁, pool₁⟩, hr, rfl⟩ := map_eq_ok h
  obtain ⟨free, -, hfree⟩ := map_eq_ok hr
  cases hfree
  rfl

/-- After `Release()` the pool holds nothing. -/
theorem step_Release_pool {s s' : Slices} {a : Nat} {pool : ByteSlicePool}
    (hp : s.pools[a]? = some pool) (h : s.step (.Release a) = some (.ok s')) :
    s'.pools[a]? = some { pool with numPooledSlices := 0 } := by
  rw [step_Release_pools hp h, List.getElem?_set_self (List.getElem?_eq_some_iff.mp hp).1]

/-- `Release()` of a pool that holds nothing only puts the pool into `objectPools` again. -/
theorem step_Release_empty {s : Slices} {a : Nat} {pool : ByteSlicePool}
    (hp : s.pools[a]? = some pool) (h0 : pool.numPooledSlices = 0) :
    s.step (.Release a) = some (.ok { s with objectPools := s.objectPools ++ [a] }) := by
  have hpool : { pool with numPooledSlices := 0 } = pool := by cases pool; simp_all
  simp only [step, hp, Option.map_some', Slices.Release, h0, releaseLoop, Except.map, hpool,
    set_eq_self_of_getElem? hp]

theorem Inv.run {s : Slices} (hs : s.Inv) (acts : List Action) {r : Except Fault Slices}
    (h : run acts s = some r) : ∃ s', r = .ok s' ∧ s'.Inv := by
  induction acts generalizing s with
  | nil => exact ⟨s, (Option.some.inj h).symm, hs⟩
  | cons act acts ih =>
    obtain ⟨r', h1, h2⟩ := Option.bind_eq_some.mp h
    obtain ⟨s', rfl, hs'⟩ := hs.step h1
    exact ih hs' h2

/-- Over every sequence of calls from the start, in any order, on any pools and with any choice
`Get` makes: no call panics, the invariant holds after it, and on every pool `getByteSlice(size)`
returns a slice of length `size` and `Release` succeeds. -/
theorem run_getByteSlice_Release (acts : List Action) (r : Except Fault Slices)
    (h : run acts init = some r) :
    ∃ s, r = .ok s ∧ s.Inv ∧ ∀ a pool, s.pools[a]? = some pool →
      (∀ size pick, ∃ s' pool', s.getByteSlice pool size pick = .ok (s', pool', size)) ∧
      ∃ s' pool', s.Release a pool = .ok (s', pool') := by
  obtain ⟨s, rfl, hs⟩ := Inv.init.run acts h
  refine ⟨s, rfl, hs, fun a pool ha => ⟨fun size pick => ?_, ?_⟩⟩
  · obtain ⟨s', pool', hg, -⟩ := hs.getByteSlice ha size pick
    exact ⟨s', pool', hg⟩
  · obtain ⟨s', pool', hr, -⟩ := hs.Release ha
    exact ⟨s', pool', hr⟩

set_option maxRecDepth 4000 in
/-- A slice of length 3 taken, released twice, and taken again from the free list. -/
theorem run_release_twice_reuse :
    ∃ r, run [.newPool, .getByteSlice 0 3 none, .Release 0, .Release 0, .getByteSlice 0 3 (some 0)]
        init = some r ∧
      ∃ s, r = .ok s ∧ s.Inv ∧ ∀ a pool, s.pools[a]? = some pool →
        (∀ size pick, ∃ s' pool', s.getByteSlice pool size pick = .ok (s', pool', size)) ∧
        ∃ s' pool', s.Release a pool = .ok (s', pool') := by
  obtain ⟨r, h⟩ : ∃ r, run [.newPool, .getByteSlice 0 3 none, .Release 0, .Release 0,
      .getByteSlice 0 3 (some 0)] init = some r := ⟨_, rfl⟩
  exact ⟨r, h, run_getByteSlice_Release _ r h⟩

end Slices

end PahoMqtt
