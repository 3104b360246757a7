import PahoMqtt.Packets.Bytes
import Mathlib.Tactic.Ring

/-!
# The remaining-length varint

`encodeLength` and `decodeLength`, `src/packets/packets.go:413–444`. The writer emits base-128
digits, least significant first, with `0x80` on every digit but the last. The reader ORs
`digit & 127` into a `uint32` at shifts 0, 7, 14, … and stops at the first digit without
`0x80`; it keeps no digit count. Go shifts a `uint32` by 32 or more to 0, which Lean's `<<<`
(shift mod 32) does not, so the shift is spelled out as `shiftLeft32`.
-/

namespace PahoMqtt.Packets

/-- `encodeLength` (`packets.go:413–427`). -/
@[semireducible] def encodeLength (length : Nat) : List UInt8 :=
  let digit := (length % 128).toUInt8
  if length / 128 > 0 then (digit ||| 0x80) :: encodeLength (length / 128) else [digit]
termination_by length
decreasing_by omega

/-- Go's `x << s` on `uint32`. -/
def shiftLeft32 (x s : UInt32) : UInt32 := if s < 32 then x <<< s else 0

/-- The `for` loop of `decodeLength` (`packets.go:432–442`) on the unread stream, with the
accumulator `rLength` and the shift `multiplier`. -/
def decodeLengthLoop : List UInt8 → UInt32 → UInt32 → Except Fault (UInt32 × List UInt8)
  | [], _, _ => .error (.panic "decodeLength() failed")
  | digit :: r, rLength, multiplier =>
    let rLength := rLength ||| shiftLeft32 (digit &&& 127).toUInt32 multiplier
    if digit &&& 128 = 0 then .ok (rLength, r)
    else decodeLengthLoop r rLength (multiplier + 7)

/-- `decodeLength` (`packets.go:429–444`): the length as an `int`, and the unread stream. -/
def decodeLength (r : List UInt8) : Except Fault (Nat × List UInt8) :=
  (decodeLengthLoop r 0 0).map fun (rLength, r) => (rLength.toNat, r)

/-- The largest remaining length MQTT 3.1.1 allows, four full base-128 digits. -/
def maxRemainingLength : Nat := 268435455

/-! ### One digit -/

/-- What both loops need to know of one digit byte, checked over all 128 digit values. -/
theorem digit_facts : ∀ d : Fin 128,
    (d.val.toUInt8 &&& 128 = 0) ∧ ((d.val.toUInt8 ||| 0x80) &&& 128 ≠ 0) ∧
    (d.val.toUInt8 &&& 127).toNat = d.val ∧ ((d.val.toUInt8 ||| 0x80) &&& 127).toNat = d.val := by
  decide

theorem encodeLength_of_lt {n : Nat} (h : n < 128) : encodeLength n = [n.toUInt8] := by
  rw [encodeLength]
  simp [Nat.div_eq_of_lt h, Nat.mod_eq_of_lt h]

theorem encodeLength_of_ge {n : Nat} (h : 128 ≤ n) :
    encodeLength n = ((n % 128).toUInt8 ||| 0x80) :: encodeLength (n / 128) := by
  rw [encodeLength]
  simp [Nat.div_pos h (by decide : 0 < 128)]

theorem toNat_and127_lt (x : UInt8) : (x &&& 127).toNat < 128 :=
  Nat.lt_of_le_of_lt (Nat.and_le_right (n := x.toNat) (m := 127)) (by decide)

theorem uint32_ofNat_add_seven (k : Nat) :
    UInt32.ofNat (7 * k) + 7 = UInt32.ofNat (7 * (k + 1)) := by
  apply UInt32.toNat.inj
  show (BitVec.ofNat 32 (7 * k) + BitVec.ofNat 32 7).toNat = (BitVec.ofNat 32 (7 * (k + 1))).toNat
  simp only [BitVec.toNat_add, BitVec.toNat_ofNat]
  omega

/-- One step of the reader at shift `7k`, `k ≤ 3`: the digit's seven bits land above the
accumulator, which holds fewer than `7k` bits, so the OR is an addition. -/
theorem toNat_decodeStep (acc : UInt32) (x : UInt8) (k : Nat) (hk : k ≤ 3)
    (hacc : acc.toNat < 128 ^ k) :
    (acc ||| shiftLeft32 (x &&& 127).toUInt32 (UInt32.ofNat (7 * k))).toNat =
      acc.toNat + (x &&& 127).toNat * 128 ^ k := by
  have hd := toNat_and127_lt x
  have h7 : (BitVec.ofNat 32 (7 * k)).toNat = 7 * k := by
    rw [BitVec.toNat_ofNat, Nat.mod_eq_of_lt (by omega)]
  have hs : (UInt32.ofNat (7 * k) % 32).toBitVec.toNat = 7 * k := by
    show (BitVec.ofNat 32 (7 * k)).toNat % 32 = _
    rw [h7]; omega
  have hlt : UInt32.ofNat (7 * k) < 32 := by
    rw [UInt32.lt_def]; show (BitVec.ofNat 32 (7 * k)).toNat < 32
    rw [h7]; omega
  have hp : (128 : Nat) ^ k = 2 ^ (7 * k) := by rw [Nat.pow_mul]
  have hpk : 2 ^ (7 * k) ≤ 2 ^ 21 := Nat.pow_le_pow_right (by decide) (by omega)
  have hdk : (x &&& 127).toNat * 2 ^ (7 * k) < 2 ^ 32 :=
    calc (x &&& 127).toNat * 2 ^ (7 * k) < 128 * 2 ^ 21 :=
          Nat.mul_lt_mul_of_lt_of_le hd hpk (Nat.two_pow_pos _)
      _ ≤ 2 ^ 32 := by decide
  have hacc' : acc.toNat < 2 ^ (7 * k) := hp ▸ hacc
  simp only [shiftLeft32, if_pos hlt]
  show (acc.toBitVec ||| ((x &&& 127).toUInt32.toBitVec <<<
    (UInt32.ofNat (7 * k) % 32).toBitVec)).toNat = _
  rw [BitVec.toNat_or, BitVec.shiftLeft_eq', BitVec.toNat_shiftLeft, hs]
  change acc.toNat ||| (x &&& 127).toNat <<< (7 * k) % 2 ^ 32 = _
  rw [Nat.shiftLeft_eq, Nat.mod_eq_of_lt hdk, hp, Nat.or_comm, Nat.mul_comm]
  exact (Nat.mul_add_lt_is_or hacc' _).symm.trans (Nat.add_comm _ _)

/-- The reader, started at shift `7k` on an accumulator below `128^k`, reads `encodeLength n`
back as `n` shifted by `7k`, leaving the rest of the stream. -/
theorem decodeLengthLoop_encodeLength (n k : Nat) (acc : UInt32) (rest : List UInt8)
    (hk : k ≤ 3) (hacc : acc.toNat < 128 ^ k) (hn : n * 128 ^ k < 2 ^ 28) :
    ∃ v : UInt32, decodeLengthLoop (encodeLength n ++ rest) acc (UInt32.ofNat (7 * k)) =
      .ok (v, rest) ∧ v.toNat = acc.toNat + n * 128 ^ k := by
  induction n using Nat.strong_induction_on generalizing k acc with
  | _ n ih =>
    by_cases h : n < 128
    · obtain ⟨h0, -, h2, -⟩ := digit_facts ⟨n, h⟩
      rw [encodeLength_of_lt h]
      refine ⟨_, by simp only [List.singleton_append, decodeLengthLoop, h0, if_true]; rfl, ?_⟩
      rw [toNat_decodeStep acc _ k hk hacc, h2]
    · have hm : n % 128 < 128 := Nat.mod_lt _ (by decide)
      obtain ⟨-, h1, -, h3⟩ := digit_facts ⟨n % 128, hm⟩
      have hstep := toNat_decodeStep acc ((n % 128).toUInt8 ||| 0x80) k hk hacc
      rw [h3] at hstep
      have hP : 0 < 128 ^ k := Nat.pos_pow_of_pos _ (by decide)
      have hk1 : k + 1 ≤ 3 := by
        by_contra hc
        have : 128 ^ 4 ≤ 128 ^ (k + 1) := Nat.pow_le_pow_right (by decide) (by omega)
        have : 128 * 128 ^ k ≤ n * 128 ^ k := Nat.mul_le_mul_right _ (by omega)
        rw [Nat.pow_succ] at *
        omega
      have hacc1 : acc.toNat + (n % 128) * 128 ^ k < 128 ^ (k + 1) := by
        have := Nat.mul_le_mul_right (128 ^ k) (by omega : n % 128 ≤ 127)
        rw [Nat.pow_succ]; omega
      have hn1 : n / 128 * 128 ^ (k + 1) < 2 ^ 28 := by
        have := Nat.mul_le_mul_right (128 ^ k) (Nat.div_mul_le_self n 128)
        rw [Nat.pow_succ, ← Nat.mul_assoc, Nat.mul_right_comm (n / 128)]; omega
      obtain ⟨v, hv, hvn⟩ := ih (n / 128) (by omega) (k + 1) _ hk1 (hstep ▸ hacc1) hn1
      rw [encodeLength_of_ge (by omega)]
      refine ⟨v, ?_, ?_⟩
      · simp only [List.cons_append, decodeLengthLoop, if_neg h1, uint32_ofNat_add_seven]
        exact hv
      · rw [hvn, hstep, Nat.pow_succ]
        conv_rhs => rw [← Nat.div_add_mod n 128]
        ring

/-- `decodeLength` reads back every length `encodeLength` writes, up to four digits, and
leaves the rest of the stream unread. -/
theorem decodeLength_encodeLength (n : Nat) (rest : List UInt8) (h : n ≤ maxRemainingLength) :
    decodeLength (encodeLength n ++ rest) = .ok (n, rest) := by
  obtain ⟨v, hv, hvn⟩ := decodeLengthLoop_encodeLength n 0 0 rest (by decide) (by decide)
    (by simp only [maxRemainingLength] at h; omega)
  rw [decodeLength, show decodeLengthLoop (encodeLength n ++ rest) 0 0 = .ok (v, rest) from hv]
  simp [Except.map, hvn]

theorem encodeLength_ne_nil (n : Nat) : encodeLength n ≠ [] := by
  by_cases h : n < 128
  · simp [encodeLength_of_lt h]
  · simp [encodeLength_of_ge (Nat.le_of_not_lt h)]

/-- `encodeLength n` has enough digits to hold `n`… -/
theorem lt_pow_length_encodeLength (n : Nat) : n < 128 ^ (encodeLength n).length := by
  induction n using Nat.strong_induction_on with
  | _ n ih =>
    by_cases h : n < 128
    · simp [encodeLength_of_lt h, h]
    · have := ih (n / 128) (by omega)
      rw [encodeLength_of_ge (by omega), List.length_cons, Nat.pow_succ]
      omega

/-- …and no more digits than the fewest that hold it. -/
theorem length_encodeLength_le (n j : Nat) (hj : 1 ≤ j) (h : n < 128 ^ j) :
    (encodeLength n).length ≤ j := by
  induction n using Nat.strong_induction_on generalizing j with
  | _ n ih =>
    by_cases hn : n < 128
    · simp [encodeLength_of_lt hn, hj]
    · obtain ⟨j, rfl⟩ : ∃ i, j = i + 1 := ⟨j - 1, by omega⟩
      have hj' : 1 ≤ j := by
        by_contra hc
        have : j = 0 := by omega
        subst this; simp at h; omega
      rw [encodeLength_of_ge (by omega), List.length_cons]
      have := ih (n / 128) (by omega) j hj' (by rw [Nat.pow_succ] at h; omega)
      omega

/-- The continuation bit is set on every digit but the last. -/
theorem encodeLength_continuation (n : Nat) :
    ∃ init last, encodeLength n = init ++ [last] ∧ (∀ b ∈ init, b &&& 128 ≠ 0) ∧
      last &&& 128 = 0 := by
  induction n using Nat.strong_induction_on with
  | _ n ih =>
    by_cases h : n < 128
    · exact ⟨[], n.toUInt8, by simp [encodeLength_of_lt h], by simp, (digit_facts ⟨n, h⟩).1⟩
    · obtain ⟨init, last, he, hi, hl⟩ := ih (n / 128) (by omega)
      refine ⟨((n % 128).toUInt8 ||| 0x80) :: init, last, ?_, ?_, hl⟩
      · rw [encodeLength_of_ge (by omega), he]; rfl
      · intro b hb
        rcases List.mem_cons.mp hb with rfl | hb
        · exact (digit_facts ⟨n % 128, Nat.mod_lt _ (by decide)⟩).2.1
        · exact hi b hb

/-! ### Streams `decodeLength` was not written for -/

theorem decodeLengthLoop_all_continuation (s : List UInt8) (hs : ∀ x ∈ s, x &&& 128 ≠ 0)
    (acc m : UInt32) : decodeLengthLoop s acc m = .error (.panic "decodeLength() failed") := by
  induction s generalizing acc m with
  | nil => rfl
  | cons x s ih =>
    simp only [decodeLengthLoop, if_neg (hs x (List.mem_cons_self x s))]
    exact ih (fun y hy => hs y (List.mem_cons_of_mem x hy)) _ _

theorem decodeLengthLoop_final (pre : List UInt8) (b : UInt8) (rest : List UInt8)
    (hpre : ∀ x ∈ pre, x &&& 128 ≠ 0) (hb : b &&& 128 = 0) (acc m : UInt32) :
    ∃ v, decodeLengthLoop (pre ++ b :: rest) acc m = .ok (v, rest) := by
  induction pre generalizing acc m with
  | nil => exact ⟨_, by simp only [List.nil_append, decodeLengthLoop, hb, if_true]; rfl⟩
  | cons x pre ih =>
    simp only [List.cons_append, decodeLengthLoop, if_neg (hpre x (List.mem_cons_self x pre))]
    exact ih (fun y hy => hpre y (List.mem_cons_of_mem x hy)) _ _

theorem toNat_decodeStep_lt (acc : UInt32) (x : UInt8) (k : Nat) (hk : k ≤ 3)
    (hacc : acc.toNat < 128 ^ k) :
    (acc ||| shiftLeft32 (x &&& 127).toUInt32 (UInt32.ofNat (7 * k))).toNat < 128 ^ (k + 1) := by
  rw [toNat_decodeStep acc x k hk hacc, Nat.pow_succ]
  have := Nat.mul_le_mul_right (128 ^ k) (Nat.le_of_lt_succ (toNat_and127_lt x))
  omega

/-- Started at shift `7k`, the reader that stops within `4 - k` digits has read fewer than
`7` bits per digit. -/
theorem decodeLengthLoop_bound (pre : List UInt8) (b : UInt8) (rest : List UInt8)
    (hpre : ∀ x ∈ pre, x &&& 128 ≠ 0) (hb : b &&& 128 = 0)
    (k : Nat) (acc v : UInt32) (r : List UInt8) (hk : pre.length + k ≤ 3)
    (hacc : acc.toNat < 128 ^ k)
    (h : decodeLengthLoop (pre ++ b :: rest) acc (UInt32.ofNat (7 * k)) = .ok (v, r)) :
    v.toNat < 128 ^ (pre.length + k + 1) := by
  induction pre generalizing k acc with
  | nil =>
    simp only [List.nil_append, decodeLengthLoop, hb, if_true, Except.ok.injEq,
      Prod.mk.injEq] at h
    rw [← h.1, List.length_nil, Nat.zero_add]
    exact toNat_decodeStep_lt acc b k (by simpa using hk) hacc
  | cons x pre ih =>
    simp only [List.cons_append, decodeLengthLoop, if_neg (hpre x (List.mem_cons_self x pre)),
      uint32_ofNat_add_seven] at h
    have := ih (fun y hy => hpre y (List.mem_cons_of_mem x hy)) (k + 1) _
      (by simp at hk; omega) (toNat_decodeStep_lt acc x k (by simp at hk; omega) hacc) h
    simpa [Nat.add_assoc, Nat.add_comm 1] using this

/-- `decodeLength` reads through the first digit without the continuation bit, however far
into the stream that is, and panics on a stream that has none. A length read in at most four
digits fits `maxRemainingLength`; a longer one is still returned, as any `uint32`. -/
theorem decodeLength_reads_through_final_digit :
    (∀ s : List UInt8, (∀ x ∈ s, x &&& 128 ≠ 0) →
      decodeLength s = .error (.panic "decodeLength() failed")) ∧
    (∀ (pre : List UInt8) (b : UInt8) (rest : List UInt8), (∀ x ∈ pre, x &&& 128 ≠ 0) →
      b &&& 128 = 0 → ∃ v, decodeLength (pre ++ b :: rest) = .ok (v, rest) ∧ v < 2 ^ 32 ∧
        (pre.length ≤ 3 → v ≤ maxRemainingLength)) := by
  refine ⟨fun s hs => ?_, fun pre b rest hpre hb => ?_⟩
  · rw [decodeLength, decodeLengthLoop_all_continuation s hs]; rfl
  · obtain ⟨v, hv⟩ := decodeLengthLoop_final pre b rest hpre hb 0 0
    refine ⟨v.toNat, by rw [decodeLength, hv]; rfl, v.toNat_lt_size, fun hl => ?_⟩
    have := decodeLengthLoop_bound pre b rest hpre hb 0 0 v rest (by omega) (by decide) hv
    have : 128 ^ (pre.length + 0 + 1) ≤ 128 ^ 4 := Nat.pow_le_pow_right (by decide) (by omega)
    simp only [maxRemainingLength]; omega

/-- Four continuation digits are not rejected: the reader takes a fifth and returns a length
above `maxRemainingLength`. -/
theorem decodeLength_five_digits :
    decodeLength [0xFF, 0xFF, 0xFF, 0xFF, 0x0F] = .ok (4294967295, []) := by rfl

end PahoMqtt.Packets
