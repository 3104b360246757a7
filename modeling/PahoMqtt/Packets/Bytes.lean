import Mathlib.Data.List.Basic

/-!
# Go slices, faults and the packets package's field codecs

Package `packets`, `src/packets/packets.go:379–489`. Byte slices and Go strings are
`List UInt8`; a slice's capacity is its length, which no modelled slice expression can tell
apart, since every explicit upper bound below is checked against `len` first.
A call that does not return normally ends in a `Fault`: an `error` value or a runtime panic.
-/

namespace PahoMqtt.Packets

/-- How a Go call ends when it does not return normally. -/
inductive Fault where
  | error (msg : String)
  | panic (msg : String)
  deriving DecidableEq, Repr

/-- The runtime panic of a slice expression outside `0 ≤ low ≤ high ≤ len`. -/
def sliceBoundsOutOfRange : Fault := .panic "runtime error: slice bounds out of range"

/-- The runtime panic of an array index outside the array. -/
def indexOutOfRange : Fault := .panic "runtime error: index out of range"

/-- The slice expression `s[low:high]`. -/
def slice (s : List UInt8) (low high : Nat) : Except Fault (List UInt8) :=
  if low ≤ high ∧ high ≤ s.length then .ok ((s.take high).drop low)
  else .error sliceBoundsOutOfRange

/-- The slice expression `s[low:]`. -/
def sliceFrom (s : List UInt8) (low : Nat) : Except Fault (List UInt8) :=
  slice s low s.length

/-- `encodeUint16` (`packets.go:379–383`): big-endian, as `binary.BigEndian.PutUint16`. -/
def encodeUint16 (num : UInt16) : List UInt8 := [(num >>> 8).toUInt8, num.toUInt8]

/-- `encodeString` (`packets.go:385–389`): a `uint16` length, truncating, then the bytes. -/
def encodeString (field : List UInt8) : List UInt8 :=
  encodeUint16 field.length.toUInt16 ++ field

/-- `ByteSlicePool.encodeBytes` (`packets.go:455–460`). `PutUint16` and `copy` overwrite all
`len(field)+2` bytes of the slice `getByteSlice` hands out, so the pool's old contents never
show. -/
def encodeBytes (field : List UInt8) : List UInt8 :=
  encodeUint16 field.length.toUInt16 ++ field

/-- `loadByte` (`packets.go:462–467`): `0` on an empty slice, marked `FIXME: error`. -/
def loadByte : List UInt8 → UInt8
  | [] => 0
  | b :: _ => b

/-- `loadUint16` (`packets.go:469–476`): `0` on a slice shorter than two bytes. -/
def loadUint16 : List UInt8 → UInt16
  | hi :: lo :: _ => (hi.toUInt16 <<< 8) + lo.toUInt16
  | _ => 0

/-- `loadBytes` (`packets.go:478–484`). The end offset `loadUint16(src) + 2` is computed in
`uint16` before `int` widens it, so a prefix of `0xFFFE` or `0xFFFF` wraps it below 2. -/
def loadBytes (src : List UInt8) : Except Fault (List UInt8 × Nat) :=
  let endIdx := (loadUint16 src + 2).toNat
  if src.length < endIdx then .ok ([], src.length)
  else (slice src 2 endIdx).map fun bs => (bs, endIdx)

/-- `loadString` (`packets.go:486–489`); a Go string is its bytes. -/
def loadString (src : List UInt8) : Except Fault (List UInt8 × Nat) := loadBytes src

/-- `io.ReadFull` on a reader holding `r`: `n` bytes and the unread rest, `EOF` when nothing
was read and `unexpected EOF` when the reader ran dry part way. -/
def readFull (r : List UInt8) (n : Nat) : Except Fault (List UInt8 × List UInt8) :=
  if n ≤ r.length then .ok (r.take n, r.drop n)
  else if r = [] then .error (.error "EOF") else .error (.error "unexpected EOF")

/-! ### Machine integers as `Nat` -/

@[simp] theorem toNat_uint16_toUInt8 (a : UInt16) : a.toUInt8.toNat = a.toNat % 256 := by
  simp [UInt16.toUInt8, Nat.toUInt8, UInt8.toNat, UInt8.ofNat, BitVec.toNat_ofNat]

@[simp] theorem toNat_uint8_toUInt16 (a : UInt8) : a.toUInt16.toNat = a.toNat := rfl

@[simp] theorem toNat_nat_toUInt16 (n : Nat) : n.toUInt16.toNat = n % 65536 := by
  simp [Nat.toUInt16, UInt16.toNat, UInt16.ofNat, BitVec.toNat_ofNat]

@[simp] theorem toNat_uint16_shiftRight8 (a : UInt16) : (a >>> 8).toNat = a.toNat / 256 := by
  show (a.toBitVec >>> (UInt16.mod 8 16).toBitVec).toNat = _
  simp [BitVec.toNat_ushiftRight, Nat.shiftRight_eq_div_pow]
  rfl

@[simp] theorem toNat_uint16_shiftLeft8 (a : UInt16) :
    (a <<< 8).toNat = a.toNat * 256 % 65536 := by
  show (a.toBitVec <<< (UInt16.mod 8 16).toBitVec).toNat = _
  simp [BitVec.toNat_shiftLeft, Nat.shiftLeft_eq]
  rfl

@[simp] theorem toNat_uint16_add (a b : UInt16) : (a + b).toNat = (a.toNat + b.toNat) % 65536 :=
  BitVec.toNat_add ..

theorem uint16_toNat_lt (a : UInt16) : a.toNat < 65536 := a.toNat_lt_size

/-! ### Slices and readers -/

theorem sliceFrom_of_le {s : List UInt8} {low : Nat} (h : low ≤ s.length) :
    sliceFrom s low = .ok (s.drop low) := by
  simp [sliceFrom, slice, h]

theorem sliceFrom_append (a b : List UInt8) : sliceFrom (a ++ b) a.length = .ok b := by
  simp [sliceFrom_of_le]

/-- A successful `s[low:]` is never longer than `s`. -/
theorem sliceFrom_length_le {s r : List UInt8} {low : Nat} (h : sliceFrom s low = .ok r) :
    r.length ≤ s.length := by
  unfold sliceFrom slice at h
  split at h
  · cases h; simp
  · cases h

theorem readFull_append (a rest : List UInt8) : readFull (a ++ rest) a.length = .ok (a, rest) := by
  simp [readFull]

/-! ### Field codecs -/

@[simp] theorem length_encodeUint16 (num : UInt16) : (encodeUint16 num).length = 2 := rfl

@[simp] theorem length_encodeString (field : List UInt8) :
    (encodeString field).length = field.length + 2 := by
  simp [encodeString]; omega

/-- `loadUint16` reads back what `encodeUint16` wrote. -/
@[simp] theorem loadUint16_encodeUint16 (num : UInt16) (rest : List UInt8) :
    loadUint16 (encodeUint16 num ++ rest) = num := by
  apply UInt16.toNat.inj
  have := uint16_toNat_lt num
  simp [encodeUint16, loadUint16]
  omega

theorem toNat_loadUint16_encodeString (field rest : List UInt8) :
    (loadUint16 (encodeString field ++ rest)).toNat = field.length % 65536 := by
  simp [encodeString]

/-- A length prefix of at most `0xFFFD` is read back with its field and the offset after it. -/
theorem loadBytes_encodeString (field rest : List UInt8) (h : field.length ≤ 65533) :
    loadBytes (encodeString field ++ rest) = .ok (field, field.length + 2) := by
  have he : (loadUint16 (encodeString field ++ rest) + 2).toNat = field.length + 2 := by
    rw [toNat_uint16_add, toNat_loadUint16_encodeString]
    show (field.length % 65536 + 2) % 65536 = _
    omega
  have hl : (encodeString field ++ rest).length = field.length + 2 + rest.length := by
    rw [List.length_append, length_encodeString]
  simp only [loadBytes, he, slice, hl]
  rw [if_neg (by omega), if_pos (by omega), List.take_left' (length_encodeString field)]
  rfl

/-- A length prefix of `0xFFFE` or `0xFFFF` wraps the end offset below 2: `src[2:end]` panics. -/
theorem loadBytes_wrap (src : List UInt8) (hl : 65534 ≤ (loadUint16 src).toNat)
    (hs : 2 ≤ src.length) : loadBytes src = .error sliceBoundsOutOfRange := by
  have he : (loadUint16 src + 2).toNat < 2 := by
    have := uint16_toNat_lt (loadUint16 src)
    rw [toNat_uint16_add]
    show ((loadUint16 src).toNat + 2) % 65536 < 2
    omega
  simp only [loadBytes, slice]
  rw [if_neg (by omega), if_neg (by omega)]
  rfl

theorem loadBytes_encodeString_wrap (field rest : List UInt8) (h : 65534 ≤ field.length)
    (h' : field.length ≤ 65535) :
    loadBytes (encodeString field ++ rest) = .error sliceBoundsOutOfRange :=
  loadBytes_wrap _ (by rw [toNat_loadUint16_encodeString]; omega) (by simp; omega)

/-- A successful `loadBytes` ends inside `src`. -/
theorem loadBytes_end_le {src bs : List UInt8} {e : Nat} (h : loadBytes src = .ok (bs, e)) :
    e ≤ src.length := by
  simp only [loadBytes] at h
  split at h
  · cases h; exact le_rfl
  · unfold slice at h
    split at h
    · cases h; omega
    · cases h

/-- A non-empty field read by `loadBytes` has its two prefix bytes before it. -/
theorem loadBytes_end_of_ne_nil {src bs : List UInt8} {e : Nat} (h : loadBytes src = .ok (bs, e))
    (hb : bs ≠ []) : bs.length + 2 = e ∧ e ≤ src.length := by
  simp only [loadBytes] at h
  split at h
  · cases h; exact absurd rfl hb
  · unfold slice at h
    split at h
    · next hs =>
      cases h
      simp only [List.length_drop, List.length_take]
      omega
    · cases h

end PahoMqtt.Packets
