import NetProbe.Lib.Outcome
import Mathlib.Algebra.Ring.Int.Defs
import Mathlib.Algebra.Ring.Nat
import Mathlib.Data.List.GetD

/-!
# Little-Endian Buffer Reads

Absolute reads of a byte buffer in little-endian order, as
`java.nio.ByteBuffer` makes them. A read outside the buffer throws rather
than returning anything, and a two-byte read is signed: the value of the two
bytes is folded into `[-2^15, 2^15)`.

The signed value is the only one the reads return, so a caller that means the
unsigned one has to convert. `bmod_word` states the read in terms of the
unsigned value, which is where a missing conversion becomes visible.

A buffer often holds records of one length behind each other. A read inside a
window of the buffer is a read of the window alone, and the window of a record
is that record, so a field of a record is read as if nothing stood around it.

## Main definitions

* `Byte`: Eight bits.
* `get`, `getByte`: One byte at an absolute position, and its signed value.
* `leWord`: The unsigned value of two bytes.
* `getShort`: The signed value of the two bytes at an absolute position.
* `leValue`: The unsigned value of any number of bytes.
* `getWide`, `getInt`, `getLong`: The signed value of several bytes.
* `getAt`: A read at a position that may be negative.
* `window`: The part of a buffer from a position on, of a given length.
* `le16`, `le32`: The bytes of a word.

## Theorems

* `getShort_ok`, `getShort_error`: When a two-byte read succeeds.
* `bmod_word`: The signed read of an unsigned value.
* `getByte_ok_iff`, `getShort_ok_iff`, `getWide_ok_iff`: A read succeeds exactly
  when its last byte is inside the buffer.
* `get_window`, `getShort_window`, `getInt_window`: A read of a window.
* `window_records`, `window_flatMap`: The window of a record is the record.
* `getInt_words`: A word of a sequence of words is read back.
* `getWide_eq_iff`: Two reads agree exactly if their bytes do.
* `bmod_le16`, `leValue_le32`: The words read back.
-/

namespace NetProbe

/-- Eight bits. -/
abbrev Byte := BitVec 8

namespace ByteBuffer

/-- `buffer.get(i)`. -/
def get (data : List Byte) (i : Nat) : Except JavaException Byte :=
  match data[i]? with
  | some b => .ok b
  | none => .error .indexOutOfBounds

/-- The two bytes at `i`, low byte first, as an unsigned number. Bytes outside
    the buffer count as zero. -/
def leWord (data : List Byte) (i : Nat) : Nat :=
  (data.getD i 0).toNat + 256 * (data.getD (i + 1) 0).toNat

/-- `buffer.getShort(i)` on a little-endian buffer. -/
def getShort (data : List Byte) (i : Nat) : Except JavaException Int :=
  match data[i]?, data[i + 1]? with
  | some lo, some hi => .ok (Int.bmod ((lo.toNat + 256 * hi.toNat : Nat) : Int) 65536)
  | _, _ => .error .indexOutOfBounds

theorem getShort_ok (data : List Byte) (i : Nat) (h : i + 1 < data.length) :
    getShort data i = .ok (Int.bmod (leWord data i) 65536) := by
  rw [getShort, List.getElem?_eq_getElem h, List.getElem?_eq_getElem (by omega : i < data.length),
    leWord, List.getD_eq_getElem _ _ h, List.getD_eq_getElem _ _ (by omega : i < data.length)]

theorem getShort_error (data : List Byte) (i : Nat) (h : data.length ≤ i + 1) :
    getShort data i = .error .indexOutOfBounds := by
  rw [getShort, List.getElem?_eq_none h]
  cases data[i]? <;> rfl

theorem leWord_lt (data : List Byte) (i : Nat) : leWord data i < 65536 := by
  have hlo := (data.getD i 0).isLt
  have hhi := (data.getD (i + 1) 0).isLt
  rw [leWord]
  omega

/-- The signed read of an unsigned value: the lower half is kept, the upper
    half comes out negative. -/
theorem bmod_word (w : Nat) (h : w < 65536) :
    Int.bmod (w : Int) 65536 = if w < 32768 then (w : Int) else (w : Int) - 65536 := by
  rw [Int.bmod_def]
  split <;> split <;> omega

/-- `buffer.get(i)`, as the signed number it is. -/
def getByte (data : List Byte) (i : Nat) : Except JavaException Int :=
  (get data i).map BitVec.toInt

/-- The value of a sequence of bytes, low byte first, as an unsigned number. -/
def leValue : List Byte → Nat
  | [] => 0
  | b :: bs => b.toNat + 256 * leValue bs

/-- The part of the buffer from `i` on, of length `n` where the buffer reaches
    that far. -/
def window (data : List Byte) (i n : Nat) : List Byte := (data.drop i).take n

/-- The `n` bytes at `i` as a signed number. -/
def getWide (data : List Byte) (i n : Nat) : Except JavaException Int :=
  if i + n ≤ data.length then .ok (Int.bmod (leValue (window data i n)) (256 ^ n))
  else .error .indexOutOfBounds

/-- `buffer.getInt(i)` on a little-endian buffer. -/
def getInt (data : List Byte) (i : Nat) : Except JavaException Int := getWide data i 4

/-- `buffer.getLong(i)` on a little-endian buffer. -/
def getLong (data : List Byte) (i : Nat) : Except JavaException Int := getWide data i 8

/-- A read at an `int` position: a negative one is outside every buffer. -/
def getAt {α : Type} (read : Nat → Except JavaException α) (i : Int) : Except JavaException α :=
  if i < 0 then .error .indexOutOfBounds else read i.toNat

theorem get_ok_iff (data : List Byte) (i : Nat) : (∃ b, get data i = .ok b) ↔ i < data.length := by
  by_cases h : i < data.length
  · rw [get, List.getElem?_eq_getElem h]
    exact iff_of_true ⟨data[i], rfl⟩ h
  · rw [get, List.getElem?_eq_none (Nat.le_of_not_lt h)]
    exact iff_of_false (by simp only [reduceCtorEq, exists_false, not_false_eq_true]) h

theorem getByte_ok_iff (data : List Byte) (i : Nat) :
    (∃ v, getByte data i = .ok v) ↔ i < data.length := by
  rw [getByte, map_ok_iff, get_ok_iff]

theorem getShort_ok_iff (data : List Byte) (i : Nat) :
    (∃ v, getShort data i = .ok v) ↔ i + 1 < data.length := by
  by_cases h : i + 1 < data.length
  · exact iff_of_true ⟨_, getShort_ok data i h⟩ h
  · rw [getShort_error data i (Nat.le_of_not_lt h)]
    exact iff_of_false (by simp only [reduceCtorEq, exists_false, not_false_eq_true]) h

theorem getWide_ok_iff (data : List Byte) (i n : Nat) :
    (∃ v, getWide data i n = .ok v) ↔ i + n ≤ data.length := by
  by_cases h : i + n ≤ data.length
  · exact iff_of_true ⟨_, if_pos h⟩ h
  · rw [getWide, if_neg h]
    exact iff_of_false (by simp only [reduceCtorEq, exists_false, not_false_eq_true]) h

theorem getAt_ok_iff {α : Type} (read : Nat → Except JavaException α) (i : Int) :
    (∃ v, getAt read i = .ok v) ↔ 0 ≤ i ∧ ∃ v, read i.toNat = .ok v := by
  rw [getAt]
  by_cases h : i < 0
  · rw [if_pos h]
    exact iff_of_false (by simp only [reduceCtorEq, exists_false, not_false_eq_true])
      (fun hi => absurd hi.1 (by omega))
  · rw [if_neg h]
    exact ⟨fun hv => ⟨by omega, hv⟩, And.right⟩

@[simp] theorem getAt_natCast {α : Type} (read : Nat → Except JavaException α) (i : Nat) :
    getAt read (i : Int) = read i := by
  rw [getAt, if_neg (by omega), Int.toNat_natCast]

section Windows

variable {data : List Byte} {p n j : Nat}

theorem getElem?_window (h : j < n) : (window data p n)[j]? = data[p + j]? := by
  rw [window, List.getElem?_take_of_lt h, List.getElem?_drop]

theorem get_window (h : j < n) : get data (p + j) = get (window data p n) j := by
  rw [ByteBuffer.get, ByteBuffer.get, getElem?_window h]

theorem getShort_window (h : j + 1 < n) : getShort data (p + j) = getShort (window data p n) j := by
  rw [getShort, getShort, getElem?_window h, getElem?_window (by omega : j < n), Nat.add_assoc]

/-- A window of a window. -/
theorem window_window (m : Nat) (h : j + m ≤ n) :
    window (window data p n) j m = window data (p + j) m := by
  rw [window, window, window, List.drop_take, List.drop_drop, List.take_take,
    Nat.min_eq_left (by omega)]

theorem getInt_window (h : j + 4 ≤ n) : getInt data (p + j) = getInt (window data p n) j := by
  have hlen : j + 4 ≤ (window data p n).length ↔ p + j + 4 ≤ data.length := by
    rw [window, List.length_take, List.length_drop]
    omega
  rw [getInt, getInt, getWide, getWide, window_window 4 h]
  simp only [hlen]

end Windows

/-- The value of `n` bytes is below `256 ^ n`. -/
theorem leValue_lt (bs : List Byte) : leValue bs < 256 ^ bs.length := by
  induction bs with
  | nil => exact Nat.one_pos
  | cons b bs ih =>
      have hb := b.isLt
      rw [leValue, List.length_cons, Nat.pow_succ]
      omega

/-- Bytes of one number are told apart by their value. -/
theorem leValue_inj {bs cs : List Byte} (hlen : bs.length = cs.length)
    (h : leValue bs = leValue cs) : bs = cs := by
  induction bs generalizing cs with
  | nil => exact (List.length_eq_zero_iff.mp hlen.symm).symm
  | cons b bs ih =>
      cases cs with
      | nil => exact absurd hlen (Nat.succ_ne_zero _)
      | cons c cs =>
          have hb := b.isLt
          have hc := c.isLt
          rw [leValue, leValue] at h
          rw [BitVec.eq_of_toNat_eq (by omega : b.toNat = c.toNat),
            ih (Nat.succ.inj hlen) (by omega)]

/-- What a read returns determines the bytes it read. -/
theorem window_of_getWide {data data' : List Byte} {i n : Nat} (h : i + n ≤ data.length)
    (h' : i + n ≤ data'.length) (heq : getWide data i n = getWide data' i n) :
    window data i n = window data' i n := by
  have hlen : ∀ d : List Byte, i + n ≤ d.length → (window d i n).length = n := by
    intro d hd
    rw [window, List.length_take, List.length_drop]
    omega
  have hlt : ∀ d : List Byte, i + n ≤ d.length →
      ((leValue (window d i n) : Nat) : Int) % ((256 ^ n : Nat) : Int)
        = (leValue (window d i n) : Nat) := by
    intro d hd
    have hval := leValue_lt (window d i n)
    rw [hlen d hd] at hval
    exact Int.emod_eq_of_lt (Int.natCast_nonneg _) (Int.ofNat_lt.mpr hval)
  rw [getWide, getWide, if_pos h, if_pos h'] at heq
  have hmod := congrArg (· % ((256 ^ n : Nat) : Int)) (Except.ok.inj heq)
  simp only [Int.bmod_emod] at hmod
  rw [hlt data h, hlt data' h'] at hmod
  exact leValue_inj ((hlen data h).trans (hlen data' h').symm) (Int.ofNat.inj hmod)

theorem window_eq_iff {data data' : List Byte} {i n : Nat} :
    window data i n = window data' i n ↔ ∀ j < n, data[i + j]? = data'[i + j]? := by
  constructor
  · intro h j hj
    rw [← getElem?_window hj, h, getElem?_window hj]
  · intro h
    refine List.ext_getElem? fun j => ?_
    by_cases hj : j < n
    · rw [getElem?_window hj, getElem?_window hj, h j hj]
    · rw [window, window, List.getElem?_take_eq_none (by omega),
        List.getElem?_take_eq_none (by omega)]

/-- Two buffers of one length give the same where they have the same bytes, and
    only there. -/
theorem getWide_eq_iff {data data' : List Byte} {i n : Nat} (hlen : data.length = data'.length)
    (h : i + n ≤ data.length) :
    getWide data i n = getWide data' i n ↔ ∀ j < n, data[i + j]? = data'[i + j]? := by
  rw [← window_eq_iff]
  refine ⟨window_of_getWide h (hlen ▸ h), fun heq => ?_⟩
  rw [getWide, getWide, heq, hlen]

theorem getByte_eq_iff {data data' : List Byte} {i : Nat} (hlen : data.length = data'.length)
    (h : i < data.length) : getByte data i = getByte data' i ↔ data[i]? = data'[i]? := by
  rw [getByte, getByte, ByteBuffer.get, ByteBuffer.get, List.getElem?_eq_getElem h,
    List.getElem?_eq_getElem (hlen ▸ h), Option.some.injEq]
  exact ⟨fun heq => BitVec.eq_of_toInt_eq (Except.ok.inj heq), fun heq => by rw [heq]⟩

/-- A byte that is overwritten outside a window leaves the window as it is. -/
theorem window_set {data : List Byte} {i n k : Nat} (b : Byte) (h : k < i ∨ i + n ≤ k) :
    window (data.set k b) i n = window data i n :=
  window_eq_iff.mpr fun j hj => List.getElem?_set_ne (by omega)

/-- Records of one length stand behind each other, so the window of the `i`-th
    one is that record. -/
theorem window_records {α : Type} (enc : α → List Byte) (len : Nat)
    (hlen : ∀ r, (enc r).length = len) (pre post : List Byte) (recs : List α) (i : Nat)
    (hi : i < recs.length) :
    window (pre ++ recs.flatMap enc ++ post) (pre.length + i * len) len = enc recs[i] := by
  rw [window, List.append_assoc, List.drop_length_add_append]
  induction recs generalizing i with
  | nil => exact absurd hi (Nat.not_lt_zero i)
  | cons r rs ih =>
      rw [List.flatMap_cons, List.append_assoc]
      cases i with
      | zero =>
          rw [Nat.zero_mul, List.drop_zero, ← hlen r, List.take_left]
          rfl
      | succ k =>
          rw [Nat.succ_mul, Nat.add_comm, ← hlen r, List.drop_length_add_append, hlen r]
          exact ih k (Nat.lt_of_succ_lt_succ hi)

theorem length_flatMap_records {α β : Type} (enc : α → List β) (len : Nat)
    (hlen : ∀ r, (enc r).length = len) (recs : List α) :
    (recs.flatMap enc).length = len * recs.length := by
  induction recs with
  | nil => rfl
  | cons r rs ih =>
      rw [List.flatMap_cons, List.length_append, hlen, ih, List.length_cons, Nat.mul_succ,
        Nat.add_comm]

/-- Records of any lengths stand behind each other, so the window of the `i`-th
    one begins behind the bytes of those in front of it. -/
theorem window_flatMap {α : Type} (enc : α → List Byte) (pre post : List Byte) (recs : List α)
    (i : Nat) (hi : i < recs.length) :
    window (pre ++ recs.flatMap enc ++ post) (pre.length + ((recs.take i).flatMap enc).length)
      (enc recs[i]).length = enc recs[i] := by
  have hsplit : recs.flatMap enc
      = (recs.take i).flatMap enc ++ (enc recs[i] ++ (recs.drop (i + 1)).flatMap enc) := by
    rw [← List.flatMap_cons, ← List.drop_eq_getElem_cons hi, ← List.flatMap_append,
      List.take_append_drop]
  rw [hsplit, window, List.append_assoc, List.drop_length_add_append, List.append_assoc,
    List.drop_left, List.append_assoc, List.take_left]

/-- The bytes of a 16-bit word, low byte first. -/
def le16 (w : BitVec 16) : List Byte := [w.extractLsb' 0 8, w.extractLsb' 8 8]

/-- The bytes of a 32-bit word, low byte first. -/
def le32 (w : BitVec 32) : List Byte :=
  [w.extractLsb' 0 8, w.extractLsb' 8 8, w.extractLsb' 16 8, w.extractLsb' 24 8]

/-- The two bytes of a word read back as its signed value. -/
theorem bmod_le16 (w : BitVec 16) :
    Int.bmod (((w.extractLsb' 0 8).toNat + 256 * (w.extractLsb' 8 8).toNat : Nat) : Int) 65536
      = w.toInt := by
  have hw : (w.extractLsb' 0 8).toNat + 256 * (w.extractLsb' 8 8).toNat = w.toNat := by
    have hlt := w.isLt
    simp only [BitVec.extractLsb'_toNat, Nat.shiftRight_eq_div_pow]
    omega
  rw [hw, BitVec.toInt_eq_toNat_bmod]

/-- The four bytes of a word have its value. -/
theorem leValue_le32 (w : BitVec 32) : leValue (le32 w) = w.toNat := by
  have hlt := w.isLt
  simp only [le32, leValue, BitVec.extractLsb'_toNat, Nat.shiftRight_eq_div_pow]
  omega

theorem length_flatMap_le32 (ws : List (BitVec 32)) : (ws.flatMap le32).length = 4 * ws.length :=
  length_flatMap_records le32 4 (fun _ => rfl) ws

/-- A word of a sequence of words is read back. -/
theorem getInt_words {data : List Byte} {p k : Nat} {ws : List (BitVec 32)}
    (h : window data p (4 * ws.length) = ws.flatMap le32) (hk : k < ws.length) :
    getInt data (p + 4 * k) = .ok ws[k].toInt := by
  have hword : window (ws.flatMap le32) (4 * k) 4 = le32 ws[k] := by
    have hrec := window_records le32 4 (fun _ => rfl) [] [] ws k hk
    rw [List.nil_append, List.append_nil, List.length_nil, Nat.zero_add, Nat.mul_comm] at hrec
    exact hrec
  have hsigned : Int.bmod ws[k].toNat (256 ^ 4) = ws[k].toInt :=
    (BitVec.toInt_eq_toNat_bmod ws[k]).symm
  rw [getInt_window (by omega : 4 * k + 4 ≤ 4 * ws.length), h, getInt, getWide,
    if_pos (by rw [length_flatMap_le32]; omega), hword, leValue_le32, hsigned]

end ByteBuffer

end NetProbe
