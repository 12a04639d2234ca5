import NetProbe.Lib.ByteBuffer

/-!
# Integers in Files

Thirty-two bit arithmetic and the file operations that go with it: an integer
is written as four bytes, high byte first, read back as four bytes or not at
all, and a file is overwritten at a position and grows when the position lies
past its end.

An `int` is an `Int` kept in range by `toInt32` wherever the source's
operations wrap. `toInt32_eq` removes the wrapping once a range is known, so
arithmetic that stays in range is plain arithmetic, and a place where it does
not stays visible.

## Main definitions

* `toInt32`: The `int` an arithmetic result wraps to.
* `intBytes`: The four bytes of an `int`.
* `readInt`: The next four bytes of a stream as an `int`.
* `readFully`: A fixed number of bytes, missing ones left zero.
* `writeAt`: A file after a write at a position.
* `intAt`: The `int` at a position of a file.

## Theorems

* `toInt32_eq`: In range nothing wraps.
* `readInt_intBytes`: An `int` is read back as written.
* `readInt_short`: Fewer than four bytes are no `int`.
* `getElem?_writeAt`: What a file holds after a write.
* `writeAt_slot`: Overwriting a slot leaves the rest in place.
* `readInt_drop`: Reading a stream is reading its positions.
* `intAt_eq_none_iff`: Which positions hold an `int`.
* `intAt_append`: The `int`s of the beginning of a file.
* `intAt_writeAt_self`, `intAt_writeAt_other`: The `int`s of a file after a
  write.
-/

namespace NetProbe

/-- The value an `int` computation wraps to. -/
def toInt32 (x : Int) : Int := Int.bmod x 4294967296

theorem toInt32_eq (x : Int) (hlo : -2147483648 ≤ x) (hhi : x < 2147483648) : toInt32 x = x := by
  unfold toInt32
  rw [Int.bmod_def]
  split <;> omega

theorem toInt32_range (x : Int) : -2147483648 ≤ toInt32 x ∧ toInt32 x < 2147483648 := by
  unfold toInt32
  rw [Int.bmod_def]
  split <;> omega

/-- What survives wrapping is the value modulo `2 ^ 32`. -/
theorem toInt32_emod (x : Int) : toInt32 (x % 4294967296) = toInt32 x := by
  unfold toInt32
  exact Int.emod_bmod x 4294967296

/-- The unsigned value of an `int`. -/
def unsigned32 (v : Int) : Nat := (v % 4294967296).toNat

/-- `writeInt(v)`: four bytes, high byte first. -/
def intBytes (v : Int) : List Byte :=
  [BitVec.ofNat 8 (unsigned32 v / 16777216), BitVec.ofNat 8 (unsigned32 v / 65536),
    BitVec.ofNat 8 (unsigned32 v / 256), BitVec.ofNat 8 (unsigned32 v)]

/-- `readInt()`: the next four bytes, or the end of the stream. -/
def readInt : List Byte → Option (Int × List Byte)
  | b₀ :: b₁ :: b₂ :: b₃ :: rest =>
      some (toInt32 (b₀.toNat * 16777216 + b₁.toNat * 65536 + b₂.toNat * 256 + b₃.toNat), rest)
  | _ => none

/-- `read(bytes)` into a new array: bytes past the end of the stream stay
    zero. -/
def readFully (n : Nat) (stream : List Byte) : List Byte × List Byte :=
  (stream.take n ++ List.replicate (n - stream.length) 0, stream.drop n)

/-- `seek(pos); write(data)`: bytes between the end of the file and the
    position read as zero. -/
def writeAt (file : List Byte) (pos : Nat) (data : List Byte) : List Byte :=
  file.take pos ++ List.replicate (pos - file.length) 0 ++ data ++ file.drop (pos + data.length)

@[simp] theorem length_intBytes (v : Int) : (intBytes v).length = 4 := rfl

theorem readInt_intBytes (v : Int) (rest : List Byte) :
    readInt (intBytes v ++ rest) = some (toInt32 v, rest) := by
  have hlt : unsigned32 v < 4294967296 := by
    unfold unsigned32
    omega
  have hcast : ((unsigned32 v : Nat) : Int) = v % 4294967296 := by
    unfold unsigned32
    omega
  have hsum : ((unsigned32 v / 16777216 % 256 : Nat) : Int) * 16777216
      + ((unsigned32 v / 65536 % 256 : Nat) : Int) * 65536
      + ((unsigned32 v / 256 % 256 : Nat) : Int) * 256 + ((unsigned32 v % 256 : Nat) : Int)
        = v % 4294967296 := by
    omega
  have hwidth : (2 : Nat) ^ 8 = 256 := rfl
  simp only [intBytes, List.cons_append, List.nil_append, readInt, BitVec.toNat_ofNat, hwidth]
  rw [hsum, toInt32_emod]

/-- An `int` in range is read back as written. -/
theorem readInt_intBytes_eq (v : Int) (rest : List Byte) (hlo : -2147483648 ≤ v)
    (hhi : v < 2147483648) : readInt (intBytes v ++ rest) = some (v, rest) := by
  rw [readInt_intBytes, toInt32_eq v hlo hhi]

theorem readInt_short (stream : List Byte) (h : stream.length < 4) : readInt stream = none := by
  rcases stream with _ | ⟨a, _ | ⟨b, _ | ⟨c, _ | ⟨d, rest⟩⟩⟩⟩
  · rfl
  · rfl
  · rfl
  · rfl
  · simp only [List.length_cons] at h
    omega

theorem readInt_range (stream rest : List Byte) (v : Int) (h : readInt stream = some (v, rest)) :
    -2147483648 ≤ v ∧ v < 2147483648 := by
  unfold readInt at h
  split at h
  · simp only [Option.some.injEq, Prod.mk.injEq] at h
    rw [← h.1]
    exact toInt32_range _
  · exact absurd h (by simp only [reduceCtorEq, not_false_eq_true])

theorem readFully_append (n : Nat) (data rest : List Byte) (h : data.length = n) :
    readFully n (data ++ rest) = (data, rest) := by
  unfold readFully
  rw [List.take_left' h, List.drop_left' h]
  have hzero : n - (data ++ rest).length = 0 := by
    rw [List.length_append]
    omega
  rw [hzero, List.replicate_zero, List.append_nil]

theorem length_writeAt (file : List Byte) (pos : Nat) (data : List Byte) :
    (writeAt file pos data).length = max file.length (pos + data.length) := by
  unfold writeAt
  simp only [List.length_append, List.length_take, List.length_replicate, List.length_drop]
  omega

/-- What a file holds after a write inside it. -/
theorem getElem?_writeAt (file : List Byte) (pos : Nat) (data : List Byte) (i : Nat)
    (h : pos + data.length ≤ file.length) :
    (writeAt file pos data)[i]? =
      if pos ≤ i ∧ i < pos + data.length then data[i - pos]? else file[i]? := by
  unfold writeAt
  have hpad : pos - file.length = 0 := by omega
  rw [hpad, List.replicate_zero, List.append_nil]
  have htake : (file.take pos).length = pos := by
    rw [List.length_take]
    omega
  by_cases hlo : i < pos
  · rw [if_neg (by omega), List.append_assoc, List.getElem?_append_left (by omega),
      List.getElem?_take_of_lt hlo]
  · by_cases hhi : i < pos + data.length
    · rw [if_pos ⟨by omega, hhi⟩, List.append_assoc, List.getElem?_append_right (by omega), htake,
        List.getElem?_append_left (by omega)]
    · rw [if_neg (by omega), List.getElem?_append_right (by rw [List.length_append]; omega),
        List.length_append, htake, List.getElem?_drop]
      congr 1
      omega

/-- Overwriting a slot with as many bytes leaves what is before and after it
    in place. -/
theorem writeAt_slot (before slot after data : List Byte) (h : data.length = slot.length) :
    writeAt (before ++ slot ++ after) before.length data = before ++ data ++ after := by
  unfold writeAt
  have hpad : before.length - (before ++ slot ++ after).length = 0 := by
    simp only [List.length_append]
    omega
  have hhead : (before ++ slot ++ after).take before.length = before := by
    rw [List.append_assoc, List.take_left]
  rw [hpad, List.replicate_zero, List.append_nil, hhead,
    List.drop_left' (by rw [List.length_append, h])]

/-- The `int` at a position of a file, if it is inside. -/
def intAt (file : List Byte) (pos : Nat) : Option Int := (readInt (file.drop pos)).map Prod.fst

theorem readInt_drop (file : List Byte) (pos : Nat) :
    readInt (file.drop pos) = (intAt file pos).map (fun v => (v, file.drop (pos + 4))) := by
  have hdrop : file.drop (pos + 4) = (file.drop pos).drop 4 := by rw [List.drop_drop]
  unfold intAt
  rw [hdrop]
  rcases file.drop pos with _ | ⟨a, _ | ⟨b, _ | ⟨c, _ | ⟨d, rest⟩⟩⟩⟩
  · rfl
  · rfl
  · rfl
  · rfl
  · simp only [readInt, Option.map_some, List.drop_succ_cons, List.drop_zero]

theorem readInt_eq (stream : List Byte) :
    readInt stream = (intAt stream 0).map (fun v => (v, stream.drop 4)) := by
  have hread := readInt_drop stream 0
  rw [List.drop_zero, Nat.zero_add] at hread
  exact hread

theorem intAt_drop (file : List Byte) (n pos : Nat) :
    intAt (file.drop n) pos = intAt file (n + pos) := by
  unfold intAt
  rw [List.drop_drop]

theorem intAt_eq_none_iff (file : List Byte) (pos : Nat) :
    intAt file pos = none ↔ file.length < pos + 4 := by
  have hlength : (file.drop pos).length < 4 ↔ file.length < pos + 4 := by
    rw [List.length_drop]
    omega
  unfold intAt
  rw [Option.map_eq_none_iff, ← hlength]
  constructor
  · intro hnone
    rcases hfile : file.drop pos with _ | ⟨a, _ | ⟨b, _ | ⟨c, _ | ⟨d, rest⟩⟩⟩⟩
    · simp
    · simp
    · simp
    · simp
    · rw [hfile] at hnone
      exact absurd hnone (by simp only [readInt, reduceCtorEq, not_false_eq_true])
  · exact readInt_short _

theorem intAt_range {file : List Byte} {pos : Nat} {v : Int} (h : intAt file pos = some v) :
    -2147483648 ≤ v ∧ v < 2147483648 := by
  have hread := readInt_drop file pos
  rw [h] at hread
  exact readInt_range _ _ v hread

/-- Four bytes make an `int`. -/
theorem intAt_congr {file file' : List Byte} {pos : Nat}
    (h : ∀ k < 4, file[pos + k]? = file'[pos + k]?) : intAt file pos = intAt file' pos := by
  have hfour : ∀ s : List Byte, (readInt (s.take 4)).map Prod.fst = (readInt s).map Prod.fst := by
    intro s
    rcases s with _ | ⟨a, _ | ⟨b, _ | ⟨c, _ | ⟨d, rest⟩⟩⟩⟩
    · rfl
    · rfl
    · rfl
    · rfl
    · rfl
  have hsame : (file.drop pos).take 4 = (file'.drop pos).take 4 := by
    apply List.ext_getElem?
    intro k
    rw [List.getElem?_take, List.getElem?_take]
    by_cases hk : k < 4
    · rw [if_pos hk, if_pos hk, List.getElem?_drop, List.getElem?_drop]
      exact h k hk
    · rw [if_neg hk, if_neg hk]
  unfold intAt
  rw [← hfour, ← hfour (file'.drop pos), hsame]

/-- Bytes that follow change no `int` that is there. -/
theorem intAt_append {file : List Byte} {pos : Nat} {v : Int} (h : intAt file pos = some v)
    (rest : List Byte) : intAt (file ++ rest) pos = some v := by
  have hlong : ¬ file.length < pos + 4 := by
    intro hshort
    rw [(intAt_eq_none_iff file pos).mpr hshort] at h
    exact absurd h (by simp only [reduceCtorEq, not_false_eq_true])
  rw [← h]
  apply intAt_congr
  intro k hk
  exact List.getElem?_append_left (by omega)

theorem intAt_writeAt_self (file : List Byte) (pos : Nat) (v : Int)
    (h : pos + 4 ≤ file.length) : intAt (writeAt file pos (intBytes v)) pos = some (toInt32 v) := by
  have hdrop : (writeAt file pos (intBytes v)).drop pos = intBytes v ++ file.drop (pos + 4) := by
    unfold writeAt
    have hpad : pos - file.length = 0 := by omega
    rw [hpad, List.replicate_zero, List.append_nil, List.append_assoc, length_intBytes]
    exact List.drop_left' (by rw [List.length_take]; omega)
  unfold intAt
  rw [hdrop, readInt_intBytes]
  rfl

/-- A write leaves the `int`s that it does not touch. -/
theorem intAt_writeAt_other (file : List Byte) (pos : Nat) (data : List Byte) (at' : Nat)
    (h : pos + data.length ≤ file.length) (hother : at' + 4 ≤ pos ∨ pos + data.length ≤ at') :
    intAt (writeAt file pos data) at' = intAt file at' := by
  apply intAt_congr
  intro k hk
  rw [getElem?_writeAt file pos data _ h, if_neg (by omega)]

end NetProbe
