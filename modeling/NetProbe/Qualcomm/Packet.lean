import NetProbe.Lib.ByteBuffer

/-!
# Packet Objects

A diag packet reaches the screens as a `PacketBase` object wrapping the bytes
of one frame. The object is mutable: `setPacketData` replaces the bytes, and
the factory holds one object per log code and hands out that same object each
time, with the new bytes in it.

Objects are therefore named by a reference and their contents kept in a
separate store, so that two holders of one reference see the same bytes.

The reads of `isValid` and `getLogCode` are at fixed offsets and throw when
the packet is shorter. The lemmas about them go by the first byte, and say
exactly when a read throws and what it returns otherwise; later modules use
these and never unfold the reads.

## Main definitions

* `PacketBase`: The bytes an object wraps and their recorded length.
* `isValid`, `getLogCode`: The two header reads.
* `declaredLength`, `wireCode`: The header fields as unsigned numbers.
* `PacketFactory`: One packet object per known log code.

## Theorems

* `isValid_nil`, `isValid_other`, `isValid_log`: When the validity check
  throws, and what it returns.
* `isValid_log_short`: The check of a packet the decode buffer can hold.
* `getLogCode_log`: When the log code read throws, and what it returns.
-/

namespace NetProbe

open ByteBuffer

def cmdCodeLogRsp : Byte := 0x10

/-- `(short) 0xFFFF`, widened to an `int`. -/
def invalidLogcode : Int := -1

/-- A packet object: the wrapped bytes and the length recorded with them. -/
structure PacketBase where
  mPacketData : List Byte
  mLength : Nat
  deriving DecidableEq, Repr

namespace PacketBase

/-- A new object wraps nothing yet. -/
def empty : PacketBase := { mPacketData := [], mLength := 0 }

def setPacketData (_ : PacketBase) (packetData : List Byte) : PacketBase :=
  { mPacketData := packetData, mLength := packetData.length }

def isValid (p : PacketBase) : Except JavaException Bool :=
  match get p.mPacketData 0 with
  | .error e => .error e
  | .ok cmd =>
      if cmd = cmdCodeLogRsp then
        match getShort p.mPacketData 2 with
        | .error e => .error e
        | .ok len => .ok (decide ((p.mLength : Int) = len + 4))
      else .ok false

def getLogCode (p : PacketBase) : Except JavaException Int :=
  match get p.mPacketData 0 with
  | .error e => .error e
  | .ok cmd => if cmd = cmdCodeLogRsp then getShort p.mPacketData 6 else .ok invalidLogcode

end PacketBase

/-- The object that wraps the given bytes. -/
def wrap (data : List Byte) : PacketBase := { mPacketData := data, mLength := data.length }

@[simp] theorem setPacketData_eq (p : PacketBase) (data : List Byte) :
    p.setPacketData data = wrap data := rfl

@[simp] theorem wrap_mPacketData (data : List Byte) : (wrap data).mPacketData = data := rfl

/-- The length a packet declares for itself, at offset 2. -/
def declaredLength (data : List Byte) : Nat := leWord data 2

/-- The log code on the wire, at offset 6. -/
def wireCode (data : List Byte) : Nat := leWord data 6

/-- The value of a log code field as the map lookups see it. -/
def signedCode (w : Nat) : Int := if w < 32768 then (w : Int) else (w : Int) - 65536

theorem isValid_nil : (wrap []).isValid = .error .indexOutOfBounds := rfl

/-- A packet that does not start with the log response command is invalid. -/
theorem isValid_other (b : Byte) (rest : List Byte) (hb : b ≠ cmdCodeLogRsp) :
    (wrap (b :: rest)).isValid = .ok false := by
  simp only [PacketBase.isValid, wrap, ByteBuffer.get, List.getElem?_cons_zero]
  rw [if_neg hb]

/-- A log response is valid when its declared length is its own, and the check
    throws when the length field is not there. -/
theorem isValid_log (rest : List Byte) :
    (wrap (cmdCodeLogRsp :: rest)).isValid =
      if rest.length < 3 then .error .indexOutOfBounds
      else .ok (decide (((rest.length + 1 : Nat) : Int)
        = Int.bmod (declaredLength (cmdCodeLogRsp :: rest) : Int) 65536 + 4)) := by
  simp only [PacketBase.isValid, wrap, ByteBuffer.get, List.getElem?_cons_zero, if_true,
    List.length_cons]
  by_cases hshort : rest.length < 3
  · rw [if_pos hshort, getShort_error _ _ (by rw [List.length_cons]; omega)]
  · rw [if_neg hshort, getShort_ok _ _ (by rw [List.length_cons]; omega)]
    rfl

/-- A packet short enough for the decode buffer cannot declare its own length
    with the sign bit set, so the signed read decides as the unsigned field
    does. -/
theorem isValid_log_short (rest : List Byte) (hmin : 3 ≤ rest.length) (hmax : rest.length < 32768) :
    (wrap (cmdCodeLogRsp :: rest)).isValid
      = .ok (decide (rest.length + 1 = declaredLength (cmdCodeLogRsp :: rest) + 4)) := by
  rw [isValid_log, if_neg (by omega)]
  have hlt : declaredLength (cmdCodeLogRsp :: rest) < 65536 := leWord_lt _ _
  rw [bmod_word _ hlt]
  congr 1
  rw [decide_eq_decide]
  split <;> omega

/-- The log code of a log response is the signed value of its field. -/
theorem getLogCode_log (rest : List Byte) :
    (wrap (cmdCodeLogRsp :: rest)).getLogCode =
      if rest.length < 7 then .error .indexOutOfBounds
      else .ok (signedCode (wireCode (cmdCodeLogRsp :: rest))) := by
  simp only [PacketBase.getLogCode, wrap, ByteBuffer.get, List.getElem?_cons_zero, if_true]
  by_cases hshort : rest.length < 7
  · rw [if_pos hshort, getShort_error _ _ (by rw [List.length_cons]; omega)]
  · rw [if_neg hshort, getShort_ok _ _ (by rw [List.length_cons]; omega),
      bmod_word _ (leWord_lt _ _)]
    rfl

/-- The identity of a packet object. -/
abbrev PacketRef := Nat

/-- The packet objects by log code. -/
structure PacketFactory where
  packetMap : Int → Option PacketRef

namespace PacketFactory

/-- `register(logcode, packet)`: an entry that exists is kept. -/
def register (f : PacketFactory) (logcode : Int) (packet : PacketRef) : PacketFactory :=
  match f.packetMap logcode with
  | some _ => f
  | none => { packetMap := fun k => if k = logcode then some packet else f.packetMap k }

def empty : PacketFactory := { packetMap := fun _ => none }

/-- The factory the constructor builds, with one object per parser class. -/
def initial : PacketFactory :=
  (((empty.register 0x513A 0).register 0x5071 1).register 0x5076 2).register 0x4179 3

/-- The packet objects' contents, by reference. -/
abbrev Objects := PacketRef → PacketBase

/-- `getPacket(logcode, packetData)`: the known object, now wrapping the new
    bytes, together with the store that holds them. -/
def getPacket (f : PacketFactory) (objects : Objects) (logcode : Int) (packetData : List Byte) :
    Option PacketRef × Objects :=
  match f.packetMap logcode with
  | none => (none, objects)
  | some r =>
      (some r, fun k => if k = r then (objects r).setPacketData packetData else objects k)

end PacketFactory

end NetProbe
