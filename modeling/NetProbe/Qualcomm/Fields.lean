import NetProbe.Common.Qid
import NetProbe.Qualcomm.Packet
import Mathlib.Data.Rat.Cast.Defs

/-!
# Packet Fields

The parser classes of the packets. Most packets carry a table: the fields of a
header, a record count and the records. Every field is read at an offset computed
from the record's index, and `getNumber` selects the field by its query id.

The layouts differ. The cells of 0x5071 and the neighbours of 0x513A and 0x51FC
stand at fixed distances behind the count. A 0x4179 packet has two tables,
descriptors of a fixed length and behind them the results, and the place of a
result is computed from the declared count and from the task's own descriptor.
The count is a signed byte, so that place can lie before the packet. A 0x5076
packet has no table of its own; its power is looked up in one of the class.

The dB values of 0x4179 are computed in floating point from the fields. That
computation is a parameter, `SearchArith`: the reads in front of it are what
can go wrong.

An `int` index is a natural number here; no caller passes a negative one.

## Main definitions

* `getTickCount`: The time of a packet in milliseconds.
* `GSM5071Packet`, `GSM513APacket`, `GSM5076Packet`, `GSM51FCPacket`,
  `WCDMA4179Packet`: The field reads of each class and their `getNumber`.
* `SearchArith`: The floating-point part of 0x4179.

## Theorems

* `intAnd_mask`, `highNibble_eq`: The two ways a nibble-packed word is taken apart.
* `getTickCount_ok_iff`: The time needs the sixteen header bytes.
* `getNC_ok_iff`, `getResult_ok_iff`, `getEcIo1_ok_iff`: When the reads of a task
  succeed.
-/

namespace NetProbe

open ByteBuffer

/-- `v & mask` on an `int`. -/
def intAnd (v : Int) (mask : Nat) : Int := (BitVec.ofInt 32 v &&& BitVec.ofNat 32 mask).toInt

/-- A mask of the low bits leaves the remainder, whatever the sign was. -/
theorem intAnd_mask (v : Int) (k : Nat) (hk : k < 32) : intAnd v (2 ^ k - 1) = v % 2 ^ k := by
  have hpow : 2 ^ k < 2 ^ 32 := Nat.pow_lt_pow_right (by omega) hk
  have hhalf : 2 ^ k ≤ 2 ^ 31 := Nat.pow_le_pow_right (by omega) (by omega)
  have hpos : 0 < 2 ^ k := Nat.two_pow_pos k
  have hdvd : (2 ^ k : Int) ∣ 2 ^ 32 := pow_dvd_pow 2 (by omega)
  have hnat : (BitVec.ofInt 32 v &&& BitVec.ofNat 32 (2 ^ k - 1)).toNat
      = (v % 2 ^ 32).toNat % 2 ^ k := by
    rw [BitVec.toNat_and, BitVec.toNat_ofInt, BitVec.toNat_ofNat,
      Nat.mod_eq_of_lt (by omega : 2 ^ k - 1 < 2 ^ 32), Nat.and_two_pow_sub_one_eq_mod]
    rfl
  have hlt := Nat.mod_lt (v % 2 ^ 32).toNat hpos
  rw [intAnd, BitVec.toInt_eq_toNat_of_lt (by omega), hnat, Int.natCast_mod,
    Int.toNat_of_nonneg (Int.emod_nonneg v (by omega)), Nat.cast_pow]
  exact Int.emod_emod_of_dvd v hdvd

/-- `(0xF0 & b) >> 4`. -/
def highNibble (b : Byte) : Int := (((b &&& 0xF0) >>> 4).toNat : Int)

theorem highNibble_eq (b : Byte) : highNibble b = ((b.toNat / 16 : Nat) : Int) := by
  have hlt := b.isLt
  have hnat : ((b &&& 0xF0) >>> 4).toNat = b.toNat / 16 % 2 ^ 4 := by
    rw [BitVec.toNat_ushiftRight, BitVec.toNat_and, Nat.shiftRight_and_distrib,
      ← Nat.and_two_pow_sub_one_eq_mod, Nat.shiftRight_eq_div_pow]
    rfl
  rw [highNibble, hnat, Nat.mod_eq_of_lt (by omega)]

namespace PacketBase

def logResponseHeadLen : Nat := 16

/-- The milliseconds between the epochs of the time stamp and of Java, for a
    zone with one offset on both days. -/
def timeOffSet : Int := 315964800000

/-- The upper 48 bits of the time stamp count 1.25 ms, bits 10 to 15 fortieths
    of that. Every number on the way fits the mantissa of a `double`. -/
def getTickCount (p : PacketBase) : Except JavaException Int :=
  (getLong p.mPacketData 8).map fun mTimeStamp =>
    let tmp125MsCount := mTimeStamp / 65536
    let tmp125Ms40Count := mTimeStamp % 65536 / 1024
    Int.tdiv (40 * tmp125MsCount + tmp125Ms40Count) 32 + timeOffSet

def getNumber (p : PacketBase) : Qid → Except JavaException Number
  | .logCode => p.getLogCode.map .int
  | .tickCount => p.getTickCount.map .long
  | _ => .ok (.int (-1))

/-- `getNumber(k, i)`. -/
def getNumberAt (_ : PacketBase) (_ : Qid) (_ : Nat) : Except JavaException Number :=
  .ok (.int (-1))

theorem getTickCount_ok_iff (p : PacketBase) :
    (∃ v, p.getTickCount = .ok v) ↔ 16 ≤ p.mPacketData.length := by
  rw [getTickCount, map_ok_iff, getLong, getWide_ok_iff]

end PacketBase

open PacketBase (logResponseHeadLen)

namespace GSM5071Packet

def cellInfoLen : Nat := 12

def getCellCount (p : PacketBase) : Except JavaException Int :=
  getByte p.mPacketData logResponseHeadLen

def getAEFCN (p : PacketBase) (i : Nat) : Except JavaException Int :=
  (getShort p.mPacketData (logResponseHeadLen + i * cellInfoLen + 1)).map (intAnd · 0x0FFF)

def getBand (p : PacketBase) (i : Nat) : Except JavaException Int :=
  (get p.mPacketData (logResponseHeadLen + i * cellInfoLen + 2)).map highNibble

def getRxPower (p : PacketBase) (i : Nat) : Except JavaException JFloat :=
  (getShort p.mPacketData (logResponseHeadLen + i * cellInfoLen + 3)).map
    fun (w : Int) => .finite ((w : ℚ) / 16)

def getBSICKnow (p : PacketBase) (i : Nat) : Except JavaException Int :=
  getByte p.mPacketData (logResponseHeadLen + i * cellInfoLen + 5)

def getBSIC (p : PacketBase) (i : Nat) : Except JavaException Int :=
  getByte p.mPacketData (logResponseHeadLen + i * cellInfoLen + 6)

def getFrameNumberOffset (p : PacketBase) (i : Nat) : Except JavaException Int :=
  getInt p.mPacketData (logResponseHeadLen + i * cellInfoLen + 7)

def getTimeOffset (p : PacketBase) (i : Nat) : Except JavaException Int :=
  getShort p.mPacketData (logResponseHeadLen + i * cellInfoLen + 11)

def getNumber (p : PacketBase) : Qid → Except JavaException Number
  | .gsm5071BaCount => (getCellCount p).map .byte
  | k => p.getNumber k

def getNumberAt (p : PacketBase) (k : Qid) (i : Nat) : Except JavaException Number :=
  match k with
  | .gsm5071Arfcn => (getAEFCN p i).map .short
  | .gsm5071RxPower => (getRxPower p i).map .float
  | .gsm5071BsicKnow => (getBSICKnow p i).map .byte
  | .gsm5071Bsic => (getBSIC p i).map .byte
  | .gsm5071FnLag => (getFrameNumberOffset p i).map .int
  | .gsm5071QbitLag => (getTimeOffset p i).map .short
  | .gsm5071Band => (getBand p i).map .byte
  | k => p.getNumberAt k i

end GSM5071Packet

namespace GSM513APacket

def ncellDataLen : Nat := 4

def ncellDataStart : Nat := logResponseHeadLen + 8

def getServingBcchArfcn (p : PacketBase) : Except JavaException Int :=
  (getShort p.mPacketData logResponseHeadLen).map (intAnd · 0x0FFF)

def getServingBcchBand (p : PacketBase) : Except JavaException Int :=
  (get p.mPacketData (logResponseHeadLen + 1)).map highNibble

/-- A level byte in dBm. -/
def level (b : Int) : JFloat := .finite ((b : ℚ) - 110)

def getRxLevFull (p : PacketBase) : Except JavaException JFloat :=
  (getByte p.mPacketData (logResponseHeadLen + 2)).map level

def getRxLevSub (p : PacketBase) : Except JavaException JFloat :=
  (getByte p.mPacketData (logResponseHeadLen + 3)).map level

def getRxQualFull (p : PacketBase) : Except JavaException Int :=
  getByte p.mPacketData (logResponseHeadLen + 4)

def getRxQualSub (p : PacketBase) : Except JavaException Int :=
  getByte p.mPacketData (logResponseHeadLen + 5)

def getNCellCount (p : PacketBase) : Except JavaException Int :=
  getShort p.mPacketData (logResponseHeadLen + 6)

def getNCellArfcn (p : PacketBase) (i : Nat) : Except JavaException Int :=
  (getShort p.mPacketData (ncellDataStart + i * ncellDataLen)).map (intAnd · 0x0FFF)

def getNCellBand (p : PacketBase) (i : Nat) : Except JavaException Int :=
  (get p.mPacketData (ncellDataStart + i * ncellDataLen + 1)).map highNibble

def getNCellRxLev (p : PacketBase) (i : Nat) : Except JavaException JFloat :=
  (getByte p.mPacketData (ncellDataStart + i * ncellDataLen + 2)).map level

def getNCellBasic (p : PacketBase) (i : Nat) : Except JavaException Int :=
  getByte p.mPacketData (ncellDataStart + i * ncellDataLen + 3)

def getNumber (p : PacketBase) : Qid → Except JavaException Number
  | .gsmServingArfcn => (getServingBcchArfcn p).map .short
  | .gsmServingBand => (getServingBcchBand p).map .byte
  | .gsmServingRxLevFull => (getRxLevFull p).map .float
  | .gsmServingRxLevSub => (getRxLevSub p).map .float
  | .gsmServingRxLev => (getRxLevSub p).map .float
  | .gsmServingRxQualFull => (getRxQualFull p).map .byte
  | .gsmServingRxQualSub => (getRxQualSub p).map .byte
  | .gsmNeighbourCount => (getNCellCount p).map .short
  | k => p.getNumber k

def getNumberAt (p : PacketBase) (k : Qid) (i : Nat) : Except JavaException Number :=
  match k with
  | .gsmNeighbourArfcn => (getNCellArfcn p i).map .short
  | .gsmNeighbourBand => (getNCellBand p i).map .byte
  | .gsmNeighbourRxLev => (getNCellRxLev p i).map .float
  | .gsmNeighbourBsic => (getNCellBasic p i).map .byte
  | k => p.getNumberAt k i

end GSM513APacket

namespace GSMBand

def gsm900 : Int := 8

def dcs1800 : Int := 9

def pcs1900 : Int := 10

def gsm850 : Int := 11

end GSMBand

namespace GSM5076Packet

def txLevToPowerGSM : List Int :=
  [39, 39, 38, 37, 35, 33, 31, 29, 27, 25, 23, 21, 19, 17, 15, 13, 11, 9, 7,
    5, 5, 5, 4, 4, 3, 3, 2, 2, 1, 1, 0, 0]

def txLevToPowerDCS : List Int :=
  [30, 28, 26, 24, 22, 20, 18, 16, 14, 12, 10, 8, 6, 4, 2, 0, 0, 0, 0, 0, 0,
    0, 0, 0, 0, 0, 0, 0, 0, 36, 34, 32]

def txLevToPowerPCS : List Int :=
  [30, 28, 26, 25, 24, 22, 20, 18, 16, 14, 12, 10, 8, 6, 4, 2, 0, 0, 0, 0,
    0, 0, 33, 33, 33, 33, 33, 33, 33, 33, 33, 32]

/-- `table[i]` for a `byte` index, which may be negative. -/
def lookup (table : List Int) (i : Int) : Except JavaException Int :=
  if i < 0 then .error .arrayIndexOutOfBounds
  else
    match table[i.toNat]? with
    | some v => .ok v
    | none => .error .arrayIndexOutOfBounds

def getTxLev (p : PacketBase) : Except JavaException Int :=
  getByte p.mPacketData (logResponseHeadLen + 2)

def getTA (p : PacketBase) : Except JavaException Int :=
  getByte p.mPacketData (logResponseHeadLen + 3)

def getTxPower (p : PacketBase) : Except JavaException Int := do
  let txPower := -1
  let band ← (get p.mPacketData (logResponseHeadLen + 1)).map highNibble
  let txLev ← getTxLev p
  if txLev > 32 then pure txPower
  else if GSMBand.dcs1800 = band then lookup txLevToPowerDCS txLev
  else if GSMBand.pcs1900 = band then lookup txLevToPowerPCS txLev
  else if GSMBand.gsm850 = band ∨ GSMBand.gsm900 = band then lookup txLevToPowerGSM txLev
  else pure txPower

def getNumber (p : PacketBase) : Qid → Except JavaException Number
  | .gsmTa => (getTA p).map .byte
  | .gsmTxPower => (getTxPower p).map .byte
  | .gsmTxLev => (getTxLev p).map .byte
  | k => p.getNumber k

def getNumberAt (p : PacketBase) (k : Qid) (i : Nat) : Except JavaException Number :=
  p.getNumberAt k i

end GSM5076Packet

namespace GSM51FCPacket

def ncellDataLen : Nat := 25

def ncellDataStart : Nat := logResponseHeadLen + 8

def getServingBcchArfcn (p : PacketBase) : Except JavaException Int :=
  (getShort p.mPacketData logResponseHeadLen).map (intAnd · 0x0FFF)

def getServingBcchBand (p : PacketBase) : Except JavaException Int :=
  (get p.mPacketData (logResponseHeadLen + 1)).map highNibble

def getRxLev (p : PacketBase) : Except JavaException JFloat :=
  (getByte p.mPacketData (logResponseHeadLen + 5)).map GSM513APacket.level

def getServingC1 (p : PacketBase) : Except JavaException Int :=
  getInt p.mPacketData (logResponseHeadLen + 6)

def getServingC2 (p : PacketBase) : Except JavaException Int :=
  getInt p.mPacketData (logResponseHeadLen + 10)

def getServingC31 (p : PacketBase) : Except JavaException Int :=
  getInt p.mPacketData (logResponseHeadLen + 14)

def getServingC32 (p : PacketBase) : Except JavaException Int :=
  getInt p.mPacketData (logResponseHeadLen + 18)

def isRecentReselected (p : PacketBase) : Except JavaException Int :=
  getByte p.mPacketData (logResponseHeadLen + 24)

def getNCellCount (p : PacketBase) : Except JavaException Int :=
  getShort p.mPacketData (logResponseHeadLen + 25)

def getNCellArfcn (p : PacketBase) (i : Nat) : Except JavaException Int :=
  (getShort p.mPacketData (ncellDataStart + i * ncellDataLen)).map (intAnd · 0x0FFF)

def getNCellBand (p : PacketBase) (i : Nat) : Except JavaException Int :=
  (get p.mPacketData (ncellDataStart + i * ncellDataLen + 1)).map highNibble

def getNCellRxLev (p : PacketBase) (i : Nat) : Except JavaException JFloat :=
  (getByte p.mPacketData (ncellDataStart + i * ncellDataLen + 5)).map GSM513APacket.level

def getNCellC1 (p : PacketBase) (i : Nat) : Except JavaException Int :=
  getInt p.mPacketData (ncellDataStart + i * ncellDataLen + 6)

def getNCellC2 (p : PacketBase) (i : Nat) : Except JavaException Int :=
  getInt p.mPacketData (ncellDataStart + i * ncellDataLen + 10)

def getNCellC31 (p : PacketBase) (i : Nat) : Except JavaException Int :=
  getInt p.mPacketData (ncellDataStart + i * ncellDataLen + 14)

def getNCellC32 (p : PacketBase) (i : Nat) : Except JavaException Int :=
  getInt p.mPacketData (ncellDataStart + i * ncellDataLen + 18)

def getNumber (p : PacketBase) : Qid → Except JavaException Number
  | .gsmServingArfcn => (getServingBcchArfcn p).map .short
  | .gsmServingBand => (getServingBcchBand p).map .byte
  | .gsmServingRxLev => (getRxLev p).map .float
  | .gsmServingC1 => (getServingC1 p).map .int
  | .gsmServingC2 => (getServingC2 p).map .int
  | .gsmServingC31 => (getServingC31 p).map .int
  | .gsmServingC32 => (getServingC32 p).map .int
  | .gsmNeighbourCount => (getNCellCount p).map .short
  | k => p.getNumber k

def getNumberAt (p : PacketBase) (k : Qid) (i : Nat) : Except JavaException Number :=
  match k with
  | .gsmNeighbourArfcn => (getNCellArfcn p i).map .short
  | .gsmNeighbourRxLev => (getNCellRxLev p i).map .float
  | .gsmNeighbourC1 => (getNCellC1 p i).map .int
  | .gsmNeighbourC2 => (getNCellC2 p i).map .int
  | .gsmNeighbourC31 => (getNCellC31 p i).map .int
  | .gsmNeighbourC32 => (getNCellC32 p i).map .int
  | k => p.getNumberAt k i

end GSM51FCPacket

/-- The dB values computed from the fields of a search task. -/
structure SearchArith where
  calcEcIo : Int → Int → Int → JFloat
  getRscp : JFloat → Int → JFloat

namespace WCDMA4179Packet

def srchlogtaskInfoLength : Nat := 11

def inputTaskInfoStatPos : Nat := logResponseHeadLen + 14

def getVersionNum (p : PacketBase) : Except JavaException Int :=
  getByte p.mPacketData logResponseHeadLen

def getRxC0Agc0 (p : PacketBase) : Except JavaException Int :=
  getShort p.mPacketData (logResponseHeadLen + 1)

def getRxC0Agc1 (p : PacketBase) : Except JavaException Int :=
  getShort p.mPacketData (logResponseHeadLen + 3)

def getRxC1Agc0 (p : PacketBase) : Except JavaException Int :=
  getShort p.mPacketData (logResponseHeadLen + 5)

def getRxC1Agc1 (p : PacketBase) : Except JavaException Int :=
  getShort p.mPacketData (logResponseHeadLen + 7)

def getFreqHyp (p : PacketBase) : Except JavaException Int :=
  getShort p.mPacketData (logResponseHeadLen + 10)

def getTaskSpecNum (p : PacketBase) : Except JavaException Int :=
  getByte p.mPacketData (logResponseHeadLen + 12)

def getNC (p : PacketBase) (i : Nat) : Except JavaException Int :=
  (getByte p.mPacketData (inputTaskInfoStatPos + i * srchlogtaskInfoLength)).map fun orgNC =>
    if orgNC = 31 then 2048
    else if orgNC = 15 then 1024
    else if orgNC = 7 then 512
    else if orgNC = 3 then 256
    else if orgNC = 1 then 128
    else 0

def getNN (p : PacketBase) (i : Nat) : Except JavaException Int :=
  (getByte p.mPacketData (inputTaskInfoStatPos + i * srchlogtaskInfoLength + 1)).map fun orgNN =>
    if orgNN = 0 then 1
    else if orgNN = 1 then 2
    else if orgNN = 16 then 17
    else if orgNN = 35 then 36
    else 0

def getRxdMode (p : PacketBase) (i : Nat) : Except JavaException Int :=
  (get p.mPacketData (inputTaskInfoStatPos + i * srchlogtaskInfoLength + 2)).map
    fun (rxdInfo : Byte) => ((0x03 &&& rxdInfo).toNat : Int)

def getCarrierInfo (p : PacketBase) (i : Nat) : Except JavaException Int :=
  (get p.mPacketData (inputTaskInfoStatPos + i * srchlogtaskInfoLength + 2)).map
    fun (rxdInfo : Byte) => (((rxdInfo &&& 0x20) >>> 5).toNat : Int)

def getOVSF (p : PacketBase) (i : Nat) : Except JavaException Int :=
  getByte p.mPacketData (inputTaskInfoStatPos + i * srchlogtaskInfoLength + 3)

def getPNPos (p : PacketBase) (i : Nat) : Except JavaException Int :=
  getShort p.mPacketData (inputTaskInfoStatPos + i * srchlogtaskInfoLength + 4)

def getSrcCode (p : PacketBase) (i : Nat) : Except JavaException Int :=
  getShort p.mPacketData (inputTaskInfoStatPos + i * srchlogtaskInfoLength + 6)

def getSet (p : PacketBase) (i : Nat) : Except JavaException Int :=
  getByte p.mPacketData (inputTaskInfoStatPos + i * srchlogtaskInfoLength + 10)

def getTaskInfoStartPos (p : PacketBase) : Except JavaException Int :=
  (getTaskSpecNum p).map fun n => inputTaskInfoStatPos + srchlogtaskInfoLength * n

def getResultNum (p : PacketBase) (j : Nat) : Except JavaException Int :=
  (getRxdMode p j).map fun mode => if 3 = mode then 2 else 1

/-- The word at `off` of what the packet takes for the result of task `j`. -/
def getResult (p : PacketBase) (j off : Nat) : Except JavaException Int := do
  let start ← getTaskInfoStartPos p
  let num ← getResultNum p j
  getAt (getInt p.mPacketData) (start + (3 * 4 + 48 * num) * j + off)

def getFiltEng1 (p : PacketBase) (j : Nat) : Except JavaException Int := getResult p j 0

def getFiltEng2 (p : PacketBase) (j : Nat) : Except JavaException Int := getResult p j 4

def getFiltEng3 (p : PacketBase) (j : Nat) : Except JavaException Int := getResult p j 8

def getPOS1 (p : PacketBase) (j : Nat) : Except JavaException Int := getResult p j 12

def getPOS2 (p : PacketBase) (j : Nat) : Except JavaException Int := getResult p j 16

def getPOS3 (p : PacketBase) (j : Nat) : Except JavaException Int := getResult p j 20

def getPOS4 (p : PacketBase) (j : Nat) : Except JavaException Int := getResult p j 24

def getPOS5 (p : PacketBase) (j : Nat) : Except JavaException Int := getResult p j 28

def getPOS6 (p : PacketBase) (j : Nat) : Except JavaException Int := getResult p j 32

def getENG1 (p : PacketBase) (j : Nat) : Except JavaException Int := getResult p j 36

def getENG2 (p : PacketBase) (j : Nat) : Except JavaException Int := getResult p j 40

def getENG3 (p : PacketBase) (j : Nat) : Except JavaException Int := getResult p j 44

def getENG4 (p : PacketBase) (j : Nat) : Except JavaException Int := getResult p j 48

def getENG5 (p : PacketBase) (j : Nat) : Except JavaException Int := getResult p j 52

def getENG6 (p : PacketBase) (j : Nat) : Except JavaException Int := getResult p j 56

def getPSC (p : PacketBase) (i : Nat) : Except JavaException Int :=
  (getSrcCode p i).map fun code => intAnd code 0x1fff / 16

def getRxAgc (p : PacketBase) (i : Nat) : Except JavaException Int := do
  let rxAgc ← getRxC0Agc0 p
  let carrier ← getCarrierInfo p i
  if 0 ≠ carrier then getRxC1Agc0 p else pure rxAgc

section Arith

variable (arith : SearchArith)

def getEcIo1 (p : PacketBase) (i : Nat) : Except JavaException JFloat := do
  let nc ← getNC p i
  let nn ← getNN p i
  let eng1 ← getFiltEng1 p i
  let eng2 ← getFiltEng2 p i
  let eng3 ← getENG3 p i
  let eng1 := if eng1 > eng2 then eng1 else eng2
  let eng1 := if eng1 > eng3 then eng1 else eng3
  pure (arith.calcEcIo nc nn eng1)

def getPeakEcIo1 (p : PacketBase) (i : Nat) : Except JavaException JFloat := do
  let nc ← getNC p i
  let nn ← getNN p i
  let eng ← getPOS1 p i
  pure (arith.calcEcIo nc nn eng)

/-- The Ec/Io of the energy that `read` returns. -/
def ecIoOf (read : PacketBase → Nat → Except JavaException Int) (p : PacketBase) (i : Nat) :
    Except JavaException JFloat := do
  let nc ← getNC p i
  let nn ← getNN p i
  let eng ← read p i
  pure (arith.calcEcIo nc nn eng)

def getEcIo2 : PacketBase → Nat → Except JavaException JFloat := ecIoOf arith getENG2

def getPeakEcIo2 : PacketBase → Nat → Except JavaException JFloat := ecIoOf arith getPOS2

def getEcIo3 : PacketBase → Nat → Except JavaException JFloat := ecIoOf arith getENG3

def getPeakEcIo3 : PacketBase → Nat → Except JavaException JFloat := ecIoOf arith getPOS3

def getEcIo4 : PacketBase → Nat → Except JavaException JFloat := ecIoOf arith getENG4

def getPeakEcIo4 : PacketBase → Nat → Except JavaException JFloat := ecIoOf arith getPOS4

def getEcIo5 : PacketBase → Nat → Except JavaException JFloat := ecIoOf arith getENG5

def getPeakEcIo5 : PacketBase → Nat → Except JavaException JFloat := ecIoOf arith getPOS5

def getEcIo6 : PacketBase → Nat → Except JavaException JFloat := ecIoOf arith getENG6

def getPeakEcIo6 : PacketBase → Nat → Except JavaException JFloat := ecIoOf arith getPOS6

def getNumber (p : PacketBase) : Qid → Except JavaException Number
  | .wcdma4179TaskNum => (getTaskSpecNum p).map .byte
  | k => p.getNumber k

def getNumberAt (p : PacketBase) (k : Qid) (i : Nat) : Except JavaException Number :=
  match k with
  | .wcdma4179Carrier => (getCarrierInfo p i).map .byte
  | .wcdma4179Psc => (getPSC p i).map .int
  | .wcdma4179R99Set => (getSet p i).map .byte
  -- Nothing equals `NaN`, so the comparison in front of this branch always lets
  -- it be taken.
  | .wcdma4179Rscp => do
      let ecIo ← getEcIo1 arith p i
      let rxAgc ← getRxAgc p i
      pure (.float (arith.getRscp ecIo rxAgc))
  | .wcdma4179EcIo => (getEcIo1 arith p i).map .float
  | .wcdma4179PeakEcIo => (getPeakEcIo1 arith p i).map .float
  | k => p.getNumber k

end Arith

/-! ### When the reads of a task succeed -/

/-- The signed task count a packet declares. -/
def taskSpecNum (data : List Byte) : Int := (data.getD 28 0).toInt

/-- The number of result sets the descriptor of task `j` declares. -/
def resultNum (data : List Byte) (j : Nat) : Nat :=
  if 0x03 &&& data.getD (30 + j * 11 + 2) 0 = 0x03 then 2 else 1

/-- Where the packet looks for the result of task `j`. -/
def resultPos (data : List Byte) (j : Nat) : Int :=
  30 + 11 * taskSpecNum data + (12 + 48 * (resultNum data j : Int)) * j

theorem getTaskSpecNum_eq (p : PacketBase) (h : 28 < p.mPacketData.length) :
    getTaskSpecNum p = .ok (taskSpecNum p.mPacketData) := by
  rw [getTaskSpecNum, getByte, ByteBuffer.get, logResponseHeadLen, List.getElem?_eq_getElem h,
    taskSpecNum, List.getD_eq_getElem _ _ h]
  rfl

theorem getResultNum_eq (p : PacketBase) (j : Nat) (h : 30 + j * 11 + 2 < p.mPacketData.length) :
    getResultNum p j = .ok (resultNum p.mPacketData j : Int) := by
  have hmode : ∀ b : Byte, (if (3 : Int) = ((0x03 &&& b).toNat : Int) then (2 : Int) else 1)
      = ((if 0x03 &&& b = 0x03 then 2 else 1 : Nat) : Int) := by
    intro b
    by_cases hb : 0x03 &&& b = 0x03
    · rw [if_pos hb, hb]
      rfl
    · rw [if_neg hb, if_neg]
      · rfl
      · intro hnat
        exact hb (BitVec.eq_of_toNat_eq (Int.ofNat.inj hnat).symm)
  rw [getResultNum, getRxdMode, ByteBuffer.get, resultNum, inputTaskInfoStatPos,
    logResponseHeadLen, srchlogtaskInfoLength, List.getElem?_eq_getElem h,
    List.getD_eq_getElem _ _ h]
  exact congrArg Except.ok (hmode _)

/-- A word of a result is read where the declared count and the task's own
    descriptor place the result. -/
theorem getResult_eq (p : PacketBase) (j off : Nat)
    (h : 30 + j * 11 + 2 < p.mPacketData.length) :
    getResult p j off = getAt (getInt p.mPacketData) (resultPos p.mPacketData j + off) := by
  rw [getResult, getTaskInfoStartPos, getTaskSpecNum_eq p (by omega), getResultNum_eq p j h]
  rfl

theorem getResult_ok_iff (p : PacketBase) (j off : Nat)
    (h : 30 + j * 11 + 2 < p.mPacketData.length) :
    (∃ v, getResult p j off = .ok v) ↔ 0 ≤ resultPos p.mPacketData j + off
      ∧ resultPos p.mPacketData j + off + 4 ≤ p.mPacketData.length := by
  rw [getResult_eq p j off h, getAt_ok_iff, getInt, getWide_ok_iff]
  omega

theorem getNC_ok_iff (p : PacketBase) (i : Nat) :
    (∃ v, getNC p i = .ok v) ↔ 30 + i * 11 < p.mPacketData.length := by
  rw [getNC, map_ok_iff, getByte_ok_iff]
  rfl

theorem getNN_ok_iff (p : PacketBase) (i : Nat) :
    (∃ v, getNN p i = .ok v) ↔ 30 + i * 11 + 1 < p.mPacketData.length := by
  rw [getNN, map_ok_iff, getByte_ok_iff]
  rfl

theorem getCarrierInfo_ok_iff (p : PacketBase) (i : Nat) :
    (∃ v, getCarrierInfo p i = .ok v) ↔ 30 + i * 11 + 2 < p.mPacketData.length := by
  rw [getCarrierInfo, map_ok_iff, get_ok_iff]
  rfl

theorem getPSC_ok_iff (p : PacketBase) (i : Nat) :
    (∃ v, getPSC p i = .ok v) ↔ 30 + i * 11 + 7 < p.mPacketData.length := by
  rw [getPSC, map_ok_iff, getSrcCode, getShort_ok_iff]
  rfl

theorem getSet_ok_iff (p : PacketBase) (i : Nat) :
    (∃ v, getSet p i = .ok v) ↔ 30 + i * 11 + 10 < p.mPacketData.length := by
  rw [getSet, getByte_ok_iff]
  rfl

/-- Behind a whole descriptor the gain is always there. -/
theorem getRxAgc_ok (p : PacketBase) (i : Nat) (h : 30 + i * 11 + 2 < p.mPacketData.length) :
    ∃ v, getRxAgc p i = .ok v := by
  have hgain : ∃ v, getRxC1Agc0 p = .ok v := by
    rw [getRxC1Agc0, getShort_ok_iff, logResponseHeadLen]
    omega
  have hcarrier := (getCarrierInfo_ok_iff p i).mpr h
  rw [getRxAgc, bind_ok_iff _ _ True]
  · rw [getRxC0Agc0, getShort_ok_iff, logResponseHeadLen]
    exact ⟨by omega, trivial⟩
  · intro rxAgc
    rw [bind_ok_iff _ _ True]
    · exact iff_of_true ⟨hcarrier, trivial⟩ trivial
    · intro carrier
      split
      · exact iff_of_true hgain trivial
      · exact pure_ok rxAgc

section Arith

variable (arith : SearchArith) (p : PacketBase) (i : Nat)

theorem getEcIo1_ok_iff (h : 30 + i * 11 + 2 < p.mPacketData.length) :
    (∃ v, getEcIo1 arith p i = .ok v) ↔ 0 ≤ resultPos p.mPacketData i
      ∧ resultPos p.mPacketData i + 48 ≤ p.mPacketData.length := by
  rw [getEcIo1, bind_ok_iff _ _ _ (fun nc => bind_ok_iff _ _ _ (fun nn => bind_ok_iff _ _ _
    (fun e1 => bind_ok_iff _ _ _ (fun e2 => bind_ok_iff _ _ _ (fun e3 => pure_ok _))))),
    getNC_ok_iff, getNN_ok_iff, getFiltEng1, getFiltEng2, getENG3, getResult_ok_iff p i _ h,
    getResult_ok_iff p i _ h, getResult_ok_iff p i _ h, and_true]
  omega

theorem getPeakEcIo1_ok_iff (h : 30 + i * 11 + 2 < p.mPacketData.length) :
    (∃ v, getPeakEcIo1 arith p i = .ok v) ↔ 0 ≤ resultPos p.mPacketData i + 12
      ∧ resultPos p.mPacketData i + 16 ≤ p.mPacketData.length := by
  rw [getPeakEcIo1, bind_ok_iff _ _ _ (fun nc => bind_ok_iff _ _ _ (fun nn => bind_ok_iff _ _ _
    (fun eng => pure_ok _))), getNC_ok_iff, getNN_ok_iff, getPOS1, getResult_ok_iff p i _ h,
    and_true]
  omega

end Arith

end WCDMA4179Packet

end NetProbe
