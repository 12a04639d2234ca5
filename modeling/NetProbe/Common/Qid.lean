import NetProbe.Lib.Outcome
import Mathlib.Algebra.Ring.Int.Defs
import Mathlib.Algebra.Ring.Nat
import Mathlib.Data.Rat.Defs

/-!
# Query Ids and Boxed Numbers

The fields of a packet are asked for by a query id, and the answer is a boxed
`Number`. The box remembers the type it was made from, and callers cast to it,
so the types are constructors here.

A `float` field is a small integer scaled by a power of two or shifted by a
constant, which single precision holds exactly; its value is kept as a
rational. The other values of the type stand beside it.

## Main definitions

* `Qid`: The query ids.
* `JFloat`: The value of a `float`.
* `Number`: A boxed number.
* `intValue`, `shortValue`, `byteValue`: The narrowing conversions.
* `asByte`: The cast to a boxed byte.
-/

namespace NetProbe

/-- `QID.ID`. -/
inductive Qid where
  | unknown
  | tickCount
  | logCode
  | gsmServingArfcn
  | gsmServingBand
  | gsmServingRxLevFull
  | gsmServingRxLevSub
  | gsmServingRxLev
  | gsmServingRxQualFull
  | gsmServingRxQualSub
  | gsmServingC1
  | gsmServingC2
  | gsmServingC31
  | gsmServingC32
  | gsmNeighbourCount
  | gsmNeighbourArfcn
  | gsmNeighbourBand
  | gsmNeighbourRxLev
  | gsmNeighbourBsic
  | gsmNeighbourC1
  | gsmNeighbourC2
  | gsmNeighbourC31
  | gsmNeighbourC32
  | gsmTa
  | gsmTxPower
  | gsmTxLev
  | gsm5071BaCount
  | gsm5071Arfcn
  | gsm5071RxPower
  | gsm5071BsicKnow
  | gsm5071Bsic
  | gsm5071FnLag
  | gsm5071QbitLag
  | gsm5071Band
  | wcdma4179TaskNum
  | wcdma4179Carrier
  | wcdma4179Psc
  | wcdma4179R99Set
  | wcdma4179Rscp
  | wcdma4179EcIo
  | wcdma4179PeakEcIo
  deriving DecidableEq, Repr

/-- The value of a `float`. -/
inductive JFloat where
  | finite (q : ℚ)
  | nan
  | posInf
  | negInf
  deriving DecidableEq, Repr

/-- A boxed number, by the type it was boxed from. -/
inductive Number where
  | byte (v : Int)
  | short (v : Int)
  | int (v : Int)
  | long (v : Int)
  | float (v : JFloat)
  deriving DecidableEq, Repr

/-- `(int)` of a `float`: towards zero, and the nearest end of the range for a
    value outside it. -/
def JFloat.toInt : JFloat → Int
  | .finite q => max (-2 ^ 31) (min (2 ^ 31 - 1) (Int.tdiv q.num q.den))
  | .nan => 0
  | .posInf => 2 ^ 31 - 1
  | .negInf => -2 ^ 31

namespace Number

def intValue : Number → Int
  | .byte v => v
  | .short v => v
  | .int v => v
  | .long v => Int.bmod v (2 ^ 32)
  | .float v => v.toInt

def shortValue : Number → Int
  | .byte v => v
  | .short v => v
  | n => Int.bmod n.intValue (2 ^ 16)

def byteValue : Number → Int
  | .byte v => v
  | n => Int.bmod n.intValue (2 ^ 8)

/-- `(Byte) number`. -/
def asByte : Number → Except JavaException Int
  | .byte v => .ok v
  | _ => .error .classCast

end Number

end NetProbe
