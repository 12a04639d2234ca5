import NetProbe.Qualcomm.Fields

/-!
# The GSM Cell Tables

What the modem puts into the two GSM tables, and that the parser classes read
it back. A table is a list of cells with a fixed number of bytes for each; the
encoders below write it as the packets have it, the band and the ARFCN sharing
one word.

The offset of a cell is computed from its index, so reading cell `i` back is a
statement about all the cells in front of it. It is reduced to a single cell by
`window_records`: the window at the computed offset is the encoding of that
cell, and every field read stays inside it.

## Main definitions

* `BaCell`, `Neighbour`: The cells of 0x5071 and of 0x513A.
* `baPacket`, `neighbourPacket`: The packets that carry a list of them.
* `ReportsCell`, `ReportsNeighbour`: Every indexed query answers with the field
  of the given cell.

## Theorems

* `intAnd_channel`, `highNibble_channel`: The shared word is taken apart.
* `reportsCell_of_window`, `reportsNeighbour_of_window`: A cell in its window.
* `reportsCell_baPacket`, `reportsNeighbour_neighbourPacket`: A cell in its
  packet.
* `cellTables_read_back`: Both tables, with their counts.
-/

namespace NetProbe

open ByteBuffer

/-- A cell of the BA list. -/
structure BaCell where
  band : BitVec 4
  arfcn : BitVec 12
  power : BitVec 16
  bsicKnown : Byte
  bsic : Byte
  frameOffset : BitVec 32
  timeOffset : BitVec 16
  deriving DecidableEq, Repr

/-- A neighbour of the serving cell. -/
structure Neighbour where
  band : BitVec 4
  arfcn : BitVec 12
  level : Byte
  bsic : Byte
  deriving DecidableEq, Repr

/-- The word that the band and the ARFCN share. -/
def channel (band : BitVec 4) (arfcn : BitVec 12) : BitVec 16 := band ++ arfcn

def BaCell.encode (c : BaCell) : List Byte :=
  le16 (channel c.band c.arfcn) ++ le16 c.power ++ [c.bsicKnown, c.bsic] ++ le32 c.frameOffset
    ++ le16 c.timeOffset

def Neighbour.encode (c : Neighbour) : List Byte :=
  le16 (channel c.band c.arfcn) ++ [c.level, c.bsic]

/-- A 0x5071 packet: the header, the count byte, the cells and what follows. -/
def baPacket (header : List Byte) (cells : List BaCell) (trailing : List Byte) : List Byte :=
  header ++ [BitVec.ofNat 8 cells.length] ++ cells.flatMap BaCell.encode ++ trailing

/-- A 0x513A packet: the header, the serving cell, the count word, the
    neighbours and what follows. -/
def neighbourPacket (header serving : List Byte) (cells : List Neighbour) (trailing : List Byte) :
    List Byte :=
  header ++ serving ++ le16 (BitVec.ofNat 16 cells.length) ++ cells.flatMap Neighbour.encode
    ++ trailing

/-- Every indexed query for row `i` answers with the field of `c`. -/
def ReportsCell (p : PacketBase) (i : Nat) (c : BaCell) : Prop :=
  GSM5071Packet.getNumberAt p .gsm5071Arfcn i = .ok (.short c.arfcn.toNat)
  ∧ GSM5071Packet.getNumberAt p .gsm5071Band i = .ok (.byte c.band.toNat)
  ∧ GSM5071Packet.getNumberAt p .gsm5071RxPower i
      = .ok (.float (.finite ((c.power.toInt : ℚ) / 16)))
  ∧ GSM5071Packet.getNumberAt p .gsm5071BsicKnow i = .ok (.byte c.bsicKnown.toInt)
  ∧ GSM5071Packet.getNumberAt p .gsm5071Bsic i = .ok (.byte c.bsic.toInt)
  ∧ GSM5071Packet.getNumberAt p .gsm5071FnLag i = .ok (.int c.frameOffset.toInt)
  ∧ GSM5071Packet.getNumberAt p .gsm5071QbitLag i = .ok (.short c.timeOffset.toInt)

/-- Every indexed query for row `i` answers with the field of `c`. -/
def ReportsNeighbour (p : PacketBase) (i : Nat) (c : Neighbour) : Prop :=
  GSM513APacket.getNumberAt p .gsmNeighbourArfcn i = .ok (.short c.arfcn.toNat)
  ∧ GSM513APacket.getNumberAt p .gsmNeighbourBand i = .ok (.byte c.band.toNat)
  ∧ GSM513APacket.getNumberAt p .gsmNeighbourRxLev i
      = .ok (.float (.finite ((c.level.toInt : ℚ) - 110)))
  ∧ GSM513APacket.getNumberAt p .gsmNeighbourBsic i = .ok (.byte c.bsic.toInt)

theorem toNat_channel (band : BitVec 4) (arfcn : BitVec 12) :
    (channel band arfcn).toNat = band.toNat * 4096 + arfcn.toNat := by
  rw [channel, BitVec.toNat_append, ← Nat.shiftLeft_add_eq_or_of_lt arfcn.isLt,
    Nat.shiftLeft_eq]

/-- The mask keeps the ARFCN, also where the band makes the word negative. -/
theorem intAnd_channel (band : BitVec 4) (arfcn : BitVec 12) :
    intAnd (channel band arfcn).toInt 0x0FFF = arfcn.toNat := by
  have hband := band.isLt
  have harfcn := arfcn.isLt
  have hmask := intAnd_mask (channel band arfcn).toInt 12 (by omega)
  rw [BitVec.toInt_eq_toNat_cond, toNat_channel] at hmask ⊢
  rw [show (0x0FFF : Nat) = 2 ^ 12 - 1 from rfl, hmask]
  split <;> omega

/-- The high nibble of the upper byte is the band. -/
theorem highNibble_channel (band : BitVec 4) (arfcn : BitVec 12) :
    highNibble ((channel band arfcn).extractLsb' 8 8) = band.toNat := by
  have hband := band.isLt
  have harfcn := arfcn.isLt
  rw [highNibble_eq, BitVec.extractLsb'_toNat, toNat_channel, Nat.shiftRight_eq_div_pow]
  omega

/-- The fields of row `i` stand behind the count byte. -/
theorem cell_pos (i j : Nat) : 16 + i * 12 + (j + 1) = 17 + i * 12 + j := by omega

/-- A packet whose window at the offset of row `i` is an encoded cell reports
    that cell. -/
theorem reportsCell_of_window (data : List Byte) (i : Nat) (c : BaCell)
    (h : window data (17 + i * 12) 12 = c.encode) : ReportsCell (wrap data) i c := by
  have hshort : ∀ j, j + 1 < 12 → getShort data (16 + i * 12 + (j + 1)) = getShort c.encode j := by
    intro j hj
    rw [cell_pos, getShort_window hj, h]
  have hget : ∀ j, j < 12 →
      ByteBuffer.get data (16 + i * 12 + (j + 1)) = ByteBuffer.get c.encode j := by
    intro j hj
    rw [cell_pos, get_window hj, h]
  have hint : getInt data (16 + i * 12 + 7) = getInt c.encode 6 := by
    rw [cell_pos, getInt_window (by omega : 6 + 4 ≤ 12), h]
  have hchannel : getShort c.encode 0 = .ok (channel c.band c.arfcn).toInt :=
    congrArg Except.ok (bmod_le16 _)
  have hpower : getShort c.encode 2 = .ok c.power.toInt := congrArg Except.ok (bmod_le16 _)
  have htime : getShort c.encode 10 = .ok c.timeOffset.toInt := congrArg Except.ok (bmod_le16 _)
  have hframe : getInt c.encode 6 = .ok c.frameOffset.toInt := by
    have hvalue : window c.encode 6 4 = le32 c.frameOffset := rfl
    have hsigned : Int.bmod c.frameOffset.toNat (256 ^ 4) = c.frameOffset.toInt :=
      (BitVec.toInt_eq_toNat_bmod c.frameOffset).symm
    rw [getInt, getWide, if_pos (by exact Nat.le_of_ble_eq_true rfl), hvalue, leValue_le32, hsigned]
  refine ⟨?_, ?_, ?_, ?_, ?_, ?_, ?_⟩
  · have harfcn : GSM5071Packet.getAEFCN (wrap data) i = .ok (c.arfcn.toNat : Int) := by
      rw [← intAnd_channel c.band c.arfcn]
      exact congrArg (Except.map (intAnd · 0x0FFF)) ((hshort 0 (by omega)).trans hchannel)
    exact congrArg (Except.map Number.short) harfcn
  · have hband : GSM5071Packet.getBand (wrap data) i = .ok (c.band.toNat : Int) := by
      rw [← highNibble_channel c.band c.arfcn]
      exact congrArg (Except.map highNibble) (hget 1 (by omega))
    exact congrArg (Except.map Number.byte) hband
  · have hrx : GSM5071Packet.getRxPower (wrap data) i = .ok (.finite ((c.power.toInt : ℚ) / 16)) :=
      congrArg (Except.map fun w : Int => JFloat.finite ((w : ℚ) / 16))
        ((hshort 2 (by omega)).trans hpower)
    exact congrArg (Except.map Number.float) hrx
  · have hknow : GSM5071Packet.getBSICKnow (wrap data) i = .ok c.bsicKnown.toInt :=
      congrArg (Except.map BitVec.toInt) (hget 4 (by omega))
    exact congrArg (Except.map Number.byte) hknow
  · have hbsic : GSM5071Packet.getBSIC (wrap data) i = .ok c.bsic.toInt :=
      congrArg (Except.map BitVec.toInt) (hget 5 (by omega))
    exact congrArg (Except.map Number.byte) hbsic
  · exact congrArg (Except.map Number.int) (hint.trans hframe)
  · exact congrArg (Except.map Number.short) ((hshort 10 (by omega)).trans htime)

/-- A packet whose window at the offset of row `i` is an encoded neighbour
    reports that neighbour. -/
theorem reportsNeighbour_of_window (data : List Byte) (i : Nat) (c : Neighbour)
    (h : window data (24 + i * 4) 4 = c.encode) : ReportsNeighbour (wrap data) i c := by
  have hget : ∀ j, j < 4 → ByteBuffer.get data (24 + i * 4 + j) = ByteBuffer.get c.encode j := by
    intro j hj
    rw [get_window hj, h]
  have hchannel : getShort data (24 + i * 4) = .ok (channel c.band c.arfcn).toInt := by
    rw [← Nat.add_zero (24 + i * 4), getShort_window (by omega : 0 + 1 < 4), h]
    exact congrArg Except.ok (bmod_le16 _)
  refine ⟨?_, ?_, ?_, ?_⟩
  · have harfcn : GSM513APacket.getNCellArfcn (wrap data) i = .ok (c.arfcn.toNat : Int) := by
      rw [← intAnd_channel c.band c.arfcn]
      exact congrArg (Except.map (intAnd · 0x0FFF)) hchannel
    exact congrArg (Except.map Number.short) harfcn
  · have hband : GSM513APacket.getNCellBand (wrap data) i = .ok (c.band.toNat : Int) := by
      rw [← highNibble_channel c.band c.arfcn]
      exact congrArg (Except.map highNibble) (hget 1 (by omega))
    exact congrArg (Except.map Number.byte) hband
  · have hlevel : getByte data (24 + i * 4 + 2) = .ok c.level.toInt :=
      congrArg (Except.map BitVec.toInt) (hget 2 (by omega))
    have hrx : GSM513APacket.getNCellRxLev (wrap data) i
        = .ok (.finite ((c.level.toInt : ℚ) - 110)) :=
      congrArg (Except.map GSM513APacket.level) hlevel
    exact congrArg (Except.map Number.float) hrx
  · have hbsic : GSM513APacket.getNCellBasic (wrap data) i = .ok c.bsic.toInt :=
      congrArg (Except.map BitVec.toInt) (hget 3 (by omega))
    exact congrArg (Except.map Number.byte) hbsic

/-- A count below half the range of its field is not negative. -/
theorem toInt_count {w n : Nat} (h : 2 * n < 2 ^ w) : (BitVec.ofNat w n).toInt = n := by
  have hn : (BitVec.ofNat w n).toNat = n := by
    rw [BitVec.toNat_ofNat, Nat.mod_eq_of_lt (by omega)]
  rw [BitVec.toInt_eq_toNat_of_lt (by rw [hn]; exact h), hn]

section Packets

variable (header trailing : List Byte)

theorem reportsCell_baPacket (cells : List BaCell) (hheader : header.length = 16) (i : Nat)
    (hi : i < cells.length) :
    ReportsCell (wrap (baPacket header cells trailing)) i cells[i] := by
  apply reportsCell_of_window
  have hpre : (header ++ [BitVec.ofNat 8 cells.length]).length = 17 := by
    rw [List.length_append, hheader]
    rfl
  rw [baPacket, ← hpre]
  exact window_records BaCell.encode 12 (fun _ => rfl) _ trailing cells i hi

theorem getCellCount_baPacket (cells : List BaCell) (hheader : header.length = 16)
    (hn : cells.length ≤ 127) :
    GSM5071Packet.getCellCount (wrap (baPacket header cells trailing)) = .ok cells.length := by
  have hbyte : (baPacket header cells trailing)[16]? = some (BitVec.ofNat 8 cells.length) := by
    rw [baPacket, List.append_assoc, List.append_assoc, List.getElem?_append_right (by omega),
      hheader]
    rfl
  have hcount : (BitVec.ofNat 8 cells.length).toInt = cells.length := toInt_count (by omega)
  rw [GSM5071Packet.getCellCount, getByte, ByteBuffer.get, wrap_mPacketData,
    PacketBase.logResponseHeadLen, hbyte]
  exact congrArg Except.ok hcount

theorem reportsNeighbour_neighbourPacket (serving : List Byte) (cells : List Neighbour)
    (hheader : header.length = 16) (hserving : serving.length = 6) (i : Nat)
    (hi : i < cells.length) :
    ReportsNeighbour (wrap (neighbourPacket header serving cells trailing)) i cells[i] := by
  apply reportsNeighbour_of_window
  have hpre : (header ++ serving ++ le16 (BitVec.ofNat 16 cells.length)).length = 24 := by
    rw [List.length_append, List.length_append, hheader, hserving]
    rfl
  rw [neighbourPacket, ← hpre]
  exact window_records Neighbour.encode 4 (fun _ => rfl) _ trailing cells i hi

theorem getNCellCount_neighbourPacket (serving : List Byte) (cells : List Neighbour)
    (hheader : header.length = 16) (hserving : serving.length = 6) (hn : cells.length ≤ 32767) :
    GSM513APacket.getNCellCount (wrap (neighbourPacket header serving cells trailing))
      = .ok cells.length := by
  have hpre : (header ++ serving).length = 22 := by
    rw [List.length_append, hheader, hserving]
  have hword : window (neighbourPacket header serving cells trailing) 22 2
      = le16 (BitVec.ofNat 16 cells.length) := by
    rw [neighbourPacket, List.append_assoc, List.append_assoc, window, ← hpre, List.drop_left]
    rfl
  have hcount : (BitVec.ofNat 16 cells.length).toInt = cells.length := toInt_count (by omega)
  have hread : getShort (neighbourPacket header serving cells trailing) (22 + 0)
      = .ok cells.length := by
    rw [getShort_window (by omega : 0 + 1 < 2), hword, ← hcount]
    exact congrArg Except.ok (bmod_le16 _)
  exact hread

end Packets

/-- Both tables are read back: the count is the number of cells, and every
    indexed query answers with the field of the cell asked for, whatever the
    header, the other cells and the bytes behind the table are. -/
theorem cellTables_read_back (header trailing : List Byte) (hheader : header.length = 16) :
    (∀ cells : List BaCell, cells.length ≤ 127 →
      GSM5071Packet.getNumber (wrap (baPacket header cells trailing)) .gsm5071BaCount
        = .ok (.byte cells.length)
      ∧ ∀ (i : Nat) (hi : i < cells.length),
          ReportsCell (wrap (baPacket header cells trailing)) i cells[i])
    ∧ (∀ (serving : List Byte) (cells : List Neighbour), serving.length = 6 →
        cells.length ≤ 32767 →
        GSM513APacket.getNumber (wrap (neighbourPacket header serving cells trailing))
          .gsmNeighbourCount = .ok (.short cells.length)
        ∧ ∀ (i : Nat) (hi : i < cells.length),
            ReportsNeighbour (wrap (neighbourPacket header serving cells trailing)) i
              cells[i]) := by
  refine ⟨?_, ?_⟩
  · intro cells hn
    refine ⟨?_, reportsCell_baPacket header trailing cells hheader⟩
    rw [GSM5071Packet.getNumber, getCellCount_baPacket header trailing cells hheader hn]
    rfl
  · intro serving cells hserving hn
    refine ⟨?_, reportsNeighbour_neighbourPacket header trailing serving cells hheader hserving⟩
    rw [GSM513APacket.getNumber,
      getNCellCount_neighbourPacket header trailing serving cells hheader hserving hn]
    rfl

/-- The second of two cells, and the second of two neighbours, whose bands set
    the sign bit of the word. -/
theorem cellTables_read_back_second :
    GSM5071Packet.getNumber (wrap (baPacket (List.replicate 16 0)
        [⟨0, 62, 0xFA00, 1, 0x2B, 7, 9⟩, ⟨8, 1023, 0xFFF0, 0, 0xFF, 0xFFFFFFFF, 0x8000⟩] [5]))
      .gsm5071BaCount = .ok (.byte 2)
    ∧ ReportsCell (wrap (baPacket (List.replicate 16 0)
        [⟨0, 62, 0xFA00, 1, 0x2B, 7, 9⟩, ⟨8, 1023, 0xFFF0, 0, 0xFF, 0xFFFFFFFF, 0x8000⟩] [5])) 1
      ⟨8, 1023, 0xFFF0, 0, 0xFF, 0xFFFFFFFF, 0x8000⟩
    ∧ ReportsNeighbour (wrap (neighbourPacket (List.replicate 16 0) (List.replicate 6 1)
        [⟨0, 62, 40, 0x2B⟩, ⟨15, 4095, 0x80, 0xFF⟩] [5])) 1 ⟨15, 4095, 0x80, 0xFF⟩ := by
  have hboth := cellTables_read_back (List.replicate 16 0) [5] rfl
  have hcells := hboth.1
    [⟨0, 62, 0xFA00, 1, 0x2B, 7, 9⟩, ⟨8, 1023, 0xFFF0, 0, 0xFF, 0xFFFFFFFF, 0x8000⟩] (by decide)
  have hneighbours := hboth.2 (List.replicate 6 1)
    [⟨0, 62, 40, 0x2B⟩, ⟨15, 4095, 0x80, 0xFF⟩] rfl (by decide)
  exact ⟨hcells.1, hcells.2 1 (by decide), hneighbours.2 1 (by decide)⟩

end NetProbe
