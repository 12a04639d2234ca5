import NetProbe.Qualcomm.Fields

/-!
# Queries on Single Packets

What a screen gets when it asks one packet for its fields.

The time of a packet comes from a stamp of two parts, a count of 1.25 ms steps
and a count of fortieths of a step. The second part has six bits and the class
does not cut it at forty, so a stamp that goes past the end of its step can lie
behind the next one; `getTickCount_le_iff` says exactly when.

A query never throws on a complete packet, with one exception: the power of a
0x5076 packet is looked up under a level that is checked against 32, and the
tables have 32 entries.

The neighbour records of 0x51FC start inside the fields of the serving cell, so
the first of them is made of these.

## Main definitions

* `steps`, `fortieths`: The two parts of a time stamp.
* `PacketClass`, `PacketClass.Complete`: The three classes, and a packet that is
  long enough for its class.
* `OffTable`: A 0x5076 packet whose level has no entry.
* `SameNeighbour`: Two 0x51FC packets show the same neighbour.

## Theorems

* `getTickCount_le_iff`: When the time of a later stamp is not before.
* `getNumber_exact`: When the queries on a complete packet return.
* `sameNeighbour_iff`: When a neighbour does not depend on the serving cell.
-/

namespace NetProbe

open ByteBuffer

open PacketBase (logResponseHeadLen)

/-! ### Time -/

namespace PacketBase

/-- The 1.25 ms steps of a time stamp. -/
def steps (mTimeStamp : Int) : Int := mTimeStamp / 65536

/-- The fortieths of a step, from zero to sixty-three. -/
def fortieths (mTimeStamp : Int) : Int := mTimeStamp % 65536 / 1024

theorem getTickCount_of_stamp {p : PacketBase} {t : Int} (h : getLong p.mPacketData 8 = .ok t)
    (ht : 0 ≤ t) : p.getTickCount = .ok ((40 * steps t + fortieths t) / 32 + timeOffSet) := by
  have hnonneg : 0 ≤ 40 * steps t + fortieths t := by
    unfold steps fortieths
    omega
  rw [getTickCount, h, ← Int.tdiv_eq_ediv_of_nonneg hnonneg]
  rfl

/-- The time of a later stamp is not before the earlier one's, unless the later one
    is in the next step and the earlier one has run past the end of its own. A
    stamp with forty fortieths or fewer never has. -/
theorem getTickCount_le_iff (p q : PacketBase) (t1 t2 : Int) (h1 : getLong p.mPacketData 8 = .ok t1)
    (h2 : getLong q.mPacketData 8 = .ok t2) (hpos : 0 ≤ t1) (hle : t1 ≤ t2) :
    ∃ tick1 tick2, p.getTickCount = .ok tick1 ∧ q.getTickCount = .ok tick2
      ∧ (tick1 ≤ tick2 ↔ ¬(steps t2 = steps t1 + 1
          ∧ (8 * steps t1 + 40 + fortieths t2) / 32 < (8 * steps t1 + fortieths t1) / 32))
      ∧ (fortieths t1 ≤ 40 → tick1 ≤ tick2) := by
  refine ⟨_, _, getTickCount_of_stamp h1 hpos, getTickCount_of_stamp h2 (by omega), ?_, ?_⟩
  · unfold steps fortieths
    omega
  · unfold steps fortieths
    omega

/-- Thirty-nine fortieths and then the next step. -/
theorem getTickCount_le_iff_next_step :
    ∃ tick1 tick2,
      (wrap [0x10, 0, 0, 0, 0, 0, 0, 0, 0, 0x9C, 1, 0, 0, 0, 0, 0]).getTickCount = .ok tick1
      ∧ (wrap [0x10, 0, 0, 0, 0, 0, 0, 0, 0, 0, 2, 0, 0, 0, 0, 0]).getTickCount = .ok tick2
      ∧ tick1 ≤ tick2 := by
  obtain ⟨tick1, tick2, htick1, htick2, -, hforty⟩ := getTickCount_le_iff
    (wrap [0x10, 0, 0, 0, 0, 0, 0, 0, 0, 0x9C, 1, 0, 0, 0, 0, 0])
    (wrap [0x10, 0, 0, 0, 0, 0, 0, 0, 0, 0, 2, 0, 0, 0, 0, 0]) 105472 131072
    (by decide +kernel) (by decide +kernel) (by decide) (by decide)
  exact ⟨tick1, tick2, htick1, htick2, hforty (by decide +kernel)⟩

/-- Sixty-three fortieths and then the next step: the time runs backwards. -/
theorem getTickCount_backwards :
    ∃ p q : PacketBase, ∃ t1 t2 tick1 tick2 : Int,
      getLong p.mPacketData 8 = .ok t1 ∧ getLong q.mPacketData 8 = .ok t2
      ∧ 0 ≤ t1 ∧ t1 ≤ t2 ∧ t2 < 2 ^ 63
      ∧ p.getTickCount = .ok tick1 ∧ q.getTickCount = .ok tick2 ∧ ¬tick1 ≤ tick2 :=
  ⟨wrap [0x10, 0, 0, 0, 0, 0, 0, 0, 0, 0xFC, 1, 0, 0, 0, 0, 0],
    wrap [0x10, 0, 0, 0, 0, 0, 0, 0, 0, 0, 2, 0, 0, 0, 0, 0], 130048, 131072,
    315964800003, 315964800002, by decide +kernel, by decide +kernel, by decide, by decide,
    by decide, by decide +kernel, by decide +kernel, by decide⟩

/-- The fields of the header are there in every packet of sixteen bytes. -/
theorem getNumber_ok {p : PacketBase} (h : 16 ≤ p.mPacketData.length) (k : Qid) :
    ∃ v, p.getNumber k = .ok v := by
  unfold getNumber
  split
  · rw [map_ok_iff]
    unfold getLogCode
    rw [ByteBuffer.get, List.getElem?_eq_getElem (by omega)]
    dsimp only
    split
    · rw [getShort_ok_iff]
      omega
    · exact ⟨_, rfl⟩
  · rw [map_ok_iff, getTickCount_ok_iff]
    exact h
  · exact ⟨_, rfl⟩

end PacketBase

/-! ### Queries on complete packets -/

/-- The three classes whose packets are asked for single fields. -/
inductive PacketClass where
  | gsm5071
  | gsm5076
  | gsm513A
  deriving DecidableEq

namespace PacketClass

def getNumber : PacketClass → PacketBase → Qid → Except JavaException Number
  | .gsm5071 => GSM5071Packet.getNumber
  | .gsm5076 => GSM5076Packet.getNumber
  | .gsm513A => GSM513APacket.getNumber

def getNumberAt : PacketClass → PacketBase → Qid → Nat → Except JavaException Number
  | .gsm5071 => GSM5071Packet.getNumberAt
  | .gsm5076 => GSM5076Packet.getNumberAt
  | .gsm513A => GSM513APacket.getNumberAt

/-- The packet is long enough for its class and the count `c` it declares. A 0x5076
    packet declares none. -/
def Complete : PacketClass → PacketBase → Int → Prop
  | .gsm5071, p, c =>
      GSM5071Packet.getCellCount p = .ok c ∧ 0 ≤ c ∧ 17 + 12 * c ≤ p.mPacketData.length
  | .gsm5076, p, _ => 20 ≤ p.mPacketData.length
  | .gsm513A, p, c =>
      GSM513APacket.getNCellCount p = .ok c ∧ 0 ≤ c ∧ 24 + 4 * c ≤ p.mPacketData.length

end PacketClass

/-- The band byte of a 0x5076 packet names one of the bands with a table, and its
    level has no entry there although it passes the check. -/
def OffTable (p : PacketBase) : Prop :=
  highNibble (p.mPacketData.getD 17 0) ∈ [GSMBand.dcs1800, GSMBand.pcs1900, GSMBand.gsm850,
      GSMBand.gsm900]
    ∧ ((p.mPacketData.getD 18 0).toInt = 32 ∨ (p.mPacketData.getD 18 0).toInt < 0)

theorem gsm5071_getNumber_ok {p : PacketBase} {c : Int} (h : PacketClass.Complete .gsm5071 p c)
    (k : Qid) : ∃ v, GSM5071Packet.getNumber p k = .ok v := by
  obtain ⟨hc, hpos, hlen⟩ := h
  unfold GSM5071Packet.getNumber
  split
  · exact (map_ok_iff _ _).mpr ⟨c, hc⟩
  · exact PacketBase.getNumber_ok (by omega) k

theorem gsm5071_getNumberAt_ok {p : PacketBase} {c : Int} (h : PacketClass.Complete .gsm5071 p c)
    (k : Qid) (i : Nat) (hi : (i : Int) < c) : ∃ v, GSM5071Packet.getNumberAt p k i = .ok v := by
  obtain ⟨-, -, hlen⟩ := h
  have hrec : 17 + 12 * (i + 1) ≤ p.mPacketData.length := by omega
  have hplace : logResponseHeadLen + i * GSM5071Packet.cellInfoLen = 16 + 12 * i := by
    rw [logResponseHeadLen, GSM5071Packet.cellInfoLen]
    omega
  unfold GSM5071Packet.getNumberAt
  split
  · rw [map_ok_iff, GSM5071Packet.getAEFCN, map_ok_iff, getShort_ok_iff, hplace]
    omega
  · rw [map_ok_iff, GSM5071Packet.getRxPower, map_ok_iff, getShort_ok_iff, hplace]
    omega
  · rw [map_ok_iff, GSM5071Packet.getBSICKnow, getByte_ok_iff, hplace]
    omega
  · rw [map_ok_iff, GSM5071Packet.getBSIC, getByte_ok_iff, hplace]
    omega
  · rw [map_ok_iff, GSM5071Packet.getFrameNumberOffset, getInt, getWide_ok_iff, hplace]
    omega
  · rw [map_ok_iff, GSM5071Packet.getTimeOffset, getShort_ok_iff, hplace]
    omega
  · rw [map_ok_iff, GSM5071Packet.getBand, map_ok_iff, get_ok_iff, hplace]
    omega
  · exact ⟨_, rfl⟩

theorem gsm513A_getNumber_ok {p : PacketBase} {c : Int} (h : PacketClass.Complete .gsm513A p c)
    (k : Qid) : ∃ v, GSM513APacket.getNumber p k = .ok v := by
  obtain ⟨hc, hpos, hlen⟩ := h
  have hhead : 24 ≤ p.mPacketData.length := by omega
  unfold GSM513APacket.getNumber
  split
  · rw [map_ok_iff, GSM513APacket.getServingBcchArfcn, map_ok_iff, getShort_ok_iff,
      logResponseHeadLen]
    omega
  · rw [map_ok_iff, GSM513APacket.getServingBcchBand, map_ok_iff, get_ok_iff, logResponseHeadLen]
    omega
  · rw [map_ok_iff, GSM513APacket.getRxLevFull, map_ok_iff, getByte_ok_iff, logResponseHeadLen]
    omega
  · rw [map_ok_iff, GSM513APacket.getRxLevSub, map_ok_iff, getByte_ok_iff, logResponseHeadLen]
    omega
  · rw [map_ok_iff, GSM513APacket.getRxLevSub, map_ok_iff, getByte_ok_iff, logResponseHeadLen]
    omega
  · rw [map_ok_iff, GSM513APacket.getRxQualFull, getByte_ok_iff, logResponseHeadLen]
    omega
  · rw [map_ok_iff, GSM513APacket.getRxQualSub, getByte_ok_iff, logResponseHeadLen]
    omega
  · exact (map_ok_iff _ _).mpr ⟨c, hc⟩
  · exact PacketBase.getNumber_ok (by omega) k

theorem gsm513A_getNumberAt_ok {p : PacketBase} {c : Int} (h : PacketClass.Complete .gsm513A p c)
    (k : Qid) (i : Nat) (hi : (i : Int) < c) : ∃ v, GSM513APacket.getNumberAt p k i = .ok v := by
  obtain ⟨-, -, hlen⟩ := h
  have hrec : 24 + 4 * (i + 1) ≤ p.mPacketData.length := by omega
  have hplace : GSM513APacket.ncellDataStart + i * GSM513APacket.ncellDataLen = 24 + 4 * i := by
    rw [GSM513APacket.ncellDataStart, GSM513APacket.ncellDataLen, logResponseHeadLen]
    omega
  unfold GSM513APacket.getNumberAt
  split
  · rw [map_ok_iff, GSM513APacket.getNCellArfcn, map_ok_iff, getShort_ok_iff, hplace]
    omega
  · rw [map_ok_iff, GSM513APacket.getNCellBand, map_ok_iff, get_ok_iff, hplace]
    omega
  · rw [map_ok_iff, GSM513APacket.getNCellRxLev, map_ok_iff, getByte_ok_iff, hplace]
    omega
  · rw [map_ok_iff, GSM513APacket.getNCellBasic, getByte_ok_iff, hplace]
    omega
  · exact ⟨_, rfl⟩

namespace GSM5076Packet

/-- A lookup returns exactly inside the table. -/
theorem lookup_ok_iff (table : List Int) (i : Int) :
    (∃ v, lookup table i = .ok v) ↔ 0 ≤ i ∧ i < table.length := by
  unfold lookup
  by_cases hneg : i < 0
  · rw [if_pos hneg]
    exact iff_of_false (by simp only [reduceCtorEq, exists_false, not_false_eq_true]) (by omega)
  · rw [if_neg hneg]
    by_cases hin : i.toNat < table.length
    · rw [List.getElem?_eq_getElem hin]
      exact iff_of_true ⟨_, rfl⟩ (by omega)
    · rw [List.getElem?_eq_none (by omega)]
      exact iff_of_false (by simp only [reduceCtorEq, exists_false, not_false_eq_true]) (by omega)

/-- The power is missing exactly off the tables. -/
theorem getTxPower_ok_iff {p : PacketBase} (h : 20 ≤ p.mPacketData.length) :
    (∃ v, getTxPower p = .ok v) ↔ ¬OffTable p := by
  have hband : (ByteBuffer.get p.mPacketData (logResponseHeadLen + 1)).map highNibble
      = .ok (highNibble (p.mPacketData.getD 17 0)) := by
    rw [ByteBuffer.get, logResponseHeadLen, List.getElem?_eq_getElem (by omega),
      List.getD_eq_getElem _ _ (by omega)]
    rfl
  have hlev : getTxLev p = .ok (p.mPacketData.getD 18 0).toInt := by
    rw [getTxLev, getByte, ByteBuffer.get, logResponseHeadLen, List.getElem?_eq_getElem (by omega),
      List.getD_eq_getElem _ _ (by omega)]
    rfl
  have hlookup : ∀ table : List Int, table.length = 32 → ∀ i : Int, ¬i > 32 →
      ((∃ v, lookup table i = .ok v) ↔ ¬(i = 32 ∨ i < 0)) := by
    intro table htable i hi
    rw [lookup_ok_iff, htable]
    omega
  rw [OffTable, getTxPower, hband, hlev]
  generalize highNibble (p.mPacketData.getD 17 0) = band
  generalize (p.mPacketData.getD 18 0).toInt = txLev
  simp only [Bind.bind, Except.bind, List.mem_cons, List.not_mem_nil, or_false]
  by_cases hbig : txLev > 32
  · rw [if_pos hbig]
    exact iff_of_true ⟨_, rfl⟩ (by omega)
  · rw [if_neg hbig]
    by_cases hdcs : GSMBand.dcs1800 = band
    · rw [if_pos hdcs, hlookup _ rfl _ hbig, hdcs, eq_self, true_or, true_and]
    · rw [if_neg hdcs]
      by_cases hpcs : GSMBand.pcs1900 = band
      · rw [if_pos hpcs, hlookup _ rfl _ hbig, hpcs, eq_self, true_or, or_true, true_and]
      · rw [if_neg hpcs]
        by_cases hgsm : GSMBand.gsm850 = band ∨ GSMBand.gsm900 = band
        · rw [if_pos hgsm, hlookup _ rfl _ hbig]
          have hmem : band = GSMBand.gsm850 ∨ band = GSMBand.gsm900 := hgsm.imp Eq.symm Eq.symm
          simp only [hmem, or_true, true_and]
        · rw [if_neg hgsm]
          refine iff_of_true ⟨_, rfl⟩ ?_
          rintro ⟨rfl | rfl | rfl | rfl, -⟩
          · exact hdcs rfl
          · exact hpcs rfl
          · exact hgsm (Or.inl rfl)
          · exact hgsm (Or.inr rfl)

theorem getNumber_ok_iff {p : PacketBase} (h : 20 ≤ p.mPacketData.length) (k : Qid) :
    (∃ v, getNumber p k = .ok v) ↔ ¬(k = .gsmTxPower ∧ OffTable p) := by
  unfold getNumber
  split
  · refine iff_of_true ?_ (by simp only [reduceCtorEq, false_and, not_false_eq_true])
    rw [map_ok_iff, getTA, getByte_ok_iff, logResponseHeadLen]
    omega
  · rw [map_ok_iff, getTxPower_ok_iff h]
    simp only [true_and]
  · refine iff_of_true ?_ (by simp only [reduceCtorEq, false_and, not_false_eq_true])
    rw [map_ok_iff, getTxLev, getByte_ok_iff, logResponseHeadLen]
    omega
  · rename_i hpower _
    exact iff_of_true (PacketBase.getNumber_ok (by omega) k) fun hk => hpower hk.1

end GSM5076Packet

/-- Every query on a complete packet returns, but for the power of a 0x5076 packet
    whose level has no entry in its band's table. -/
theorem getNumber_exact (cls : PacketClass) (p : PacketBase) (c : Int) (h : cls.Complete p c)
    (k : Qid) :
    ((∃ v, cls.getNumber p k = .ok v)
      ∧ ∀ i : Nat, (i : Int) < c → ∃ v, cls.getNumberAt p k i = .ok v)
    ↔ ¬(cls = .gsm5076 ∧ k = .gsmTxPower ∧ OffTable p) := by
  cases cls with
  | gsm5071 =>
      refine iff_of_true ⟨gsm5071_getNumber_ok h k, gsm5071_getNumberAt_ok h k⟩ ?_
      simp only [reduceCtorEq, false_and, not_false_eq_true]
  | gsm513A =>
      refine iff_of_true ⟨gsm513A_getNumber_ok h k, gsm513A_getNumberAt_ok h k⟩ ?_
      simp only [reduceCtorEq, false_and, not_false_eq_true]
  | gsm5076 =>
      simp only [true_and]
      rw [← GSM5076Packet.getNumber_ok_iff h k]
      exact ⟨And.left, fun hv => ⟨hv, fun i _ => ⟨_, rfl⟩⟩⟩

/-- A 0x5076 packet with the given band and level bytes. -/
def txPacket (band txLev : Byte) : PacketBase :=
  wrap (((List.replicate 20 0).set 17 band).set 18 txLev)

theorem complete_txPacket (band txLev : Byte) :
    PacketClass.Complete .gsm5076 (txPacket band txLev) 0 := by
  rw [PacketClass.Complete, txPacket, wrap_mPacketData, List.length_set, List.length_set,
    List.length_replicate]

/-- A level in the table of its band. -/
theorem getNumber_exact_level_five :
    ∃ v, PacketClass.getNumber .gsm5076 (txPacket 0x80 5) .gsmTxPower = .ok v :=
  ((getNumber_exact .gsm5076 (txPacket 0x80 5) 0 (complete_txPacket _ _) .gsmTxPower).mpr
    fun hoff => absurd hoff.2.2.2 (by decide)).1

/-- The level 32 passes the check and throws from the table of DCS 1800. -/
theorem getNumber_level_thirty_two :
    ¬∀ (cls : PacketClass) (p : PacketBase) (c : Int), cls.Complete p c → ∀ k,
      ∃ v, cls.getNumber p k = .ok v := by
  intro hall
  obtain ⟨v, hv⟩ := hall .gsm5076 (txPacket 0x90 32) 0 (complete_txPacket _ _) .gsmTxPower
  have hthrows : PacketClass.getNumber .gsm5076 (txPacket 0x90 32) .gsmTxPower
      = .error .arrayIndexOutOfBounds := rfl
  exact absurd (hthrows.symm.trans hv) (by simp only [reduceCtorEq, not_false_eq_true])

/-! ### Neighbours of 0x51FC -/

namespace GSM51FCPacket

/-- Two packets show the same in every field of a neighbour. -/
structure SameNeighbour (p q : PacketBase) (i : Nat) : Prop where
  arfcn : getNCellArfcn p i = getNCellArfcn q i
  band : getNCellBand p i = getNCellBand q i
  rxLev : getNCellRxLev p i = getNCellRxLev q i
  c1 : getNCellC1 p i = getNCellC1 q i
  c2 : getNCellC2 p i = getNCellC2 q i
  c31 : getNCellC31 p i = getNCellC31 q i
  c32 : getNCellC32 p i = getNCellC32 q i

/-- The channel and the band share two bytes and show all of them. -/
theorem arfcn_band_eq_iff {data data' : List Byte} {i : Nat} (hlen : data.length = data'.length)
    (h : i + 1 < data.length) :
    ((getShort data i).map (intAnd · 0x0FFF) = (getShort data' i).map (intAnd · 0x0FFF)
      ∧ (ByteBuffer.get data (i + 1)).map highNibble
        = (ByteBuffer.get data' (i + 1)).map highNibble)
    ↔ ∀ j < 2, data[i + j]? = data'[i + j]? := by
  have hlow : ∀ lo hi : Byte,
      intAnd (Int.bmod ((lo.toNat + 256 * hi.toNat : Nat) : Int) 65536) 0x0FFF
        = ((lo.toNat + 256 * (hi.toNat % 16) : Nat) : Int) := by
    intro lo hi
    have hlo := lo.isLt
    have hhi := hi.isLt
    have hmask := intAnd_mask (Int.bmod ((lo.toNat + 256 * hi.toNat : Nat) : Int) 65536) 12
      (by decide)
    rw [bmod_word _ (by omega)] at hmask ⊢
    refine hmask.trans ?_
    split <;> omega
  have hbytes : (∀ j < 2, data[i + j]? = data'[i + j]?)
      ↔ data[i]? = data'[i]? ∧ data[i + 1]? = data'[i + 1]? := by
    simp only [Nat.forall_lt_succ_right, Nat.not_lt_zero, false_imp_iff, implies_true, true_and,
      Nat.add_zero]
  obtain ⟨lo, hlo⟩ : ∃ lo, data[i]? = some lo := ⟨_, List.getElem?_eq_getElem (by omega)⟩
  obtain ⟨hi, hhi⟩ : ∃ hi, data[i + 1]? = some hi := ⟨_, List.getElem?_eq_getElem h⟩
  obtain ⟨lo', hlo'⟩ : ∃ lo, data'[i]? = some lo := ⟨_, List.getElem?_eq_getElem (by omega)⟩
  obtain ⟨hi', hhi'⟩ : ∃ hi, data'[i + 1]? = some hi := ⟨_, List.getElem?_eq_getElem (by omega)⟩
  rw [hbytes, getShort, getShort, ByteBuffer.get, ByteBuffer.get, hlo, hhi, hlo', hhi']
  simp only [Except.map, Except.ok.injEq, Option.some.injEq, hlow, highNibble_eq, Int.ofNat_inj]
  constructor
  · rintro ⟨hword, hnibble⟩
    have hlt := lo.isLt
    have hlt' := lo'.isLt
    exact ⟨BitVec.eq_of_toNat_eq (by omega), BitVec.eq_of_toNat_eq (by omega)⟩
  · rintro ⟨heq, heq'⟩
    rw [heq, heq']
    exact ⟨rfl, rfl⟩

/-- The level shows its byte. -/
theorem level_eq_iff {data data' : List Byte} {i : Nat} (hlen : data.length = data'.length)
    (h : i < data.length) :
    (getByte data i).map GSM513APacket.level = (getByte data' i).map GSM513APacket.level
      ↔ data[i]? = data'[i]? := by
  rw [← getByte_eq_iff hlen h]
  obtain ⟨b, hb⟩ := (getByte_ok_iff data i).mpr h
  obtain ⟨b', hb'⟩ := (getByte_ok_iff data' i).mpr (hlen ▸ h)
  rw [hb, hb']
  simp only [Except.map, Except.ok.injEq, GSM513APacket.level, JFloat.finite.injEq, sub_left_inj,
    Int.cast_inj]

/-- A neighbour is the bytes of its record, without the three that no field reads. -/
theorem sameNeighbour_iff_bytes {p q : PacketBase} {i : Nat}
    (hlen : p.mPacketData.length = q.mPacketData.length)
    (h : 24 + i * 25 + 25 ≤ p.mPacketData.length) :
    SameNeighbour p q i ↔ ∀ j < 22, j < 2 ∨ 5 ≤ j →
      p.mPacketData[24 + i * 25 + j]? = q.mPacketData[24 + i * 25 + j]? := by
  have hplace : ncellDataStart + i * ncellDataLen = 24 + i * 25 := rfl
  have harfcn := arfcn_band_eq_iff (i := 24 + i * 25) hlen (by omega)
  have hlevel := level_eq_iff (i := 24 + i * 25 + 5) hlen (by omega)
  have hword : ∀ off, off + 4 ≤ 25 → (getInt p.mPacketData (24 + i * 25 + off)
      = getInt q.mPacketData (24 + i * 25 + off)
      ↔ ∀ j < 4, p.mPacketData[24 + i * 25 + off + j]? = q.mPacketData[24 + i * 25 + off + j]?) :=
    fun off hoff => getWide_eq_iff hlen (by omega)
  constructor
  · rintro ⟨ha, hb, hl, h1, h2, h31, h32⟩ j hj hread
    have hhead := harfcn.mp ⟨ha, hb⟩
    have hrx := hlevel.mp hl
    have hc1 := (hword 6 (by omega)).mp h1
    have hc2 := (hword 10 (by omega)).mp h2
    have hc31 := (hword 14 (by omega)).mp h31
    have hc32 := (hword 18 (by omega)).mp h32
    have hin : ∀ off, (∀ k < 4, p.mPacketData[24 + i * 25 + off + k]?
        = q.mPacketData[24 + i * 25 + off + k]?) → off ≤ j → j < off + 4 →
        p.mPacketData[24 + i * 25 + j]? = q.mPacketData[24 + i * 25 + j]? := by
      intro off hoff hlow hhigh
      simpa only [Nat.add_assoc, Nat.add_sub_cancel' hlow] using hoff (j - off) (by omega)
    -- The channel with the band, the level, and the four words.
    obtain hj | hj | hj | hj | hj | hj : j < 2 ∨ j = 5 ∨ (6 ≤ j ∧ j < 10) ∨ (10 ≤ j ∧ j < 14)
        ∨ (14 ≤ j ∧ j < 18) ∨ (18 ≤ j ∧ j < 22) := by omega
    · exact hhead j hj
    · rw [hj]
      exact hrx
    · exact hin 6 hc1 hj.1 hj.2
    · exact hin 10 hc2 hj.1 hj.2
    · exact hin 14 hc31 hj.1 hj.2
    · exact hin 18 hc32 hj.1 hj.2
  · intro hbytes
    obtain ⟨ha, hb⟩ := harfcn.mpr fun j hj => hbytes j (by omega) (Or.inl hj)
    have hread : ∀ off, 5 ≤ off → off + 4 ≤ 22 → getInt p.mPacketData (24 + i * 25 + off)
        = getInt q.mPacketData (24 + i * 25 + off) := by
      intro off hlow hhigh
      refine (hword off (by omega)).mpr fun j hj => ?_
      rw [Nat.add_assoc]
      exact hbytes (off + j) (by omega) (Or.inr (by omega))
    exact ⟨ha, hb, hlevel.mpr (hbytes 5 (by omega) (Or.inr le_rfl)), hread 6 (by omega) (by omega),
      hread 10 (by omega) (by omega), hread 14 (by omega) (by omega),
      hread 18 (by omega) (by omega)⟩

/-- A neighbour does not depend on the serving cell, whatever the bytes there,
    exactly from the second record on. For the first record, two packets show the
    same neighbour exactly if they agree on the bytes of the serving cell it lies
    over. -/
theorem sameNeighbour_iff {p q : PacketBase} {i : Nat}
    (hlen : p.mPacketData.length = q.mPacketData.length)
    (hagree : ∀ k, 16 + 27 ≤ k → p.mPacketData[k]? = q.mPacketData[k]?)
    (h : 24 + i * 25 + 25 ≤ p.mPacketData.length) :
    SameNeighbour p q i ↔ 1 ≤ i ∨ ∀ k, k = 24 ∨ k = 25 ∨ (29 ≤ k ∧ k < 43) →
      p.mPacketData[k]? = q.mPacketData[k]? := by
  rw [sameNeighbour_iff_bytes hlen h]
  constructor
  · intro hbytes
    by_cases hi : 1 ≤ i
    · exact Or.inl hi
    · obtain rfl : i = 0 := by omega
      refine Or.inr fun k hk => ?_
      have hbyte := hbytes (k - 24) (by omega) (by omega)
      rwa [Nat.zero_mul, Nat.add_zero, Nat.add_sub_cancel' (by omega : 24 ≤ k)] at hbyte
  · rintro (hi | hover) j hj hread
    · exact hagree _ (by omega)
    · by_cases hbehind : 43 ≤ 24 + i * 25 + j
      · exact hagree _ hbehind
      · exact hover _ (by omega)

/-- A packet of zeros with one byte set among the fields of the serving cell. -/
def servingPacket (b : Byte) : PacketBase := wrap ((List.replicate 74 0).set 24 b)

theorem servingPacket_agree (k : Nat) (hk : 16 + 27 ≤ k) :
    (servingPacket 0).mPacketData[k]? = (servingPacket 1).mPacketData[k]? := by
  simp only [servingPacket, wrap_mPacketData, List.getElem?_set_ne (by omega : 24 ≠ k)]

/-- The second record of two packets that differ in the serving cell. -/
theorem sameNeighbour_second : SameNeighbour (servingPacket 0) (servingPacket 1) 1 :=
  (sameNeighbour_iff (p := servingPacket 0) (q := servingPacket 1) rfl servingPacket_agree
    (by decide)).mpr (Or.inl le_rfl)

/-- The channel of the first neighbour is read out of a constant of the serving
    cell. -/
theorem not_sameNeighbour_first :
    (servingPacket 0).mPacketData.length = (servingPacket 1).mPacketData.length
      ∧ (∀ k, 16 + 27 ≤ k →
        (servingPacket 0).mPacketData[k]? = (servingPacket 1).mPacketData[k]?)
      ∧ 24 + 0 * 25 + 25 ≤ (servingPacket 0).mPacketData.length
      ∧ getNCellArfcn (servingPacket 0) 0 ≠ getNCellArfcn (servingPacket 1) 0 :=
  ⟨rfl, servingPacket_agree, by decide, by decide⟩

end GSM51FCPacket

end NetProbe
