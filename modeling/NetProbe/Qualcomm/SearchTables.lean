import NetProbe.Qualcomm.CellTables
import NetProbe.Qualcomm.SearchResults

/-!
# The 0x4179 Search Tables

What the modem puts into a 0x4179 packet, and what the parser class reads back.
The packet has two tables. A task stands in both: with a descriptor of eleven
bytes in the first, and in the second with the energies it has found, in one
result set or, if it searched on both receivers, in two.

Descriptors are all of one length, and every field of every descriptor is read
back. The records are not, and the class computes the place of a record from the
record's own length. The words of a task are therefore read back, and with them
what is computed from them, where the tasks in front of it use as many receivers
as it does.

## Main definitions

* `CoherentLength`, `IncoherentCount`: The two lengths of a search and their
  codes.
* `ResultSet`, `SearchTask`: A task and what it has found.
* `SearchHead`, `searchPacket`: The packet that carries a list of tasks.
* `ReportsTask`, `ReportsResult`: Every query for a task answers with its fields
  and with its words.

## Theorems

* `intAnd_srcCode`, `carrier_rxdInfo`, `mode_rxdInfo`: The shared bytes are taken
  apart.
* `reportsTask_of_window`: A descriptor in its window.
* `laidOut_searchPacket`, `recordPos_searchPacket`: Where the records stand.
* `getResult_searchPacket`: A word of a record.
* `searchTables_read_back`: Both tables, with the count.
-/

namespace NetProbe

open ByteBuffer

open PacketBase (logResponseHeadLen)

/-- The chips that are added up coherently. -/
inductive CoherentLength where
  | chips128
  | chips256
  | chips512
  | chips1024
  | chips2048
  deriving DecidableEq, Repr

def CoherentLength.chips : CoherentLength → Int
  | chips128 => 128
  | chips256 => 256
  | chips512 => 512
  | chips1024 => 1024
  | chips2048 => 2048

/-- The code in the descriptor. -/
def CoherentLength.orgNC : CoherentLength → Byte
  | chips128 => 1
  | chips256 => 3
  | chips512 => 7
  | chips1024 => 15
  | chips2048 => 31

/-- How often that is done. -/
inductive IncoherentCount where
  | once
  | twice
  | seventeen
  | thirtySix
  deriving DecidableEq, Repr

def IncoherentCount.times : IncoherentCount → Int
  | once => 1
  | twice => 2
  | seventeen => 17
  | thirtySix => 36

def IncoherentCount.orgNN : IncoherentCount → Byte
  | once => 0
  | twice => 1
  | seventeen => 16
  | thirtySix => 35

/-- Six positions and six peak energies. -/
structure ResultSet where
  words : List (BitVec 32)
  length_words : words.length = 12

/-- A search task: the fields of its descriptor, and its energies. There are two
    result sets exactly if both receivers are used. -/
structure SearchTask where
  nc : CoherentLength
  nn : IncoherentCount
  rxdHigh : BitVec 2
  carrier : BitVec 1
  rxdMiddle : BitVec 3
  mode : BitVec 2
  ovsf : Byte
  pnPos : BitVec 16
  codeHigh : BitVec 3
  psc : BitVec 9
  codeLow : BitVec 4
  spare : BitVec 16
  set : Byte
  filtEng1 : BitVec 32
  filtEng2 : BitVec 32
  filtEng3 : BitVec 32
  results : List ResultSet
  length_results : results.length = if mode = 3 then 2 else 1

namespace SearchTask

/-- The byte that the receivers and the carrier share. -/
def rxdInfo (t : SearchTask) : Byte := t.rxdHigh ++ t.carrier ++ t.rxdMiddle ++ t.mode

/-- The word with the scrambling code in its middle. -/
def srcCode (t : SearchTask) : BitVec 16 := t.codeHigh ++ t.psc ++ t.codeLow

def descriptor (t : SearchTask) : List Byte :=
  [t.nc.orgNC, t.nn.orgNN, t.rxdInfo, t.ovsf] ++ le16 t.pnPos ++ le16 t.srcCode ++ le16 t.spare
    ++ [t.set]

/-- The words of the result record. -/
def words (t : SearchTask) : List (BitVec 32) :=
  [t.filtEng1, t.filtEng2, t.filtEng3] ++ t.results.flatMap ResultSet.words

def record (t : SearchTask) : List Byte := t.words.flatMap le32

theorem length_words (t : SearchTask) : t.words.length = 3 + 12 * t.results.length := by
  rw [words, List.length_append, length_flatMap_records _ _ ResultSet.length_words]
  rfl

theorem length_record (t : SearchTask) : t.record.length = 12 + 48 * t.results.length := by
  rw [record, length_flatMap_le32, length_words]
  omega

/-- A record has the fifteen words that the class has getters for. -/
theorem fifteen_le (t : SearchTask) : 15 ≤ t.words.length := by
  have hresults := t.length_results
  rw [length_words]
  split at hresults <;> omega

end SearchTask

/-- What stands before the descriptors, the count apart. -/
structure SearchHead where
  header : List Byte
  length_header : header.length = 16
  versionNum : Byte
  rxC0Agc0 : BitVec 16
  rxC0Agc1 : BitVec 16
  rxC1Agc0 : BitVec 16
  rxC1Agc1 : BitVec 16
  spare : Byte
  freqHyp : BitVec 16
  reserved : Byte

def SearchHead.encode (head : SearchHead) (n : Nat) : List Byte :=
  head.header ++ ([head.versionNum] ++ le16 head.rxC0Agc0 ++ le16 head.rxC0Agc1
    ++ le16 head.rxC1Agc0 ++ le16 head.rxC1Agc1 ++ [head.spare] ++ le16 head.freqHyp
    ++ [BitVec.ofNat 8 n, head.reserved])

/-- A 0x4179 packet: the head with the count, the descriptors, and the records in
    the order of the tasks. -/
def searchPacket (head : SearchHead) (tasks : List SearchTask) : List Byte :=
  head.encode tasks.length ++ tasks.flatMap SearchTask.descriptor ++ tasks.flatMap SearchTask.record

open WCDMA4179Packet

/-- Every query for the descriptor of task `j` answers with a field of `t`. -/
structure ReportsTask (arith : SearchArith) (p : PacketBase) (j : Nat) (t : SearchTask) :
    Prop where
  nc : getNC p j = .ok t.nc.chips
  nn : getNN p j = .ok t.nn.times
  mode : getRxdMode p j = .ok t.mode.toNat
  resultNum : getResultNum p j = .ok t.results.length
  ovsf : getOVSF p j = .ok t.ovsf.toInt
  pnPos : getPNPos p j = .ok t.pnPos.toInt
  carrierInfo : getCarrierInfo p j = .ok t.carrier.toNat
  carrier : getNumberAt arith p .wcdma4179Carrier j = .ok (.byte t.carrier.toNat)
  srcCode : getSrcCode p j = .ok t.srcCode.toInt
  psc : getNumberAt arith p .wcdma4179Psc j = .ok (.int t.psc.toNat)
  set : getNumberAt arith p .wcdma4179R99Set j = .ok (.byte t.set.toInt)

/-- The word `off` bytes behind the start of the record. -/
def SearchTask.wordAt (t : SearchTask) (off : Nat) : Int := (t.words.getD (off / 4) 0).toInt

/-- The gain of the receiver that the carrier of a task names. -/
def SearchHead.rxAgc (head : SearchHead) (t : SearchTask) : Int :=
  if t.carrier = 0 then head.rxC0Agc0.toInt else head.rxC1Agc0.toInt

/-- The Ec/Io of one energy of a task. -/
def SearchTask.ecIo (t : SearchTask) (arith : SearchArith) (eng : Int) : JFloat :=
  arith.calcEcIo t.nc.chips t.nn.times eng

/-- The Ec/Io getters behind the first one with the offsets of their words. -/
def energies (arith : SearchArith) :
    List (Nat × (PacketBase → Nat → Except JavaException JFloat)) :=
  [(40, getEcIo2 arith), (44, getEcIo3 arith), (48, getEcIo4 arith), (52, getEcIo5 arith),
    (56, getEcIo6 arith), (16, getPeakEcIo2 arith), (20, getPeakEcIo3 arith),
    (24, getPeakEcIo4 arith), (28, getPeakEcIo5 arith), (32, getPeakEcIo6 arith)]

theorem energies_getResult {arith : SearchArith}
    {w : Nat × (PacketBase → Nat → Except JavaException JFloat)} (hw : w ∈ energies arith) :
    w.2 = ecIoOf arith (fun p j => getResult p j w.1) ∧ w.1 < 60 ∧ w.1 % 4 = 0 := by
  have hoff : ∀ off ∈ [40, 44, 48, 52, 56, 16, 20, 24, 28, 32], off < 60 ∧ off % 4 = 0 := by
    decide
  refine ⟨?_, hoff w.1 (List.mem_map_of_mem (f := Prod.fst) hw)⟩
  unfold energies at hw
  fin_cases hw <;> rfl

/-- Every query for the record of task `j` answers with a word of `t`, or with
    what is computed from its words. The first Ec/Io takes the largest of two
    filtered energies and a peak energy. -/
structure ReportsResult (arith : SearchArith) (p : PacketBase) (head : SearchHead) (j : Nat)
    (t : SearchTask) : Prop where
  words : ∀ w ∈ words, w.2 p j = .ok (t.wordAt w.1)
  energies : ∀ w ∈ energies arith, w.2 p j = .ok (t.ecIo arith (t.wordAt w.1))
  ecIo : getNumberAt arith p .wcdma4179EcIo j = .ok (.float
    (t.ecIo arith (max (max t.filtEng1.toInt t.filtEng2.toInt) (t.wordAt 44))))
  peakEcIo : getNumberAt arith p .wcdma4179PeakEcIo j
    = .ok (.float (t.ecIo arith (t.wordAt 12)))
  rscp : getNumberAt arith p .wcdma4179Rscp j = .ok (.float (arith.getRscp
    (t.ecIo arith (max (max t.filtEng1.toInt t.filtEng2.toInt) (t.wordAt 44))) (head.rxAgc t)))

/-- Every query for the head answers with a field of it, and with the number of
    tasks. -/
structure ReportsHead (arith : SearchArith) (p : PacketBase) (head : SearchHead) (n : Nat) :
    Prop where
  versionNum : getVersionNum p = .ok head.versionNum.toInt
  rxC0Agc0 : getRxC0Agc0 p = .ok head.rxC0Agc0.toInt
  rxC0Agc1 : getRxC0Agc1 p = .ok head.rxC0Agc1.toInt
  rxC1Agc0 : getRxC1Agc0 p = .ok head.rxC1Agc0.toInt
  rxC1Agc1 : getRxC1Agc1 p = .ok head.rxC1Agc1.toInt
  freqHyp : getFreqHyp p = .ok head.freqHyp.toInt
  taskNum : WCDMA4179Packet.getNumber p .wcdma4179TaskNum = .ok (.byte n)

/-! ### Descriptors -/

theorem toNat_srcCode (t : SearchTask) :
    t.srcCode.toNat = t.codeHigh.toNat * 8192 + t.psc.toNat * 16 + t.codeLow.toNat := by
  have hpsc := t.psc.isLt
  have hlow := t.codeLow.isLt
  rw [SearchTask.srcCode, BitVec.toNat_append, BitVec.toNat_append,
    ← Nat.shiftLeft_add_eq_or_of_lt hpsc, ← Nat.shiftLeft_add_eq_or_of_lt hlow,
    Nat.shiftLeft_eq, Nat.shiftLeft_eq]
  omega

/-- The mask and the shift leave the scrambling code, also where the word is
    negative. -/
theorem intAnd_srcCode (t : SearchTask) : intAnd t.srcCode.toInt 0x1fff / 16 = t.psc.toNat := by
  have hpsc := t.psc.isLt
  have hlow := t.codeLow.isLt
  have hhigh := t.codeHigh.isLt
  have hmask := intAnd_mask t.srcCode.toInt 13 (by omega)
  rw [BitVec.toInt_eq_toNat_cond, toNat_srcCode] at hmask ⊢
  rw [show (0x1fff : Nat) = 2 ^ 13 - 1 from rfl, hmask]
  split <;> omega

theorem toNat_rxdInfo (t : SearchTask) : t.rxdInfo.toNat
    = t.rxdHigh.toNat * 64 + t.carrier.toNat * 32 + t.rxdMiddle.toNat * 4 + t.mode.toNat := by
  have hcarrier := t.carrier.isLt
  have hmiddle := t.rxdMiddle.isLt
  have hmode := t.mode.isLt
  rw [SearchTask.rxdInfo, BitVec.toNat_append, BitVec.toNat_append, BitVec.toNat_append,
    ← Nat.shiftLeft_add_eq_or_of_lt hcarrier, ← Nat.shiftLeft_add_eq_or_of_lt hmiddle,
    ← Nat.shiftLeft_add_eq_or_of_lt hmode, Nat.shiftLeft_eq, Nat.shiftLeft_eq, Nat.shiftLeft_eq]
  omega

theorem mode_rxdInfo (t : SearchTask) : (0x03 &&& t.rxdInfo).toNat = t.mode.toNat := by
  have hmode := t.mode.isLt
  have hlow : (0x03 &&& t.rxdInfo).toNat = t.rxdInfo.toNat % 2 ^ 2 := by
    rw [← Nat.and_two_pow_sub_one_eq_mod, BitVec.toNat_and, Nat.and_comm]
    rfl
  rw [hlow, toNat_rxdInfo]
  omega

theorem carrier_rxdInfo (t : SearchTask) :
    ((t.rxdInfo &&& 0x20) >>> 5).toNat = t.carrier.toNat := by
  have hcarrier := t.carrier.isLt
  have hmiddle := t.rxdMiddle.isLt
  have hmode := t.mode.isLt
  have hbit : ((t.rxdInfo &&& 0x20) >>> 5).toNat = t.rxdInfo.toNat / 32 % 2 ^ 1 := by
    rw [BitVec.toNat_ushiftRight, BitVec.toNat_and, Nat.shiftRight_and_distrib,
      ← Nat.and_two_pow_sub_one_eq_mod, Nat.shiftRight_eq_div_pow]
    rfl
  rw [hbit, toNat_rxdInfo]
  omega

/-- A packet whose window at the offset of descriptor `j` is that of a task
    reports the task. -/
theorem reportsTask_of_window (arith : SearchArith) (data : List Byte) (j : Nat) (t : SearchTask)
    (h : window data (30 + j * 11) 11 = t.descriptor) : ReportsTask arith (wrap data) j t := by
  have hget : ∀ k, k < 11 →
      ByteBuffer.get data (30 + j * 11 + k) = ByteBuffer.get t.descriptor k := by
    intro k hk
    rw [get_window hk, h]
  have hshort : ∀ k, k + 1 < 11 → getShort data (30 + j * 11 + k) = getShort t.descriptor k := by
    intro k hk
    rw [getShort_window hk, h]
  have hfirst := hget 0 (by omega)
  rw [Nat.add_zero] at hfirst
  have hmode : getRxdMode (wrap data) j = .ok t.mode.toNat := by
    rw [← mode_rxdInfo]
    exact congrArg (Except.map fun rxdInfo : Byte => ((0x03 &&& rxdInfo).toNat : Int))
      (hget 2 (by omega))
  have hcarrier : getCarrierInfo (wrap data) j = .ok t.carrier.toNat := by
    rw [← carrier_rxdInfo]
    exact congrArg (Except.map fun rxdInfo : Byte => (((rxdInfo &&& 0x20) >>> 5).toNat : Int))
      (hget 2 (by omega))
  have hsrcCode : getSrcCode (wrap data) j = .ok t.srcCode.toInt :=
    (hshort 6 (by omega)).trans (congrArg Except.ok (bmod_le16 _))
  refine ⟨?_, ?_, hmode, ?_, ?_, ?_, hcarrier, congrArg (Except.map Number.byte) hcarrier,
    hsrcCode, ?_, ?_⟩
  · have hcode : getByte data (30 + j * 11) = .ok t.nc.orgNC.toInt :=
      congrArg (Except.map BitVec.toInt) hfirst
    rw [getNC, wrap_mPacketData]
    exact (congrArg (Except.map _) hcode).trans (by cases t.nc <;> rfl)
  · have hcode : getByte data (30 + j * 11 + 1) = .ok t.nn.orgNN.toInt :=
      congrArg (Except.map BitVec.toInt) (hget 1 (by omega))
    rw [getNN, wrap_mPacketData]
    exact (congrArg (Except.map _) hcode).trans (by cases t.nn <;> rfl)
  · rw [getResultNum, hmode, t.length_results]
    by_cases hboth : t.mode = 3
    · rw [if_pos hboth, hboth]
      rfl
    · have hne : (3 : Int) ≠ t.mode.toNat := fun heq =>
        hboth (BitVec.eq_of_toNat_eq (Int.ofNat.inj heq).symm)
      rw [if_neg hboth, Except.map, if_neg hne]
      rfl
  · exact congrArg (Except.map BitVec.toInt) (hget 3 (by omega))
  · exact (hshort 4 (by omega)).trans (congrArg Except.ok (bmod_le16 _))
  · have hpsc : getPSC (wrap data) j = .ok t.psc.toNat := by
      rw [← intAnd_srcCode]
      exact congrArg (Except.map fun code => intAnd code 0x1fff / 16) hsrcCode
    exact congrArg (Except.map Number.int) hpsc
  · have hset : getSet (wrap data) j = .ok t.set.toInt :=
      congrArg (Except.map BitVec.toInt) (hget 10 (by omega))
    exact congrArg (Except.map Number.byte) hset

/-! ### Packets -/

section Packets

variable (head : SearchHead) (tasks : List SearchTask)

theorem length_encode (n : Nat) : (head.encode n).length = 30 := by
  rw [SearchHead.encode, List.length_append, head.length_header]
  rfl

theorem length_descriptors : (tasks.flatMap SearchTask.descriptor).length = 11 * tasks.length :=
  length_flatMap_records SearchTask.descriptor 11 (fun _ => rfl) tasks

/-- The bytes of the head, by their distance from the header. -/
theorem getElem?_searchPacket (k : Nat) (hk : k < 14) :
    (searchPacket head tasks)[16 + k]? = ([head.versionNum] ++ le16 head.rxC0Agc0
      ++ le16 head.rxC0Agc1 ++ le16 head.rxC1Agc0 ++ le16 head.rxC1Agc1 ++ [head.spare]
      ++ le16 head.freqHyp ++ [BitVec.ofNat 8 tasks.length, head.reserved])[k]? := by
  have hhead := head.length_header
  have hlen := length_encode head tasks.length
  rw [searchPacket, List.append_assoc, List.getElem?_append_left (by omega), SearchHead.encode,
    List.getElem?_append_right (by omega), hhead, Nat.add_sub_cancel_left]

theorem window_descriptor (j : Nat) (hj : j < tasks.length) :
    window (searchPacket head tasks) (30 + j * 11) 11 = tasks[j].descriptor := by
  rw [searchPacket, ← length_encode head tasks.length]
  exact window_records SearchTask.descriptor 11 (fun _ => rfl) _ _ tasks j hj

/-- The class sees as many result sets as the task has. -/
theorem resultNum_searchPacket (j : Nat) (hj : j < tasks.length) :
    resultNum (searchPacket head tasks) j = tasks[j].results.length := by
  have hbyte : (searchPacket head tasks)[30 + j * 11 + 2]? = some tasks[j].rxdInfo := by
    rw [← getElem?_window (by omega : 2 < 11), window_descriptor head tasks j hj]
    rfl
  have hmode := mode_rxdInfo tasks[j]
  rw [resultNum, List.getD_eq_getElem?_getD, hbyte, Option.getD_some, tasks[j].length_results]
  by_cases hboth : tasks[j].mode = 3
  · rw [if_pos hboth, if_pos]
    exact BitVec.eq_of_toNat_eq (hmode.trans (by rw [hboth]; rfl))
  · rw [if_neg hboth, if_neg]
    intro heq
    rw [heq] at hmode
    exact hboth (BitVec.eq_of_toNat_eq hmode.symm)

/-- The records before record `j` take up the bytes the class would have to skip. -/
theorem recordPos_searchPacket (j : Nat) (hj : j ≤ tasks.length) :
    recordPos (searchPacket head tasks) tasks.length j
      = 30 + 11 * tasks.length + ((tasks.take j).flatMap SearchTask.record).length := by
  have hsum : ∑ k ∈ Finset.range j, recordLen (searchPacket head tasks) k
      = ((tasks.take j).flatMap SearchTask.record).length := by
    induction j with
    | zero => rw [Finset.range_zero, Finset.sum_empty, List.take_zero]; rfl
    | succ k ih =>
        rw [Finset.sum_range_succ, ih (by omega), recordLen,
          resultNum_searchPacket head tasks k (by omega), ← SearchTask.length_record,
          List.take_add_one, List.getElem?_eq_getElem (by omega : k < tasks.length),
          List.flatMap_append, List.length_append, Option.toList_some, List.flatMap_singleton]
  rw [recordPos, hsum]

theorem laidOut_searchPacket (hn : tasks.length ≤ 127) :
    LaidOut (searchPacket head tasks) tasks.length where
  n_le := hn
  count := getElem?_searchPacket head tasks 12 (by omega)
  length := by
    rw [recordPos_searchPacket head tasks _ le_rfl, List.take_length, searchPacket,
      List.length_append, List.length_append, length_encode, length_descriptors]

/-- A word of the record of task `j`, behind tasks that use as many receivers. -/
theorem getResult_searchPacket (hn : tasks.length ≤ 127) (j : Nat) (hj : j < tasks.length)
    (hsame : ∀ (k : Nat) (hk : k < j), tasks[k].results.length = tasks[j].results.length)
    (k : Nat) (hk : k < tasks[j].words.length) :
    getResult (wrap (searchPacket head tasks)) j (4 * k) = .ok (tasks[j].words[k]).toInt := by
  have hlaid := laidOut_searchPacket head tasks hn
  have hpos := (resultPos_eq_recordPos_iff hlaid j).mpr fun k hk => by
    rw [resultNum_searchPacket head tasks k (by omega), resultNum_searchPacket head tasks j hj,
      hsame k hk]
  rw [hlaid.resultPos, Int.ofNat_inj] at hpos
  have hwindow : window (searchPacket head tasks) (recordPos (searchPacket head tasks)
      tasks.length j) (4 * tasks[j].words.length) = tasks[j].words.flatMap le32 := by
    have hrec := window_flatMap SearchTask.record
      (head.encode tasks.length ++ tasks.flatMap SearchTask.descriptor) [] tasks j hj
    rw [List.append_nil, List.length_append, length_encode, length_descriptors] at hrec
    rw [recordPos_searchPacket head tasks j hj.le, ← length_flatMap_le32]
    exact hrec
  rw [getInt_wrap hlaid hj, hpos]
  exact getInt_words hwindow hk

theorem reportsHead_searchPacket (arith : SearchArith) (hn : tasks.length ≤ 127) :
    ReportsHead arith (wrap (searchPacket head tasks)) head tasks.length := by
  have hbyte := getElem?_searchPacket head tasks
  have hshort : ∀ k : Nat, ∀ w : BitVec 16,
      (searchPacket head tasks)[16 + k]? = some (w.extractLsb' 0 8) →
      (searchPacket head tasks)[16 + k + 1]? = some (w.extractLsb' 8 8) →
      getShort (searchPacket head tasks) (16 + k) = .ok w.toInt := by
    intro k w hlo hhi
    rw [getShort, hlo, hhi]
    exact congrArg Except.ok (bmod_le16 w)
  refine ⟨?_, ?_, ?_, ?_, ?_, ?_, ?_⟩
  · rw [getVersionNum, getByte, ByteBuffer.get, wrap_mPacketData, logResponseHeadLen,
      ← Nat.add_zero 16, hbyte 0 (by omega)]
    rfl
  · exact hshort 1 head.rxC0Agc0 (hbyte 1 (by omega)) (hbyte 2 (by omega))
  · exact hshort 3 head.rxC0Agc1 (hbyte 3 (by omega)) (hbyte 4 (by omega))
  · exact hshort 5 head.rxC1Agc0 (hbyte 5 (by omega)) (hbyte 6 (by omega))
  · exact hshort 7 head.rxC1Agc1 (hbyte 7 (by omega)) (hbyte 8 (by omega))
  · exact hshort 10 head.freqHyp (hbyte 10 (by omega)) (hbyte 11 (by omega))
  · have hlaid := laidOut_searchPacket head tasks hn
    have hlen : 28 < (searchPacket head tasks).length :=
      (List.getElem?_eq_some_iff.mp hlaid.count).1
    rw [WCDMA4179Packet.getNumber, getTaskSpecNum_eq _ (by exact hlen), wrap_mPacketData,
      hlaid.taskSpecNum]
    rfl

/-- The word at an offset that is a word's. -/
theorem getResult_wordAt (hn : tasks.length ≤ 127) (j : Nat) (hj : j < tasks.length)
    (hsame : ∀ (k : Nat) (hk : k < j), tasks[k].results.length = tasks[j].results.length)
    (off : Nat) (hoff : off < 60) (hfour : off % 4 = 0) :
    getResult (wrap (searchPacket head tasks)) j off = .ok (tasks[j].wordAt off) := by
  have hwords := tasks[j].fifteen_le
  have hread := getResult_searchPacket head tasks hn j hj hsame (off / 4) (by omega)
  rw [show 4 * (off / 4) = off by omega] at hread
  rw [hread, SearchTask.wordAt, List.getD_eq_getElem _ _ (by omega)]

theorem rxAgc_searchPacket (arith : SearchArith) (hn : tasks.length ≤ 127) (j : Nat)
    (hj : j < tasks.length) :
    getRxAgc (wrap (searchPacket head tasks)) j = .ok (head.rxAgc tasks[j]) := by
  have hhead := reportsHead_searchPacket head tasks arith hn
  have htask := reportsTask_of_window arith _ j _ (window_descriptor head tasks j hj)
  rw [getRxAgc, hhead.rxC0Agc0, htask.carrierInfo, SearchHead.rxAgc]
  by_cases hzero : tasks[j].carrier = 0
  · rw [if_pos hzero, hzero]
    rfl
  · have hne : (0 : Int) ≠ tasks[j].carrier.toNat := fun heq =>
      hzero (BitVec.eq_of_toNat_eq (Int.ofNat.inj heq).symm)
    rw [if_neg hzero, ← hhead.rxC1Agc0]
    exact if_pos hne

/-- The records behind tasks that use as many receivers are read back. -/
theorem reportsResult_searchPacket (arith : SearchArith) (hn : tasks.length ≤ 127) (j : Nat)
    (hj : j < tasks.length)
    (hsame : ∀ (k : Nat) (hk : k < j), tasks[k].results.length = tasks[j].results.length) :
    ReportsResult arith (wrap (searchPacket head tasks)) head j tasks[j] := by
  have htask := reportsTask_of_window arith _ j _ (window_descriptor head tasks j hj)
  have hword := getResult_wordAt head tasks hn j hj hsame
  have hmax : ∀ a b : Int, (if a > b then a else b) = max a b := by
    intro a b
    omega
  have hof : ∀ (read : PacketBase → Nat → Except JavaException Int) (off : Nat), off < 60 →
      off % 4 = 0 → read = (fun p j => getResult p j off) →
      ecIoOf arith read (wrap (searchPacket head tasks)) j
        = .ok (tasks[j].ecIo arith (tasks[j].wordAt off)) := by
    rintro read off hoff hfour rfl
    rw [ecIoOf, htask.nc, htask.nn, hword off hoff hfour]
    rfl
  have hecIo : getEcIo1 arith (wrap (searchPacket head tasks)) j = .ok (tasks[j].ecIo arith
      (max (max tasks[j].filtEng1.toInt tasks[j].filtEng2.toInt) (tasks[j].wordAt 44))) := by
    rw [getEcIo1, htask.nc, htask.nn, getFiltEng1, getFiltEng2, getENG3,
      hword 0 (by omega) (by omega), hword 4 (by omega) (by omega), hword 44 (by omega) (by omega),
      ← hmax, ← hmax]
    rfl
  refine ⟨?_, ?_, congrArg (Except.map Number.float) hecIo, ?_, ?_⟩
  · intro w hw
    obtain ⟨hget, -⟩ := words_getResult hw
    rw [hget]
    unfold words at hw
    fin_cases hw <;> exact hword _ (by decide) (by decide)
  · intro w hw
    obtain ⟨hget, hoff, hfour⟩ := energies_getResult hw
    rw [hget]
    exact hof _ w.1 hoff hfour rfl
  · have hpeak : getPeakEcIo1 arith (wrap (searchPacket head tasks)) j
        = .ok (tasks[j].ecIo arith (tasks[j].wordAt 12)) :=
      hof getPOS1 12 (by omega) (by omega) rfl
    exact congrArg (Except.map Number.float) hpeak
  · rw [getNumberAt, hecIo, rxAgc_searchPacket head tasks arith hn j hj]
    rfl

/-- A 0x4179 packet is read back: the head and the number of tasks, every
    descriptor, and every record behind tasks that use as many receivers as its
    own task does. -/
theorem searchTables_read_back (arith : SearchArith) (hn : tasks.length ≤ 127) :
    ReportsHead arith (wrap (searchPacket head tasks)) head tasks.length ∧
      ∀ (j : Nat) (hj : j < tasks.length),
        ReportsTask arith (wrap (searchPacket head tasks)) j tasks[j] ∧
        ((∀ (k : Nat) (hk : k < j), tasks[k].results.length = tasks[j].results.length) →
          ReportsResult arith (wrap (searchPacket head tasks)) head j tasks[j]) := by
  refine ⟨reportsHead_searchPacket head tasks arith hn, fun j hj => ⟨?_, fun hsame => ?_⟩⟩
  · exact reportsTask_of_window arith _ j _ (window_descriptor head tasks j hj)
  · exact reportsResult_searchPacket head tasks arith hn j hj hsame

end Packets

/-- A task on both receivers, with `w` in every word of its result sets. -/
def bothReceivers (w : BitVec 32) : SearchTask where
  nc := .chips2048
  nn := .twice
  rxdHigh := 3
  carrier := 1
  rxdMiddle := 5
  mode := 3
  ovsf := 0x80
  pnPos := 0xFFFF
  codeHigh := 7
  psc := 511
  codeLow := 9
  spare := 0
  set := 2
  filtEng1 := 5
  filtEng2 := 0xFFFFFFFF
  filtEng3 := 9
  results := List.replicate 2 ⟨List.replicate 12 w, List.length_replicate⟩
  length_results := rfl

def quietHead : SearchHead where
  header := List.replicate 16 0
  length_header := rfl
  versionNum := 1
  rxC0Agc0 := 0x8000
  rxC0Agc1 := 2
  rxC1Agc0 := 0xFE00
  rxC1Agc1 := 4
  spare := 5
  freqHyp := 6
  reserved := 7

/-- An arithmetic that shows the energy it is given. -/
def showEnergy : SearchArith := ⟨fun _ _ eng => .finite eng, fun ecIo _ => ecIo⟩

/-- The second of two tasks on both receivers. -/
theorem searchTables_read_back_second :
    ReportsTask showEnergy (wrap (searchPacket quietHead [bothReceivers 3, bothReceivers 4])) 1
      (bothReceivers 4) ∧
    getNumberAt showEnergy (wrap (searchPacket quietHead [bothReceivers 3, bothReceivers 4]))
      .wcdma4179EcIo 1 = .ok (.float (.finite 5)) := by
  obtain ⟨-, hall⟩ := searchTables_read_back quietHead [bothReceivers 3, bothReceivers 4]
    showEnergy (by decide)
  obtain ⟨htask, hresult⟩ := hall 1 (by decide)
  refine ⟨htask, (hresult fun k hk => ?_).ecIo⟩
  rw [Nat.lt_one_iff] at hk
  subst hk
  rfl

end NetProbe
