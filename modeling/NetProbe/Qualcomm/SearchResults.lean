import NetProbe.Qualcomm.Fields
import Mathlib.Algebra.BigOperators.Ring.Finset
import Mathlib.Algebra.Group.Action.Defs
import Mathlib.Algebra.Order.BigOperators.Group.Finset
import Mathlib.Tactic.FinCases
import Mathlib.Tactic.Ring

/-!
# Search Results of 0x4179

Behind the task descriptors a 0x4179 packet carries one result record per task,
in the order of the tasks. A record holds three filtered energies and, for each
result set, six positions and six peak energies. A task that uses both receivers
has two result sets, so the records are not all of one length, and where a record
starts depends on every task before it.

The class computes the start of record `j` as `j` times the length of record `j`
itself. That is the right place exactly if every earlier record has that length
too. Which words are read is therefore stated over all packets with the same
header and descriptors: a single packet could hold the right word at the wrong
place by chance.

The filtered energies are read for the Ec/Io of a task. Of the three only two
are; in the place of the third stands a peak energy, thirty-six bytes further on.

## Main definitions

* `recordPos`: Where the record of a task starts.
* `LaidOut`: A packet as the class lays it out.
* `words`: The fifteen word getters with their offsets.
* `filteredEcIo1`: The Ec/Io from the filtered energies alone.

## Theorems

* `resultPos_eq_recordPos_iff`: When the class looks in the right place.
* `other_word`: Two packets that only a reader of the record tells apart.
* `words_exact`: A getter reads the word of its record exactly then.
* `filtered_iff_peakHidden`, `getEcIo1_exact`: When the Ec/Io is that of the filtered energies.
-/

namespace NetProbe

open ByteBuffer

open PacketBase (logResponseHeadLen)

namespace WCDMA4179Packet

/-- The length of the result record of task `k`. -/
def recordLen (data : List Byte) (k : Nat) : Nat := 12 + 48 * resultNum data k

/-- The record of task `j` stands behind the header, the descriptors and the
    records of the tasks before it. -/
def recordPos (data : List Byte) (n j : Nat) : Nat :=
  30 + 11 * n + ∑ k ∈ Finset.range j, recordLen data k

/-- A packet with `n` tasks: the header with the count, the descriptors and the
    records. -/
structure LaidOut (data : List Byte) (n : Nat) : Prop where
  n_le : n ≤ 127
  count : data[28]? = some (BitVec.ofNat 8 n)
  length : data.length = recordPos data n n

/-- The words of a result with their offsets in the record. -/
def words : List (Nat × (PacketBase → Nat → Except JavaException Int)) :=
  [(0, getFiltEng1), (4, getFiltEng2), (8, getFiltEng3),
    (12, getPOS1), (16, getPOS2), (20, getPOS3), (24, getPOS4), (28, getPOS5), (32, getPOS6),
    (36, getENG1), (40, getENG2), (44, getENG3), (48, getENG4), (52, getENG5), (56, getENG6)]

theorem words_getResult {w : Nat × (PacketBase → Nat → Except JavaException Int)}
    (hw : w ∈ words) : w.2 = (fun p j => getResult p j w.1) ∧ w.1 + 4 ≤ 60 := by
  unfold words at hw
  fin_cases hw <;> exact ⟨rfl, by decide⟩

theorem resultNum_cases (data : List Byte) (k : Nat) :
    resultNum data k = 1 ∨ resultNum data k = 2 := by
  unfold resultNum
  split
  · exact Or.inr rfl
  · exact Or.inl rfl

/-! ### Places -/

theorem LaidOut.taskSpecNum {data : List Byte} {n : Nat} (h : LaidOut data n) :
    WCDMA4179Packet.taskSpecNum data = n := by
  have hn := h.n_le
  rw [WCDMA4179Packet.taskSpecNum, List.getD_eq_getElem?_getD, h.count, Option.getD_some,
    BitVec.toInt_ofNat', Int.bmod_eq_of_le (by omega) (by omega)]

/-- The class multiplies where it should add. -/
theorem LaidOut.resultPos {data : List Byte} {n : Nat} (h : LaidOut data n) (j : Nat) :
    WCDMA4179Packet.resultPos data j = ((30 + 11 * n + j * recordLen data j : Nat) : Int) := by
  rw [WCDMA4179Packet.resultPos, h.taskSpecNum, recordLen]
  push_cast
  ring

/-- A multiple of an extreme length is the sum of the lengths only if they are
    all the same. -/
theorem mul_eq_sum_iff (f : Nat → Nat) (j : Nat) (h : (∀ k, f j ≤ f k) ∨ ∀ k, f k ≤ f j) :
    j * f j = ∑ k ∈ Finset.range j, f k ↔ ∀ k < j, f k = f j := by
  have hconst : j * f j = ∑ _k ∈ Finset.range j, f j := by
    rw [Finset.sum_const, Finset.card_range, smul_eq_mul]
  rw [hconst]
  rcases h with hle | hge
  · rw [Finset.sum_eq_sum_iff_of_le fun k _ => hle k]
    simp only [Finset.mem_range, eq_comm]
  · rw [eq_comm, Finset.sum_eq_sum_iff_of_le fun k _ => hge k]
    simp only [Finset.mem_range]

theorem recordLen_inj (data : List Byte) (k j : Nat) :
    recordLen data k = recordLen data j ↔ resultNum data k = resultNum data j := by
  rw [recordLen, recordLen]
  omega

/-- The class looks for record `j` in the right place exactly if every task before
    it has as many result sets as it has. -/
theorem resultPos_eq_recordPos_iff {data : List Byte} {n : Nat} (h : LaidOut data n) (j : Nat) :
    WCDMA4179Packet.resultPos data j = recordPos data n j
      ↔ ∀ k < j, resultNum data k = resultNum data j := by
  have hextreme : (∀ k, recordLen data j ≤ recordLen data k)
      ∨ ∀ k, recordLen data k ≤ recordLen data j := by
    rcases resultNum_cases data j with hj | hj
    · refine Or.inl fun k => ?_
      have hk := resultNum_cases data k
      rw [recordLen, recordLen]
      omega
    · refine Or.inr fun k => ?_
      have hk := resultNum_cases data k
      rw [recordLen, recordLen]
      omega
  rw [h.resultPos, recordPos, Int.ofNat_inj, Nat.add_left_cancel_iff,
    mul_eq_sum_iff _ _ hextreme]
  simp only [recordLen_inj]

/-- The two places are whole result sets apart, so the words there do not
    overlap. -/
theorem recordPos_apart (data : List Byte) (n j : Nat) :
    (30 + 11 * n + j * recordLen data j) % 48 = recordPos data n j % 48 := by
  have hsum : ∑ k ∈ Finset.range j, recordLen data k
      = 12 * j + 48 * ∑ k ∈ Finset.range j, resultNum data k := by
    simp only [recordLen, Finset.sum_add_distrib, Finset.sum_const, Finset.card_range, smul_eq_mul,
      Finset.mul_sum]
    omega
  rw [recordPos, hsum, recordLen, Nat.mul_add, Nat.mul_comm j 12, Nat.mul_left_comm]
  omega

theorem recordPos_mono (data : List Byte) {n j : Nat} (hj : j < n) :
    recordPos data n j + recordLen data j ≤ recordPos data n n := by
  have hsub : Finset.range (j + 1) ⊆ Finset.range n := Finset.range_subset_range.mpr hj
  have hle := Finset.sum_le_sum_of_subset (f := recordLen data) hsub
  rw [Finset.sum_range_succ] at hle
  rw [recordPos, recordPos]
  omega

/-! ### Packets with the same descriptors -/

/-- The records of two packets with one header and the same descriptors have the
    same lengths. -/
theorem resultNum_congr {data data' : List Byte} {n k : Nat}
    (htake : data'.take (30 + 11 * n) = data.take (30 + 11 * n)) (hk : k < n) :
    resultNum data' k = resultNum data k := by
  have hbyte : data'[30 + k * 11 + 2]? = data[30 + k * 11 + 2]? := by
    rw [← List.getElem?_take_of_lt (by omega : 30 + k * 11 + 2 < 30 + 11 * n), htake,
      List.getElem?_take_of_lt (by omega)]
  rw [resultNum, resultNum, List.getD_eq_getElem?_getD, List.getD_eq_getElem?_getD, hbyte]

theorem recordPos_congr {data data' : List Byte} {n j : Nat}
    (htake : data'.take (30 + 11 * n) = data.take (30 + 11 * n)) (hj : j ≤ n) :
    recordPos data' n j = recordPos data n j := by
  rw [recordPos, recordPos]
  refine congrArg _ (Finset.sum_congr rfl fun k hk => ?_)
  have hlt := Finset.mem_range.mp hk
  rw [recordLen, recordLen, resultNum_congr htake (by omega)]

theorem LaidOut.set {data : List Byte} {n i : Nat} (h : LaidOut data n) (b : Byte)
    (hi : 30 + 11 * n ≤ i) : LaidOut (data.set i b) n where
  n_le := h.n_le
  count := by rw [List.getElem?_set_ne (by omega), h.count]
  length := by
    rw [List.length_set, recordPos_congr (List.take_set_of_le hi) le_rfl, h.length]

theorem getInt_wrap {data : List Byte} {n j : Nat} (h : LaidOut data n) (hj : j < n) (off : Nat) :
    getResult (wrap data) j off = getInt data (30 + 11 * n + j * recordLen data j + off) := by
  have hrec := recordPos_mono data hj
  have hlen := h.length
  have hpos : 30 + 11 * n ≤ recordPos data n j := Nat.le_add_right _ _
  rw [getResult_eq (wrap data) j off (by rw [wrap_mPacketData]; omega), wrap_mPacketData,
    h.resultPos, ← Int.natCast_add, getAt_natCast]

/-- Where the class looks somewhere else, there is a packet with the same descriptors
    that has another word in the record and the same one where the class looks. -/
theorem other_word {data : List Byte} {n j off : Nat} (h : LaidOut data n) (hj : j < n)
    (hin : recordPos data n j + off + 4 ≤ data.length)
    (hne : 30 + 11 * n + j * recordLen data j ≠ recordPos data n j) :
    ∃ data', LaidOut data' n ∧ data'.take (30 + 11 * n) = data.take (30 + 11 * n)
      ∧ getInt data' (recordPos data n j + off) ≠ getInt data (recordPos data n j + off)
      ∧ getResult (wrap data') j off = getResult (wrap data) j off := by
  have happart := recordPos_apart data n j
  have hstart : 30 + 11 * n ≤ recordPos data n j := Nat.le_add_right _ _
  have hword : recordPos data n j + off < data.length := by omega
  -- Change the first byte of the word; the place the class looks at is too far off.
  let data' := data.set (recordPos data n j + off) (data[recordPos data n j + off] + 1)
  have hdata' : LaidOut data' n := h.set _ (by omega)
  have htake : data'.take (30 + 11 * n) = data.take (30 + 11 * n) :=
    List.take_set_of_le (by omega)
  have hlen : data'.length = data.length := List.length_set
  refine ⟨data', hdata', htake, fun heq => ?_, ?_⟩
  · have hsame : window data' (recordPos data n j + off) 4
        = window data (recordPos data n j + off) 4 := window_of_getWide (hlen ▸ hin) hin heq
    have hbyte : data'[recordPos data n j + off]? = data[recordPos data n j + off]? := by
      have hzero := congrArg (·[0]?) hsame
      rwa [getElem?_window (by omega), getElem?_window (by omega), Nat.add_zero] at hzero
    rw [List.getElem?_set_self hword, List.getElem?_eq_getElem hword, Option.some.injEq] at hbyte
    bv_omega
  · rw [getInt_wrap hdata' hj, getInt_wrap h hj, recordLen, resultNum_congr htake hj, ← recordLen,
      getInt, getWide, window_set _ (by omega), hlen]
    rfl

/-- A word getter reads the word of its record, in every packet with this header
    and these descriptors, exactly if the tasks before have as many result sets as
    the task itself. -/
theorem words_exact {data : List Byte} {n j : Nat} (h : LaidOut data n) (hj : j < n) :
    ∀ w ∈ words,
      (∀ data', LaidOut data' n → data'.take (30 + 11 * n) = data.take (30 + 11 * n) →
        ∃ v, getInt data' (recordPos data' n j + w.1) = .ok v ∧ w.2 (wrap data') j = .ok v)
      ↔ ∀ k < j, resultNum data k = resultNum data j := by
  intro w hw
  obtain ⟨hget, hoff⟩ := words_getResult hw
  simp only [hget]
  have hinside : ∀ d, LaidOut d n → recordPos d n j + w.1 + 4 ≤ d.length := by
    intro d hd
    have hrec := recordPos_mono d hj
    have hlen := hd.length
    have hnum := resultNum_cases d j
    rw [recordLen] at hrec
    omega
  constructor
  · intro hreads
    rw [← resultPos_eq_recordPos_iff h, h.resultPos, Int.ofNat_inj]
    by_contra hne
    obtain ⟨data', hdata', htake, hother, hread⟩ := other_word h hj (hinside data h) hne
    obtain ⟨v, hv, hgot⟩ := hreads data h rfl
    obtain ⟨v', hv', hgot'⟩ := hreads data' hdata' htake
    rw [recordPos_congr htake hj.le] at hv'
    rw [hv, hv', ← hgot, ← hgot'] at hother
    exact hother hread
  · intro hsame d hd htake
    have hsame' : ∀ k < j, resultNum d k = resultNum d j := by
      intro k hk
      rw [resultNum_congr htake (by omega), resultNum_congr htake hj, hsame k hk]
    have hpos := (resultPos_eq_recordPos_iff hd j).mpr hsame'
    rw [hd.resultPos, Int.ofNat_inj] at hpos
    rw [getInt_wrap hd hj, hpos]
    obtain ⟨v, hv⟩ := (getWide_ok_iff d _ 4).mpr (hinside d hd)
    exact ⟨v, hv, hv⟩

/-- Two single-receiver tasks, without a word set. -/
def evenPacket : List Byte := (List.replicate 172 0).set 28 2

theorem laidOut_evenPacket : LaidOut evenPacket 2 :=
  ⟨by decide, rfl, by decide +kernel⟩

/-- Two tasks that agree: the second's words are found. -/
theorem words_exact_evenPacket :
    ∃ v, getInt evenPacket (recordPos evenPacket 2 1 + 56) = .ok v
      ∧ getENG6 (wrap evenPacket) 1 = .ok v :=
  (words_exact laidOut_evenPacket (by decide) (56, getENG6) (by simp [words])).mpr (by decide)
    evenPacket laidOut_evenPacket rfl

/-- A task on both receivers and behind it one on a single receiver, whose first
    filtered energy is one. -/
def mixedPacket : List Byte := (((List.replicate 220 0).set 28 2).set 32 3).set 160 1

theorem laidOut_mixedPacket : LaidOut mixedPacket 2 :=
  ⟨by decide, rfl, by decide +kernel⟩

/-- The energy of the second task stands at 160, and the class reads at 112. -/
theorem words_mixedPacket :
    ¬∀ (data : List Byte) (n j : Nat), LaidOut data n → j < n → ∀ w ∈ words,
      ∃ v, getInt data (recordPos data n j + w.1) = .ok v ∧ w.2 (wrap data) j = .ok v := by
  intro hall
  obtain ⟨v, hv, hgot⟩ := hall mixedPacket 2 1 laidOut_mixedPacket (by decide) (0, getFiltEng1)
    (by simp [words])
  have hone : getInt mixedPacket (recordPos mixedPacket 2 1 + 0) = .ok 1 := by decide +kernel
  have hzero : getFiltEng1 (wrap mixedPacket) 1 = .ok 0 := by decide +kernel
  have hsame := hzero.symm.trans (hgot.trans (hv.symm.trans hone))
  exact absurd (Except.ok.inj hsame) (by decide)

/-! ### Energies -/

section Arith

variable (p : PacketBase) (i : Nat)

/-- The Ec/Io of a task from the largest of its filtered energies. -/
def filteredEcIo1 (arith : SearchArith) : Except JavaException JFloat := do
  let nc ← getNC p i
  let nn ← getNN p i
  let eng1 ← getFiltEng1 p i
  let eng2 ← getFiltEng2 p i
  let eng3 ← getFiltEng3 p i
  pure (arith.calcEcIo nc nn (max (max eng1 eng2) eng3))

/-- The third peak energy, where the filtered energies can be read, can be read too,
    and either it is the third filtered energy or neither is larger than the other
    two. -/
def PeakHidden : Prop :=
  ∀ eng1 eng2 eng3, getFiltEng1 p i = .ok eng1 → getFiltEng2 p i = .ok eng2 →
    getFiltEng3 p i = .ok eng3 → ∃ peak3, getENG3 p i = .ok peak3
      ∧ (peak3 = eng3 ∨ peak3 ≤ max eng1 eng2 ∧ eng3 ≤ max eng1 eng2)

/-- Two packets that differ at most in the positions and peak energies of the
    task. -/
structure SameFiltered (q : PacketBase) : Prop where
  nc : getNC p i = getNC q i
  nn : getNN p i = getNN q i
  eng1 : getFiltEng1 p i = getFiltEng1 q i
  eng2 : getFiltEng2 p i = getFiltEng2 q i
  eng3 : getFiltEng3 p i = getFiltEng3 q i

/-- A result that can be read has its descriptor in the packet. -/
theorem descriptor_of_getResult {p : PacketBase} {i off : Nat} {v : Int}
    (h : getResult p i off = .ok v) : 30 + i * 11 + 2 < p.mPacketData.length := by
  by_contra hshort
  have hmode : getResultNum p i = .error .indexOutOfBounds := by
    rw [getResultNum, getRxdMode, ByteBuffer.get,
      List.getElem?_eq_none (by rw [inputTaskInfoStatPos, logResponseHeadLen,
        srchlogtaskInfoLength]; omega)]
    rfl
  rw [getResult, hmode] at h
  rcases hstart : getTaskInfoStartPos p with e | start <;> rw [hstart] at h
  · exact absurd h (by simp only [Bind.bind, Except.bind, reduceCtorEq, not_false_eq_true])
  · exact absurd h (by simp only [Bind.bind, Except.bind, reduceCtorEq, not_false_eq_true])

/-- Where the third filtered energy cannot be read, the third peak energy behind it
    cannot either. -/
theorem getENG3_error {p : PacketBase} {i : Nat} {eng1 : Int} {e : JavaException}
    (h1 : getFiltEng1 p i = .ok eng1) (h3 : getFiltEng3 p i = .error e) :
    getENG3 p i = .error e := by
  have hdesc := descriptor_of_getResult h1
  have hstart := (getResult_ok_iff p i 0 hdesc).mp ⟨eng1, h1⟩
  obtain ⟨pos, hpos⟩ := Int.eq_ofNat_of_zero_le (by omega : 0 ≤ resultPos p.mPacketData i)
  have hread : ∀ off, getResult p i off = getWide p.mPacketData (pos + off) 4 := by
    intro off
    rw [getResult_eq p i off hdesc, hpos, ← Int.natCast_add, getAt_natCast, getInt]
  rw [getFiltEng3, hread, getWide] at h3
  rw [getENG3, hread, getWide]
  split at h3
  · exact absurd h3 (by simp only [reduceCtorEq, not_false_eq_true])
  · rw [if_neg (by omega)]
    exact h3

/-- The selection in the code, with a fourth word in the place of the third. -/
theorem max_eq_max_iff (eng1 eng2 eng3 peak3 : Int) :
    max (max eng1 eng2) peak3 = max (max eng1 eng2) eng3
      ↔ peak3 = eng3 ∨ peak3 ≤ max eng1 eng2 ∧ eng3 ≤ max eng1 eng2 := by
  omega

/-- The reads in front of the third energy are the same. -/
theorem getEcIo1_of_reads (arith : SearchArith) {p : PacketBase} {i : Nat} {eng1 eng2 nc nn : Int}
    (hnc : getNC p i = .ok nc) (hnn : getNN p i = .ok nn) (h1 : getFiltEng1 p i = .ok eng1)
    (h2 : getFiltEng2 p i = .ok eng2) :
    getEcIo1 arith p i = (getENG3 p i).map
        (fun peak3 => arith.calcEcIo nc nn (max (max eng1 eng2) peak3))
      ∧ filteredEcIo1 p i arith = (getFiltEng3 p i).map
        (fun eng3 => arith.calcEcIo nc nn (max (max eng1 eng2) eng3)) := by
  have hmax : ∀ a b : Int, (if a > b then a else b) = max a b := by
    intro a b
    omega
  rw [getEcIo1, filteredEcIo1, hnc, hnn, h1, h2]
  simp only [hmax]
  exact ⟨rfl, rfl⟩

theorem filtered_iff_peakHidden :
    (∀ arith : SearchArith, getEcIo1 arith p i = filteredEcIo1 p i arith) ↔ PeakHidden p i := by
  constructor
  · intro hall eng1 eng2 eng3 h1 h2 h3
    have hdesc := descriptor_of_getResult h1
    obtain ⟨nc, hnc⟩ := (getNC_ok_iff p i).mpr (by omega)
    obtain ⟨nn, hnn⟩ := (getNN_ok_iff p i).mpr (by omega)
    -- an arithmetic that shows the energy it is given
    have hsel := hall ⟨fun _ _ eng => .finite eng, fun ecIo _ => ecIo⟩
    obtain ⟨hcode, hspec⟩ := getEcIo1_of_reads
      ⟨fun _ _ eng => .finite eng, fun ecIo _ => ecIo⟩ hnc hnn h1 h2
    rw [hcode, hspec, h3] at hsel
    rcases hpeak : getENG3 p i with e | peak3 <;> rw [hpeak] at hsel
    · exact absurd hsel (by simp only [Except.map, reduceCtorEq, not_false_eq_true])
    · simp only [Except.map, Except.ok.injEq, JFloat.finite.injEq, Int.cast_inj] at hsel
      exact ⟨peak3, rfl, (max_eq_max_iff eng1 eng2 eng3 peak3).mp hsel⟩
  · intro hhidden arith
    rcases hnc : getNC p i with e | nc
    · rw [getEcIo1, filteredEcIo1, hnc]
      rfl
    rcases hnn : getNN p i with e | nn
    · rw [getEcIo1, filteredEcIo1, hnc, hnn]
      rfl
    rcases h1 : getFiltEng1 p i with e | eng1
    · rw [getEcIo1, filteredEcIo1, hnc, hnn, h1]
      rfl
    rcases h2 : getFiltEng2 p i with e | eng2
    · rw [getEcIo1, filteredEcIo1, hnc, hnn, h1, h2]
      rfl
    obtain ⟨hcode, hspec⟩ := getEcIo1_of_reads arith hnc hnn h1 h2
    rw [hcode, hspec]
    rcases h3 : getFiltEng3 p i with e | eng3
    · rw [getENG3_error h1 h3]
    · obtain ⟨peak3, hpeak, hsel⟩ := hhidden eng1 eng2 eng3 h1 h2 h3
      rw [hpeak, Except.map, Except.map,
        (max_eq_max_iff eng1 eng2 eng3 peak3).mpr hsel]

/-- The Ec/Io of a task comes from its filtered energies, whatever is computed from
    them, exactly if the peak energy that is read does not show. Packets that differ
    in the positions and peak energies alone then give the same. -/
theorem getEcIo1_exact :
    ((∀ arith : SearchArith, getEcIo1 arith p i = filteredEcIo1 p i arith) ↔ PeakHidden p i)
    ∧ ∀ q, SameFiltered p i q → PeakHidden p i → PeakHidden q i →
      ∀ arith : SearchArith, getEcIo1 arith p i = getEcIo1 arith q i := by
  refine ⟨filtered_iff_peakHidden p i, fun q hsame hp hq arith => ?_⟩
  rw [(filtered_iff_peakHidden p i).mpr hp arith, (filtered_iff_peakHidden q i).mpr hq arith,
    filteredEcIo1, filteredEcIo1, hsame.nc, hsame.nn, hsame.eng1, hsame.eng2, hsame.eng3]

end Arith

/-- One task whose energies are all zero but the third peak energy, which is
    `peak3`. -/
def peakPacket (peak3 : Byte) : List Byte :=
  ((List.replicate 101 0).set 28 1).set 85 peak3

/-- One task with the filtered energies 7, 9 and 4, and the third peak energy
    `peak3`. -/
def hiddenPacket (peak3 : Byte) : List Byte :=
  (((peakPacket peak3).set 41 7).set 45 9).set 49 4

/-- A peak energy between the filtered energies does not show, and packets that
    differ in it give the same. -/
theorem getEcIo1_exact_hidden_peak :
    ∀ arith : SearchArith,
      getEcIo1 arith (wrap (hiddenPacket 5)) 0 = filteredEcIo1 (wrap (hiddenPacket 5)) 0 arith
      ∧ getEcIo1 arith (wrap (hiddenPacket 5)) 0 = getEcIo1 arith (wrap (hiddenPacket 8)) 0 := by
  have hhidden : ∀ peak3 ∈ [(5 : Byte), 8], PeakHidden (wrap (hiddenPacket peak3)) 0 := by
    intro peak3 hpeak3 eng1 eng2 eng3 h1 h2 h3
    have hreads : ∀ peak3 ∈ [(5 : Byte), 8],
        getFiltEng1 (wrap (hiddenPacket peak3)) 0 = .ok 7
          ∧ getFiltEng2 (wrap (hiddenPacket peak3)) 0 = .ok 9
          ∧ getFiltEng3 (wrap (hiddenPacket peak3)) 0 = .ok 4
          ∧ getENG3 (wrap (hiddenPacket peak3)) 0 = .ok peak3.toInt := by
      decide +kernel
    have hsmall : ∀ peak3 ∈ [(5 : Byte), 8], peak3.toInt ≤ 9 := by decide
    obtain ⟨hone, htwo, hthree, hpeak⟩ := hreads peak3 hpeak3
    obtain rfl := Except.ok.inj (hone.symm.trans h1)
    obtain rfl := Except.ok.inj (htwo.symm.trans h2)
    obtain rfl := Except.ok.inj (hthree.symm.trans h3)
    exact ⟨_, hpeak, Or.inr ⟨hsmall peak3 hpeak3, by decide⟩⟩
  have hfive := hhidden 5 (by decide)
  have hsame : SameFiltered (wrap (hiddenPacket 5)) 0 (wrap (hiddenPacket 8)) := by
    constructor <;> decide +kernel
  obtain ⟨hexact, htwo⟩ := getEcIo1_exact (wrap (hiddenPacket 5)) 0
  exact fun arith => ⟨hexact.mpr hfive arith, htwo _ hsame hfive (hhidden 8 (by decide)) arith⟩

/-- The peak energy shows in the Ec/Io of the task, so two packets that differ in it
    alone give different ones. -/
theorem getEcIo1_peakPacket :
    LaidOut (peakPacket 0) 1 ∧ LaidOut (peakPacket 5) 1
      ∧ (∀ k, k ≠ 85 → (peakPacket 0)[k]? = (peakPacket 5)[k]?)
      ∧ ∃ arith : SearchArith,
        getEcIo1 arith (wrap (peakPacket 5)) 0 ≠ filteredEcIo1 (wrap (peakPacket 5)) 0 arith
        ∧ getEcIo1 arith (wrap (peakPacket 5)) 0 ≠ getEcIo1 arith (wrap (peakPacket 0)) 0 := by
  refine ⟨⟨by decide, rfl, by decide +kernel⟩, ⟨by decide, rfl, by decide +kernel⟩, ?_,
    ⟨fun _ _ eng => if eng = 0 then .negInf else .posInf, fun ecIo _ => ecIo⟩,
    by decide +kernel, by decide +kernel⟩
  intro k hk
  simp only [peakPacket, List.getElem?_set_ne hk.symm]

end WCDMA4179Packet

end NetProbe
