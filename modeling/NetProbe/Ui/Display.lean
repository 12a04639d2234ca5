import NetProbe.Qualcomm.SearchTables
import NetProbe.Ui.Pagers

/-!
# What the Screens Show

The three screens from end to end: a report is what the modem has to say, its
packet is how it says so, and the texts of the tables are what the user gets to
read. A report is encoded, read by the parser class of its packet, and written
into the table by the pager; between the two ends neither bytes nor offsets are
left.

A table shows what it is told until it is told something else, so the statement
is about any history of reports: every cell of the tables has the text that the
last report has for it, the cells below its last record are blank, whatever was
in them, and the captions stand.

The reports are those that a table has room for. The tasks of a search also have
to use equally many receivers, or their energies are not found.

## Main definitions

* `ServingCell`: What 0x513A says of the serving cell.
* `Report`: What the modem reports to a screen.
* `encode`: The packet of a report.
* `row`, `servingTexts`: The texts of a record and of the serving cell.
* `Fits`: The table has room for the report.
* `Displays`: Every cell of the tables has its text.
* `Ready`: The tables have their cells and captions.

## Theorems

* `reportsServing_neighbourPacket`: The serving cell is read back.
* `declared_encode`, `longEnough_encode`, `fits_encode`: The packet of a report.
* `row_encode`, `serving_encode`: The pagers read the texts of the report.
* `updateView_displays`: One report is shown.
* `reports_displayed`: So is the last one of any history.
-/

namespace NetProbe

open ByteBuffer

/-- What a 0x513A packet says of the serving cell. -/
structure ServingCell where
  band : BitVec 4
  arfcn : BitVec 12
  rxLevFull : Byte
  rxLevSub : Byte
  rxQualFull : Byte
  rxQualSub : Byte
  deriving DecidableEq, Repr

def ServingCell.encode (c : ServingCell) : List Byte :=
  le16 (channel c.band c.arfcn) ++ [c.rxLevFull, c.rxLevSub, c.rxQualFull, c.rxQualSub]

/-- Every query for the serving cell answers with the field of `c`. -/
structure ReportsServing (p : PacketBase) (c : ServingCell) : Prop where
  arfcn : GSM513APacket.getNumber p .gsmServingArfcn = .ok (.short c.arfcn.toNat)
  band : GSM513APacket.getNumber p .gsmServingBand = .ok (.byte c.band.toNat)
  rxLevFull : GSM513APacket.getNumber p .gsmServingRxLevFull
    = .ok (.float (GSM513APacket.level c.rxLevFull.toInt))
  rxLevSub : GSM513APacket.getNumber p .gsmServingRxLevSub
    = .ok (.float (GSM513APacket.level c.rxLevSub.toInt))
  rxLev : GSM513APacket.getNumber p .gsmServingRxLev
    = .ok (.float (GSM513APacket.level c.rxLevSub.toInt))
  rxQualFull : GSM513APacket.getNumber p .gsmServingRxQualFull = .ok (.byte c.rxQualFull.toInt)
  rxQualSub : GSM513APacket.getNumber p .gsmServingRxQualSub = .ok (.byte c.rxQualSub.toInt)

/-- A packet with the serving cell behind its header reports it. -/
theorem reportsServing_of_window (data : List Byte) (c : ServingCell)
    (h : window data 16 6 = c.encode) : ReportsServing (wrap data) c := by
  have hget : ∀ j, j < 6 → ByteBuffer.get data (16 + j) = ByteBuffer.get c.encode j := by
    intro j hj
    rw [get_window hj, h]
  have hlevel : ∀ j (b : Byte), j < 6 → ByteBuffer.get c.encode j = .ok b →
      (getByte data (16 + j)).map GSM513APacket.level = .ok (GSM513APacket.level b.toInt) := by
    intro j b hj hb
    rw [getByte, hget j hj, hb]
    rfl
  have hchannel : getShort data (16 + 0) = .ok (channel c.band c.arfcn).toInt := by
    rw [getShort_window (by omega : 0 + 1 < 6), h]
    exact congrArg Except.ok (bmod_le16 _)
  have harfcn : GSM513APacket.getServingBcchArfcn (wrap data) = .ok (c.arfcn.toNat : Int) := by
    rw [← intAnd_channel c.band c.arfcn]
    exact congrArg (Except.map (intAnd · 0x0FFF)) hchannel
  have hband : GSM513APacket.getServingBcchBand (wrap data) = .ok (c.band.toNat : Int) := by
    rw [← highNibble_channel c.band c.arfcn]
    exact congrArg (Except.map highNibble) (hget 1 (by omega))
  have hqual : ∀ j (b : Byte), j < 6 → ByteBuffer.get c.encode j = .ok b →
      getByte data (16 + j) = .ok b.toInt := by
    intro j b hj hb
    rw [getByte, hget j hj, hb]
    rfl
  exact ⟨congrArg (Except.map Number.short) harfcn, congrArg (Except.map Number.byte) hband,
    congrArg (Except.map Number.float) (hlevel 2 c.rxLevFull (by omega) rfl),
    congrArg (Except.map Number.float) (hlevel 3 c.rxLevSub (by omega) rfl),
    congrArg (Except.map Number.float) (hlevel 3 c.rxLevSub (by omega) rfl),
    congrArg (Except.map Number.byte) (hqual 4 c.rxQualFull (by omega) rfl),
    congrArg (Except.map Number.byte) (hqual 5 c.rxQualSub (by omega) rfl)⟩

theorem reportsServing_neighbourPacket (header trailing : List Byte) (serving : ServingCell)
    (cells : List Neighbour) (hheader : header.length = 16) :
    ReportsServing (wrap (neighbourPacket header serving.encode cells trailing)) serving := by
  apply reportsServing_of_window
  rw [neighbourPacket, window, List.append_assoc, List.append_assoc, List.append_assoc,
    List.drop_left' hheader]
  exact List.take_left' rfl

/-- The sixteen bytes in front of a packet's own fields. -/
abbrev Header := { header : List Byte // header.length = 16 }

/-- What the modem reports to a screen. -/
inductive Report : PagerKind → Type where
  | baList (header : Header) (cells : List BaCell) (trailing : List Byte) : Report .baList
  | radioParam (header : Header) (serving : ServingCell) (cells : List Neighbour)
      (trailing : List Byte) : Report .radioParam
  | pnSearch (head : SearchHead) (tasks : List SearchTask) : Report .pnSearch

namespace Report

variable {kind : PagerKind} (rendering : Rendering)

/-- The packet of a report. -/
def encode : Report kind → List Byte
  | baList header cells trailing => baPacket header.val cells trailing
  | radioParam header serving cells trailing =>
      neighbourPacket header.val serving.encode cells trailing
  | pnSearch head tasks => searchPacket head tasks

/-- The number of records. -/
def size : Report kind → Nat
  | baList _ cells _ => cells.length
  | radioParam _ _ cells _ => cells.length
  | pnSearch _ tasks => tasks.length

/-- The texts of a cell of the BA list. -/
def baTexts (i : Nat) (c : BaCell) : List String :=
  [toString (i + 1),
    rendering.formatNumber (.short c.arfcn.toNat),
    rendering.formatNumber (.float (.finite ((c.power.toInt : ℚ) / 16))),
    if c.bsicKnown = 1 then bsicText c.bsic.toInt else "<-,->",
    rendering.formatNumber (.int c.frameOffset.toInt),
    rendering.formatNumber (.short c.timeOffset.toInt),
    rendering.formatNumber (.byte c.band.toNat)]

/-- The texts of a neighbour. -/
def neighbourTexts (i : Nat) (c : Neighbour) : List String :=
  [toString (i + 1),
    rendering.formatNumber (.short c.arfcn.toNat),
    rendering.formatNumber (.float (GSM513APacket.level c.level.toInt)),
    bsicText c.bsic.toInt]

/-- The energy that the first Ec/Io of a task is computed from. -/
def firstEnergy (t : SearchTask) : Int :=
  max (max t.filtEng1.toInt t.filtEng2.toInt) (t.wordAt 44)

/-- The texts of a search task. -/
def taskTexts (head : SearchHead) (i : Nat) (t : SearchTask) : List String :=
  [toString (i + 1),
    if t.carrier = 0 then "Primary" else "Secondary",
    rendering.formatNumber (.int t.psc.toNat),
    setText (intAnd t.set.toInt 0x07),
    rendering.formatNumber (.float (rendering.arith.getRscp
      (t.ecIo rendering.arith (firstEnergy t)) (head.rxAgc t))),
    rendering.formatNumber (.float (t.ecIo rendering.arith (firstEnergy t))),
    rendering.formatNumber (.float (t.ecIo rendering.arith (t.wordAt 12)))]

/-- The texts of record `i`. -/
def row : Report kind → Nat → List String
  | baList _ cells _, i => (cells[i]?.map (baTexts rendering i)).getD []
  | radioParam _ _ cells _, i => (cells[i]?.map (neighbourTexts rendering i)).getD []
  | pnSearch head tasks, i => (tasks[i]?.map (taskTexts rendering head i)).getD []

/-- The texts of the serving cell, which one screen has. -/
def servingTexts : Report kind → List String
  | baList _ _ _ => []
  | radioParam _ serving _ _ =>
      [rendering.formatNumber (.short serving.arfcn.toNat),
        rendering.formatNumber (.float (GSM513APacket.level serving.rxLevFull.toInt)),
        rendering.formatNumber (.float (GSM513APacket.level serving.rxLevSub.toInt)),
        rendering.formatNumber (.byte serving.rxQualFull.toInt),
        rendering.formatNumber (.byte serving.rxQualSub.toInt)]
  | pnSearch _ _ => []

/-- The table has a row for each record, and the tasks of a search use equally
    many receivers. -/
def Fits : Report kind → Prop
  | baList _ cells _ => cells.length < 17
  | radioParam _ _ cells _ => cells.length < 10
  | pnSearch _ tasks => tasks.length < 18 ∧
      ∀ t ∈ tasks, ∀ t' ∈ tasks, t.results.length = t'.results.length

/-! ### The packet of a report -/

theorem fits_size {r : Report kind} (h : r.Fits) : r.size < kind.maxCount := by
  cases r with
  | baList _ _ _ => exact h
  | radioParam _ _ _ _ => exact h
  | pnSearch _ _ => exact h.1

theorem declared_encode {r : Report kind} (h : r.Fits) : kind.declared r.encode = r.size := by
  have hsize := fits_size h
  cases r with
  | baList header cells trailing =>
      have hlt : cells.length < 17 := h
      have hbyte : (baPacket header.val cells trailing)[16]?
          = some (BitVec.ofNat 8 cells.length) := by
        rw [baPacket, List.append_assoc, List.append_assoc,
          List.getElem?_append_right (Nat.le_of_eq header.property), header.property]
        rfl
      rw [encode, PagerKind.declared, List.getD_eq_getElem?_getD, hbyte, Option.getD_some,
        BitVec.toNat_ofNat, Nat.mod_eq_of_lt (by omega)]
      rfl
  | radioParam header serving cells trailing =>
      have hlt : cells.length < 10 := h
      have hcount := getNCellCount_neighbourPacket header.val trailing serving.encode cells
        header.property rfl (by omega)
      have hend : 22 + 1 < (neighbourPacket header.val serving.encode cells trailing).length :=
        (getShort_ok_iff _ 22).mp ⟨_, hcount⟩
      have hword := Except.ok.inj ((getShort_ok _ 22 hend).symm.trans hcount)
      rw [bmod_word _ (leWord_lt _ 22)] at hword
      have hsame : leWord (neighbourPacket header.val serving.encode cells trailing) 22
          = cells.length := by
        have hsmall := leWord_lt (neighbourPacket header.val serving.encode cells trailing) 22
        split at hword <;> omega
      exact hsame
  | pnSearch head tasks =>
      have hlt : tasks.length < 18 := h.1
      have hbyte : (searchPacket head tasks)[28]? = some (BitVec.ofNat 8 tasks.length) :=
        getElem?_searchPacket head tasks 12 (by omega)
      rw [encode, PagerKind.declared, List.getD_eq_getElem?_getD, hbyte, Option.getD_some,
        BitVec.toNat_ofNat, Nat.mod_eq_of_lt (by omega)]
      rfl

/-- A sum over a list of places and over the set of them. -/
theorem sum_map_range (f : Nat → Nat) (n : Nat) :
    ((List.range n).map f).sum = ∑ k ∈ Finset.range n, f k := by
  induction n with
  | zero => rfl
  | succ n ih =>
      rw [List.range_succ, List.map_append, List.sum_append, ih, Finset.sum_range_succ,
        List.map_singleton, List.sum_singleton]

theorem longEnough_encode {r : Report kind} (h : r.Fits) : kind.LongEnough r.encode := by
  have hdeclared := declared_encode h
  cases r with
  | baList header cells trailing =>
      have hcells : (cells.flatMap BaCell.encode).length = 12 * cells.length :=
        length_flatMap_records BaCell.encode 12 (fun _ => rfl) cells
      have hheader := header.property
      rw [PagerKind.LongEnough, hdeclared, encode, baPacket, size]
      simp only [List.length_append, List.length_singleton, hcells]
      omega
  | radioParam header serving cells trailing =>
      have hcells : (cells.flatMap Neighbour.encode).length = 4 * cells.length :=
        length_flatMap_records Neighbour.encode 4 (fun _ => rfl) cells
      have hheader := header.property
      have hserving : serving.encode.length = 6 := rfl
      have hword : (le16 (BitVec.ofNat 16 cells.length)).length = 2 := rfl
      rw [PagerKind.LongEnough, hdeclared, encode, neighbourPacket, size]
      simp only [List.length_append, hcells]
      omega
  | pnSearch head tasks =>
      have hlt : tasks.length < 18 := h.1
      have hlaid := laidOut_searchPacket head tasks (by omega)
      have hlen := hlaid.length
      rw [WCDMA4179Packet.recordPos] at hlen
      rw [PagerKind.LongEnough, hdeclared, sum_map_range, encode, size]
      simp only [WCDMA4179Packet.recordLen] at hlen
      omega

theorem fits_encode {r : Report kind} (h : r.Fits) : kind.Fits r.encode := by
  refine ⟨declared_encode h ▸ fits_size h, fun hkind => ?_⟩
  have hshown := PagerKind.shown_eq kind r.encode (declared_encode h ▸ fits_size h)
  rw [declared_encode h] at hshown
  cases r with
  | baList _ _ _ => exact absurd hkind (by decide)
  | radioParam _ _ _ _ => exact absurd hkind (by decide)
  | pnSearch head tasks =>
      have hlt : tasks.length < 18 := h.1
      have hlaid := laidOut_searchPacket head tasks (by omega)
      have hlen := hlaid.length
      refine ⟨?_, fun i hi => ?_⟩
      · have hcount := (List.getElem?_eq_some_iff.mp hlaid.count).1
        exact hcount
      · rw [hshown] at hi
        have hi' : i < tasks.length := hi
        -- The tasks before use as many receivers.
        have hpos := (WCDMA4179Packet.resultPos_eq_recordPos_iff hlaid i).mpr fun k hk => by
          rw [resultNum_searchPacket head tasks k (by omega),
            resultNum_searchPacket head tasks i hi']
          exact h.2 _ (List.getElem_mem _) _ (List.getElem_mem _)
        have hrec := WCDMA4179Packet.recordPos_mono (searchPacket head tasks) hi'
        have hnum := WCDMA4179Packet.resultNum_cases (searchPacket head tasks) i
        rw [WCDMA4179Packet.recordLen] at hrec
        rw [encode, hpos]
        omega

/-! ### The texts of a report -/

theorem baBsic_encode {p : PacketBase} {i : Nat} {c : BaCell} (h : ReportsCell p i c) :
    baBsic p i = .ok (if c.bsicKnown = 1 then bsicText c.bsic.toInt else "<-,->") := by
  obtain ⟨-, -, -, hknow, hbsic, -, -⟩ := h
  have hone : (1 : Int) = c.bsicKnown.toInt ↔ c.bsicKnown = 1 :=
    ⟨fun heq => BitVec.eq_of_toInt_eq heq.symm, fun heq => by rw [heq]; rfl⟩
  rw [baBsic, hknow]
  by_cases hk : c.bsicKnown = 1
  · rw [if_pos hk, hbsic]
    exact if_pos (hone.mpr hk)
  · rw [if_neg hk]
    exact if_neg (fun heq => hk (hone.mp heq))

theorem neighbourBsic_encode {p : PacketBase} {i : Nat} {c : Neighbour}
    (h : ReportsNeighbour p i c) : neighbourBsic p i = .ok (bsicText c.bsic.toInt) := by
  rw [neighbourBsic, h.2.2.2]
  rfl

theorem carrierText_encode {p : PacketBase} {i : Nat} {t : SearchTask}
    (h : ReportsTask rendering.arith p i t) :
    carrierText rendering p i = .ok (if t.carrier = 0 then "Primary" else "Secondary") := by
  rw [carrierText, h.carrier]
  by_cases hzero : t.carrier = 0
  · rw [if_pos hzero, hzero]
    rfl
  · have hne : (0 : Int) ≠ t.carrier.toNat := fun heq =>
      hzero (BitVec.eq_of_toNat_eq (Int.ofNat.inj heq).symm)
    rw [if_neg hzero]
    exact congrArg Except.ok (if_pos hne)

theorem r99SetText_encode {p : PacketBase} {i : Nat} {t : SearchTask}
    (h : ReportsTask rendering.arith p i t) :
    r99SetText rendering p i = .ok (setText (intAnd t.set.toInt 0x07)) := by
  rw [r99SetText, h.set]
  rfl

/-- The pagers read the texts of the records. -/
theorem row_encode {r : Report kind} (h : r.Fits) {i : Nat} (hi : i < r.size) :
    (kind.pager rendering).row (wrap r.encode) i = (r.row rendering i).map Except.ok := by
  cases r with
  | baList header cells trailing =>
      have hi' : i < cells.length := hi
      have hcell := reportsCell_baPacket header.val trailing cells header.property i hi'
      have hbsic := baBsic_encode hcell
      obtain ⟨harfcn, hband, hpower, -, -, hframe, htime⟩ := hcell
      rw [row, List.getElem?_eq_getElem hi', encode]
      simp only [PagerKind.pager, gsmBAListPager, formatted, hbsic, harfcn, hband, hpower, hframe,
        htime]
      rfl
  | radioParam header serving cells trailing =>
      have hi' : i < cells.length := hi
      have hcell := reportsNeighbour_neighbourPacket header.val trailing serving.encode cells
        header.property rfl i hi'
      have hbsic := neighbourBsic_encode hcell
      obtain ⟨harfcn, -, hlevel, -⟩ := hcell
      rw [row, List.getElem?_eq_getElem hi', encode]
      simp only [PagerKind.pager, gsmRadioParamPager, formatted, hbsic, harfcn, hlevel]
      rfl
  | pnSearch head tasks =>
      have hi' : i < tasks.length := hi
      have hn : tasks.length ≤ 127 := Nat.le_trans (Nat.le_of_lt h.1) (by decide)
      have htask := reportsTask_of_window rendering.arith _ i _ (window_descriptor head tasks i hi')
      have hresult := reportsResult_searchPacket head tasks rendering.arith hn i hi'
        (fun k hk => h.2 _ (List.getElem_mem _) _ (List.getElem_mem _))
      rw [row, List.getElem?_eq_getElem hi', encode]
      simp only [PagerKind.pager, wcdmaPNSearchPager, formatted, carrierText_encode rendering htask,
        r99SetText_encode rendering htask, htask.psc, hresult.rscp, hresult.ecIo, hresult.peakEcIo]
      rfl

theorem serving_encode (r : Report kind) :
    (kind.pager rendering).serving (wrap r.encode) = (r.servingTexts rendering).map Except.ok := by
  cases r with
  | baList header cells trailing => rfl
  | radioParam header serving cells trailing =>
      have hserving := reportsServing_neighbourPacket header.val trailing serving cells
        header.property
      rw [encode]
      simp only [PagerKind.pager, gsmRadioParamPager, formatted, hserving.arfcn, hserving.rxLevFull,
        hserving.rxLevSub, hserving.rxQualFull, hserving.rxQualSub]
      rfl
  | pnSearch head tasks => rfl

/-- There are no texts behind the last record. -/
theorem row_of_size_le {r : Report kind} {i : Nat} (hi : r.size ≤ i) : r.row rendering i = [] := by
  cases r with
  | baList _ cells _ => rw [row, List.getElem?_eq_none hi]; rfl
  | radioParam _ _ cells _ => rw [row, List.getElem?_eq_none hi]; rfl
  | pnSearch _ tasks => rw [row, List.getElem?_eq_none hi]; rfl

theorem length_servingTexts (r : Report kind) :
    (r.servingTexts rendering).length = (kind.pager rendering).servingCaptions.length := by
  cases r <;> rfl

/-- The text that belongs into a cell of the list. -/
def cellText (r : Report kind) : Nat → Nat → String
  | 0, col => (kind.pager rendering).captions.getD col ""
  | i + 1, col => (r.row rendering i).getD col ""

/-- The text that belongs into a cell of the serving cell's table. -/
def servingText (r : Report kind) : Nat → Nat → String
  | 0, col => (kind.pager rendering).servingCaptions.getD col ""
  | _ + 1, col => (r.servingTexts rendering).getD col ""

end Report

section Screens

variable {kind : PagerKind} (rendering : Rendering)

/-- Every cell of the tables has the text of the report. -/
structure Displays (v : TableView) (r : Report kind) : Prop where
  cells : ∀ row : Nat, row < kind.maxCount → ∀ col < (kind.pager rendering).captions.length,
    v.cells.text row col = some (r.cellText rendering row col)
  serving : ∀ row : Nat, row < 2 → ∀ col < (kind.pager rendering).servingCaptions.length,
    v.serving.text row col = some (r.servingText rendering row col)

/-- The tables have their cells and their captions. -/
structure Ready (kind : PagerKind) (v : TableView) : Prop where
  grid : (kind.pager rendering).HasGrid v.cells
  captions : (kind.pager rendering).HasCaptions v.cells
  serving : ∀ row : Nat, row < 2 → ∀ col < (kind.pager rendering).servingCaptions.length,
    ∃ s, v.serving.text row col = some s
      ∧ (row = 0 → (kind.pager rendering).servingCaptions[col]? = some s)

theorem servingCaptions_le (kind : PagerKind) :
    (kind.pager rendering).servingCaptions.length ≤ 5 := by
  cases kind <;> exact of_decide_eq_true rfl

/-- A report that fits is displayed, and the screen is ready for the next one. -/
theorem updateView_displays {v : TableView} {r : Report kind} (hv : Ready rendering kind v)
    (hr : r.Fits) : ∃ v', (kind.pager rendering).updateView v (wrap r.encode) = .returned v' ∧
      Displays rendering v' r ∧ Ready rendering kind v' := by
  have hlong := Report.longEnough_encode hr
  have hsize := Report.fits_size hr
  have hend := PagerKind.countEnd_le_of_longEnough kind r.encode hlong
  have hcols := servingCaptions_le rendering kind
  obtain ⟨v', hv', hshows⟩ := PagerKind.shows_of_fits rendering kind r.encode v hlong
    (Report.fits_encode hr) hv.grid hv.captions
  have hgrid' := (kind.pager rendering).updateView_hasGrid v v' (wrap r.encode) _
    (PagerKind.count_eq rendering kind r.encode hend) (PagerKind.signedCount_ge kind r.encode) hv'
    hv.grid
  have hmin : min (kind.declared r.encode) kind.maxCount = r.size := by
    rw [Report.declared_encode hr]
    exact Nat.min_eq_left (Nat.le_of_lt hsize)
  obtain ⟨hrecords, hblank, hcaptions⟩ := hshows
  rw [hmin] at hrecords hblank
  -- The serving cell's table has a row of its own for the texts.
  obtain ⟨serving, count, cells, tick, hserving, -, -, -, rfl⟩ :=
    ((kind.pager rendering).updateView_eq_returned v v' (wrap r.encode)).mp hv'
  rw [Report.serving_encode rendering r] at hserving
  have htexts : ∀ row : Nat, row < 2 → ∀ col < (kind.pager rendering).servingCaptions.length,
      serving.text row col = some (r.servingText rendering row col) := by
    intro row hrow col hcol
    have hlen := Report.length_servingTexts rendering r
    have hplace : Table.Short (row : Int) (col : Int) := ⟨by omega, by omega, by omega, by omega⟩
    have htext := text_writeRow 1 (by omega) (by omega) _ v.serving serving 0 (by omega)
      (by rw [List.length_map, hlen]; omega) hserving row col hplace
    obtain ⟨old, hold, hcaption⟩ := hv.serving row hrow col hcol
    rw [hold, List.length_map, hlen] at htext
    rcases row with _ | row
    · rw [if_neg (by omega)] at htext
      rw [htext, Report.servingText, List.getD_eq_getElem?_getD, hcaption rfl, Option.getD_some]
    · rw [if_pos (by omega)] at htext
      have hget : ((r.servingTexts rendering).map (Except.ok (ε := JavaException)))[col]?
          = some (.ok ((r.servingTexts rendering).getD col "")) := by
        rw [List.getElem?_map, List.getD_eq_getElem?_getD,
          List.getElem?_eq_getElem (by omega : col < (r.servingTexts rendering).length)]
        rfl
      rw [htext, written, Int.sub_zero, Int.toNat_natCast, hget]
      rfl
  refine ⟨_, hv', ⟨fun row hrow col hcol => ?_, htexts⟩,
    ⟨hgrid', hcaptions, fun row hrow col hcol => ?_⟩⟩
  · rcases row with _ | i
    · rw [Report.cellText, List.getD_eq_getElem _ _ hcol]
      exact hcaptions col _ (List.getElem?_eq_getElem hcol)
    · by_cases hi : i < r.size
      · obtain ⟨s, hs, htext⟩ := hrecords i hi col hcol
        rw [Report.row_encode rendering hr hi, List.getElem?_map] at hs
        obtain ⟨s', hs', heq⟩ := Option.map_eq_some_iff.mp hs
        obtain rfl := Except.ok.inj heq
        rw [Report.cellText, List.getD_eq_getElem?_getD, hs', Option.getD_some]
        exact htext
      · rw [Report.cellText, Report.row_of_size_le rendering (Nat.le_of_not_lt hi)]
        exact hblank (i + 1) hrow (by omega) col hcol
  · refine ⟨_, htexts row hrow col hcol, fun hzero => ?_⟩
    subst hzero
    rw [Report.servingText, List.getD_eq_getElem _ _ hcol]
    exact List.getElem?_eq_getElem hcol

/-- A new screen is ready. -/
theorem created_ready (kind : PagerKind) :
    Ready rendering kind (PagerKind.created rendering kind) := by
  refine ⟨(kind.pager rendering).onCreateView_hasGrid,
    (kind.pager rendering).onCreateView_hasCaptions
      (by rw [PagerKind.pager_maxCount]; cases kind <;> decide), fun row hrow col hcol => ?_⟩
  have hcols := servingCaptions_le rendering kind
  have hplace : Table.Short (row : Int) (col : Int) := ⟨by omega, by omega, by omega, by omega⟩
  have hnew := Table.text_createTable 2 (kind.pager rendering).servingCaptions.length row col
    (by omega) (by omega) hplace.kept
  rw [if_pos (by omega)] at hnew
  have htext := text_writeRow 0 (by omega) (by omega)
    ((kind.pager rendering).servingCaptions.map Except.ok) _ _ 0 (by omega)
    (by rw [List.length_map]; omega) (TablePager.writeRow_captions
      (kind.pager rendering).servingCaptions (Table.createTable 2
        (kind.pager rendering).servingCaptions.length) 0) row col hplace
  rw [hnew, List.length_map] at htext
  rcases row with _ | row
  · rw [if_pos (by omega)] at htext
    refine ⟨_, htext, fun _ => ?_⟩
    have hget : ((kind.pager rendering).servingCaptions.map (Except.ok (ε := JavaException)))[col]?
        = some (.ok ((kind.pager rendering).servingCaptions[col])) := by
      rw [List.getElem?_map, List.getElem?_eq_getElem hcol]
      rfl
    rw [written, Int.sub_zero, Int.toNat_natCast, hget]
    exact List.getElem?_eq_getElem hcol
  · rw [if_neg (by omega)] at htext
    exact ⟨_, htext, fun hzero => absurd hzero (Nat.succ_ne_zero row)⟩

/-- The reports of a history are shown and leave the screen ready. -/
theorem feed_ready (reports : List (Report kind)) :
    ∀ v : TableView, Ready rendering kind v → (∀ r ∈ reports, r.Fits) →
      ∃ v', Outcome.feed (fun v r => (kind.pager rendering).updateView v (wrap r.encode)) v reports
        = .returned v' ∧ Ready rendering kind v' := by
  induction reports with
  | nil => exact fun v hv _ => ⟨v, rfl, hv⟩
  | cons r reports ih =>
      intro v hv h
      rw [List.forall_mem_cons] at h
      obtain ⟨v₁, hfirst, -, hready⟩ := updateView_displays rendering hv h.1
      obtain ⟨v', hrest, hready'⟩ := ih v₁ hready h.2
      refine ⟨v', ?_, hready'⟩
      rw [Outcome.feed_cons, hfirst]
      exact hrest

/-- Whatever a screen has been told before, after a report all of its texts are
    those of this report. -/
theorem reports_displayed (history : List (Report kind)) (r : Report kind)
    (h : ∀ r' ∈ history ++ [r], r'.Fits) :
    ∃ v, Outcome.feed (fun v r => (kind.pager rendering).updateView v (wrap r.encode))
        (PagerKind.created rendering kind) (history ++ [r]) = .returned v
      ∧ Displays rendering v r := by
  rw [List.forall_mem_append, List.forall_mem_singleton] at h
  obtain ⟨v₁, hhistory, hready⟩ := feed_ready rendering history _ (created_ready rendering kind) h.1
  obtain ⟨v, hv, hdisplays, -⟩ := updateView_displays rendering hready h.2
  refine ⟨v, ?_, hdisplays⟩
  have hlast : Outcome.feed (fun v r => (kind.pager rendering).updateView v (wrap r.encode)) v₁ [r]
      = .returned v :=
    (Outcome.bind_eq_returned _ _ _).mpr ⟨v, hv, rfl⟩
  rw [Outcome.feed_append, hhistory]
  exact hlast

end Screens

/-- Two cells, and then one: the row of the other one is blank again. -/
def twoCells : List BaCell :=
  [⟨2, 0x123, 0xFFB0, 1, 0x2A, 100, 7⟩, ⟨1, 0x045, 0xFF60, 0, 0, 200, 9⟩]

def zeroHeader : Header := ⟨List.replicate 16 0x00#8, rfl⟩

theorem reports_displayed_shrinking :
    ∃ v, Outcome.feed
        (fun v r => (PagerKind.baList.pager PagerKind.plainRendering).updateView v (wrap r.encode))
        (PagerKind.created PagerKind.plainRendering .baList)
        ([Report.baList zeroHeader twoCells [0x7E]]
          ++ [Report.baList zeroHeader (twoCells.take 1) []]) = .returned v
      ∧ Displays PagerKind.plainRendering v (Report.baList zeroHeader (twoCells.take 1) []) := by
  refine reports_displayed PagerKind.plainRendering _ _ fun r' hr' => ?_
  obtain rfl | rfl := by simpa only [List.cons_append, List.nil_append, List.mem_cons,
    List.not_mem_nil, or_false] using hr'
  · show 2 < 17
    omega
  · show 1 < 17
    omega

end NetProbe
