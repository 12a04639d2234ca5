import NetProbe.Qualcomm.Dispatcher
import NetProbe.Qualcomm.Fields
import NetProbe.Ui.Table

/-!
# The Pagers That Show a Table

Three screens list the records of a packet: the BA list of 0x5071, the
neighbours of 0x513A and the search tasks of 0x4179. Their `updateView` is one
procedure. It reads the record count, clamps it to the number of rows the pager
wants to show, writes one row per record and clears the rows below. What
differs is which fields make up a row, so a `TablePager` carries these and
`updateView` is written once.

Every text is read from the packet when it is needed, so a packet that ends
early throws in the middle of a row. The count is a signed number and nothing
asks whether it is negative, and the table is created with as many rows as
records are to be shown although one row goes to the captions.

Number formatting depends on the locale and is a parameter, like the dB
arithmetic. The titles with the packet's time are left out; the time itself is
read.

## Main definitions

* `TablePager`: What the three pagers differ in.
* `writeRow`, `writeRows`, `updateView`: The common procedure.
* `gsmBAListPager`, `gsmRadioParamPager`, `wcdmaPNSearchPager`: The pagers.
* `Contains`: The packet is as long as the reads of `updateView` require.
* `LongEnough`: The packet is as long as what it declares.
* `Shows`, `ShowsEach`: The table shows the records of a packet and nothing else,
  after one call and after each of several.
* `Fits`: The condition for it.

## Theorems

* `updateView_eq_returned`: `updateView` taken apart.
* `updateView_returns`: It returns exactly if every text can be read.
* `updateView_returns_iff`: The same, in terms of the packet's length.
* `text_updateView`: The text of every cell afterwards.
* `captions_erased`: What a negative count does to the captions.
* `showsEach_iff`: When the screen shows the last packet, over any sequence.
-/

namespace NetProbe

open ByteBuffer

/-- A text that is read from a packet when it is needed. -/
abbrev ReadText := Except JavaException String

/-- What the common procedure of the pagers is parametrised by. -/
structure TablePager where
  maxCount : Nat
  captions : List String
  servingCaptions : List String
  serving : PacketBase → List ReadText
  count : PacketBase → Except JavaException Int
  row : PacketBase → Nat → List ReadText
  /-- A row has one text per caption. -/
  row_length : ∀ p i, (row p i).length = captions.length
  /-- There is a first column, and its caption is not blank. -/
  caption_ne : ∃ s, captions[0]? = some s ∧ s ≠ ""
  maxCount_lt : maxCount < 128
  captions_lt : captions.length < 128

/-- The serving cell's table, which only one pager has, and the list. -/
structure TableView where
  serving : Table
  cells : Table

/-- `setValue(row, col, …)` for consecutive columns, each text read first. -/
def writeRow (t : Table) (row : Int) : Int → List ReadText → Outcome Table
  | _, [] => .returned t
  | col, text :: rest =>
      match text with
      | .ok s => writeRow (t.setValue row col s) row (col + 1) rest
      | .error e => .threw e t

namespace TablePager

variable (pager : TablePager)

/-- The loop over the records. -/
def writeRows (t : Table) (p : PacketBase) (n : Nat) : Outcome Table :=
  Outcome.feed (fun t (i : Nat) => writeRow t ((i : Int) + 1) 0 (pager.row p i)) t (List.range n)

/-- The captions, set one after the other. -/
def writeCaptions (t : Table) : Int → List String → Table
  | _, [] => t
  | col, s :: rest => writeCaptions (t.setValue 0 col s) (col + 1) rest

/-- The list as `onCreateView` sets it up. -/
def onCreateView : Table :=
  writeCaptions (Table.createTable pager.maxCount pager.captions.length) 0 pager.captions

/-- The serving cell's table as `onCreateView` sets it up. -/
def onCreateServing : Table :=
  writeCaptions (Table.createTable 2 pager.servingCaptions.length) 0 pager.servingCaptions

/-- The number of records to show: the count, clamped. -/
def clamp (count : Int) : Int := if count > pager.maxCount then pager.maxCount else count

def updateView (v : TableView) (p : PacketBase) : Outcome TableView :=
  ((writeRow v.serving 1 0 (pager.serving p)).map fun t => { v with serving := t }).bind fun v =>
    match pager.count p with
    | .error e => .threw e v
    | .ok count =>
        ((pager.writeRows v.cells p (pager.clamp count).toNat).map
          fun t => { v with cells := t }).bind fun v =>
            let cells :=
              v.cells.reset (pager.clamp count + 1) 0 pager.maxCount pager.captions.length
            let v := { v with cells := cells }
            match p.getNumber .tickCount with
            | .error e => .threw e v
            | .ok _ => .returned v

end TablePager

/-- `String.format("<%d,%d>", ncc, bcc)` of a BSIC. -/
def bsicText (basic : Int) : String :=
  "<" ++ toString (intAnd (basic / 8) 0x07) ++ "," ++ toString (intAnd basic 0x07) ++ ">"

/-- What is not modelled: the locale's number format and the dB arithmetic. -/
structure Rendering where
  formatNumber : Number → String
  arith : SearchArith

section Pagers

variable (rendering : Rendering)

/-- `FormatUtil.formatNumber(packet.getNumber(…))`. -/
def formatted (number : Except JavaException Number) : ReadText :=
  number.map rendering.formatNumber

/-- The BSIC column of the BA list, blank where the BSIC is not known. -/
def baBsic (p : PacketBase) (i : Nat) : ReadText := do
  let know ← GSM5071Packet.getNumberAt p .gsm5071BsicKnow i
  let know ← know.asByte
  if 1 = know then
    let basic ← GSM5071Packet.getNumberAt p .gsm5071Bsic i
    let basic ← basic.asByte
    pure (bsicText basic)
  else pure "<-,->"

def gsmBAListPager : TablePager where
  maxCount := 17
  captions := ["No.", "ARFCN", "RxP(dBm)", "BSIC", "FN lag", "Qbit lag", "Band"]
  servingCaptions := []
  serving := fun _ => []
  count := fun p => (GSM5071Packet.getNumber p .gsm5071BaCount).map Number.shortValue
  row := fun p i =>
    [.ok (toString (i + 1)),
      formatted rendering (GSM5071Packet.getNumberAt p .gsm5071Arfcn i),
      formatted rendering (GSM5071Packet.getNumberAt p .gsm5071RxPower i),
      baBsic p i,
      formatted rendering (GSM5071Packet.getNumberAt p .gsm5071FnLag i),
      formatted rendering (GSM5071Packet.getNumberAt p .gsm5071QbitLag i),
      formatted rendering (GSM5071Packet.getNumberAt p .gsm5071Band i)]
  row_length := fun _ _ => rfl
  caption_ne := ⟨_, rfl, by decide⟩
  maxCount_lt := by decide
  captions_lt := by decide

/-- The BSIC column of the neighbours. -/
def neighbourBsic (p : PacketBase) (i : Nat) : ReadText := do
  let basic ← GSM513APacket.getNumberAt p .gsmNeighbourBsic i
  let basic ← basic.asByte
  pure (bsicText basic)

def gsmRadioParamPager : TablePager where
  maxCount := 10
  captions := ["No.", "ARFCN", "RxLev", "BSIC"]
  servingCaptions := ["ARFCN", "RxLev Full", "RxLev Sub", "RxQual Full", "RxQual Sub"]
  serving := fun p =>
    [formatted rendering (GSM513APacket.getNumber p .gsmServingArfcn),
      formatted rendering (GSM513APacket.getNumber p .gsmServingRxLevFull),
      formatted rendering (GSM513APacket.getNumber p .gsmServingRxLevSub),
      formatted rendering (GSM513APacket.getNumber p .gsmServingRxQualFull),
      formatted rendering (GSM513APacket.getNumber p .gsmServingRxQualSub)]
  count := fun p => (GSM513APacket.getNumber p .gsmNeighbourCount).map Number.shortValue
  row := fun p i =>
    [.ok (toString (i + 1)),
      formatted rendering (GSM513APacket.getNumberAt p .gsmNeighbourArfcn i),
      formatted rendering (GSM513APacket.getNumberAt p .gsmNeighbourRxLev i),
      neighbourBsic p i]
  row_length := fun _ _ => rfl
  caption_ne := ⟨_, rfl, by decide⟩
  maxCount_lt := by decide
  captions_lt := by decide

/-- The name of a 0x4179 set. -/
def setText (set : Int) : String :=
  if set = 0 then "ASET"
  else if set = 2 then "IntraF MSET"
  else if set = 4 then "IntraF USET"
  else if set = 1 then "InterF MSET"
  else if set = 5 then "InterF VASET"
  else ""

/-- The carrier column of the search tasks. -/
def carrierText (p : PacketBase) (i : Nat) : ReadText := do
  let carrier ← WCDMA4179Packet.getNumberAt rendering.arith p .wcdma4179Carrier i
  let carrier ← carrier.asByte
  pure (if 0 ≠ carrier then "Secondary" else "Primary")

/-- The set column of the search tasks. -/
def r99SetText (p : PacketBase) (i : Nat) : ReadText := do
  let set ← WCDMA4179Packet.getNumberAt rendering.arith p .wcdma4179R99Set i
  let set ← set.asByte
  pure (setText (intAnd set 0x07))

def wcdmaPNSearchPager : TablePager where
  maxCount := 18
  captions := ["No.", "Carrier", "PSC", "R99 Set", "RSCP", "Ec/Io", "Peak Ec/Io"]
  servingCaptions := []
  serving := fun _ => []
  count := fun p => (WCDMA4179Packet.getNumber p .wcdma4179TaskNum).map Number.byteValue
  row := fun p i =>
    [.ok (toString (i + 1)),
      carrierText rendering p i,
      formatted rendering (WCDMA4179Packet.getNumberAt rendering.arith p .wcdma4179Psc i),
      r99SetText rendering p i,
      formatted rendering (WCDMA4179Packet.getNumberAt rendering.arith p .wcdma4179Rscp i),
      formatted rendering (WCDMA4179Packet.getNumberAt rendering.arith p .wcdma4179EcIo i),
      formatted rendering (WCDMA4179Packet.getNumberAt rendering.arith p .wcdma4179PeakEcIo i)]
  row_length := fun _ _ => rfl
  caption_ne := ⟨_, rfl, by decide⟩
  maxCount_lt := by decide
  captions_lt := by decide

end Pagers

/-! ### What can be read -/

/-- Every text of a row can be read. -/
def AllRead (texts : List ReadText) : Prop := ∀ x ∈ texts, ∃ s, x = .ok s

theorem writeRow_returns_iff (row : Int) (texts : List ReadText) :
    ∀ (t : Table) (col : Int), (∃ t', writeRow t row col texts = .returned t') ↔ AllRead texts := by
  induction texts with
  | nil =>
      intro t col
      exact iff_of_true ⟨t, rfl⟩ (fun x hx => absurd hx List.not_mem_nil)
  | cons text rest ih =>
      intro t col
      rw [AllRead, List.forall_mem_cons]
      cases text with
      | ok s => exact ⟨fun h => ⟨⟨s, rfl⟩, (ih _ _).mp h⟩, fun h => (ih _ _).mpr h.2⟩
      | error e =>
          refine iff_of_false ?_ ?_
          · simp only [writeRow, reduceCtorEq, exists_false, not_false_eq_true]
          · simp only [reduceCtorEq, exists_false, false_and, not_false_eq_true]

namespace TablePager

variable (pager : TablePager)

theorem writeRows_returns_iff (t : Table) (p : PacketBase) (n : Nat) :
    (∃ t', pager.writeRows t p n = .returned t') ↔ ∀ i < n, AllRead (pager.row p i) := by
  have hfeed := Outcome.feed_isReturned_iff
    (fun t (i : Nat) => writeRow t ((i : Int) + 1) 0 (pager.row p i))
    (fun i => AllRead (pager.row p i)) (fun t i => by
      rw [← writeRow_returns_iff ((i : Int) + 1) (pager.row p i) t 0]
      exact Outcome.isReturned_iff _) (List.range n) t
  rw [Outcome.isReturned_iff] at hfeed
  simp only [List.mem_range] at hfeed
  exact hfeed

/-- `updateView` returns exactly if its parts do, one after the other. -/
theorem updateView_eq_returned (v v' : TableView) (p : PacketBase) :
    pager.updateView v p = .returned v' ↔
      ∃ serving count cells tick, writeRow v.serving 1 0 (pager.serving p) = .returned serving
        ∧ pager.count p = .ok count
        ∧ pager.writeRows v.cells p (pager.clamp count).toNat = .returned cells
        ∧ p.getNumber .tickCount = .ok tick
        ∧ v' = ⟨serving, cells.reset (pager.clamp count + 1) 0 pager.maxCount
            pager.captions.length⟩ := by
  rw [updateView, Outcome.bind_eq_returned]
  constructor
  · rintro ⟨v₁, hfirst, h⟩
    obtain ⟨serving, hserving, rfl⟩ := (Outcome.map_eq_returned _ _ _).mp hfirst
    cases hcount : pager.count p with
    | error e =>
        rw [hcount] at h
        exact absurd h (by simp only [reduceCtorEq, not_false_eq_true])
    | ok count =>
        rw [hcount] at h
        obtain ⟨v₂, hsecond, h⟩ := (Outcome.bind_eq_returned _ _ _).mp h
        obtain ⟨cells, hrows, rfl⟩ := (Outcome.map_eq_returned _ _ _).mp hsecond
        cases htick : p.getNumber .tickCount with
        | error e =>
            rw [htick] at h
            exact absurd h (by simp only [reduceCtorEq, not_false_eq_true])
        | ok tick =>
            rw [htick] at h
            exact ⟨serving, count, cells, tick, hserving, rfl, hrows, rfl,
              (Outcome.returned.inj h).symm⟩
  · rintro ⟨serving, count, cells, tick, hserving, hcount, hrows, htick, rfl⟩
    refine ⟨{ v with serving := serving }, (Outcome.map_eq_returned _ _ _).mpr
      ⟨serving, hserving, rfl⟩, ?_⟩
    rw [hcount]
    refine (Outcome.bind_eq_returned _ _ _).mpr ⟨⟨serving, cells⟩,
      (Outcome.map_eq_returned _ _ _).mpr ⟨cells, hrows, rfl⟩, ?_⟩
    rw [htick]

/-- `updateView` returns exactly if every text it asks for can be read. -/
theorem updateView_returns (v : TableView) (p : PacketBase) (count : Int)
    (hcount : pager.count p = .ok count) (hlen : 16 ≤ p.mPacketData.length) :
    (∃ v', pager.updateView v p = .returned v') ↔ AllRead (pager.serving p)
      ∧ ∀ i < (pager.clamp count).toNat, AllRead (pager.row p i) := by
  have htick : ∃ tick, p.getNumber .tickCount = .ok tick := by
    rw [PacketBase.getNumber, map_ok_iff, PacketBase.getTickCount_ok_iff]
    exact hlen
  obtain ⟨tick, htick⟩ := htick
  rw [← writeRow_returns_iff 1 (pager.serving p) v.serving 0,
    ← pager.writeRows_returns_iff v.cells p]
  constructor
  · rintro ⟨v', h⟩
    obtain ⟨serving, c, cells, -, hserving, hc, hrows, -, -⟩ :=
      (pager.updateView_eq_returned v v' p).mp h
    obtain rfl : count = c := Except.ok.inj (hcount.symm.trans hc)
    exact ⟨⟨serving, hserving⟩, cells, hrows⟩
  · rintro ⟨⟨serving, hserving⟩, cells, hrows⟩
    exact ⟨_, (pager.updateView_eq_returned v _ p).mpr
      ⟨serving, count, cells, tick, hserving, hcount, hrows, htick, rfl⟩⟩

theorem updateView_count_threw (v : TableView) (p : PacketBase)
    (hcount : ¬∃ count, pager.count p = .ok count) :
    ¬∃ v', pager.updateView v p = .returned v' := by
  rintro ⟨v', h⟩
  obtain ⟨-, count, -, -, -, hc, -, -, -⟩ := (pager.updateView_eq_returned v v' p).mp h
  exact hcount ⟨count, hc⟩

end TablePager

/-! ### The texts afterwards -/

/-- The text a list of readable texts has at a place. -/
def written (texts : List ReadText) (k : Nat) : String :=
  match texts[k]? with
  | some (.ok s) => s
  | _ => ""

/-- A row that was written shows its texts, and nothing else has changed. -/
theorem text_writeRow (row : Int) (hrow : -32768 ≤ row) (hrow' : row < 32768)
    (texts : List ReadText) :
    ∀ (t t' : Table) (col : Int), 0 ≤ col → col + texts.length ≤ 32768 →
      writeRow t row col texts = .returned t' → ∀ r c, Table.Short r c →
        t'.text r c = if r = row ∧ col ≤ c ∧ c < col + texts.length
          then (t.text r c).map (fun _ => written texts (c - col).toNat) else t.text r c := by
  induction texts with
  | nil =>
      intro t t' col hcol hend h r c hplace
      obtain rfl : t = t' := Outcome.returned.inj h
      rw [if_neg (by rw [List.length_nil]; omega)]
  | cons text rest ih =>
      intro t t' col hcol hend h r c hplace
      rw [List.length_cons] at hend ⊢
      cases text with
      | error e => exact absurd h (by simp only [writeRow, reduceCtorEq, not_false_eq_true])
      | ok s =>
          have hcell : Table.Short row col := ⟨hrow, hrow', hcol, by omega⟩
          have hset := Table.text_setValue t s hcell.kept hplace
          rw [ih (t.setValue row col s) t' (col + 1) (by omega) (by omega) h r c hplace, hset]
          by_cases hr : r = row
          · by_cases hc : c = col
            · -- The first column: written here, and not again by the rest.
              rw [if_neg (by omega), if_pos ⟨hr, hc⟩, if_pos (by omega), hc, Int.sub_self]
              rfl
            · rw [if_neg (by omega : ¬(r = row ∧ c = col))]
              by_cases hin : col + 1 ≤ c ∧ c < col + 1 + rest.length
              · rw [if_pos ⟨hr, hin⟩, if_pos (by omega)]
                have hshift : (c - col).toNat = (c - (col + 1)).toNat + 1 := by omega
                rw [hshift]
                rfl
              · rw [if_neg (fun h => hin h.2), if_neg (by omega)]
          · rw [if_neg (fun h => hr h.1), if_neg (fun h => hr h.1), if_neg (fun h => hr h.1)]

namespace TablePager

variable (pager : TablePager)

/-- The first `n` rows behind the captions show the first `n` records. -/
theorem text_writeRows (p : PacketBase) (t : Table) :
    ∀ (n : Nat), n < 32768 → ∀ t', pager.writeRows t p n = .returned t' →
      ∀ r c, Table.Short r c →
        t'.text r c = if (1 ≤ r ∧ r ≤ n) ∧ 0 ≤ c ∧ c < pager.captions.length
          then (t.text r c).map (fun _ => written (pager.row p (r - 1).toNat) c.toNat)
          else t.text r c := by
  have hcols := pager.captions_lt
  intro n
  induction n with
  | zero =>
      intro _ t' h r c _
      obtain rfl : t = t' := Outcome.returned.inj h
      rw [if_neg (by omega)]
  | succ n ih =>
      intro hn t' h r c hplace
      rw [writeRows, List.range_succ, Outcome.feed_append, Outcome.bind_eq_returned] at h
      obtain ⟨t₁, hrows, hlast⟩ := h
      rw [Outcome.feed_cons, Outcome.bind_eq_returned] at hlast
      obtain ⟨t₂, hlast, hend⟩ := hlast
      obtain rfl : t₂ = t' := Outcome.returned.inj hend
      have hlen := pager.row_length p n
      rw [text_writeRow ((n : Int) + 1) (by omega) (by omega) (pager.row p n) t₁ t₂ 0 (by omega)
        (by omega) hlast r c hplace, ih (by omega) t₁ hrows r c hplace, hlen]
      by_cases hr : r = (n : Int) + 1
      · rw [if_neg (by omega : ¬((1 ≤ r ∧ r ≤ n) ∧ 0 ≤ c ∧ c < pager.captions.length))]
        have hrec : (r - 1).toNat = n := by omega
        by_cases hc : 0 ≤ c ∧ c < pager.captions.length
        · rw [if_pos (by omega), if_pos (by omega), hrec, Int.sub_zero]
        · rw [if_neg (by omega), if_neg (by omega)]
      · rw [if_neg (fun h => hr h.1)]
        by_cases hin : (1 ≤ r ∧ r ≤ (n : Int)) ∧ 0 ≤ c ∧ c < pager.captions.length
        · rw [if_pos hin, if_pos (by omega)]
        · rw [if_neg hin, if_neg (by omega)]

/-- The cells of a list: as many rows as records are to be shown, and a text in
    each. -/
def HasGrid (t : Table) : Prop :=
  ∀ r c, Table.Short r c → ((t.text r c).isSome = true
    ↔ (0 ≤ r ∧ r < pager.maxCount) ∧ 0 ≤ c ∧ c < pager.captions.length)

/-- The captions stand in the first row. -/
def HasCaptions (t : Table) : Prop :=
  ∀ (c : Nat) (s : String), pager.captions[c]? = some s → t.text 0 c = some s

/-- The text of every cell after `updateView`: the records that were written,
    nothing below them, and what was there elsewhere. -/
theorem text_updateView (v v' : TableView) (p : PacketBase) (count : Int)
    (hcount : pager.count p = .ok count) (hge : -32768 ≤ count)
    (h : pager.updateView v p = .returned v') (r c : Int) (hplace : Table.Short r c) :
    v'.cells.text r c =
      if (pager.clamp count + 1 ≤ r ∧ r < pager.maxCount) ∧ 0 ≤ c ∧ c < pager.captions.length
      then (v.cells.text r c).map (fun _ => "")
      else if (1 ≤ r ∧ r ≤ pager.clamp count) ∧ 0 ≤ c ∧ c < pager.captions.length
      then (v.cells.text r c).map (fun _ => written (pager.row p (r - 1).toNat) c.toNat)
      else v.cells.text r c := by
  have hmax := pager.maxCount_lt
  have hcols := pager.captions_lt
  have hclamp : pager.clamp count ≤ pager.maxCount ∧ -32768 ≤ pager.clamp count := by
    rw [clamp]
    split <;> omega
  obtain ⟨serving, c', cells, -, -, hc', hrows, -, rfl⟩ :=
    (pager.updateView_eq_returned v v' p).mp h
  obtain rfl : count = c' := Except.ok.inj (hcount.symm.trans hc')
  have hcells := pager.text_writeRows p v.cells _ (by omega) cells hrows r c hplace
  rw [Table.text_reset cells (by omega) (by omega) (by omega) (by omega) hplace, hcells]
  by_cases hbelow : (pager.clamp count + 1 ≤ r ∧ r < pager.maxCount)
      ∧ 0 ≤ c ∧ c < pager.captions.length
  · rw [if_pos hbelow, if_pos hbelow, if_neg (by omega)]
  · rw [if_neg hbelow, if_neg hbelow]
    by_cases hin : (1 ≤ r ∧ r ≤ pager.clamp count) ∧ 0 ≤ c ∧ c < pager.captions.length
    · rw [if_pos hin, if_pos (by omega)]
    · rw [if_neg hin, if_neg (by omega)]

/-- No update adds or removes a cell. -/
theorem updateView_hasGrid (v v' : TableView) (p : PacketBase) (count : Int)
    (hcount : pager.count p = .ok count) (hge : -32768 ≤ count)
    (h : pager.updateView v p = .returned v') (hgrid : pager.HasGrid v.cells) :
    pager.HasGrid v'.cells := by
  intro r c hplace
  rw [← hgrid r c hplace, pager.text_updateView v v' p count hcount hge h r c hplace]
  split
  · rw [Option.isSome_map]
  · split
    · rw [Option.isSome_map]
    · rfl

/-- Setting the captions is writing a row whose texts are all there. -/
theorem writeRow_captions (captions : List String) :
    ∀ (t : Table) (col : Int),
      writeRow t 0 col (captions.map Except.ok) = .returned (writeCaptions t col captions) := by
  induction captions with
  | nil => intro t col; rfl
  | cons s rest ih => intro t col; exact ih (t.setValue 0 col s) (col + 1)

theorem text_onCreateView (r c : Int) (hplace : Table.Short r c) :
    pager.onCreateView.text r c =
      if r = 0 ∧ 0 ≤ c ∧ c < pager.captions.length
      then ((Table.createTable pager.maxCount pager.captions.length).text r c).map
        (fun _ => written (pager.captions.map Except.ok) c.toNat)
      else (Table.createTable pager.maxCount pager.captions.length).text r c := by
  have hcols := pager.captions_lt
  have hrow := text_writeRow 0 (by omega) (by omega) (pager.captions.map Except.ok) _ _ 0 (by omega)
    (by rw [List.length_map]; omega) (writeRow_captions pager.captions
      (Table.createTable pager.maxCount pager.captions.length) 0) r c hplace
  rw [List.length_map, Int.zero_add, Int.sub_zero] at hrow
  exact hrow

theorem onCreateView_hasGrid : pager.HasGrid pager.onCreateView := by
  have hmax := pager.maxCount_lt
  have hcols := pager.captions_lt
  intro r c hplace
  have hcell := Table.text_createTable pager.maxCount pager.captions.length r c (by omega)
    (by omega) hplace.kept
  have hsome : (pager.onCreateView.text r c).isSome
      = ((Table.createTable pager.maxCount pager.captions.length).text r c).isSome := by
    rw [pager.text_onCreateView r c hplace]
    split
    · rw [Option.isSome_map]
    · rfl
  rw [hsome, hcell]
  split
  · exact iff_of_true rfl ‹_›
  · exact iff_of_false (by simp only [Option.isSome_none, Bool.false_eq_true, not_false_eq_true])
      ‹_›

theorem onCreateView_hasCaptions (hpos : 0 < pager.maxCount) :
    pager.HasCaptions pager.onCreateView := by
  have hmax := pager.maxCount_lt
  have hcols := pager.captions_lt
  intro c s hs
  have hc : c < pager.captions.length := (List.getElem?_eq_some_iff.mp hs).1
  have hplace : Table.Short 0 (c : Int) := ⟨by omega, by omega, by omega, by omega⟩
  have htext : written (pager.captions.map Except.ok) c = s := by
    rw [written, List.getElem?_map, hs]
    rfl
  rw [pager.text_onCreateView 0 c hplace, if_pos (by omega), Int.toNat_natCast, htext,
    Table.text_createTable _ _ _ _ (by omega) (by omega) hplace.kept, if_pos (by omega)]
  rfl

end TablePager

section Readable

variable (rendering : Rendering) (p : PacketBase) (i : Nat)

theorem formatted_ok_iff (number : Except JavaException Number) :
    (∃ s, formatted rendering number = .ok s) ↔ ∃ v, number = .ok v :=
  map_ok_iff number rendering.formatNumber

/-- A byte field, cast and shown, can be read where the byte can. -/
theorem byteText_ok_iff (read : Except JavaException Int) (text : Int → ReadText)
    (htext : ∀ b, ∃ s, text b = .ok s) :
    (∃ s, (do let n ← read.map Number.byte; let b ← n.asByte; text b) = .ok s)
      ↔ ∃ b, read = .ok b := by
  cases read with
  | ok b => exact iff_of_true (htext b) ⟨b, rfl⟩
  | error e =>
      refine iff_of_false ?_ ?_
      · rintro ⟨s, hs⟩
        exact absurd hs (by simp only [Except.map, Bind.bind, Except.bind, reduceCtorEq,
          not_false_eq_true])
      · simp only [reduceCtorEq, exists_false, not_false_eq_true]

theorem baBsic_ok (h : 16 + i * 12 + 6 < p.mPacketData.length) : ∃ s, baBsic p i = .ok s := by
  have hknow : ∃ b, GSM5071Packet.getBSICKnow p i = .ok b := by
    refine (getByte_ok_iff _ _).mpr ?_
    rw [PacketBase.logResponseHeadLen, GSM5071Packet.cellInfoLen]
    omega
  have hbsic : ∃ b, GSM5071Packet.getBSIC p i = .ok b := by
    refine (getByte_ok_iff _ _).mpr ?_
    rw [PacketBase.logResponseHeadLen, GSM5071Packet.cellInfoLen]
    omega
  refine (byteText_ok_iff _ _ (fun know => ?_)).mpr hknow
  split
  · exact (byteText_ok_iff _ _ (fun basic => ⟨bsicText basic, rfl⟩)).mpr hbsic
  · exact ⟨_, rfl⟩

theorem allRead_gsmBAListPager :
    AllRead ((gsmBAListPager rendering).row p i) ↔ 17 + (i + 1) * 12 ≤ p.mPacketData.length := by
  simp only [AllRead, gsmBAListPager, List.forall_mem_cons, formatted_ok_iff,
    GSM5071Packet.getNumberAt, map_ok_iff, GSM5071Packet.getAEFCN, GSM5071Packet.getRxPower,
    GSM5071Packet.getFrameNumberOffset, GSM5071Packet.getTimeOffset, GSM5071Packet.getBand,
    getShort_ok_iff, ByteBuffer.getInt, getWide_ok_iff, get_ok_iff, PacketBase.logResponseHeadLen,
    GSM5071Packet.cellInfoLen]
  constructor
  · rintro ⟨-, -, -, -, -, hqbit, -, -⟩
    omega
  · intro h
    refine ⟨⟨_, rfl⟩, by omega, by omega, baBsic_ok p i (by omega), by omega, by omega, by omega,
      ?_⟩
    exact fun x hx => absurd hx List.not_mem_nil

theorem allRead_serving : AllRead ((gsmRadioParamPager rendering).serving p)
    ↔ 22 ≤ p.mPacketData.length := by
  simp only [AllRead, gsmRadioParamPager, List.forall_mem_cons, formatted_ok_iff,
    GSM513APacket.getNumber, map_ok_iff, GSM513APacket.getServingBcchArfcn,
    GSM513APacket.getRxLevFull, GSM513APacket.getRxLevSub, GSM513APacket.getRxQualFull,
    GSM513APacket.getRxQualSub, getShort_ok_iff, getByte_ok_iff, PacketBase.logResponseHeadLen]
  constructor
  · rintro ⟨-, -, -, -, hqual, -⟩
    omega
  · intro h
    refine ⟨by omega, by omega, by omega, by omega, by omega, ?_⟩
    exact fun x hx => absurd hx List.not_mem_nil

theorem neighbourBsic_ok_iff :
    (∃ s, neighbourBsic p i = .ok s) ↔ 24 + i * 4 + 3 < p.mPacketData.length := by
  refine (byteText_ok_iff _ _ (fun basic => ⟨bsicText basic, rfl⟩)).trans ?_
  rw [GSM513APacket.getNCellBasic, getByte_ok_iff]
  rfl

theorem allRead_gsmRadioParamPager :
    AllRead ((gsmRadioParamPager rendering).row p i) ↔ 24 + (i + 1) * 4 ≤ p.mPacketData.length := by
  simp only [AllRead, gsmRadioParamPager, List.forall_mem_cons, formatted_ok_iff,
    neighbourBsic_ok_iff, GSM513APacket.getNumberAt, map_ok_iff, GSM513APacket.getNCellArfcn,
    GSM513APacket.getNCellRxLev, getShort_ok_iff, getByte_ok_iff, PacketBase.logResponseHeadLen,
    GSM513APacket.ncellDataStart, GSM513APacket.ncellDataLen]
  constructor
  · rintro ⟨-, -, -, hbsic, -⟩
    omega
  · intro h
    refine ⟨⟨_, rfl⟩, by omega, by omega, by omega, ?_⟩
    exact fun x hx => absurd hx List.not_mem_nil

theorem carrierText_ok_iff :
    (∃ s, carrierText rendering p i = .ok s) ↔ 30 + i * 11 + 2 < p.mPacketData.length :=
  (byteText_ok_iff _ _ (fun _ => ⟨_, rfl⟩)).trans (WCDMA4179Packet.getCarrierInfo_ok_iff p i)

theorem r99SetText_ok_iff :
    (∃ s, r99SetText rendering p i = .ok s) ↔ 30 + i * 11 + 10 < p.mPacketData.length :=
  (byteText_ok_iff _ _ (fun _ => ⟨_, rfl⟩)).trans (WCDMA4179Packet.getSet_ok_iff p i)

theorem rscp_ok_iff (h : 30 + i * 11 + 2 < p.mPacketData.length) :
    (∃ v, WCDMA4179Packet.getNumberAt rendering.arith p .wcdma4179Rscp i = .ok v)
      ↔ ∃ v, WCDMA4179Packet.getEcIo1 rendering.arith p i = .ok v := by
  rw [WCDMA4179Packet.getNumberAt, bind_ok_iff _ _ True, and_true]
  intro ecIo
  rw [bind_ok_iff _ _ True (fun rxAgc => pure_ok _), and_true]
  exact iff_of_true (WCDMA4179Packet.getRxAgc_ok p i h) trivial

/-- The row of a search task needs the task's descriptor and, where the packet
    looks for it, the twelve words in front of the fourth energy. -/
theorem allRead_wcdmaPNSearchPager :
    AllRead ((wcdmaPNSearchPager rendering).row p i) ↔
      30 + i * 11 + 10 < p.mPacketData.length ∧ 0 ≤ WCDMA4179Packet.resultPos p.mPacketData i
        ∧ WCDMA4179Packet.resultPos p.mPacketData i + 48 ≤ p.mPacketData.length := by
  simp only [AllRead, wcdmaPNSearchPager, List.forall_mem_cons, formatted_ok_iff,
    carrierText_ok_iff, r99SetText_ok_iff]
  constructor
  · rintro ⟨-, -, -, hset, -, hecIo, -, -⟩
    rw [WCDMA4179Packet.getNumberAt, map_ok_iff,
      WCDMA4179Packet.getEcIo1_ok_iff _ p i (by omega)] at hecIo
    exact ⟨hset, hecIo⟩
  · rintro ⟨hset, hpos⟩
    have hdesc : 30 + i * 11 + 2 < p.mPacketData.length := by omega
    have hecIo := (WCDMA4179Packet.getEcIo1_ok_iff rendering.arith p i hdesc).mpr hpos
    refine ⟨⟨_, rfl⟩, hdesc, ?_, hset, (rscp_ok_iff rendering p i hdesc).mpr hecIo, ?_, ?_, ?_⟩
    · rw [WCDMA4179Packet.getNumberAt, map_ok_iff, WCDMA4179Packet.getPSC_ok_iff]
      omega
    · rw [WCDMA4179Packet.getNumberAt, map_ok_iff]
      exact hecIo
    · rw [WCDMA4179Packet.getNumberAt, map_ok_iff,
        WCDMA4179Packet.getPeakEcIo1_ok_iff _ p i hdesc]
      omega
    · exact fun x hx => absurd hx List.not_mem_nil

end Readable

/-! ### Packets that contain what they declare -/

/-- The three pagers. -/
inductive PagerKind where
  | baList
  | radioParam
  | pnSearch
  deriving DecidableEq, Repr

namespace PagerKind

def pager (rendering : Rendering) : PagerKind → TablePager
  | baList => gsmBAListPager rendering
  | radioParam => gsmRadioParamPager rendering
  | pnSearch => wcdmaPNSearchPager rendering

/-- The log code the pager is registered for. -/
def logCode : PagerKind → Int
  | baList => 0x5071
  | radioParam => 0x513A
  | pnSearch => 0x4179

/-- The number of records a pager is written to show. -/
def maxCount : PagerKind → Nat
  | baList => 17
  | radioParam => 10
  | pnSearch => 18

/-- The offset behind the count field. -/
def countEnd : PagerKind → Nat
  | baList => 17
  | radioParam => 24
  | pnSearch => 29

/-- The count field as the pagers read it. -/
def signedCount (kind : PagerKind) (data : List Byte) : Int :=
  match kind with
  | baList => (data.getD 16 0).toInt
  | radioParam => Int.bmod (leWord data 22) 65536
  | pnSearch => WCDMA4179Packet.taskSpecNum data

/-- The number of records the pager reads: none for a negative count, and at
    most as many as it is written to show. -/
def shown (kind : PagerKind) (data : List Byte) : Nat :=
  (min (kind.signedCount data) kind.maxCount).toNat

/-- The packet has the records the pager reads. For 0x4179 these are the
    results, where the count and each task's own descriptor place them. -/
def Contains (kind : PagerKind) (data : List Byte) : Prop :=
  match kind with
  | baList => 17 + kind.shown data * 12 ≤ data.length
  | radioParam => 24 + kind.shown data * 4 ≤ data.length
  | pnSearch => 29 ≤ data.length
      ∧ ∀ i < kind.shown data, WCDMA4179Packet.resultPos data i + 48 ≤ data.length

instance (kind : PagerKind) (data : List Byte) : Decidable (kind.Contains data) :=
  match kind with
  | baList => inferInstanceAs (Decidable (17 + baList.shown data * 12 ≤ data.length))
  | radioParam => inferInstanceAs (Decidable (24 + radioParam.shown data * 4 ≤ data.length))
  | pnSearch => inferInstanceAs (Decidable (29 ≤ data.length
      ∧ ∀ i < pnSearch.shown data, WCDMA4179Packet.resultPos data i + 48 ≤ data.length))

variable (rendering : Rendering) (kind : PagerKind) (data : List Byte)

theorem pager_maxCount : (kind.pager rendering).maxCount = kind.maxCount := by
  cases kind <;> rfl

theorem count_ok_iff :
    (∃ count, (kind.pager rendering).count (wrap data) = .ok count)
      ↔ kind.countEnd ≤ data.length := by
  cases kind with
  | baList =>
      refine (map_ok_iff _ _).trans ((map_ok_iff _ _).trans ?_)
      exact getByte_ok_iff _ _
  | radioParam =>
      refine (map_ok_iff _ _).trans ((map_ok_iff _ _).trans ?_)
      exact getShort_ok_iff _ _
  | pnSearch =>
      refine (map_ok_iff _ _).trans ((map_ok_iff _ _).trans ?_)
      exact getByte_ok_iff _ _

theorem count_eq (h : kind.countEnd ≤ data.length) :
    (kind.pager rendering).count (wrap data) = .ok (kind.signedCount data) := by
  cases kind with
  | baList =>
      have hread : GSM5071Packet.getCellCount (wrap data) = .ok (data.getD 16 0).toInt := by
        rw [GSM5071Packet.getCellCount, getByte, ByteBuffer.get, wrap_mPacketData,
          PacketBase.logResponseHeadLen, List.getElem?_eq_getElem h, List.getD_eq_getElem _ _ h]
        rfl
      exact congrArg (fun r => (Except.map Number.byte r).map Number.shortValue) hread
  | radioParam =>
      have hread : GSM513APacket.getNCellCount (wrap data)
          = .ok (Int.bmod (leWord data 22) 65536) := getShort_ok data 22 h
      exact congrArg (fun r => (Except.map Number.short r).map Number.shortValue) hread
  | pnSearch =>
      have hread := WCDMA4179Packet.getTaskSpecNum_eq (wrap data) h
      exact congrArg (fun r => (Except.map Number.byte r).map Number.byteValue) hread

theorem clamp_eq :
    ((kind.pager rendering).clamp (kind.signedCount data)).toNat = kind.shown data := by
  rw [TablePager.clamp, pager_maxCount, shown]
  split <;> omega

/-- The results of the tasks start behind the descriptors. -/
theorem resultPos_ge (i : Nat) (hi : i < pnSearch.shown data) :
    30 + (i : Int) * 11 + 11 ≤ WCDMA4179Packet.resultPos data i := by
  have hclamp : i < (min (WCDMA4179Packet.taskSpecNum data) (18 : Int)).toNat := hi
  have hshown : (i : Int) < WCDMA4179Packet.taskSpecNum data := by omega
  have hskip : 0 ≤ (12 + 48 * (WCDMA4179Packet.resultNum data i : Int)) * i :=
    Int.mul_nonneg (by omega) (by omega)
  rw [WCDMA4179Packet.resultPos]
  omega

/-- Rows of equal width fit exactly if the last one does. -/
theorem rows_fit_iff {start width n len : Nat} (h : start ≤ len) :
    (∀ i < n, start + (i + 1) * width ≤ len) ↔ start + n * width ≤ len := by
  constructor
  · intro hrows
    rcases n with _ | n
    · rw [Nat.zero_mul]
      exact h
    · exact hrows n (Nat.lt_succ_self n)
  · intro hlen i hi
    have hwidth : (i + 1) * width ≤ n * width := Nat.mul_le_mul_right width hi
    omega

/-- The rows of a kind can be read exactly if the packet contains them. -/
theorem allRead_iff (h : kind.countEnd ≤ data.length) :
    (AllRead ((kind.pager rendering).serving (wrap data))
      ∧ ∀ i < kind.shown data, AllRead ((kind.pager rendering).row (wrap data) i))
      ↔ kind.Contains data := by
  cases kind with
  | baList =>
      have hserving : AllRead ((pager rendering baList).serving (wrap data)) :=
        fun x hx => absurd hx List.not_mem_nil
      simp only [hserving, true_and, Contains]
      refine Iff.trans ?_ (rows_fit_iff h)
      exact forall₂_congr (fun i _ => allRead_gsmBAListPager rendering (wrap data) i)
  | radioParam =>
      have hserving : AllRead ((pager rendering radioParam).serving (wrap data)) :=
        (allRead_serving rendering (wrap data)).mpr
          (Nat.le_trans (by decide : 22 ≤ countEnd radioParam) h)
      simp only [hserving, true_and, Contains]
      refine Iff.trans ?_ (rows_fit_iff h)
      exact forall₂_congr (fun i _ => allRead_gsmRadioParamPager rendering (wrap data) i)
  | pnSearch =>
      have hserving : AllRead ((pager rendering pnSearch).serving (wrap data)) :=
        fun x hx => absurd hx List.not_mem_nil
      simp only [hserving, true_and, Contains]
      constructor
      · intro hrows
        refine ⟨h, fun i hi => ?_⟩
        exact ((allRead_wcdmaPNSearchPager rendering (wrap data) i).mp (hrows i hi)).2.2
      · rintro ⟨-, hlen⟩ i hi
        have hpos := resultPos_ge data i hi
        have hend := hlen i hi
        refine (allRead_wcdmaPNSearchPager rendering (wrap data) i).mpr ?_
        rw [wrap_mPacketData]
        omega

/-- A packet that contains its records has the count field. -/
theorem countEnd_le (h : kind.Contains data) : kind.countEnd ≤ data.length := by
  cases kind with
  | baList => exact Nat.le_trans (Nat.le_add_right 17 _) h
  | radioParam => exact Nat.le_trans (Nat.le_add_right 24 _) h
  | pnSearch => exact h.1

/-- `updateView` runs to its end exactly on the packets that contain the records
    it reads; on every other one it reads outside the packet. -/
theorem updateView_returns_iff (v : TableView) (h : 16 ≤ data.length) :
    ((kind.pager rendering).updateView v (wrap data)).isReturned = true ↔ kind.Contains data := by
  rw [Outcome.isReturned_iff]
  by_cases hcount : kind.countEnd ≤ data.length
  · rw [(kind.pager rendering).updateView_returns v (wrap data) _
      (count_eq rendering kind data hcount) h, clamp_eq, allRead_iff rendering kind data hcount]
  · refine iff_of_false ?_ (fun hcontains => hcount (countEnd_le kind data hcontains))
    exact (kind.pager rendering).updateView_count_threw v (wrap data)
      (fun hok => hcount ((count_ok_iff rendering kind data).mp hok))

/-! ### The screen shows the last packet -/

/-- The count field as the unsigned number it is. -/
def declared (kind : PagerKind) (data : List Byte) : Nat :=
  match kind with
  | baList => (data.getD 16 0).toNat
  | radioParam => leWord data 22
  | pnSearch => (data.getD 28 0).toNat

/-- The packet is long enough for the records it declares. -/
def LongEnough (kind : PagerKind) (data : List Byte) : Prop :=
  match kind with
  | baList => 17 + kind.declared data * 12 ≤ data.length
  | radioParam => 24 + kind.declared data * 4 ≤ data.length
  | pnSearch => 30 + kind.declared data * 11 + ((List.range (kind.declared data)).map
      fun k => 12 + 48 * WCDMA4179Packet.resultNum data k).sum ≤ data.length

/-- The table shows the records of a packet, one row each behind the captions,
    up to the number the pager is written for, and nothing else. -/
structure Shows (rendering : Rendering) (kind : PagerKind) (t : Table) (data : List Byte) :
    Prop where
  records : ∀ i < min (kind.declared data) kind.maxCount,
    ∀ col < (kind.pager rendering).captions.length, ∃ s,
      ((kind.pager rendering).row (wrap data) i)[col]? = some (.ok s)
      ∧ t.text ((i : Int) + 1) col = some s
  blank : ∀ row < kind.maxCount, min (kind.declared data) kind.maxCount < row →
    ∀ col < (kind.pager rendering).captions.length, t.text row col = some ""
  captions : (kind.pager rendering).HasCaptions t

instance (kind : PagerKind) (data : List Byte) : Decidable (kind.LongEnough data) :=
  match kind with
  | baList => inferInstanceAs (Decidable (17 + baList.declared data * 12 ≤ data.length))
  | radioParam => inferInstanceAs (Decidable (24 + radioParam.declared data * 4 ≤ data.length))
  | pnSearch => inferInstanceAs (Decidable (30 + pnSearch.declared data * 11
      + ((List.range (pnSearch.declared data)).map
        fun k => 12 + 48 * WCDMA4179Packet.resultNum data k).sum ≤ data.length))

/-- The table has room for the declared records, and every result that will be
    read lies in the packet. -/
def Fits (kind : PagerKind) (data : List Byte) : Prop :=
  kind.declared data < kind.maxCount ∧ (kind = pnSearch → kind.Contains data)

instance (kind : PagerKind) (data : List Byte) : Decidable (kind.Fits data) :=
  inferInstanceAs (Decidable (_ ∧ _))

theorem countEnd_le_of_longEnough (h : kind.LongEnough data) : kind.countEnd ≤ data.length := by
  cases kind with
  | baList => exact Nat.le_trans (Nat.le_add_right 17 _) h
  | radioParam => exact Nat.le_trans (Nat.le_add_right 24 _) h
  | pnSearch =>
      simp only [LongEnough] at h
      exact Nat.le_trans (by rw [countEnd]; omega) h

/-- A small count is read as what it is. -/
theorem signedCount_eq (h : kind.declared data < kind.maxCount) :
    kind.signedCount data = kind.declared data := by
  cases kind with
  | baList =>
      have hlt : (data.getD 16 0).toNat < 17 := h
      exact BitVec.toInt_eq_toNat_of_lt (by omega)
  | radioParam =>
      have hlt : leWord data 22 < 10 := h
      have hword : Int.bmod (leWord data 22) 65536 = leWord data 22 := by
        rw [bmod_word _ (leWord_lt data 22), if_pos (by omega)]
      exact hword
  | pnSearch =>
      have hlt : (data.getD 28 0).toNat < 18 := h
      exact BitVec.toInt_eq_toNat_of_lt (by omega)

theorem signedCount_ge : -32768 ≤ kind.signedCount data := by
  cases kind with
  | baList => exact Int.le_trans (by decide) (BitVec.le_toInt (data.getD 16 0))
  | radioParam =>
      have hge : -32768 ≤ Int.bmod (leWord data 22) 65536 := by
        rw [bmod_word _ (leWord_lt data 22)]
        split <;> omega
      exact hge
  | pnSearch => exact Int.le_trans (by decide) (BitVec.le_toInt (data.getD 28 0))

theorem shown_eq (h : kind.declared data < kind.maxCount) :
    kind.shown data = kind.declared data := by
  rw [shown, signedCount_eq kind data h]
  omega

theorem contains_of_fits (hlong : kind.LongEnough data) (h : kind.Fits data) :
    kind.Contains data := by
  cases kind with
  | baList =>
      rw [Contains, shown_eq baList data h.1]
      exact hlong
  | radioParam =>
      rw [Contains, shown_eq radioParam data h.1]
      exact hlong
  | pnSearch => exact h.2 rfl

/-- A readable row has a text in every column. -/
theorem written_row (pager : TablePager) (p : PacketBase) (i col : Nat)
    (hread : AllRead (pager.row p i)) (hcol : col < pager.captions.length) :
    (pager.row p i)[col]? = some (.ok (written (pager.row p i) col)) := by
  have hlt : col < (pager.row p i).length := by
    rw [pager.row_length]
    exact hcol
  obtain ⟨s, hs⟩ := hread _ (List.getElem_mem hlt)
  rw [written, List.getElem?_eq_getElem hlt, hs]

/-- A packet that fits is shown, and the screen is ready for the next one. -/
theorem shows_of_fits (v : TableView) (hlong : kind.LongEnough data) (hfits : kind.Fits data)
    (hgrid : (kind.pager rendering).HasGrid v.cells)
    (hcaptions : (kind.pager rendering).HasCaptions v.cells) :
    ∃ v', (kind.pager rendering).updateView v (wrap data) = .returned v'
      ∧ Shows rendering kind v'.cells data := by
  have hend := countEnd_le_of_longEnough kind data hlong
  have hcount := count_eq rendering kind data hend
  have hcontains := contains_of_fits kind data hlong hfits
  have h16 : 16 ≤ data.length := Nat.le_trans (by cases kind <;> decide) hend
  have hmax := (kind.pager rendering).maxCount_lt
  have hcols := (kind.pager rendering).captions_lt
  rw [pager_maxCount] at hmax
  obtain ⟨v', hv'⟩ := (Outcome.isReturned_iff _).mp
    ((updateView_returns_iff rendering kind data v h16).mpr hcontains)
  have hrows := ((allRead_iff rendering kind data hend).mpr hcontains).2
  rw [shown_eq kind data hfits.1] at hrows
  have hclamp : (kind.pager rendering).clamp (kind.signedCount data) = kind.declared data := by
    rw [TablePager.clamp, pager_maxCount, signedCount_eq kind data hfits.1,
      if_neg (by have := hfits.1; omega)]
  have hmin : min (kind.declared data) kind.maxCount = kind.declared data :=
    Nat.min_eq_left (Nat.le_of_lt hfits.1)
  have htext := (kind.pager rendering).text_updateView v v' (wrap data) _ hcount
    (signedCount_ge kind data) hv'
  have hcell : ∀ r c : Int, Table.Short r c → (0 ≤ r ∧ r < kind.maxCount) →
      (0 ≤ c ∧ c < (kind.pager rendering).captions.length) →
      ∃ s, v.cells.text r c = some s := by
    intro r c hplace hr hc
    rw [← pager_maxCount rendering kind] at hr
    exact Option.isSome_iff_exists.mp ((hgrid r c hplace).mpr ⟨hr, hc⟩)
  rw [hclamp, pager_maxCount] at htext
  refine ⟨v', hv', ⟨?_, ?_, ?_⟩⟩
  · intro i hi col hcol
    rw [hmin] at hi
    have hlt := hfits.1
    have hplace : Table.Short ((i : Int) + 1) col := ⟨by omega, by omega, by omega, by omega⟩
    obtain ⟨old, hold⟩ := hcell _ _ hplace (by omega) (by omega)
    refine ⟨_, written_row _ _ i col (hrows i hi) hcol, ?_⟩
    have hrec : ((i : Int) + 1 - 1).toNat = i := by omega
    rw [htext _ _ hplace, if_neg (by omega), if_pos (by omega), hold, hrec, Int.toNat_natCast]
    rfl
  · intro row hrow hbelow col hcol
    rw [hmin] at hbelow
    have hplace : Table.Short (row : Int) col := ⟨by omega, by omega, by omega, by omega⟩
    obtain ⟨old, hold⟩ := hcell _ _ hplace (by omega) (by omega)
    rw [htext _ _ hplace, if_pos (by omega), hold]
    rfl
  · intro c s hs
    have hc : c < (kind.pager rendering).captions.length := (List.getElem?_eq_some_iff.mp hs).1
    have hplace : Table.Short 0 (c : Int) := ⟨by omega, by omega, by omega, by omega⟩
    rw [htext _ _ hplace, if_neg (by omega), if_neg (by omega)]
    exact hcaptions c s hs

/-- A count field with its sign bit set starts the reset above the captions. -/
theorem captions_erased (v v' : TableView) (hneg : kind.signedCount data < 0)
    (hend : kind.countEnd ≤ data.length) (hgrid : (kind.pager rendering).HasGrid v.cells)
    (hv' : (kind.pager rendering).updateView v (wrap data) = .returned v') :
    v'.cells.text 0 0 = some "" := by
  have hpos : 0 < kind.maxCount := by cases kind <;> decide
  obtain ⟨caption, hcaption, -⟩ := (kind.pager rendering).caption_ne
  have hcol : 0 < (kind.pager rendering).captions.length :=
    (List.getElem?_eq_some_iff.mp hcaption).1
  have hplace : Table.Short 0 0 := ⟨by omega, by omega, by omega, by omega⟩
  have hclamp : (kind.pager rendering).clamp (kind.signedCount data) = kind.signedCount data := by
    rw [TablePager.clamp, pager_maxCount, if_neg (by omega)]
  obtain ⟨old, hold⟩ := Option.isSome_iff_exists.mp
    ((hgrid 0 0 hplace).mpr ⟨by rw [pager_maxCount]; omega, by omega⟩)
  rw [(kind.pager rendering).text_updateView v v' (wrap data) _ (count_eq rendering kind data hend)
    (signedCount_ge kind data) hv' 0 0 hplace, hclamp, pager_maxCount, if_pos (by omega), hold]
  rfl

/-- The screen before the first packet. -/
def created (rendering : Rendering) (kind : PagerKind) : TableView :=
  ⟨(kind.pager rendering).onCreateServing, (kind.pager rendering).onCreateView⟩

/-- Numbers as a locale shows them that have no fraction and fewer than four
    digits. -/
def plainRendering : Rendering where
  formatNumber := fun number =>
    match number with
    | .float (.finite q) => toString q.num
    | n => toString n.intValue
  arith := { calcEcIo := fun _ _ _ => .nan, getRscp := fun ecIo _ => ecIo }

/-- A 0x5071 packet with the given count byte and cells. -/
def baListPacket (length : Byte) (count : Byte) (cells : List Byte) : List Byte :=
  [0x10, 0, length, 0, 13, 0, 0x71, 0x50, 0, 0, 0, 0, 0, 0, 0, 0, count] ++ cells

/-- One cell: ARFCN 62, -96 dBm, BSIC <5,3>, lags 7 and 9, band 1. -/
def oneCell : List Byte := [62, 16, 0, 0xFA, 1, 0x2B, 7, 0, 0, 0, 9, 0]

theorem updateView_returns_iff_one_cell :
    16 ≤ (baListPacket 25 1 oneCell).length
    ∧ Dispatcher.lookedUp (baListPacket 25 1 oneCell) = some baList.logCode
    ∧ ((baList.pager plainRendering).updateView (created plainRendering baList)
        (wrap (baListPacket 25 1 oneCell))).isReturned = true :=
  ⟨by decide, by decide, (updateView_returns_iff plainRendering baList (baListPacket 25 1 oneCell)
    (created plainRendering baList) (by decide)).mpr (by decide)⟩

/-- An accepted packet of seventeen bytes that declares one cell is passed to
    the pager, and the first field of the cell is read outside it. -/
theorem updateView_reads_outside :
    Dispatcher.lookedUp (baListPacket 13 1 []) = some baList.logCode
    ∧ (((Dispatcher.fresh PacketFactory.initial fun _ => PacketBase.empty).registerPacketListener
        baList.logCode (some ())).update (baListPacket 13 1 [])).state.2 = [((), 1)]
    ∧ 16 ≤ (baListPacket 13 1 []).length
    ∧ ∃ v, (baList.pager plainRendering).updateView (created plainRendering baList)
        (wrap (baListPacket 13 1 [])) = .threw .indexOutOfBounds v :=
  ⟨by decide, by decide, by decide, _, rfl⟩

end PagerKind

end NetProbe
