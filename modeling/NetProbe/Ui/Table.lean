import Mathlib.Data.Int.Range
import Mathlib.Data.List.Basic

/-!
# Tables on the Screen

A `Table` is a grid of text views with a title, and the rest of the program
writes it cell by cell. The views are kept in a map under a key made of row
and column: each is cast to a `short`, the row is shifted up by sixteen bits
and the two are joined by a bitwise or.

A write to a cell the table does not have is dropped without a word, so a
caller that miscounts its rows sees no error, only missing text. `reset`
writes the empty text over a rectangle.

## Main definitions

* `Table`: The texts by view id.
* `calcCellId`: The id of a cell.
* `createTable`, `setValue`, `reset`: The operations.
* `text`: The text shown in a cell, if the table has it.
* `Call`, `after`: A sequence of calls on a new table.
* `Call.writes`, `lastWritten`: What the calls would do to a two-dimensional array.

## Theorems

* `calcCellId_eq_append`: The id is the two halves side by side.
* `calcCellId_inj`: Places have different ids, unless both columns are negative.
* `text_createTable`, `text_setValue`, `text_reset`: What a cell shows after each
  operation.
* `after_is_array`: A table is a two-dimensional array, whatever calls are made.
-/

namespace NetProbe

/-- The texts of the views by id. -/
structure Table where
  mTableCells : BitVec 32 → Option String

namespace Table

/-- `(short) row << 16 | (short) col`. -/
def calcCellId (row col : Int) : BitVec 32 :=
  ((BitVec.ofInt 16 row).signExtend 32 <<< 16) ||| (BitVec.ofInt 16 col).signExtend 32

/-- `mTableCells.put(id, view)` for a new view, which shows nothing. -/
def put (t : Table) (id : BitVec 32) : Table :=
  { mTableCells := fun k => if k = id then some "" else t.mTableCells k }

def empty : Table := { mTableCells := fun _ => none }

/-- `new Table(inflater, mRows, mCols)`. -/
def createTable (mRows mCols : Int) : Table :=
  (Int.range 0 mRows).foldl
    (fun t row => (Int.range 0 mCols).foldl (fun t col => t.put (calcCellId row col)) t) empty

def setValue (t : Table) (row col : Int) (value : String) : Table :=
  match t.mTableCells (calcCellId row col) with
  | some _ =>
      { mTableCells := fun k => if k = calcCellId row col then some value else t.mTableCells k }
  | none => t

def reset (t : Table) (top left bottom right : Int) : Table :=
  (Int.range top bottom).foldl
    (fun t row => (Int.range left right).foldl (fun t col => t.setValue row col "") t) t

/-- The text of a cell, if the table has that cell. -/
def text (t : Table) (row col : Int) : Option String := t.mTableCells (calcCellId row col)

/-! ### Ids -/

/-- The id is the row above the column, unless the column is negative: its sign
    then covers the row. -/
theorem calcCellId_eq_append (row col : Int) :
    calcCellId row col
      = (if (BitVec.ofInt 16 col).msb then BitVec.allOnes 16 else BitVec.ofInt 16 row)
        ++ BitVec.ofInt 16 col := by
  ext i hi
  rw [calcCellId, BitVec.getElem_or, BitVec.getElem_shiftLeft, BitVec.getElem_signExtend,
    BitVec.getElem_signExtend, BitVec.getElem_append]
  by_cases hlow : i < 16
  · rw [dif_pos hlow, dif_pos hlow]
    simp only [hlow, decide_true, Bool.not_true, Bool.false_and, Bool.false_or]
  · have hrow : i - 16 < 16 := by omega
    rw [dif_neg hlow, dif_neg hlow, dif_pos hrow]
    by_cases hneg : (BitVec.ofInt 16 col).msb = true
    · simp only [hlow, hneg, decide_false, Bool.not_false, Bool.true_and, Bool.or_true, if_true,
        BitVec.getElem_allOnes]
    · simp only [hlow, Bool.not_eq_true] at hneg ⊢
      simp only [hneg, decide_false, Bool.not_false, Bool.true_and, Bool.or_false,
        Bool.false_eq_true, if_false]

/-- A `short` that is not negative. -/
theorem msb_ofInt (v : Int) (h : 0 ≤ v) (h' : v < 32768) : (BitVec.ofInt 16 v).msb = false := by
  rw [BitVec.msb_eq_toInt, BitVec.toInt_ofInt, Int.bmod_eq_of_le (by omega) (by omega)]
  exact decide_eq_false (by omega)

/-- Two numbers in the range of a `short` are told apart by their sixteen bits. -/
theorem ofInt_inj (v w : Int) (hv : -32768 ≤ v) (hv' : v < 32768) (hw : -32768 ≤ w)
    (hw' : w < 32768) : BitVec.ofInt 16 v = BitVec.ofInt 16 w ↔ v = w := by
  refine ⟨fun h => ?_, congrArg _⟩
  have hint := congrArg BitVec.toInt h
  rw [BitVec.toInt_ofInt, BitVec.toInt_ofInt, Int.bmod_eq_of_le (by omega) (by omega),
    Int.bmod_eq_of_le (by omega) (by omega)] at hint
  exact hint

/-- A place in the range the casts keep. -/
structure Kept (row col : Int) : Prop where
  row_ge : -32768 ≤ row
  row_lt : row < 32768
  col_ge : -32768 ≤ col
  col_lt : col < 32768

/-- A place in that range whose column is not negative. -/
structure Short (row col : Int) : Prop where
  row_ge : -32768 ≤ row
  row_lt : row < 32768
  col_ge : 0 ≤ col
  col_lt : col < 32768

theorem Short.kept {row col : Int} (h : Short row col) : Kept row col :=
  ⟨h.row_ge, h.row_lt, by have := h.col_ge; omega, h.col_lt⟩

/-- The column is left as it is in the low half, also where its sign covers the
    row. -/
theorem setWidth_calcCellId (row col : Int) :
    (calcCellId row col).setWidth 16 = BitVec.ofInt 16 col := by
  rw [calcCellId_eq_append, BitVec.setWidth_append_eq_right]

/-- Two places have different ids, unless both columns are negative. -/
theorem calcCellId_inj {row col row' col' : Int} (h : Kept row col) (h' : Kept row' col')
    (hpos : 0 ≤ col ∨ 0 ≤ col') :
    calcCellId row col = calcCellId row' col' ↔ row = row' ∧ col = col' := by
  obtain ⟨hrow, hrow', hcol, hcol'⟩ := h
  obtain ⟨krow, krow', kcol, kcol'⟩ := h'
  constructor
  · intro heq
    have hlow : BitVec.ofInt 16 col = BitVec.ofInt 16 col' := by
      rw [← setWidth_calcCellId row col, heq, setWidth_calcCellId]
    obtain rfl := (ofInt_inj col col' hcol hcol' kcol kcol').mp hlow
    -- the columns agree, so neither is negative and both ids show their rows
    have hmsb := msb_ofInt col (hpos.elim id id) hcol'
    rw [calcCellId_eq_append, calcCellId_eq_append, hmsb, if_neg Bool.false_ne_true,
      if_neg Bool.false_ne_true, BitVec.append_left_inj] at heq
    exact ⟨(ofInt_inj row row' hrow hrow' krow krow').mp heq, rfl⟩
  · rintro ⟨rfl, rfl⟩
    rfl

/-! ### Texts -/

theorem mTableCells_setValue (t : Table) (row col : Int) (value : String) (k : BitVec 32) :
    (t.setValue row col value).mTableCells k
      = if k = calcCellId row col then (t.mTableCells k).map (fun _ => value)
        else t.mTableCells k := by
  rw [setValue]
  by_cases hk : k = calcCellId row col
  · rw [if_pos hk, hk]
    cases hcell : t.mTableCells (calcCellId row col) with
    | none => exact hcell
    | some old => exact if_pos rfl
  · rw [if_neg hk]
    cases t.mTableCells (calcCellId row col) with
    | none => rfl
    | some old => exact if_neg hk

/-- A loop of updates that each overwrite some ids with one text: an id shows
    that text if one of the updates overwrote it. -/
theorem mTableCells_foldl {α : Type} (f : Table → α → Table) (P : α → BitVec 32 → Prop)
    (g : Option String → Option String) (hg : ∀ o, g (g o) = g o)
    (hf : ∀ t a k, (P a k → (f t a).mTableCells k = g (t.mTableCells k))
      ∧ (¬P a k → (f t a).mTableCells k = t.mTableCells k)) (as : List α) (k : BitVec 32) :
    ∀ t, ((∃ a ∈ as, P a k) → (as.foldl f t).mTableCells k = g (t.mTableCells k))
      ∧ ((¬∃ a ∈ as, P a k) → (as.foldl f t).mTableCells k = t.mTableCells k) := by
  induction as with
  | nil =>
      intro t
      refine ⟨?_, fun _ => rfl⟩
      rintro ⟨a, ha, -⟩
      exact absurd ha List.not_mem_nil
  | cons a as ih =>
      intro t
      have hrest := ih (f t a)
      have hhead := hf t a k
      rw [List.foldl_cons, List.exists_mem_cons_iff]
      by_cases ha : P a k <;> by_cases has : ∃ b ∈ as, P b k
      · refine ⟨fun _ => ?_, fun hno => absurd (Or.inl ha) hno⟩
        rw [hrest.1 has, hhead.1 ha, hg]
      · refine ⟨fun _ => ?_, fun hno => absurd (Or.inl ha) hno⟩
        rw [hrest.2 has, hhead.1 ha]
      · refine ⟨fun _ => ?_, fun hno => absurd (Or.inr has) hno⟩
        rw [hrest.1 has, hhead.2 ha]
      · refine ⟨fun hyes => absurd hyes (not_or.mpr ⟨ha, has⟩), fun _ => ?_⟩
        rw [hrest.2 has, hhead.2 ha]

/-- Two nested loops over a rectangle, each cell of which overwrites its own
    id. -/
theorem mTableCells_rectangle (f : Table → Int → Int → Table)
    (g : Option String → Option String) (hg : ∀ o, g (g o) = g o)
    (hf : ∀ t row col k,
      (k = calcCellId row col → (f t row col).mTableCells k = g (t.mTableCells k))
      ∧ (k ≠ calcCellId row col → (f t row col).mTableCells k = t.mTableCells k))
    (top left bottom right : Int) (k : BitVec 32) (t : Table) :
    ((∃ row ∈ Int.range top bottom, ∃ col ∈ Int.range left right, k = calcCellId row col) →
      ((Int.range top bottom).foldl
        (fun t row => (Int.range left right).foldl (fun t col => f t row col) t) t).mTableCells k
          = g (t.mTableCells k))
    ∧ ((¬∃ row ∈ Int.range top bottom, ∃ col ∈ Int.range left right, k = calcCellId row col) →
      ((Int.range top bottom).foldl
        (fun t row => (Int.range left right).foldl (fun t col => f t row col) t) t).mTableCells k
          = t.mTableCells k) :=
  mTableCells_foldl _ (fun row k => ∃ col ∈ Int.range left right, k = calcCellId row col) g hg
    (fun t row k => mTableCells_foldl (fun t col => f t row col)
      (fun col k => k = calcCellId row col) g hg (fun t col k => hf t row col k)
      (Int.range left right) k t) (Int.range top bottom) k t

/-- A place has the id of a cell of a rectangle only where it lies in the
    rectangle, if one of the two keeps to columns that are not negative. -/
theorem mem_rectangle_iff {top left bottom right row col : Int} (htop : -32768 ≤ top)
    (hleft : -32768 ≤ left) (hbottom : bottom ≤ 32768) (hright : right ≤ 32768)
    (h : Kept row col) (hpos : 0 ≤ left ∨ 0 ≤ col) :
    (∃ r ∈ Int.range top bottom, ∃ c ∈ Int.range left right, calcCellId row col = calcCellId r c)
      ↔ (top ≤ row ∧ row < bottom) ∧ left ≤ col ∧ col < right := by
  constructor
  · rintro ⟨r, hr, c, hc, heq⟩
    rw [Int.mem_range_iff] at hr hc
    have hplace : Kept r c := ⟨by omega, by omega, by omega, by omega⟩
    obtain ⟨rfl, rfl⟩ := (calcCellId_inj h hplace (by omega)).mp heq
    exact ⟨hr, hc⟩
  · rintro ⟨hr, hc⟩
    exact ⟨row, Int.mem_range_iff.mpr hr, col, Int.mem_range_iff.mpr hc, rfl⟩

/-- A new table shows nothing in its cells and has no others. -/
theorem text_createTable (mRows mCols row col : Int) (hrows : mRows ≤ 32768)
    (hcols : mCols ≤ 32768) (h : Kept row col) :
    (createTable mRows mCols).text row col
      = if (0 ≤ row ∧ row < mRows) ∧ 0 ≤ col ∧ col < mCols then some "" else none := by
  have hcells := mTableCells_rectangle (fun t row col => t.put (calcCellId row col))
    (fun _ => some "") (fun _ => rfl)
    (fun t row col k => ⟨fun hk => if_pos hk, fun hk => if_neg hk⟩) 0 0 mRows mCols
    (calcCellId row col) empty
  rw [mem_rectangle_iff (by omega) (by omega) hrows hcols h (Or.inl le_rfl)] at hcells
  split
  · exact hcells.1 ‹_›
  · exact hcells.2 ‹_›

/-- A write changes the text of its own cell, where there is one, and of no
    other. -/
theorem text_setValue (t : Table) {row col row' col' : Int} (value : String)
    (h : Kept row col) (h' : Short row' col') :
    (t.setValue row col value).text row' col'
      = if row' = row ∧ col' = col then (t.text row' col').map (fun _ => value)
        else t.text row' col' := by
  rw [text, mTableCells_setValue]
  simp only [calcCellId_inj h'.kept h (Or.inl h'.col_ge)]
  rfl

/-- A reset clears the cells of its rectangle and leaves the others. -/
theorem text_reset (t : Table) {top left bottom right row col : Int} (htop : -32768 ≤ top)
    (hleft : -32768 ≤ left) (hbottom : bottom ≤ 32768) (hright : right ≤ 32768)
    (h : Short row col) :
    (t.reset top left bottom right).text row col
      = if (top ≤ row ∧ row < bottom) ∧ left ≤ col ∧ col < right
        then (t.text row col).map (fun _ => "") else t.text row col := by
  have hcells := mTableCells_rectangle (fun t row col => t.setValue row col "")
    (Option.map fun _ => "") (fun o => by cases o <;> rfl)
    (fun t row col k => by
      rw [mTableCells_setValue]
      exact ⟨fun hk => if_pos hk, fun hk => if_neg hk⟩) top left bottom right
    (calcCellId row col) t
  rw [mem_rectangle_iff htop hleft hbottom hright h.kept (Or.inr h.col_ge)] at hcells
  split
  · exact hcells.1 ‹_›
  · exact hcells.2 ‹_›

/-! ### Sequences of calls -/

/-- A call that writes to the table. -/
inductive Call where
  | setValue (row col : Int) (value : String)
  | reset (top left bottom right : Int)
  deriving DecidableEq

/-- Every number of the call is one a `short` can hold. -/
def Call.InRange : Call → Prop
  | .setValue row col _ => (-32768 ≤ row ∧ row ≤ 32767) ∧ -32768 ≤ col ∧ col ≤ 32767
  | .reset top left bottom right => (-32768 ≤ top ∧ top ≤ 32767) ∧ (-32768 ≤ left ∧ left ≤ 32767)
      ∧ (-32768 ≤ bottom ∧ bottom ≤ 32767) ∧ -32768 ≤ right ∧ right ≤ 32767

instance (call : Call) : Decidable call.InRange := by
  cases call <;> exact instDecidableAnd

def call (t : Table) : Call → Table
  | .setValue row col value => t.setValue row col value
  | .reset top left bottom right => t.reset top left bottom right

/-- The table after a sequence of calls on a new one. -/
def after (mRows mCols : Int) (calls : List Call) : Table :=
  calls.foldl call (createTable mRows mCols)

/-- What the call writes at a place of a two-dimensional array, if it writes
    there. -/
def Call.writes : Call → Int → Int → Option String
  | .setValue row col value, r, c => if r = row ∧ c = col then some value else none
  | .reset top left bottom right, r, c =>
      if (top ≤ r ∧ r < bottom) ∧ left ≤ c ∧ c < right then some "" else none

/-- The value last written at a place, which is empty before the first write. -/
def lastWritten (calls : List Call) (row col : Int) : String :=
  ((calls.filterMap fun call => call.writes row col).getLast?).getD ""

theorem text_call (t : Table) {c : Call} (hc : c.InRange) {row col : Int} (h : Short row col) :
    (t.call c).text row col
      = (t.text row col).map fun old => (c.writes row col).getD old := by
  cases c with
  | setValue r k value =>
      obtain ⟨hr, hk⟩ := hc
      rw [call, text_setValue t value ⟨hr.1, by omega, hk.1, by omega⟩ h, Call.writes]
      split
      · rfl
      · exact Option.map_id'.symm
  | reset top left bottom right =>
      obtain ⟨htop, hleft, hbottom, hright⟩ := hc
      rw [call, text_reset t htop.1 hleft.1 (by omega) (by omega) h, Call.writes]
      split
      · rfl
      · exact Option.map_id'.symm

/-- No call adds a cell. -/
theorem mTableCells_call_none (t : Table) (c : Call) {k : BitVec 32}
    (hk : t.mTableCells k = none) : (t.call c).mTableCells k = none := by
  have hset : ∀ (t : Table) (row col : Int) (value : String), t.mTableCells k = none →
      (t.setValue row col value).mTableCells k = none := by
    intro t row col value ht
    rw [mTableCells_setValue, ht, Option.map_none, ite_self]
  cases c with
  | setValue row col value => exact hset t row col value hk
  | reset top left bottom right =>
      refine List.foldlRecOn (motive := fun t : Table => t.mTableCells k = none) _ _ hk ?_
      intro t ht row _
      refine List.foldlRecOn (motive := fun t : Table => t.mTableCells k = none) _ _ ht ?_
      exact fun t ht col _ => hset t row col "" ht

/-- A cell shows what was last written to it, whatever the table showed before. -/
theorem text_foldl_call {row col : Int} (h : Short row col) (calls : List Call)
    (hcalls : ∀ c ∈ calls, c.InRange) :
    ∀ (t : Table) (old : String), t.text row col = some old →
      (calls.foldl call t).text row col
        = some (((calls.filterMap fun c => c.writes row col).getLast?).getD old) := by
  induction calls with
  | nil => exact fun t old ht => ht
  | cons c calls ih =>
      intro t old ht
      have hstep : (t.call c).text row col = some ((c.writes row col).getD old) := by
        rw [text_call t (hcalls c List.mem_cons_self) h, ht, Option.map_some]
      rw [List.foldl_cons, ih (fun c' hc' => hcalls c' (List.mem_cons_of_mem c hc')) _ _ hstep,
        List.filterMap_cons]
      cases c.writes row col with
      | none => rfl
      | some value => simp only [Option.getD_some, List.getLast?_cons]

/-- Every cell of a table that has been written to is a cell it was made with. -/
theorem mTableCells_after (mRows mCols : Int) (calls : List Call) (k : BitVec 32)
    (hk : ∀ row col, (0 ≤ row ∧ row < mRows) → (0 ≤ col ∧ col < mCols) → k ≠ calcCellId row col) :
    (after mRows mCols calls).mTableCells k = none := by
  have hnew : (createTable mRows mCols).mTableCells k = none := by
    refine (mTableCells_rectangle (fun t row col => t.put (calcCellId row col))
      (fun _ => some "") (fun _ => rfl)
      (fun t row col k => ⟨fun hk => if_pos hk, fun hk => if_neg hk⟩) 0 0 mRows mCols k
      empty).2 ?_
    rintro ⟨row, hrow, col, hcol, heq⟩
    exact hk row col (Int.mem_range_iff.mp hrow) (Int.mem_range_iff.mp hcol) heq
  exact List.foldlRecOn (motive := fun t : Table => t.mTableCells k = none) calls call hnew
    fun t ht c _ => mTableCells_call_none t c ht

/-- A table is a two-dimensional array. After any calls with numbers a `short`
    can hold, every cell shows the value last written to it, a call that writes
    to no cell of the table changes nothing, and a cell changes only by a call
    that writes to it. -/
theorem after_is_array (mRows mCols : Int) (hrows : 1 ≤ mRows ∧ mRows ≤ 32768)
    (hcols : 1 ≤ mCols ∧ mCols ≤ 32768) (calls : List Call) (hcalls : ∀ c ∈ calls, c.InRange) :
    (∀ row col, 0 ≤ row ∧ row < mRows → 0 ≤ col ∧ col < mCols →
      (after mRows mCols calls).text row col = some (lastWritten calls row col))
    ∧ ∀ c : Call, c.InRange →
      ((∀ row col, 0 ≤ row ∧ row < mRows → 0 ≤ col ∧ col < mCols → c.writes row col = none) →
        (after mRows mCols calls).call c = after mRows mCols calls)
      ∧ ∀ row col, 0 ≤ row ∧ row < mRows → 0 ≤ col ∧ col < mCols → c.writes row col = none →
        ((after mRows mCols calls).call c).text row col
          = (after mRows mCols calls).text row col := by
  have hplace : ∀ row col : Int, 0 ≤ row ∧ row < mRows → 0 ≤ col ∧ col < mCols → Short row col :=
    fun row col hr hc => ⟨by omega, by omega, hc.1, by omega⟩
  have hkeep : ∀ c : Call, c.InRange → ∀ row col, 0 ≤ row ∧ row < mRows → 0 ≤ col ∧ col < mCols →
      c.writes row col = none → ((after mRows mCols calls).call c).text row col
        = (after mRows mCols calls).text row col := by
    intro c hc row col hrow hcol hnone
    rw [text_call _ hc (hplace row col hrow hcol), hnone]
    exact Option.map_id'
  refine ⟨?_, fun c hc => ⟨fun hnone => ?_, hkeep c hc⟩⟩
  · intro row col hrow hcol
    refine text_foldl_call (hplace row col hrow hcol) calls hcalls _ "" ?_
    rw [text_createTable mRows mCols row col hrows.2 hcols.2 (hplace row col hrow hcol).kept,
      if_pos ⟨hrow, hcol⟩]
  · rw [Table.mk.injEq]
    funext k
    by_cases hk : ∃ row col, (0 ≤ row ∧ row < mRows) ∧ (0 ≤ col ∧ col < mCols)
        ∧ k = calcCellId row col
    · obtain ⟨row, col, hrow, hcol, rfl⟩ := hk
      exact hkeep c hc row col hrow hcol (hnone row col hrow hcol)
    · have hout : (after mRows mCols calls).mTableCells k = none :=
        mTableCells_after mRows mCols calls k
          fun row col hrow hcol heq => hk ⟨row, col, hrow, hcol, heq⟩
      rw [hout, mTableCells_call_none _ c hout]

/-- A column of minus one, whose id has the row covered, writes nowhere. -/
theorem after_is_array_negative_column :
    (after 2 2 [.setValue 0 1 "a", .setValue 0 (-1) "b", .reset (-5) (-1) 1 1]).text 0 1
      = some (lastWritten
          [.setValue 0 1 "a", .setValue 0 (-1) "b", .reset (-5) (-1) 1 1] 0 1) :=
  (after_is_array 2 2 (by decide) (by decide)
    [.setValue 0 1 "a", .setValue 0 (-1) "b", .reset (-5) (-1) 1 1] (by decide)).1 0 1
    (by decide) (by decide)

end Table

end NetProbe
