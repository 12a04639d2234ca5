import NetProbe.Lib.ListHeap
import NetProbe.Lib.Machine
import NetProbe.Common.Qid

/-!
# The Data Cache

`DataCache` holds two maps from query ids: one to numbers, one to objects that
may be lists. The indexed reads go to the second map and into the list they
find there. The indexed writes do not: only the one for `byte` does, the other
four put the value into the first map and never look at the index.

A snapshot copies both maps one level deep, so it shares the list objects with
the cache it was taken of. Lists are therefore references into a heap, as
`ListHeap` has them, and a cache by itself is two maps of values and references.

Two properties are settled here. A snapshot keeps its answers throughout
exactly if no indexed write of a `byte` changes a list that it shares
(`snapshot_isolated_iff`). An indexed write stores its value and touches nothing
else exactly if it is the one for `byte` on a list that no other key holds, or
if there was nothing to store (`putAt_stores_iff`).

## Main definitions

* `Obj`, `DataCache`: What a cache holds.
* `get`, `getAt`, `getNumber`, `getNumberAt`: The four reads.
* `Memory`, `Call`, `call`: The live cache with the heap, and a call on it.
* `Answers`: A cache answers every read in one heap as in another.
* `Spares`: A call that changes no list of a snapshot.
* `Stores`: An indexed write has stored its value and nothing else.

## Theorems

* `answers_iff`: What a cache answers is decided by the lists it holds.
* `snapshot_isolated_iff`: When the answers of a snapshot stay.
* `putAt_stores_iff`: When an indexed write is one.
-/

namespace NetProbe

/-- What an entry of `mCacheObject`, or an element of a list in it, refers to. -/
inductive Obj where
  | number (n : Number)
  | list (r : Nat)
  | other (id : Nat)
  deriving DecidableEq, Repr

/-- The two maps. A missing entry and a null one answer alike. -/
structure DataCache where
  mCacheObject : Qid → Option Obj
  mCacheNum : Qid → Option Number

namespace DataCache

/-- The list objects; an element may be null. -/
abbrev Heap := ListHeap (Option Obj)

/-- `new DataCache()`. -/
def empty : DataCache where
  mCacheObject := fun _ => none
  mCacheNum := fun _ => none

/-- `map.putAll(other)`. -/
def putAll {β : Type} (map other : Qid → Option β) : Qid → Option β :=
  fun k => match other k with
    | some v => some v
    | none => map k

def getSnapshot (c : DataCache) : DataCache where
  mCacheNum := putAll empty.mCacheNum c.mCacheNum
  mCacheObject := putAll empty.mCacheObject c.mCacheObject

/-- `get(k)`. -/
def get (c : DataCache) (k : Qid) : Option Obj := c.mCacheObject k

/-- `get(k, i)`. -/
def getAt (c : DataCache) (heap : Heap) (k : Qid) (i : Int) : Except JavaException (Option Obj) :=
  match c.get k with
  | none => .ok none
  | some (.list r) => heap.read r i
  | some _ => .error .classCast

/-- `getNumber(k)`. -/
def getNumber (c : DataCache) (k : Qid) : Option Number := c.mCacheNum k

/-- The cast of a list element to `Number`, which null passes. -/
def castNumber : Option Obj → Except JavaException (Option Number)
  | none => .ok none
  | some (.number n) => .ok (some n)
  | some _ => .error .classCast

/-- `getNumber(k, i)`. -/
def getNumberAt (c : DataCache) (heap : Heap) (k : Qid) (i : Int) :
    Except JavaException (Option Number) :=
  match c.get k with
  | none => .ok none
  | some (.list r) => (heap.read r i).bind castNumber
  | some _ => .error .classCast

/-- `mCacheNum.put(k, v)`. -/
def putNumber (c : DataCache) (k : Qid) (v : Number) : DataCache :=
  { c with mCacheNum := Function.update c.mCacheNum k (some v) }

end DataCache

/-- The live cache, a snapshot taken of it, and the list objects. -/
structure Memory where
  live : DataCache
  snapshot : DataCache
  heap : DataCache.Heap

namespace Memory

open DataCache Machine

/-- The memory right after `s = getSnapshot()`. -/
def taken (live : DataCache) (heap : Heap) : Memory where
  live := live
  snapshot := live.getSnapshot
  heap := heap

/-- A call on the live cache. The type of a number chooses the overload. -/
inductive Call where
  | put (k : Qid) (v : Option Obj)
  | putNumber (k : Qid) (v : Number)
  | putAt (k : Qid) (v : Number) (i : Int)
  | clear
  | release
  deriving DecidableEq, Repr

/-- `put(k, v, i)` for a `byte`. -/
def putByteAt (m : Memory) (k : Qid) (v : Int) (i : Int) : Outcome Memory :=
  match m.live.mCacheObject k with
  | none => .returned m
  | some (.list r) =>
      match m.heap.write r i (some (.number (.byte v))) with
      | .ok heap => .returned { m with heap := heap }
      | .error e => .threw e m
  | some _ => .threw .classCast m

/-- `put(k, v, i)`, the five overloads. -/
def putAt (m : Memory) (k : Qid) (v : Number) (i : Int) : Outcome Memory :=
  match v with
  | .byte b => m.putByteAt k b i
  -- These put the value where `put(k, v)` does.
  | .short _ => .returned { m with live := m.live.putNumber k v }
  | .int _ => .returned { m with live := m.live.putNumber k v }
  | .long _ => .returned { m with live := m.live.putNumber k v }
  | .float _ => .returned { m with live := m.live.putNumber k v }

def call (m : Memory) : Call → Outcome Memory
  | .put k v => .returned { m with
      live := { m.live with mCacheObject := Function.update m.live.mCacheObject k v } }
  | .putNumber k v => .returned { m with live := m.live.putNumber k v }
  | .putAt k v i => m.putAt k v i
  | .clear => .returned { m with live := empty }
  -- `release` also gives up the singleton, which this object does not see.
  | .release => .returned { m with live := empty }

/-- Calls follow one another, also after one that threw. -/
def step (m : Memory) (c : Call) : Option Memory := some (m.call c).state

/-- What a call does to the lists and to the snapshot: only a `byte` that finds
    a list of the right length is written. -/
inductive Touched (m : Memory) : Call → Memory → Prop where
  | nothing {c : Call} {m' : Memory} (hsnapshot : m'.snapshot = m.snapshot)
      (hheap : m'.heap = m.heap)
      (hmiss : ∀ k b i r, c = .putAt k (.byte b) i → m.live.mCacheObject k = some (.list r) →
        ¬ (0 ≤ i ∧ i.toNat < (m.heap r).length)) : Touched m c m'
  | element (k : Qid) (b i : Int) (r : Nat) (hentry : m.live.mCacheObject k = some (.list r))
      (hlo : 0 ≤ i) (hhi : i.toNat < (m.heap r).length) :
      Touched m (.putAt k (.byte b) i) { m with
        heap := Function.update m.heap r ((m.heap r).set i.toNat (some (.number (.byte b)))) }

theorem putByteAt_touched (m : Memory) (k : Qid) (b i : Int) :
    Touched m (.putAt k (.byte b) i) (m.putByteAt k b i).state := by
  unfold putByteAt
  rcases hentry : m.live.mCacheObject k with _ | n | r | id
  · refine .nothing rfl rfl (fun k' b' i' r' heq hr' => ?_)
    obtain ⟨rfl, -, -⟩ := Call.putAt.inj heq
    exact absurd (hentry.symm.trans hr') (by simp only [reduceCtorEq, not_false_eq_true])
  · refine .nothing rfl rfl (fun k' b' i' r' heq hr' => ?_)
    obtain ⟨rfl, -, -⟩ := Call.putAt.inj heq
    exact absurd (hentry.symm.trans hr')
      (by simp only [Option.some.injEq, reduceCtorEq, not_false_eq_true])
  · by_cases hin : 0 ≤ i ∧ i.toNat < (m.heap r).length
    · simp only [ListHeap.write_ok m.heap (some (.number (.byte b))) hin.1 hin.2,
        Outcome.state_returned]
      exact .element k b i r hentry hin.1 hin.2
    -- The index is outside the list and `set` throws.
    · have herror : m.heap.write r i (some (.number (.byte b))) = .error .indexOutOfBounds := by
        unfold ListHeap.write
        rw [if_neg hin]
      simp only [herror, Outcome.state_threw]
      refine .nothing rfl rfl (fun k' b' i' r' heq hr' => ?_)
      obtain ⟨rfl, -, rfl⟩ := Call.putAt.inj heq
      rw [hentry, Option.some.injEq, Obj.list.injEq] at hr'
      rw [← hr']
      exact hin
  · refine .nothing rfl rfl (fun k' b' i' r' heq hr' => ?_)
    obtain ⟨rfl, -, -⟩ := Call.putAt.inj heq
    exact absurd (hentry.symm.trans hr')
      (by simp only [Option.some.injEq, reduceCtorEq, not_false_eq_true])

theorem call_touched (m : Memory) (c : Call) : Touched m c (m.call c).state := by
  cases c with
  | putAt k v i =>
      cases v with
      | byte b => exact putByteAt_touched m k b i
      | _ => exact .nothing rfl rfl nofun
  | _ => exact .nothing rfl rfl nofun

/-- One of these keys holds the list. -/
def Holds (c : DataCache) (keys : Qid → Prop) (r : Nat) : Prop :=
  ∃ k, keys k ∧ c.mCacheObject k = some (.list r)

/-- What the indexed reads of some keys answer is decided by the lists these
    keys hold. -/
theorem reads_iff (c : DataCache) (keys : Qid → Prop) (heap heap' : Heap) :
    (∀ k, keys k → ∀ i, c.getAt heap' k i = c.getAt heap k i ∧
      c.getNumberAt heap' k i = c.getNumberAt heap k i) ↔
      ListHeap.AgreeOn (Holds c keys) heap heap' := by
  constructor
  · intro hall
    rw [ListHeap.agreeOn_iff_read]
    rintro r ⟨k, hk, hentry⟩ i
    have hread := (hall k hk i).1
    simp only [getAt, DataCache.get, hentry] at hread
    exact hread
  · intro hagree k hk i
    unfold getAt getNumberAt
    rcases hentry : c.get k with _ | n | r | id
    · exact ⟨rfl, rfl⟩
    · exact ⟨rfl, rfl⟩
    · have hread := ListHeap.read_congr (hagree r ⟨k, hk, hentry⟩) i
      simp only [hread, and_self]
    · exact ⟨rfl, rfl⟩

/-- Every read of the snapshot answers in `t` as it did in `m`. -/
def Answers (m t : Memory) : Prop :=
  ∀ k, t.snapshot.get k = m.snapshot.get k ∧ t.snapshot.getNumber k = m.snapshot.getNumber k ∧
    ∀ i, t.snapshot.getAt t.heap k i = m.snapshot.getAt m.heap k i ∧
      t.snapshot.getNumberAt t.heap k i = m.snapshot.getNumberAt m.heap k i

/-- The maps of a snapshot are its own, so its answers are decided by the lists
    it holds. -/
theorem answers_iff {m t : Memory} (h : t.snapshot = m.snapshot) :
    Answers m t ↔ ListHeap.AgreeOn (Holds m.snapshot (fun _ => True)) m.heap t.heap := by
  rw [← reads_iff]
  unfold Answers
  rw [h]
  exact ⟨fun hall k _ => (hall k).2.2, fun hall k => ⟨rfl, rfl, hall k trivial⟩⟩

/-- The call is no indexed write of a `byte` into a list that the snapshot
    holds, or it writes what is there. -/
def Spares (snapshot : DataCache) (m : Memory) : Call → Prop
  | .putAt k (.byte b) i => ∀ r, m.live.mCacheObject k = some (.list r) →
      (∃ k', snapshot.mCacheObject k' = some (.list r)) → 0 ≤ i → i.toNat < (m.heap r).length →
        (m.heap r)[i.toNat]? = some (some (.number (.byte b)))
  | _ => True

/-- A call keeps the answers of the snapshot exactly if it spares its lists. -/
theorem step_answers {m t t' : Memory} {c : Call} (hsnapshot : t.snapshot = m.snapshot)
    (ht : Answers m t) (h : t.step c = some t') :
    t'.snapshot = m.snapshot ∧ (Answers m t' ↔ Spares m.snapshot t c) := by
  rw [answers_iff hsnapshot] at ht
  have htouched := call_touched t c
  rw [Option.some.inj h] at htouched
  cases htouched with
  | nothing hsame hheap hmiss =>
      have hsnapshot' := hsame.trans hsnapshot
      refine ⟨hsnapshot', ?_⟩
      rw [answers_iff hsnapshot', hheap]
      refine ⟨fun _ => ?_, fun _ => ht⟩
      unfold Spares
      split
      · rename_i k b i
        intro r hr _ hlo hhi
        exact absurd ⟨hlo, hhi⟩ (hmiss k b i r rfl hr)
      · trivial
  | element k b i r hentry hlo hhi =>
      refine ⟨hsnapshot, (answers_iff ?_).trans ((ListHeap.agreeOn_write_iff ht hhi).trans ?_)⟩
      · exact hsnapshot
      unfold Spares
      constructor
      · rintro hkept r' hr' ⟨k', hk'⟩ _ _
        obtain rfl : r = r' := Obj.list.inj (Option.some.inj (hentry.symm.trans hr'))
        exact hkept ⟨k', trivial, hk'⟩
      · rintro hspares ⟨k', -, hk'⟩
        exact hspares r hentry ⟨k', hk'⟩ hlo hhi

/-- After any sequence of calls on the live cache, and at every point of it,
    every read of a snapshot answers as it did when the snapshot was taken,
    exactly if every call of the sequence spares the lists of the snapshot. -/
theorem snapshot_isolated_iff (live : DataCache) (heap : Heap) (calls : List Call) :
    Throughout step (Answers (taken live heap)) (taken live heap) calls ↔
      Along step (Spares live.getSnapshot) (taken live heap) calls := by
  obtain ⟨t, ht⟩ : ∃ t, exec step (taken live heap) calls = some t := by
    generalize taken live heap = m
    induction calls generalizing m with
    | nil => exact ⟨m, rfl⟩
    | cons c calls ih => exact ih (m.call c).state
  exact throughout_iff_along step (Spares live.getSnapshot)
    (fun t => t.snapshot = (taken live heap).snapshot) (Answers (taken live heap))
    (fun _ _ _ hI hP _ hstep => (step_answers hI hP hstep).1)
    (fun _ _ _ hI hP hstep => (step_answers hI hP hstep).2) calls _ t rfl
    (fun _ => ⟨rfl, rfl, fun _ => ⟨rfl, rfl⟩⟩) ht

/-- Two lists, each a list of two bytes. -/
def twoBytes : Heap := fun _ => [some (.number (.byte 1)), some (.number (.byte 2))]

/-- A cache with one list, as a `put` leaves it. -/
def oneList : DataCache :=
  { empty with
    mCacheObject := Function.update empty.mCacheObject .gsmNeighbourArfcn (some (.list 0)) }

/-- A `byte` written into the live cache shows in the snapshot. -/
theorem snapshot_shares_list :
    ∃ t ∈ exec step (taken oneList twoBytes) [.putAt .gsmNeighbourArfcn (.byte 9) 0],
      oneList.getSnapshot.getNumberAt twoBytes .gsmNeighbourArfcn 0 = .ok (some (.byte 1)) ∧
      t.snapshot.getNumberAt t.heap .gsmNeighbourArfcn 0 = .ok (some (.byte 9)) :=
  ⟨_, rfl, rfl, rfl⟩

/-- `put(k, v, i)` has stored `v` at index `i` of the list under `k`, and no
    other read has changed. -/
structure Stores (m m' : Memory) (k : Qid) (v : Number) (i : Int) : Prop where
  stored : m'.live.getNumberAt m'.heap k i = .ok (some v)
  indices : ∀ j, j ≠ i → m'.live.getNumberAt m'.heap k j = m.live.getNumberAt m.heap k j
  scalar : m'.live.getNumber k = m.live.getNumber k
  entries : ∀ k', k' ≠ k → m'.live.get k' = m.live.get k' ∧
    m'.live.getNumber k' = m.live.getNumber k'
  keys : ∀ k', k' ≠ k → ∀ j, m'.live.getAt m'.heap k' j = m.live.getAt m.heap k' j ∧
    m'.live.getNumberAt m'.heap k' j = m.live.getNumberAt m.heap k' j

section Indexed

variable {m : Memory} {k : Qid} {r : Nat} {i : Int}

/-- An indexed read finds a number exactly if it is the element. -/
theorem getNumberAt_iff (c : DataCache) (heap : Heap) {v : Number}
    (hentry : c.mCacheObject k = some (.list r)) (hlo : 0 ≤ i) (hhi : i.toNat < (heap r).length) :
    c.getNumberAt heap k i = .ok (some v) ↔ (heap r)[i.toNat]? = some (some (.number v)) := by
  unfold getNumberAt
  simp only [DataCache.get, hentry, ListHeap.read, if_neg (Int.not_lt.mpr hlo)]
  rw [List.getElem?_eq_getElem hhi]
  rcases (heap r)[i.toNat] with _ | n | r' | id
  · simp [Except.bind, castNumber]
  · simp [Except.bind, castNumber]
  · simp [Except.bind, castNumber]
  · simp [Except.bind, castNumber]

/-- The overload for `byte` stores its value, and disturbs the other keys that
    hold the same list. -/
theorem putByteAt_stores_iff (hentry : m.live.mCacheObject k = some (.list r)) (hlo : 0 ≤ i)
    (hhi : i.toNat < (m.heap r).length) (b : Int) :
    Stores m (m.putByteAt k b i).state k (.byte b) i ↔
      ((∃ k', k' ≠ k ∧ m.live.mCacheObject k' = some (.list r)) →
        (m.heap r)[i.toNat]? = some (some (.number (.byte b)))) := by
  have hstate : (m.putByteAt k b i).state = { m with
      heap := Function.update m.heap r ((m.heap r).set i.toNat (some (.number (.byte b)))) } := by
    unfold putByteAt
    simp only [hentry, ListHeap.write_ok m.heap _ hlo hhi, Outcome.state_returned]
  have hself : ListHeap.AgreeOn (Holds m.live (fun k' => k' ≠ k)) m.heap m.heap := fun _ _ => rfl
  have hothers := (reads_iff m.live (fun k' => k' ≠ k) m.heap _).trans
    (ListHeap.agreeOn_write_iff (a := some (.number (.byte b))) hself hhi)
  rw [hstate]
  constructor
  · intro hstores hshared
    exact hothers.mp hstores.keys hshared
  · intro hkept
    refine ⟨?_, fun j hj => ?_, rfl, fun _ _ => ⟨rfl, rfl⟩, hothers.mpr hkept⟩
    · unfold getNumberAt
      simp only [DataCache.get, hentry, ListHeap.read_write_self m.heap _ hlo hhi]
      rfl
    · unfold getNumberAt
      simp only [DataCache.get, hentry, ListHeap.read_write_other m.heap _ hlo hj]

/-- A value put into the other map is stored exactly if it was there, in both
    places. -/
theorem putNumber_stores_iff (hentry : m.live.mCacheObject k = some (.list r)) (hlo : 0 ≤ i)
    (hhi : i.toNat < (m.heap r).length) (v : Number) :
    Stores m { m with live := m.live.putNumber k v } k v i ↔
      (m.heap r)[i.toNat]? = some (some (.number v)) ∧ m.live.mCacheNum k = some v := by
  have hread := getNumberAt_iff (m.live.putNumber k v) m.heap (v := v) hentry hlo hhi
  have hscalar : (m.live.putNumber k v).getNumber k = some v := Function.update_self k _ _
  constructor
  · intro hstores
    exact ⟨hread.mp hstores.stored, hstores.scalar.symm.trans hscalar⟩
  · rintro ⟨hold, hnum⟩
    refine ⟨hread.mpr hold, fun _ _ => rfl, hscalar.trans hnum.symm, fun k' hk' => ⟨rfl, ?_⟩,
      fun _ _ _ => ⟨rfl, rfl⟩⟩
    exact Function.update_of_ne hk' _ _

/-- On a list under `k`, at an index of it, `put(k, v, i)` stores `v` and leaves
    every other read alone exactly if `v` is a `byte` and no other key holds the
    list, or `v` was there already and, unless it is a `byte`, under `k` in the
    other map too. -/
theorem putAt_stores_iff (m : Memory) (k : Qid) (r : Nat) (v : Number) (i : Int)
    (hentry : m.live.mCacheObject k = some (.list r)) (hlo : 0 ≤ i)
    (hhi : i.toNat < (m.heap r).length) :
    Stores m (m.putAt k v i).state k v i ↔
      ((∃ b, v = .byte b) ∧ ∀ k', k' ≠ k → m.live.mCacheObject k' ≠ some (.list r)) ∨
      ((m.heap r)[i.toNat]? = some (some (.number v)) ∧
        ((∃ b, v = .byte b) ∨ m.live.mCacheNum k = some v)) := by
  cases v with
  | byte b =>
      refine (putByteAt_stores_iff hentry hlo hhi b).trans ?_
      constructor
      · intro hkept
        by_cases hshared : ∃ k', k' ≠ k ∧ m.live.mCacheObject k' = some (.list r)
        · exact .inr ⟨hkept hshared, .inl ⟨b, rfl⟩⟩
        · exact .inl ⟨⟨b, rfl⟩, fun k' hk' hr => hshared ⟨k', hk', hr⟩⟩
      · rintro (⟨-, halone⟩ | ⟨hold, -⟩) ⟨k', hk', hr⟩
        · exact absurd hr (halone k' hk')
        · exact hold
  | _ =>
      refine (putNumber_stores_iff hentry hlo hhi _).trans ?_
      simp only [reduceCtorEq, exists_false, false_and, false_or]

end Indexed

/-- A `byte` goes into a list of its own. -/
theorem putAt_stores_byte :
    Stores (taken oneList twoBytes)
      ((taken oneList twoBytes).putAt .gsmNeighbourArfcn (.byte 9) 1).state
      .gsmNeighbourArfcn (.byte 9) 1 := by
  refine (putAt_stores_iff (taken oneList twoBytes) .gsmNeighbourArfcn 0 (.byte 9) 1 rfl
    (by decide) (by decide)).mpr (.inl ⟨⟨9, rfl⟩, fun k' hk' => ?_⟩)
  have hnone : (taken oneList twoBytes).live.mCacheObject k' = none :=
    Function.update_of_ne hk' _ _
  rw [hnone]
  exact (Option.some_ne_none _).symm

/-- A `short` does not reach the list: it shows under the key itself, where
    there was nothing. -/
theorem putAt_short_elsewhere :
    (taken oneList twoBytes).live.getNumber .gsmNeighbourArfcn = none ∧
    ((taken oneList twoBytes).putAt .gsmNeighbourArfcn (.short 9) 1).state.live.getNumberAt
      twoBytes .gsmNeighbourArfcn 1 = .ok (some (.byte 2)) ∧
    ((taken oneList twoBytes).putAt .gsmNeighbourArfcn (.short 9) 1).state.live.getNumber
      .gsmNeighbourArfcn = some (.short 9) :=
  ⟨rfl, rfl, rfl⟩

end Memory

end NetProbe
