import NetProbe.Lib.Outcome
import Mathlib.Logic.Function.Basic

/-!
# Lists in a Heap

Mutable list objects named by references, with the two calls that look at an
index: `list.get(i)` and `list.set(i, v)`. A map that is copied one level deep
copies references, so what its entries show is decided here and not in the map.

`AgreeOn` compares two heaps on some of the lists. It is what a holder of
references can tell: `agreeOn_iff_read` says that the heaps agree on a set of
lists exactly if every read of these lists answers the same. `agreeOn_write_iff`
says when a write can be told.

## Main definitions

* `ListHeap`: The contents of the list objects, by reference.
* `read`, `write`: `list.get(i)` and `list.set(i, v)`.
* `AgreeOn`: Two heaps with the same contents for some of the lists.

## Theorems

* `read_write_self`, `read_write_other`: Reading after a write.
* `agreeOn_iff_read`: Agreeing is answering every read alike.
* `agreeOn_write_iff`: A write is seen exactly if it changes a list looked at.
-/

namespace NetProbe

variable {α : Type}

/-- The contents of the list objects. -/
abbrev ListHeap (α : Type) := Nat → List α

namespace ListHeap

/-- `list.get(i)`. -/
def read (h : ListHeap α) (r : Nat) (i : Int) : Except JavaException α :=
  if i < 0 then .error .indexOutOfBounds
  else match (h r)[i.toNat]? with
    | some a => .ok a
    | none => .error .indexOutOfBounds

/-- `list.set(i, a)`. -/
def write (h : ListHeap α) (r : Nat) (i : Int) (a : α) : Except JavaException (ListHeap α) :=
  if 0 ≤ i ∧ i.toNat < (h r).length then .ok (Function.update h r ((h r).set i.toNat a))
  else .error .indexOutOfBounds

/-- The two heaps have the same contents for these lists. -/
def AgreeOn (P : Nat → Prop) (h h' : ListHeap α) : Prop := ∀ r, P r → h' r = h r

theorem read_natCast (h : ListHeap α) (r i : Nat) :
    h.read r i = match (h r)[i]? with
      | some a => .ok a
      | none => .error .indexOutOfBounds := by
  unfold read
  rw [if_neg (by omega), Int.toNat_natCast]

/-- A read is decided by the list it reads. -/
theorem read_congr {h h' : ListHeap α} {r : Nat} (heq : h' r = h r) (i : Int) :
    h'.read r i = h.read r i := by
  unfold read
  rw [heq]

theorem write_ok (h : ListHeap α) {r : Nat} {i : Int} (a : α) (hlo : 0 ≤ i)
    (hhi : i.toNat < (h r).length) :
    h.write r i a = .ok (Function.update h r ((h r).set i.toNat a)) := by
  unfold write
  rw [if_pos ⟨hlo, hhi⟩]

theorem read_write_self (h : ListHeap α) {r : Nat} {i : Int} (a : α) (hlo : 0 ≤ i)
    (hhi : i.toNat < (h r).length) :
    read (Function.update h r ((h r).set i.toNat a)) r i = .ok a := by
  unfold read
  rw [if_neg (by omega), Function.update_self, List.getElem?_set_self hhi]

theorem read_write_other (h : ListHeap α) {r : Nat} {i j : Int} (a : α) (hlo : 0 ≤ i)
    (hij : j ≠ i) : read (Function.update h r ((h r).set i.toNat a)) r j = h.read r j := by
  unfold read
  by_cases hj : j < 0
  · rw [if_pos hj, if_pos hj]
  · rw [if_neg hj, if_neg hj, Function.update_self, List.getElem?_set_ne (by omega)]

/-- Lists that answer every read alike are equal. -/
theorem eq_of_read {h h' : ListHeap α} {r : Nat} (hread : ∀ i, h'.read r i = h.read r i) :
    h' r = h r := by
  apply List.ext_getElem?
  intro i
  have hi := hread i
  rw [read_natCast, read_natCast] at hi
  rcases hnew : (h' r)[i]? with _ | a
  · rcases hold : (h r)[i]? with _ | b
    · rfl
    · rw [hnew, hold] at hi
      exact absurd hi (by simp only [reduceCtorEq, not_false_eq_true])
  · rcases hold : (h r)[i]? with _ | b
    · rw [hnew, hold] at hi
      exact absurd hi (by simp only [reduceCtorEq, not_false_eq_true])
    · rw [hnew, hold] at hi
      rw [Except.ok.inj hi]

theorem agreeOn_iff_read {P : Nat → Prop} {h h' : ListHeap α} :
    AgreeOn P h h' ↔ ∀ r, P r → ∀ i, h'.read r i = h.read r i :=
  ⟨fun hagree r hr i => read_congr (hagree r hr) i, fun hread r hr => eq_of_read (hread r hr)⟩

/-- A write is seen exactly if the list is looked at and the element was
    another one. -/
theorem agreeOn_write_iff {P : Nat → Prop} {h h' : ListHeap α} {r : Nat} {i : Int} {a : α}
    (hagree : AgreeOn P h h') (hhi : i.toNat < (h' r).length) :
    AgreeOn P h (Function.update h' r ((h' r).set i.toNat a)) ↔
      (P r → (h' r)[i.toNat]? = some a) := by
  constructor
  · intro hafter hr
    have hsame := (hafter r hr).trans (hagree r hr).symm
    rw [Function.update_self] at hsame
    rw [← hsame, List.getElem?_set_self hhi]
  · intro hkept r' hr'
    by_cases heq : r' = r
    · subst heq
      rw [Function.update_self, ← hagree r' hr']
      -- The element written is the one that was there.
      obtain ⟨hlt, hget⟩ := List.getElem?_eq_some_iff.mp (hkept hr')
      rw [← hget, List.set_getElem_self]
    · rw [Function.update_of_ne heq]
      exact hagree r' hr'

end ListHeap

end NetProbe
