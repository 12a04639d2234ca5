import Mathlib.Data.List.Basic

/-!
# Segmented Logs

A log kept in segments, the oldest first. A writer appends to the newest
segment and may start a new one at any time; the older ones are closed and
never change again. The segments together are everything ever written, in
order, whether or not they are still stored anywhere.

A reader that goes through the log segment by segment stands at a position
inside a segment, and `upTo` is what lies before it. Writing does not change
that (`upTo_append`, `upTo_rotate`), reading on extends it (`upTo_add`), and
the end of a segment is the beginning of the next (`upTo_succ`).

## Main definitions

* `append`, `rotate`: The two moves of the writer.
* `segment`: The contents of a segment.
* `upTo`: Everything before a position of a segment.

## Theorems

* `segment_prefix_append`, `segment_append_closed`: Segments grow, and closed
  ones do not.
* `upTo_append`, `upTo_rotate`: Writing keeps what lies before a position.
* `upTo_add`, `upTo_succ`: How a reader moves on.
* `upTo_le`: What lies before a position is a prefix of the log.
-/

namespace NetProbe

namespace SegmentedLog

variable {α : Type}

/-- Append to the newest segment. -/
def append (log : List (List α)) (xs : List α) : List (List α) :=
  log.modify (log.length - 1) (· ++ xs)

/-- Close the newest segment and start another. -/
def rotate (log : List (List α)) : List (List α) := log ++ [[]]

/-- The contents of segment `k`. -/
def segment (log : List (List α)) (k : Nat) : List α := log[k]?.getD []

/-- Everything before position `p` of segment `k`. -/
def upTo (log : List (List α)) (k p : Nat) : List α :=
  (log.take k).flatten ++ (segment log k).take p

@[simp] theorem length_append (log : List (List α)) (xs : List α) :
    (append log xs).length = log.length := List.length_modify _ _ _

@[simp] theorem length_rotate (log : List (List α)) : (rotate log).length = log.length + 1 := by
  unfold rotate
  rw [List.length_append, List.length_singleton]

theorem take_append {log : List (List α)} {k : Nat} (xs : List α) (hk : k ≤ log.length - 1) :
    (append log xs).take k = log.take k := by
  apply List.ext_getElem?
  intro i
  rw [List.getElem?_take, List.getElem?_take]
  -- Below `k` is below the newest segment.
  by_cases hi : i < k
  · rw [if_pos hi, if_pos hi]
    unfold append
    rw [List.getElem?_modify_ne _ _ (by omega)]
  · rw [if_neg hi, if_neg hi]

theorem segment_prefix_append (log : List (List α)) (xs : List α) (k : Nat) :
    segment log k <+: segment (append log xs) k := by
  unfold segment append
  rw [List.getElem?_modify]
  rcases log[k]? with _ | seg
  · exact List.prefix_refl _
  by_cases hk : log.length - 1 = k
  · simp only [hk, if_true]
    exact List.prefix_append seg xs
  · simp only [hk, if_false]
    exact List.prefix_refl seg

theorem segment_append_closed {log : List (List α)} {k : Nat} (xs : List α)
    (hk : k + 1 < log.length) : segment (append log xs) k = segment log k := by
  unfold segment append
  rw [List.getElem?_modify_ne _ _ (by omega)]

theorem segment_rotate (log : List (List α)) (k : Nat) :
    segment (rotate log) k = segment log k := by
  unfold segment rotate
  by_cases hk : k < log.length
  · rw [List.getElem?_append_left hk]
  · rw [List.getElem?_append_right (by omega), List.getElem?_eq_none (l := log) (by omega),
      List.getElem?_singleton]
    split
    · rfl
    · rfl

theorem take_rotate {log : List (List α)} {k : Nat} (hk : k ≤ log.length) :
    (rotate log).take k = log.take k := by
  unfold rotate
  rw [List.take_append_of_le_length hk]

theorem upTo_append {log : List (List α)} {k p : Nat} (xs : List α) (hk : k ≤ log.length - 1)
    (hp : p ≤ (segment log k).length) : upTo (append log xs) k p = upTo log k p := by
  obtain ⟨more, hmore⟩ := segment_prefix_append log xs k
  unfold upTo
  rw [take_append xs hk, ← hmore, List.take_append_of_le_length hp]

theorem upTo_rotate {log : List (List α)} {k : Nat} (p : Nat) (hk : k ≤ log.length) :
    upTo (rotate log) k p = upTo log k p := by
  unfold upTo
  rw [take_rotate hk, segment_rotate]

theorem upTo_add (log : List (List α)) (k p n : Nat) :
    upTo log k (p + n) = upTo log k p ++ ((segment log k).drop p).take n := by
  unfold upTo
  rw [List.take_add, List.append_assoc]

/-- The segments before `k + 1` are those before `k` and segment `k`. -/
theorem flatten_take_succ (log : List (List α)) (k : Nat) :
    (log.take (k + 1)).flatten = (log.take k).flatten ++ segment log k := by
  unfold segment
  rw [List.take_add_one, List.flatten_append]
  rcases log[k]? with _ | seg
  · rfl
  · simp

/-- The end of a segment is the beginning of the next. -/
theorem upTo_succ (log : List (List α)) (k : Nat) :
    upTo log k (segment log k).length = upTo log (k + 1) 0 := by
  unfold upTo
  rw [List.take_length, List.take_zero, List.append_nil, flatten_take_succ]

theorem upTo_le (log : List (List α)) (k p : Nat) : upTo log k p <+: log.flatten := by
  have htake : upTo log k p <+: (log.take (k + 1)).flatten := by
    rw [flatten_take_succ]
    unfold upTo
    exact List.prefix_append_right_inj _ |>.mpr (List.take_prefix _ _)
  refine htake.trans ?_
  conv_rhs => rw [← List.take_append_drop (k + 1) log, List.flatten_append]
  exact List.prefix_append _ _

/-- What lies before an earlier segment's end lies before any later place. -/
theorem upTo_take_le {log : List (List α)} {j k : Nat} (p : Nat) (h : j ≤ k) :
    (log.take j).flatten <+: upTo log k p := by
  unfold upTo
  refine List.IsPrefix.trans ?_ (List.prefix_append _ _)
  have hsplit : log.take k = log.take j ++ (log.take k).drop j := by
    conv_lhs => rw [← List.take_append_drop j (log.take k), List.take_take, Nat.min_eq_left h]
  rw [hsplit, List.flatten_append]
  exact List.prefix_append _ _

end SegmentedLog

end NetProbe
