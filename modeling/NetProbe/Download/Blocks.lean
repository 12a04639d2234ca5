import Mathlib.Algebra.BigOperators.Ring.Finset
import Mathlib.Algebra.Order.BigOperators.Group.Finset
import Mathlib.Algebra.Order.Ring.Int
import NetProbe.Download.Config

/-!
# Dividing a File among Tasks

A file is divided into as many blocks as there are tasks, each as long as the
file size divided by their number, rounded up; the last task gets what the
others leave. Rounding up can leave the last ones little or nothing: blocks
may start past the end of the file, and the last block may be negative.

`share` is the block length as a natural number and `cap` the part of a block
that lies inside the file, which is all a task can ever fetch. The parts add
up to the file (`sum_cap`), so tasks whose counters do not exceed them and add
up to the file size have fetched all of it (`counters_full`).

## Main definitions

* `share`: The length of a block.
* `cap`: The bytes of the file in a block.
* `downloadAt`, `downloaded`: A task's counter, and the sum of the first ones.

## Theorems

* `blockSize_eq`, `taskAt_eq`: The tasks without the `int` arithmetic.
* `fits_of_positive`: When that arithmetic does not wrap.
* `block_of_dvd`: The blocks of a file that divides evenly.
* `sum_cap`: The blocks cover the file.
* `cap_covers`: Every byte of the file lies in some block.
* `counters_full`: Counters that add up to the file size are all full.
-/

namespace NetProbe

namespace HttpDownload

/-- The length of a block. -/
def share (fileSize n : Nat) : Nat := (fileSize + n - 1) / n

/-- The bytes of the file in block `i`. -/
def cap (fileSize n i : Nat) : Nat :=
  min ((i + 1) * share fileSize n) fileSize - i * share fileSize n

/-- The counter of task `i`. -/
def downloadAt (tasks : List DownloadTask) (i : Nat) : Int :=
  (tasks[i]?.map DownloadTask.download).getD 0

/-- The bytes the first `i` tasks have counted. -/
def downloaded (tasks : List DownloadTask) (i : Nat) : Int :=
  (Finset.range i).sum (downloadAt tasks)

section Blocks

variable {fileSize n : Nat}

theorem mul_share_le : n * share fileSize n ≤ fileSize + n - 1 := by
  unfold share
  rw [Nat.mul_comm]
  exact Nat.div_mul_le_self _ n

theorem le_mul_share (hn : 1 ≤ n) : fileSize ≤ n * share fileSize n := by
  unfold share
  -- The division rounds up.
  have hmod := Nat.div_add_mod (fileSize + n - 1) n
  have hlt := Nat.mod_lt (fileSize + n - 1) hn
  omega

/-- No block starts past the last `int`. -/
theorem start_le {i : Nat} (hi : i ≤ n) : i * share fileSize n ≤ fileSize + n - 1 :=
  Nat.le_trans (Nat.mul_le_mul_right _ hi) mul_share_le

theorem blockSize_eq (hn : 1 ≤ n) (h : fileSize + n ≤ 2147483648) :
    blockSize fileSize n = share fileSize n := by
  have hsum : (fileSize : Int) + n - 1 = (fileSize + n - 1 : Nat) := by omega
  have hle : share fileSize n ≤ fileSize + n - 1 := Nat.div_le_self _ _
  have hdiv : (((fileSize + n - 1 : Nat) : Int)).tdiv (n : Int) = share fileSize n := rfl
  unfold blockSize
  rw [hsum, toInt32_eq ((fileSize + n - 1 : Nat) : Int) (by omega) (by omega), hdiv]
  exact toInt32_eq _ (by omega) (by omega)

/-- A task without the `int` arithmetic. -/
theorem taskAt_eq (hn : 1 ≤ n) (h : fileSize + n ≤ 2147483648) {i : Nat} (hi : i < n) (c : Int) :
    taskAt fileSize n i c = ⟨i, (i * share fileSize n : Nat),
      if i + 1 < n then share fileSize n else (fileSize : Int) - (i * share fileSize n : Nat),
      c⟩ := by
  have hstart : i * share fileSize n ≤ fileSize + n - 1 := start_le (Nat.le_of_lt hi)
  have hstart' : toInt32 ((i : Int) * (share fileSize n : Nat)) = (i * share fileSize n : Nat) := by
    rw [← Nat.cast_mul]
    exact toInt32_eq _ (by omega) (by omega)
  unfold taskAt
  rw [blockSize_eq hn h]
  -- Only the last task is made in another way.
  by_cases hlast : i + 1 < n
  · rw [if_pos hlast, if_pos hlast, hstart']
  · have hi' : (n : Int) - 1 = (i : Nat) := by omega
    rw [if_neg hlast, if_neg hlast, hi', hstart', toInt32_eq _ (by omega) (by omega)]

theorem taskAt_range (size : Int) (n i : Nat) (c : Int) :
    (-2147483648 ≤ (taskAt size n i c).start ∧ (taskAt size n i c).start < 2147483648) ∧
      -2147483648 ≤ (taskAt size n i c).block ∧ (taskAt size n i c).block < 2147483648 := by
  unfold taskAt
  split
  · exact ⟨toInt32_range _, toInt32_range _⟩
  · exact ⟨toInt32_range _, toInt32_range _⟩

/-- Positive blocks come from arithmetic that has not wrapped. -/
theorem fits_of_positive (hn : 1 ≤ n) (hsize : fileSize < 2147483648) (hn' : n < 2147483648)
    (hpos : ∀ i < n, 0 < (taskAt fileSize n i 0).block) : fileSize + n ≤ 2147483648 := by
  by_contra hover
  have hblock := hpos 0 hn
  unfold taskAt at hblock
  rw [if_pos (by omega)] at hblock
  simp only [blockSize] at hblock
  -- The sum wraps to a negative `int`, and the division keeps the sign.
  have hwrap : toInt32 ((fileSize : Int) + n - 1) = (fileSize : Int) + n - 1 - 4294967296 := by
    unfold toInt32
    rw [Int.bmod_def]
    split <;> omega
  have hneg : (fileSize : Int) + n - 1 - 4294967296
      = -(4294967296 - ((fileSize : Int) + n - 1)) := by omega
  have hlo : 0 ≤ (4294967296 - ((fileSize : Int) + n - 1)).tdiv n :=
    Int.tdiv_nonneg (by omega) (by omega)
  have hhi : (4294967296 - ((fileSize : Int) + n - 1)).tdiv n
      ≤ 4294967296 - ((fileSize : Int) + n - 1) := Int.tdiv_le_self _ (by omega)
  rw [hwrap, hneg, Int.neg_tdiv,
    toInt32_eq (-(4294967296 - ((fileSize : Int) + n - 1)).tdiv n) (by omega) (by omega)] at hblock
  omega

theorem share_of_dvd (hn : 1 ≤ n) (hdvd : n ∣ fileSize) : n * share fileSize n = fileSize := by
  obtain ⟨k, rfl⟩ := hdvd
  unfold share
  rw [Nat.add_sub_assoc hn, Nat.mul_add_div hn, Nat.div_eq_of_lt (by omega), Nat.add_zero]

/-- When the number of tasks divides the file size, the blocks are the parts of
    the file. -/
theorem block_of_dvd (hn : 1 ≤ n) (h : fileSize + n ≤ 2147483648) (hdvd : n ∣ fileSize) {i : Nat}
    (hi : i < n) (c : Int) : (taskAt fileSize n i c).block = cap fileSize n i := by
  have hall : n * share fileSize n = fileSize := share_of_dvd hn hdvd
  have hle : (i + 1) * share fileSize n ≤ n * share fileSize n := Nat.mul_le_mul_right _ hi
  rw [taskAt_eq hn h hi]
  unfold cap
  rw [Nat.add_mul, Nat.one_mul] at hle ⊢
  simp only
  -- Every block is a whole share, the last one because nothing is left over.
  split
  · omega
  · have hlast : n = i + 1 := by omega
    have hsum : i * share fileSize n + share fileSize n = fileSize := by
      rw [hlast, Nat.succ_mul, ← hlast] at hall
      exact hall
    omega

theorem cap_le (fileSize n i : Nat) : cap fileSize n i ≤ fileSize := by
  unfold cap
  omega

/-- What a task may fetch lies inside the file. -/
theorem start_cap_le {i : Nat} (h : 0 < cap fileSize n i) :
    i * share fileSize n + cap fileSize n i ≤ fileSize := by
  unfold cap at h ⊢
  omega

/-- The end of the part of a block that lies inside the file. -/
theorem start_cap_eq {i : Nat} (h : i * share fileSize n < fileSize) :
    i * share fileSize n + cap fileSize n i = min ((i + 1) * share fileSize n) fileSize := by
  have hle : i * share fileSize n ≤ (i + 1) * share fileSize n :=
    Nat.mul_le_mul_right _ (Nat.le_succ i)
  unfold cap
  omega

/-- The blocks cover the file. -/
theorem sum_cap (k : Nat) :
    (Finset.range k).sum (cap fileSize n) = min (k * share fileSize n) fileSize := by
  induction k with
  | zero => simp only [Finset.range_zero, Finset.sum_empty, Nat.zero_mul, Nat.zero_min]
  | succ k ih =>
      have hle : k * share fileSize n ≤ (k + 1) * share fileSize n :=
        Nat.mul_le_mul_right _ (Nat.le_succ k)
      rw [Finset.sum_range_succ, ih]
      unfold cap
      omega

theorem sum_cap_all (hn : 1 ≤ n) : (Finset.range n).sum (cap fileSize n) = fileSize := by
  rw [sum_cap]
  exact Nat.min_eq_right (le_mul_share hn)

/-- Every byte of the file lies in some block. -/
theorem cap_covers (hn : 1 ≤ n) {pos : Nat} (h : pos < fileSize) :
    ∃ i < n, i * share fileSize n ≤ pos ∧
      pos < i * share fileSize n + cap fileSize n i := by
  have hall : fileSize ≤ n * share fileSize n := le_mul_share hn
  have hpos : 0 < share fileSize n := by
    rcases Nat.eq_zero_or_pos (share fileSize n) with hzero | hpos
    · rw [hzero, Nat.mul_zero] at hall
      omega
    · exact hpos
  have hmod := Nat.div_add_mod pos (share fileSize n)
  have hlt := Nat.mod_lt pos hpos
  rw [Nat.mul_comm] at hmod
  -- The byte lies in the block its position divides to.
  refine ⟨pos / share fileSize n, ?_, by omega, ?_⟩
  · exact Nat.div_lt_of_lt_mul (by rw [Nat.mul_comm]; omega)
  · rw [start_cap_eq (by omega), Nat.add_mul, Nat.one_mul]
    omega

/-- Counters that do not exceed the blocks and add up to the file size are all
    full. -/
theorem counters_full (hn : 1 ≤ n) (tasks : List DownloadTask)
    (hle : ∀ i < n, downloadAt tasks i ≤ cap fileSize n i)
    (hsum : (fileSize : Int) ≤ downloaded tasks n) :
    ∀ i < n, downloadAt tasks i = cap fileSize n i := by
  have hle' : ∀ i ∈ Finset.range n, downloadAt tasks i ≤ ((cap fileSize n i : Nat) : Int) :=
    fun i hi => hle i (Finset.mem_range.mp hi)
  have hcaps : (Finset.range n).sum (fun i => ((cap fileSize n i : Nat) : Int)) = fileSize := by
    rw [← Nat.cast_sum, sum_cap_all hn]
  -- The sums agree, so do the summands, which are bounded one by one.
  have heq : downloaded tasks n =
      (Finset.range n).sum (fun i => ((cap fileSize n i : Nat) : Int)) := by
    apply le_antisymm
    · exact Finset.sum_le_sum hle'
    · rw [hcaps]
      exact hsum
  intro i hi
  exact (Finset.sum_eq_sum_iff_of_le hle').mp heq i (Finset.mem_range.mpr hi)

end Blocks

theorem downloadAt_of_getElem? {tasks : List DownloadTask} {i : Nat} {t : DownloadTask}
    (h : tasks[i]? = some t) : downloadAt tasks i = t.download := by
  unfold downloadAt
  rw [h]
  rfl

/-- A counter that grows makes no sum smaller. -/
theorem downloaded_set_le {tasks : List DownloadTask} {i : Nat} {t t' : DownloadTask}
    (h : tasks[i]? = some t) (hle : t.download ≤ t'.download) (k : Nat) :
    downloaded tasks k ≤ downloaded (tasks.set i t') k := by
  -- Only one summand changes.
  apply Finset.sum_le_sum
  intro j _
  unfold downloadAt
  rw [List.getElem?_set]
  split
  · rename_i hij
    subst hij
    have hlt : i < tasks.length := (List.getElem?_eq_some_iff.mp h).1
    rw [if_pos hlt, h]
    exact hle
  · exact le_refl _

end HttpDownload

end NetProbe
