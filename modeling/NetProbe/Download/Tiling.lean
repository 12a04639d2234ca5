import NetProbe.Download.Blocks
import NetProbe.Download.SourceUrl

/-!
# Tiling a File

The tasks of a download are meant to tile the file: each takes a range, no two
ranges meet and together they are the file. A task is then done when it has
fetched every byte of its range.

The blocks are the file size divided by the number of tasks and rounded up, and
the last task gets what the others leave. With few bytes and many tasks the
others take more than there is. Then a range reaches past the end of the file,
its task never gets the bytes it waits for, and the last block is negative.

## Main definitions

* `isDownloadSuc`: Whether a task is done.
* `remoteBytes`: The bytes a server can send for the range of a task.
* `Tiles`: The ranges tile the file, and a task that has got everything is done.

## Theorems

* `taskAt_tiles_iff`: When the blocks tile the file.
* `tiles_iff`: When the tasks of a new download do.
-/

namespace NetProbe

namespace HttpDownload

/-- `download >= block`. -/
def isDownloadSuc (t : DownloadTask) : Prop := t.block ≤ t.download

/-- The position lies in the range of the task. -/
def Covers (t : DownloadTask) (pos : Int) : Prop := t.start ≤ pos ∧ pos < t.start + t.block

/-- The bytes of the file in the range of a task. -/
def remoteBytes (fileSize : Int) (t : DownloadTask) : Int :=
  max 0 (min (t.start + t.block) fileSize - t.start)

/-- The ranges of the tasks tile the file: none is negative, none reaches over an
    end of the file, no two meet and every byte lies in one. A task that has got all
    there is for its range is done. -/
structure Tiles (fileSize : Int) (tasks : List DownloadTask) : Prop where
  nonneg : ∀ t ∈ tasks, 0 ≤ t.block
  inside : ∀ t ∈ tasks, 0 ≤ t.start ∧ t.start + t.block ≤ fileSize
  disjoint : ∀ (i j : Nat) (t u : DownloadTask), i ≠ j → tasks[i]? = some t → tasks[j]? = some u →
    ∀ pos, ¬(Covers t pos ∧ Covers u pos)
  covers : ∀ pos, 0 ≤ pos → pos < fileSize → ∃ t ∈ tasks, Covers t pos
  finishes : ∀ t ∈ tasks, isDownloadSuc { t with download := remoteBytes fileSize t }

section New

variable {fileSize n : Nat}

/-- The tasks of a file without any counts. -/
theorem mem_new_iff (t : DownloadTask) :
    t ∈ tasksOf fileSize n (List.replicate n 0) ↔ ∃ i < n, t = taskAt fileSize n i 0 := by
  rw [List.mem_iff_getElem?]
  constructor
  · rintro ⟨i, hi⟩
    rw [getElem?_tasksOf, List.getElem?_replicate] at hi
    split at hi
    · rw [Option.map_some, Option.some.injEq] at hi
      exact ⟨i, ‹_›, hi.symm⟩
    · exact absurd hi (by simp only [Option.map_none, reduceCtorEq, not_false_eq_true])
  · rintro ⟨i, hi, rfl⟩
    exact ⟨i, by rw [getElem?_tasksOf, List.getElem?_replicate, if_pos hi, Option.map_some]⟩

theorem getElem?_new {i : Nat} {t : DownloadTask}
    (h : (tasksOf fileSize n (List.replicate n 0))[i]? = some t) :
    i < n ∧ t = taskAt fileSize n i 0 := by
  rw [getElem?_tasksOf, List.getElem?_replicate] at h
  split at h
  · rw [Option.map_some, Option.some.injEq] at h
    exact ⟨‹_›, h.symm⟩
  · exact absurd h (by simp only [Option.map_none, reduceCtorEq, not_false_eq_true])

/-- With room for all the other blocks, every block is the part of the file behind
    the blocks before it. -/
theorem block_of_room (hn : 1 ≤ n) (h : fileSize + n ≤ 2147483648)
    (hroom : (n - 1) * share fileSize n ≤ fileSize) {i : Nat} (hi : i < n) :
    taskAt fileSize n i 0
      = ⟨i, (i * share fileSize n : Nat), (cap fileSize n i : Nat), 0⟩ := by
  have hall : fileSize ≤ n * share fileSize n := le_mul_share hn
  have hsucc : (i + 1) * share fileSize n = i * share fileSize n + share fileSize n :=
    Nat.succ_mul _ _
  rw [taskAt_eq hn h hi, cap, hsucc]
  congr 1
  split
  · have hle : (i + 1) * share fileSize n ≤ (n - 1) * share fileSize n :=
      Nat.mul_le_mul_right _ (by omega)
    rw [hsucc] at hle
    omega
  · obtain rfl : n = i + 1 := by omega
    rw [hsucc] at hall
    rw [Nat.add_sub_cancel] at hroom
    omega

theorem block_inside (hroom : (n - 1) * share fileSize n ≤ fileSize) {i : Nat} (hi : i < n) :
    i * share fileSize n + cap fileSize n i ≤ fileSize := by
  have hle : i * share fileSize n ≤ (n - 1) * share fileSize n :=
    Nat.mul_le_mul_right _ (by omega)
  rw [cap]
  omega

/-- A block ends where a later one starts, or earlier. -/
theorem block_before (fileSize n : Nat) {i j : Nat} (hij : i < j) :
    i * share fileSize n + cap fileSize n i ≤ j * share fileSize n := by
  have hle : (i + 1) * share fileSize n ≤ j * share fileSize n := Nat.mul_le_mul_right _ hij
  have hstart : i * share fileSize n ≤ (i + 1) * share fileSize n :=
    Nat.mul_le_mul_right _ (Nat.le_succ i)
  rw [cap]
  omega

theorem tiles_of_room (hn : 1 ≤ n) (h : fileSize + n ≤ 2147483648)
    (hroom : (n - 1) * share fileSize n ≤ fileSize) :
    Tiles fileSize (tasksOf fileSize n (List.replicate n 0)) := by
  refine ⟨?_, ?_, ?_, ?_, ?_⟩
  · intro t ht
    obtain ⟨i, hi, rfl⟩ := (mem_new_iff t).mp ht
    rw [block_of_room hn h hroom hi]
    exact Int.natCast_nonneg _
  · intro t ht
    obtain ⟨i, hi, rfl⟩ := (mem_new_iff t).mp ht
    have hend := block_inside hroom hi
    rw [block_of_room hn h hroom hi]
    exact ⟨Int.natCast_nonneg _, by dsimp only; omega⟩
  · intro i j t u hij ht hu pos
    obtain ⟨hi, rfl⟩ := getElem?_new ht
    obtain ⟨hj, rfl⟩ := getElem?_new hu
    rw [block_of_room hn h hroom hi, block_of_room hn h hroom hj, Covers, Covers]
    dsimp only
    rcases Nat.lt_or_gt_of_ne hij with hlt | hgt
    · have hsep := block_before fileSize n hlt
      omega
    · have hsep := block_before fileSize n hgt
      omega
  · intro pos hpos hpos'
    obtain ⟨k, rfl⟩ := Int.eq_ofNat_of_zero_le hpos
    obtain ⟨i, hi, hlow, hhigh⟩ := cap_covers hn (by omega : k < fileSize)
    refine ⟨_, (mem_new_iff _).mpr ⟨i, hi, rfl⟩, ?_⟩
    rw [block_of_room hn h hroom hi, Covers]
    dsimp only
    omega
  · intro t ht
    obtain ⟨i, hi, rfl⟩ := (mem_new_iff t).mp ht
    have hend := block_inside hroom hi
    rw [block_of_room hn h hroom hi, isDownloadSuc, remoteBytes]
    dsimp only
    omega

/-- The blocks tile the file exactly if the blocks of all but the last task fit
    into it. -/
theorem taskAt_tiles_iff (hn : 1 ≤ n) (h : fileSize + n ≤ 2147483648) :
    Tiles fileSize (tasksOf fileSize n (List.replicate n 0))
      ↔ (n - 1) * share fileSize n ≤ fileSize := by
  refine ⟨fun htiles => ?_, tiles_of_room hn h⟩
  have hlast : n - 1 < n := by omega
  have hblock := htiles.nonneg _ ((mem_new_iff _).mpr ⟨n - 1, hlast, rfl⟩)
  rw [taskAt_eq hn h hlast, if_neg (by omega)] at hblock
  dsimp only at hblock
  omega

end New

/-- The tasks of a new download tile the file exactly if the rounded-up blocks of
    all but the last task fit into it. -/
theorem tiles_iff (url : List CodeUnit) (cfg : Option (List Byte)) (redownload : Bool)
    (fileSize n : Nat) (hsize : 1 ≤ fileSize) (hn : 1 ≤ n) (h : fileSize + n < 2147483648)
    (hurl : (encodeUtf16 url).length < 2147483648) (hnew : cfg = none ∨ redownload = true) :
    ∃ o' cfg', (createSized url n fileSize).parseDownloadCfg
        (some ((createSized url n fileSize).createDownloadCfg cfg redownload).1)
          = (.ok true, o', cfg')
      ∧ (Tiles fileSize o'.downloadTasks
        ↔ (n - 1) * ((fileSize + n - 1) / n) ≤ fileSize) := by
  have hcreated : ((createSized url n fileSize).createDownloadCfg cfg redownload).1
      = (createSized url n fileSize).newCfg := by
    rcases hnew with rfl | rfl
    · rfl
    · cases cfg <;> rfl
  have hthreads : (createSized url n fileSize).threadCount = n := if_neg (by omega)
  have hparse := parseDownloadCfg_of_done (parseOnce_newCfg_own (createSized url n fileSize) n hurl
    (by rw [createSized]; dsimp only; omega) (by rw [createSized]; dsimp only; omega) hn (by omega)
    hthreads)
  rw [hcreated]
  exact ⟨_, _, hparse, taskAt_tiles_iff hn (by omega)⟩

/-- Ten bytes for three tasks: four, four and two. -/
theorem tiles_iff_three_of_ten :
    ∃ o' cfg', (createSized [0x68] 3 10).parseDownloadCfg
        (some ((createSized [0x68] 3 10).createDownloadCfg none false).1) = (.ok true, o', cfg')
      ∧ Tiles 10 o'.downloadTasks := by
  obtain ⟨o', cfg', hparse, htiles⟩ := tiles_iff [0x68] none false 10 3 (by decide) (by decide)
    (by decide) (by decide) (Or.inl rfl)
  exact ⟨o', cfg', hparse, htiles.mpr (by decide)⟩

/-- Five bytes for four tasks: blocks of two from 0, 2 and 4, and one of minus one
    from 6. -/
theorem not_tiles_four_of_five :
    ∃ o' cfg', (createSized [0x68] 4 5).parseDownloadCfg
        (some ((createSized [0x68] 4 5).createDownloadCfg none false).1) = (.ok true, o', cfg')
      ∧ o'.downloadTasks = [⟨0, 0, 2, 0⟩, ⟨1, 2, 2, 0⟩, ⟨2, 4, 2, 0⟩, ⟨3, 6, -1, 0⟩]
      ∧ ¬Tiles 5 o'.downloadTasks := by
  refine ⟨_, _, rfl, by decide +kernel, fun htiles => ?_⟩
  have hlast := htiles.nonneg ⟨3, 6, -1, 0⟩ (by decide +kernel)
  exact absurd hlast (by decide)

end HttpDownload

end NetProbe
