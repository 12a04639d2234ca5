import NetProbe.Download.Blocks
import NetProbe.Download.Session

/-!
# Tasks in Their Blocks

A task counts what it has written, and asks for the rest of its block from
there. Its file position, the position in the server's answer and its counter
move at different steps, but they never drift apart: `InPlace` says at each
place of `call()` how they are related, and that no answer runs past the part
of the block that lies inside the file.

`called_sound` shows that a step of a task keeps this for all tasks of the
session, and `called_disk` what such a step can do to the disk: nothing, or
write bytes of the remote file at their own positions.

## Main definitions

* `InPlace`: Position, limit and counter of a task.
* `TaskSound`, `TasksSound`: A task, and all tasks of a session.

## Theorems

* `tasksOf_sound`: Tasks made from counters start in place.
* `TaskSound.shape`: Start and block of a sound task.
* `request_answer`: The answer to a task's request stays in its block.
* `called_sound`: A step of a task keeps all tasks in place.
* `TasksSound.downloaded_le`, `called_downloaded_le`: The counters add up to at
  most the file, and never to less than before.
* `called_disk`: A step of a task writes remote bytes only.
-/

namespace NetProbe

open HttpDownload

/-- How position, limit and counter of task `i` of `n` are related. -/
def InPlace (r : Remote) (n i : Nat) (download : Int) : Phase → Prop
  | .idle => True
  | .ready => True
  | .requested startPos endPos =>
      startPos = (i * share r.fileSize n : Nat) + download ∧
        r.answerEnd startPos endPos
          ≤ max (i * share r.fileSize n + cap r.fileSize n i) startPos.toNat
  | .reading pos limit =>
      (pos : Int) = (i * share r.fileSize n : Nat) + download ∧
        limit ≤ max (i * share r.fileSize n + cap r.fileSize n i) pos
  | .writing pos limit readLen =>
      (pos : Int) = (i * share r.fileSize n : Nat) + download ∧ 0 < readLen ∧
        pos + readLen ≤ limit ∧ limit ≤ i * share r.fileSize n + cap r.fileSize n i
  | .counting pos limit readLen =>
      (pos : Int) = (i * share r.fileSize n : Nat) + download ∧ 0 < readLen ∧
        pos + readLen ≤ limit ∧ limit ≤ i * share r.fileSize n + cap r.fileSize n i
  | .checking pos limit =>
      (pos : Int) = (i * share r.fileSize n : Nat) + download ∧
        limit ≤ max (i * share r.fileSize n + cap r.fileSize n i) pos

/-- Task `i` of `n` is the one its counter describes, has counted no more than
    the file has in its block, and is in place. -/
structure TaskSound (r : Remote) (n i : Nat) (t : DownloadTask) (ph : Phase) : Prop where
  made : t = taskAt r.fileSize n i t.download
  nonneg : 0 ≤ t.download
  le_cap : t.download ≤ cap r.fileSize n i
  place : InPlace r n i t.download ph

/-- Every task of the session is sound. -/
def TasksSound (r : Remote) (s : Session) : Prop :=
  ∀ i t, s.object.downloadTasks[i]? = some t →
    TaskSound r s.object.downloadTasks.length i t (s.phase i)

/-- Tasks made from counters start in place. -/
theorem tasksOf_sound (r : Remote) (n : Nat) (cs : List Int) (ph : Nat → Phase)
    (hph : ∀ i, ph i = .idle)
    (hcs : ∀ (i : Nat) (c : Int), cs[i]? = some c → 0 ≤ c ∧ c ≤ cap r.fileSize n i) :
    ∀ i t, (tasksOf r.fileSize n cs)[i]? = some t → TaskSound r n i t (ph i) := by
  intro i t h
  rw [getElem?_tasksOf, Option.map_eq_some_iff] at h
  obtain ⟨c, hc, rfl⟩ := h
  obtain ⟨hnonneg, hcap⟩ := hcs i c hc
  refine ⟨by rw [download_taskAt], ?_, ?_, ?_⟩
  · rw [download_taskAt]
    exact hnonneg
  · rw [download_taskAt]
    exact hcap
  · rw [hph i]
    trivial

section Step

variable {r : Remote} {n : Nat}

/-- What a sound task was made with, without the `int` arithmetic. -/
theorem TaskSound.shape (hn : 1 ≤ n) (hfit : r.fileSize + n ≤ 2147483648) {i : Nat} (hi : i < n)
    {t : DownloadTask} {ph : Phase} (ht : TaskSound r n i t ph) :
    t.taskId = i ∧ t.start = (i * share r.fileSize n : Nat) ∧
      t.block = if i + 1 < n then (share r.fileSize n : Int)
        else (r.fileSize : Int) - (i * share r.fileSize n : Nat) := by
  have hmade := ht.made
  rw [taskAt_eq hn hfit hi] at hmade
  exact ⟨congrArg DownloadTask.taskId hmade, congrArg DownloadTask.start hmade,
    congrArg DownloadTask.block hmade⟩

/-- The answer to the request of a task stays in its block. -/
theorem request_answer (hn : 1 ≤ n) (hfit : r.fileSize + n ≤ 2147483648) {i : Nat} (hi : i < n)
    {t : DownloadTask} {ph : Phase} (ht : TaskSound r n i t ph) :
    InPlace r n i t.download
      (.requested (toInt32 (t.start + t.download)) (toInt32 (t.start + t.block - 1))) := by
  have hstart : i * share r.fileSize n ≤ r.fileSize + n - 1 := start_le (Nat.le_of_lt hi)
  have hnext : (i + 1) * share r.fileSize n ≤ r.fileSize + n - 1 := start_le hi
  have hall : r.fileSize ≤ n * share r.fileSize n := le_mul_share hn
  have hnonneg := ht.nonneg
  have hcap := ht.le_cap
  obtain ⟨-, hs, hb⟩ := ht.shape hn hfit hi
  -- Neither bound of the range wraps.
  have hfrom : toInt32 (t.start + t.download) = (i * share r.fileSize n : Nat) + t.download := by
    have hinside : 0 < cap r.fileSize n i →
        i * share r.fileSize n + cap r.fileSize n i ≤ r.fileSize := start_cap_le
    rw [hs]
    exact toInt32_eq _ (by omega) (by omega)
  -- The last block ends with the file, the others where the next one starts.
  obtain ⟨e, hto, hend⟩ : ∃ e : Nat, toInt32 (t.start + t.block - 1) = (e : Int) - 1 ∧
      min e r.fileSize = min ((i + 1) * share r.fileSize n) r.fileSize := by
    rw [hs, hb]
    by_cases hlast : i + 1 < n
    · refine ⟨(i + 1) * share r.fileSize n, ?_, rfl⟩
      rw [if_pos hlast, Nat.add_mul, Nat.one_mul]
      rw [Nat.add_mul, Nat.one_mul] at hnext
      rw [toInt32_eq _ (by omega) (by omega)]
      omega
    · have hlast' : n = i + 1 := by omega
      refine ⟨r.fileSize, ?_, ?_⟩
      · rw [if_neg hlast, toInt32_eq _ (by omega) (by omega)]
        omega
      · rw [← hlast']
        omega
  rw [hfrom, hto]
  refine ⟨rfl, ?_⟩
  -- An answer with a body stays below both ends; one without ends where it
  -- starts.
  unfold Remote.answerEnd
  split
  · rename_i hrange
    have hinside : i * share r.fileSize n < r.fileSize := by omega
    rw [start_cap_eq hinside, Int.sub_add_cancel, Int.toNat_natCast, hend]
    exact Nat.le_max_left _ _
  · exact Nat.le_max_right _ _

/-- Changing the phase of one task keeps the others. -/
theorem TasksSound.setPhase {s : Session} (hs : TasksSound r s) {i : Nat} {ph : Phase}
    (h : ∀ t, s.object.downloadTasks[i]? = some t →
      InPlace r s.object.downloadTasks.length i t.download ph) :
    TasksSound r (s.setPhase i ph) := by
  intro j t hj
  have ht := hs j t hj
  refine ⟨ht.made, ht.nonneg, ht.le_cap, ?_⟩
  simp only [Session.setPhase]
  split
  · rename_i hij
    subst hij
    exact h t hj
  · exact ht.place

/-- Tasks that are submitted again lose nothing: a task that waits for a worker
    promises nothing. -/
theorem TasksSound.same {s s' : Session} (hs : TasksSound r s) (hobject : s'.object = s.object)
    (hphase : ∀ i, s'.phase i = s.phase i ∨ s'.phase i = .ready) : TasksSound r s' := by
  intro i t ht
  rw [hobject] at ht ⊢
  have hone := hs i t ht
  refine ⟨hone.made, hone.nonneg, hone.le_cap, ?_⟩
  rcases hphase i with hsame | hready
  · rw [hsame]
    exact hone.place
  · rw [hready]
    trivial

/-- A step of a task keeps all tasks in place. -/
theorem called_sound {disk disk' : Disk} {s s' : Session} {pool : ThreadPool Nat} {i : Nat}
    {t : DownloadTask} (hs : TasksSound r s)
    (hfit : r.fileSize + s.object.downloadTasks.length ≤ 2147483648)
    (ht : s.object.downloadTasks[i]? = some t) (h : Session.Called r disk s pool i t disk' s') :
    TasksSound r s' ∧ s'.object.downloadTasks.length = s.object.downloadTasks.length := by
  have hi : i < s.object.downloadTasks.length := (List.getElem?_eq_some_iff.mp ht).1
  have hsound := hs i t ht
  have hplace := hsound.place
  -- Changing the phase of this task only is the common case.
  have hone : ∀ {ph : Phase}, InPlace r s.object.downloadTasks.length i t.download ph →
      TasksSound r (s.setPhase i ph) := by
    intro ph hph
    refine hs.setPhase (fun t' ht' => ?_)
    obtain rfl := Option.some.inj (ht.symm.trans ht')
    exact hph
  cases h
  case returns => exact ⟨hone trivial, rfl⟩
  case asks hphase => exact ⟨hone (request_answer (by omega) hfit hi hsound), rfl⟩
  case opens startPos endPos hphase hpos =>
      rw [hphase] at hplace
      obtain ⟨hstart, hanswer⟩ := hplace
      exact ⟨hone ⟨by rw [Int.toNat_of_nonneg hpos, hstart], hanswer⟩, rfl⟩
  case reads pos limit readLen hphase hlen hlimit =>
      rw [hphase] at hplace
      obtain ⟨hpos, hle⟩ := hplace
      exact ⟨hone ⟨hpos, hlen, hlimit, by omega⟩, rfl⟩
  case writesPart => exact ⟨hs, rfl⟩
  case writes pos limit readLen file hphase hfile =>
      rw [hphase] at hplace
      exact ⟨hone hplace, rfl⟩
  -- The counter moves up by what was written, and so does the position.
  case counts pos limit readLen hphase =>
      rw [hphase] at hplace
      obtain ⟨hpos, hlen, hlimit, hcap⟩ := hplace
      have hinside : 0 < cap r.fileSize s.object.downloadTasks.length i → _ := start_cap_le
      have hnonneg := hsound.nonneg
      have hsum : toInt32 (t.download + readLen) = t.download + readLen :=
        toInt32_eq _ (by omega) (by omega)
      refine ⟨?_, List.length_set⟩
      intro j u hj
      have hlength : ((s.addDownload i t readLen).setPhase i
          (.checking (pos + readLen) limit)).object.downloadTasks.length
            = s.object.downloadTasks.length := List.length_set
      rw [hlength]
      simp only [Session.setPhase, Session.addDownload, List.getElem?_set] at hj ⊢
      by_cases hij : i = j
      · subst hij
        rw [if_pos rfl, if_pos hi, Option.some.injEq, hsum] at hj
        subst hj
        rw [if_pos rfl]
        refine ⟨?_, by simp only; omega, by simp only; omega, ?_⟩
        · exact (congrArg (fun u : DownloadTask => { u with download := t.download + readLen })
            hsound.made).trans (taskAt_withDownload _ _ _ _ _)
        · exact ⟨by simp only; omega, by omega⟩
      · rw [if_neg hij] at hj
        rw [if_neg (fun h => hij h.symm)]
        exact hs j u hj
  case continues pos limit hphase =>
      rw [hphase] at hplace
      exact ⟨hone hplace, rfl⟩

/-- No task has counted more than the file has in its block. -/
theorem TasksSound.downloadAt_le {s : Session} (hs : TasksSound r s) (i : Nat) :
    downloadAt s.object.downloadTasks i ≤ cap r.fileSize s.object.downloadTasks.length i := by
  rcases ht : s.object.downloadTasks[i]? with _ | t
  · unfold downloadAt
    rw [ht]
    exact Int.natCast_nonneg _
  · rw [downloadAt_of_getElem? ht]
    exact (hs i t ht).le_cap

/-- The counters never add up to more than the file. -/
theorem TasksSound.downloaded_le {s : Session} (hs : TasksSound r s) (k : Nat) :
    downloaded s.object.downloadTasks k ≤ r.fileSize := by
  -- No counter exceeds its block, and the blocks add up to the file.
  have hsum : downloaded s.object.downloadTasks k
      ≤ (Finset.range k).sum
        (fun i => ((cap r.fileSize s.object.downloadTasks.length i : Nat) : Int)) :=
    Finset.sum_le_sum (fun i _ => hs.downloadAt_le i)
  rw [← Nat.cast_sum, sum_cap] at hsum
  omega

/-- A sum of counters taken one by one is at most what the tasks have counted by
    now, and does not wrap. -/
theorem TasksSound.add_counter {s : Session} (hs : TasksSound r s) {i : Nat} {t : DownloadTask}
    (ht : s.object.downloadTasks[i]? = some t) {downloadSize : Int} (hlo : 0 ≤ downloadSize)
    (hhi : downloadSize ≤ downloaded s.object.downloadTasks i) :
    0 ≤ toInt32 (downloadSize + t.download) ∧
      toInt32 (downloadSize + t.download) ≤ downloaded s.object.downloadTasks (i + 1) := by
  have hnonneg := (hs i t ht).nonneg
  have hnext : downloaded s.object.downloadTasks (i + 1)
      = downloaded s.object.downloadTasks i + t.download := by
    unfold downloaded
    rw [Finset.sum_range_succ, downloadAt_of_getElem? ht]
  have hbound := hs.downloaded_le (i + 1)
  have hsize := r.fileSize_lt
  rw [toInt32_eq _ (by omega) (by omega), hnext]
  omega

/-- A step of a task makes no sum of counters smaller. -/
theorem called_downloaded_le {disk disk' : Disk} {s s' : Session} {pool : ThreadPool Nat} {i : Nat}
    {t : DownloadTask} (hs : TasksSound r s) (ht : s.object.downloadTasks[i]? = some t)
    (h : Session.Called r disk s pool i t disk' s') (k : Nat) :
    downloaded s.object.downloadTasks k ≤ downloaded s'.object.downloadTasks k := by
  cases h
  case counts pos limit readLen hphase =>
      -- The only step that moves a counter moves it up.
      have hplace := (hs i t ht).place
      have hnonneg := (hs i t ht).nonneg
      have hcap := cap_le r.fileSize s.object.downloadTasks.length i
      have hinside : 0 < cap r.fileSize s.object.downloadTasks.length i → _ := start_cap_le
      have hsize := r.fileSize_lt
      rw [hphase] at hplace
      obtain ⟨hpos, hlen, hlimit, hle⟩ := hplace
      refine downloaded_set_le ht ?_ k
      simp only
      rw [toInt32_eq _ (by omega) (by omega)]
      omega
  all_goals exact Int.le_refl _

/-- A step of a task leaves the config file alone, and writes nothing into the
    other file but remote bytes, at their own positions. -/
theorem called_disk {disk disk' : Disk} {s s' : Session} {pool : ThreadPool Nat} {i : Nat}
    {t : DownloadTask} (hs : TasksSound r s) (ht : s.object.downloadTasks[i]? = some t)
    (h : Session.Called r disk s pool i t disk' s') :
    disk'.cfg = disk.cfg ∧ (disk'.saveFile = disk.saveFile ∨
      ∃ file pos len, disk.saveFile = some file ∧ pos + len ≤ r.fileSize ∧
        disk'.saveFile = some (writeAt file pos (r.chunk pos len))) := by
  have hplace := (hs i t ht).place
  have hinside : 0 < cap r.fileSize s.object.downloadTasks.length i → _ := start_cap_le
  have hnonneg := (hs i t ht).nonneg
  cases h
  -- Both kinds of writes lie inside the block, which lies inside the file.
  case writesPart pos limit readLen k file hphase hfile hk =>
      rw [hphase] at hplace
      obtain ⟨hpos, hlen, hlimit, hcap⟩ := hplace
      exact ⟨rfl, Or.inr ⟨file, pos, k, hfile, by omega, rfl⟩⟩
  case writes pos limit readLen file hphase hfile =>
      rw [hphase] at hplace
      obtain ⟨hpos, hlen, hlimit, hcap⟩ := hplace
      exact ⟨rfl, Or.inr ⟨file, pos, readLen, hfile, by omega, rfl⟩⟩
  all_goals exact ⟨rfl, Or.inl rfl⟩

end Step

end NetProbe
