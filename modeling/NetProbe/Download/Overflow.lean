import NetProbe.Download.Complete
import NetProbe.Download.Requests

/-!
# When the Counters Do Not Fit

With `2 ^ 30 + 1` threads the `int` expression `4 * threadCount` is `4`, and
the coordinator takes the last four bytes of the config file for the counter
of the first task. A first session records one byte there and crashes; a
second one reads the counter as that of the last task, fetches the first byte
again, is stopped, and adds the two up to the file size.

The numbers are too large to compute with, so the run is put together from
lemmas about any session in a given state. The tasks that come back after the
stop are many but alike: `Draining` describes the session while they do, and
`drain_run` is the induction over them.

## Main definitions

* `Moved`: A session in which only one task has moved.
* `Draining`: A session whose last tasks come back with nothing.
* `misplaced`, `misled`: The counters and tasks of the second session.

## Theorems

* `settle_run`: A completed task is taken, recorded and dismissed.
* `drain_run`, `success_run`: The way from the stop to the success.
* `fetch_run`: The first byte is fetched.
* `writeCounter_last`: Its counter goes to the last slot.
* `first_session`, `second_session`: The two sessions.
* `overflow_incomplete`: Success with a byte missing.
-/

namespace NetProbe

open HttpDownload Machine

/-- What a session shows while its last tasks come back empty-handed after a
    stop: the tasks from `k` on are running and have not begun. -/
structure Draining (n k : Nat) (tasks : List DownloadTask) (file : List Byte)
    (p : Disk × Session) : Prop where
  pc : p.2.pc = .loop
  stopped : p.2.stopFlag = true
  count : p.2.taskCount = (n : Int) - k
  offset : 2147483648 ≤ p.2.offset
  size : p.2.object.fileSize = 2
  tasks : p.2.object.downloadTasks = tasks
  pool : ∃ q, p.2.pool = some q ∧ q.running = List.range' k (n - k) ∧ q.completed = []
  ready : ∀ j, k ≤ j → p.2.phase j = .ready
  file : p.1.saveFile = some file
  cfg : ∃ bytes, p.1.cfg = some bytes

section Settle

variable (r : Remote) (disk : Disk) {s : Session} {p : ThreadPool Nat} {k : Nat}
  {t : DownloadTask} {bytes : List Byte}

/-- A completed task is taken, recorded somewhere and dismissed. -/
theorem settle_run (hpc : s.pc = .loop) (hcount : 0 < s.taskCount) (hpool : s.pool = some p)
    (hcompleted : p.completed = [k]) (htask : s.object.downloadTasks[k]? = some t)
    (hcfg : disk.cfg = some bytes) (hoffset : 2147483648 ≤ s.offset) (hstop : s.stopFlag = true) :
    ∃ cfg, exec (Session.run r) (disk, s) [.coord, .coord, .coord]
      = some ({ disk with cfg := some cfg }, { s with
        pool := some { p with completed := [] }
        taskCount := s.taskCount - 1
        pc := .loop }) := by
  have htake : p.take = some (k, { p with completed := [] }) := by
    unfold ThreadPool.take
    rw [hcompleted]
  -- Wherever the position lies, it is not negative, so the write succeeds.
  obtain ⟨cfg, hwrite⟩ : ∃ cfg, writeCounter bytes s.offset t.taskId t.download = some cfg := by
    have hrange := toInt32_range (4 * t.taskId)
    unfold writeCounter
    simp only
    rw [if_neg (by omega)]
    exact ⟨_, rfl⟩
  have hrecord : Session.run r (disk, { s with
      pool := some { p with completed := [] }, pc := .record k }) .coord
        = some ({ disk with cfg := some cfg }, { s with
          pool := some { p with completed := [] }, pc := .check k }) :=
    run_record r _ rfl htask hcfg hwrite
  have hdismiss : Session.run r ({ disk with cfg := some cfg }, { s with
      pool := some { p with completed := [] }, pc := .check k }) .coord
        = some ({ disk with cfg := some cfg }, { s with
          pool := some { p with completed := [] }, taskCount := s.taskCount - 1, pc := .loop }) :=
    run_dismiss r _ rfl htask hstop
  -- The stop flag keeps the task from being submitted again.
  refine ⟨cfg, ?_⟩
  rw [exec_cons (run_take r _ hpc hcount hpool htake), exec_cons hrecord, exec_cons hdismiss]
  rfl

end Settle

/-- Task `i` has moved to another phase, and nothing else of the session has
    changed but perhaps its counter and the list of requests. -/
structure Moved (i : Nat) (ph : Phase) (s s' : Session) : Prop where
  pc : s'.pc = s.pc
  stopFlag : s'.stopFlag = s.stopFlag
  taskCount : s'.taskCount = s.taskCount
  offset : s'.offset = s.offset
  stopPc : s'.stopPc = s.stopPc
  pool : s'.pool = s.pool
  phase : s'.phase i = ph
  others : ∀ j, j ≠ i → s'.phase j = s.phase j

theorem moved_setPhase (s : Session) (i : Nat) (ph : Phase) : Moved i ph s (s.setPhase i ph) :=
  ⟨rfl, rfl, rfl, rfl, rfl, rfl, if_pos rfl, fun _ hj => if_neg hj⟩

theorem Moved.trans {i : Nat} {ph ph' : Phase} {s s' s'' : Session} (h : Moved i ph s s')
    (h' : Moved i ph' s' s'') : Moved i ph' s s'' where
  pc := h'.pc.trans h.pc
  stopFlag := h'.stopFlag.trans h.stopFlag
  taskCount := h'.taskCount.trans h.taskCount
  offset := h'.offset.trans h.offset
  stopPc := h'.stopPc.trans h.stopPc
  pool := h'.pool.trans h.pool
  phase := h'.phase
  others := fun j hj => (h'.others j hj).trans (h.others j hj)

section Task

variable (r : Remote) (disk : Disk) {s : Session} {pool : ThreadPool Nat} {i : Nat}
  {t : DownloadTask} (hpool : s.pool = some pool)
  (htask : s.object.downloadTasks[i]? = some t) (hrun : i ∈ pool.running)
  (hphase : s.phase i = .ready)

include hpool htask hrun hphase

/-- A task asks and gets an answer. -/
theorem open_run (hpos : 0 ≤ toInt32 (t.start + t.download)) :
    ∃ s', exec (Session.run r) (disk, s) [.task i .request, .task i .opened] = some (disk, s') ∧
      s'.object = s.object ∧
      Moved i (.reading (toInt32 (t.start + t.download)).toNat
        (r.answerEnd (toInt32 (t.start + t.download)) (toInt32 (t.start + t.block - 1)))) s s' := by
  obtain ⟨s₁, hstep₁, hobject₁, hmoved₁⟩ : ∃ s₁ : Session,
      Session.run r (disk, s) (.task i .request) = some (disk, s₁) ∧ s₁.object = s.object ∧
      Moved i (.requested (toInt32 (t.start + t.download))
        (toInt32 (t.start + t.block - 1))) s s₁ := by
    refine ⟨_, run_request r _ hpool htask hrun hphase, rfl, ?_⟩
    exact ⟨rfl, rfl, rfl, rfl, rfl, rfl, if_pos rfl, fun _ hj => if_neg hj⟩
  have hstep₂ := run_opened r disk (s := s₁) (hmoved₁.pool.trans hpool)
    (by rw [hobject₁]; exact htask) hrun hmoved₁.phase hpos
  refine ⟨_, (exec_cons hstep₁).trans (exec_cons hstep₂), hobject₁, ?_⟩
  exact hmoved₁.trans (moved_setPhase s₁ i _)

/-- A task asks and gets nothing. -/
theorem emptyAnswer_run (hpos : 0 ≤ toInt32 (t.start + t.download)) :
    ∃ s' : Session, exec (Session.run r) (disk, s)
      [.task i .request, .task i .opened, .task i .endOfStream] = some (disk, s'.finish pool i) ∧
      s'.object = s.object ∧ ∃ ph, Moved i ph s s' := by
  obtain ⟨s₁, hopen, hobject, hmoved⟩ := open_run r disk hpool htask hrun hphase hpos
  have hend := run_endOfStream r disk (s := s₁) (hmoved.pool.trans hpool)
    (by rw [hobject]; exact htask) hrun hmoved.phase
  refine ⟨s₁, ?_, hobject, _, hmoved⟩
  exact (exec_append _ _ _ _ [.task i .endOfStream] hopen).trans (exec_cons hend)

end Task

/-- One more task comes back with nothing. -/
theorem drain_one (r : Remote) {n k : Nat} {tasks : List DownloadTask} {file : List Byte}
    {p : Disk × Session} {t : DownloadTask} (hk : k < n) (h : Draining n k tasks file p)
    (htask : tasks[k]? = some t) (hpos : 0 ≤ toInt32 (t.start + t.download)) :
    ∃ moves p', exec (Session.run r) p moves = some p' ∧ Draining n (k + 1) tasks file p' := by
  obtain ⟨disk, s⟩ := p
  obtain ⟨hpc, hstop, hcount, hoffset, hsize, htasks, ⟨q, hpool, hrunning, hcompleted⟩, hready,
    hfile, ⟨bytes, hcfg⟩⟩ := h
  simp only at hpc hstop hcount hoffset hsize htasks hpool hready hfile hcfg
  have hsucc : n - k = (n - (k + 1)) + 1 := by omega
  rw [hsucc, List.range'_succ] at hrunning
  have hrun : k ∈ q.running := by
    rw [hrunning]
    exact List.mem_cons_self
  rw [← htasks] at htask
  -- The task asks for a range past the end of the file and gets nothing.
  obtain ⟨s₁, hask, hobject, ph, hmoved⟩ :=
    emptyAnswer_run r disk hpool htask hrun (hready k (Nat.le_refl k)) hpos
  have hcompleted' : (q.finish k).completed = [k] := by
    unfold ThreadPool.finish
    rw [hcompleted]
    rfl
  obtain ⟨cfg, hsettle⟩ := settle_run r disk (s := s₁.finish q k) (p := q.finish k) (k := k)
    (hmoved.pc.trans hpc) (by rw [Session.finish, Session.setPhase, hmoved.taskCount]; omega) rfl
    hcompleted' (by rw [Session.finish, Session.setPhase, hobject]; exact htask) hcfg
    (by rw [Session.finish, Session.setPhase, hmoved.offset]; exact hoffset)
    (by rw [Session.finish, Session.setPhase, hmoved.stopFlag]; exact hstop)
  refine ⟨_, _, (exec_append _ _ _ _ _ hask).trans hsettle, ?_⟩
  -- One task less is running, and the rest of the session is as before.
  refine ⟨rfl, hmoved.stopFlag.trans hstop, ?_, ?_, ?_, ?_, ⟨_, rfl, ?_, rfl⟩, ?_, hfile, cfg, rfl⟩
  · simp only [Session.finish, Session.setPhase, hmoved.taskCount]
    omega
  · simp only [Session.finish, Session.setPhase, hmoved.offset]
    exact hoffset
  · simp only [Session.finish, Session.setPhase, hobject]
    exact hsize
  · simp only [Session.finish, Session.setPhase, hobject]
    exact htasks
  · simp only [ThreadPool.finish, hrunning, List.erase_cons_head]
  · intro j hj
    simp only [Session.finish, Session.setPhase]
    rw [if_neg (by omega), hmoved.others j (by omega)]
    exact hready j (by omega)

theorem drain_run (r : Remote) {n : Nat} {tasks : List DownloadTask} {file : List Byte}
    (htasks : ∀ k < n, ∃ t, tasks[k]? = some t ∧ 0 ≤ toInt32 (t.start + t.download)) (d : Nat) :
    ∀ (k : Nat) (p : Disk × Session), k + d = n → Draining n k tasks file p →
      ∃ moves p', exec (Session.run r) p moves = some p' ∧ Draining n n tasks file p' := by
  induction d with
  | zero =>
      intro k p hk h
      obtain rfl : k = n := by omega
      exact ⟨[], p, rfl, h⟩
  | succ d ih =>
      intro k p hk h
      -- Induction on the number of tasks that are still out.
      obtain ⟨t, ht, hpos⟩ := htasks k (by omega)
      obtain ⟨moves, p', hrun, h'⟩ := drain_one r (by omega) h ht hpos
      obtain ⟨moves', p'', hrun', h''⟩ := ih (k + 1) p' (by omega) h'
      exact ⟨moves ++ moves', p'', (exec_append _ _ _ _ _ hrun).trans hrun', h''⟩

/-- `downloadSize()` over the remaining tasks. -/
def addUp (tasks : List DownloadTask) (downloadSize : Int) : Int :=
  (tasks.map DownloadTask.download).foldl (fun a c => toInt32 (a + c)) downloadSize

theorem judge_run (r : Remote) (disk : Disk) (s : Session) (d : Nat) :
    ∀ (i : Nat) (downloadSize : Int), i + d = s.object.downloadTasks.length →
      exec (Session.run r) (disk, { s with pc := .judge i downloadSize }) (List.replicate d .coord)
        = some (disk, { s with
          pc := .judge (i + d) (addUp (s.object.downloadTasks.drop i) downloadSize) }) := by
  induction d with
  | zero =>
      intro i downloadSize hi
      rw [List.drop_eq_nil_of_le (by omega)]
      rfl
  | succ d ih =>
      intro i downloadSize hi
      have hlt : i < s.object.downloadTasks.length := by omega
      -- One turn of the loop in `downloadSize()`.
      have hadd := run_add r disk (s := { s with pc := .judge i downloadSize }) rfl
        (List.getElem?_eq_getElem hlt)
      rw [List.replicate_succ, exec_cons hadd]
      refine (ih (i + 1) _ (by omega)).trans ?_
      unfold addUp
      rw [List.drop_eq_getElem_cons hlt, List.map_cons, List.foldl_cons]
      have hsum : i + 1 + d = i + (d + 1) := by omega
      rw [hsum]

/-- With all tasks back, `download` compares the sum with the file size. -/
theorem success_run (r : Remote) {n : Nat} {tasks : List DownloadTask} {file : List Byte}
    {p : Disk × Session} (h : Draining n n tasks file p)
    (hsum : addUp tasks 0 = 2) :
    ∃ moves p', exec (Session.run r) p moves = some p' ∧ p'.2.pc = .returned true ∧
      p'.1.saveFile = some file := by
  obtain ⟨disk, s⟩ := p
  obtain ⟨hpc, -, hcount, -, hsize, htasks, -, -, hfile, -⟩ := h
  simp only at hpc hcount hsize htasks hfile
  have hleave := run_leaveLoop r disk hpc (by omega)
  have hawait := run_await r disk (s := { s with pc := .await }) rfl
  obtain ⟨s₁, hawaited, hobject, hjudge⟩ : ∃ s₁ : Session, Session.run r (disk, { s with
      pool := s.pool.map ThreadPool.shutdown, pc := .awaited }) .coord = some (disk, s₁) ∧
      s₁.object = s.object ∧ s₁ = { s₁ with pc := .judge 0 0 } :=
    ⟨_, run_awaited r disk rfl, rfl, rfl⟩
  -- After the wait for the pool, all counters are added up.
  have hlist := judge_run r disk s₁ s₁.object.downloadTasks.length 0 0 (Nat.zero_add _)
  have htasks₁ : s₁.object.downloadTasks = tasks := by rw [hobject, htasks]
  rw [← hjudge, List.drop_zero, htasks₁, hsum, Nat.zero_add] at hlist
  have hdone := run_succeed r disk (s := { s₁ with pc := .judge tasks.length 2 }) rfl
    (by simp only [htasks₁]; exact List.getElem?_eq_none (Nat.le_refl _))
    (by simp only [hobject]; exact hsize)
  have hstart : exec (Session.run r) (disk, s) [.coord, .coord, .coord] = some (disk, s₁) := by
    rw [exec_cons hleave, exec_cons hawait, exec_cons hawaited]
    rfl
  have hall := (exec_append _ _ _ _ (List.replicate tasks.length .coord ++ [.coord]) hstart).trans
    ((exec_append _ _ _ _ [.coord] hlist).trans (exec_cons hdone))
  exact ⟨_, _, hall, rfl, hfile⟩

/-- Counters that add up to two. -/
theorem addUp_two {n : Nat} {tasks : List DownloadTask}
    (h : tasks.map DownloadTask.download = 1 :: List.replicate (n - 2) 0 ++ [1]) :
    addUp tasks 0 = 2 := by
  -- Between the two tasks that count a byte each, all counters are zero.
  have hzeros : ∀ k : Nat,
      (List.replicate k (0 : Int)).foldl (fun a c => toInt32 (a + c)) 1 = 1 := by
    intro k
    induction k with
    | zero => rfl
    | succ k ih =>
        rw [List.replicate_succ, List.foldl_cons]
        exact ih
  unfold addUp
  rw [h, List.cons_append, List.foldl_cons, List.foldl_append]
  have hone : toInt32 (0 + 1) = 1 := by decide
  rw [hone, hzeros]
  decide

section Fetch

variable (disk : Disk) {s : Session} {pool : ThreadPool Nat} {t : DownloadTask}

/-- The first of two bytes is fetched and counted. -/
theorem fetch_run (hpool : s.pool = some pool) (htask : s.object.downloadTasks[0]? = some t)
    (hrun : 0 ∈ pool.running) (hphase : s.phase 0 = .ready) (hstart : t.start = 0)
    (hblock : t.block = 1) (hdownload : t.download = 0) {b c : Byte}
    (hfile : disk.saveFile = some [b, c]) :
    ∃ s', exec (Session.run twoBytes) (disk, s) [.task 0 .request, .task 0 .opened,
        .task 0 (.read 1), .task 0 .write, .task 0 .count]
          = some ({ disk with saveFile := some [0x41, c] }, s') ∧
      s'.object = { s.object with
        downloadTasks := s.object.downloadTasks.set 0 { t with download := 1 } } ∧
      Moved 0 (.checking 1 1) s s' := by
  -- The task asks for the range 0-0 and is answered with one byte.
  have hfrom : toInt32 (t.start + t.download) = 0 := by
    rw [hstart, hdownload]
    decide
  have hto : toInt32 (t.start + t.block - 1) = 0 := by
    rw [hstart, hblock]
    decide
  obtain ⟨s₁, hopen, hobject, hmoved⟩ := open_run twoBytes disk hpool htask hrun hphase (by omega)
  rw [hfrom, hto] at hmoved
  have hend : twoBytes.answerEnd 0 0 = 1 := by decide
  rw [hend] at hmoved
  have htask₁ : s₁.object.downloadTasks[0]? = some t := by
    rw [hobject]
    exact htask
  have hpool₁ := hmoved.pool.trans hpool
  have hread := run_read twoBytes disk (s := s₁) hpool₁ htask₁ hrun hmoved.phase
    (show 0 < 1 ∧ 1 ≤ 10240 ∧ (0 : Int).toNat + 1 ≤ 1 by decide)
  have hwrite := run_write twoBytes disk (s := s₁.setPhase 0 (.writing 0 1 1)) hpool₁ htask₁ hrun
    (moved_setPhase _ _ _).phase hfile
  have hfile' : writeAt [b, c] 0 (twoBytes.chunk 0 1) = [0x41, c] := rfl
  rw [hfile'] at hwrite
  have hcount := run_count twoBytes { disk with saveFile := some [0x41, c] }
    (s := (s₁.setPhase 0 (.writing 0 1 1)).setPhase 0 (.counting 0 1 1)) hpool₁ htask₁ hrun
    (moved_setPhase _ _ _).phase
  -- Read, written and counted.
  have hall := (exec_append _ _ _ _ [.task 0 (.read 1), .task 0 .write, .task 0 .count] hopen).trans
    ((exec_cons hread).trans ((exec_cons hwrite).trans (exec_cons hcount)))
  refine ⟨_, hall, ?_, ?_⟩
  · simp only [Session.setPhase, Session.addDownload, hobject, hdownload]
    rfl
  · refine hmoved.trans ⟨rfl, rfl, rfl, rfl, rfl, rfl, (moved_setPhase _ _ _).phase, fun j hj => ?_⟩
    simp only [Session.setPhase, Session.addDownload, hj, if_false]

end Fetch

/-- A session without a config file creates one. -/
theorem create_run (r : Remote) (disk : Disk) (n : Nat) (redownload : Bool) (fill : List Byte)
    (hn : 1 ≤ n) (hcfg : disk.cfg = none)
    (hfill : fill.length = r.fileSize - (disk.saveFile.getD []).length) :
    ∃ moves, exec (Session.run r) (disk, Session.create r n redownload) moves
      = some (⟨some ((disk.saveFile.getD []).take r.fileSize ++ fill),
        some (cfgBytes (encodeUtf16 r.url) r.fileSize n (List.replicate n 0))⟩,
        prepared r n redownload .parse) := by
  -- The counters of a new file are all zero.
  have hnew : (prepared r n redownload .newFile).object.newCfg
      = cfgBytes (encodeUtf16 r.url) r.fileSize n (List.replicate n 0) := by
    unfold prepared HttpDownload.newCfg HttpDownload.create
    simp only
    rw [if_neg (by omega), Int.toNat_natCast]
  have hprepare := prepare_run r disk n redownload fill hfill
  rw [hcfg] at hprepare
  have hnone : Session.run r (⟨some ((disk.saveFile.getD []).take r.fileSize ++ fill), none⟩,
      prepared r n redownload .createCfg) .coord
        = some (⟨some ((disk.saveFile.getD []).take r.fileSize ++ fill), none⟩,
          prepared r n redownload .newFile) :=
    run_noCfg r _ rfl rfl
  -- From here on the bytes of the file do not matter.
  generalize cfgBytes (encodeUtf16 r.url) r.fileSize n (List.replicate n 0) = bytes at hnew ⊢
  have hcreate : Session.run r (⟨some ((disk.saveFile.getD []).take r.fileSize ++ fill), none⟩,
      prepared r n redownload .newFile) .coord
        = some (⟨some ((disk.saveFile.getD []).take r.fileSize ++ fill), some []⟩,
          prepared r n redownload (.writeCfg bytes)) := by
    rw [run_newFile r _ rfl, hnew]
    rfl
  have hwrite : Session.run r (⟨some ((disk.saveFile.getD []).take r.fileSize ++ fill), some []⟩,
      prepared r n redownload (.writeCfg bytes)) (.writeCfg bytes.length)
        = some (⟨some ((disk.saveFile.getD []).take r.fileSize ++ fill), some bytes⟩,
          prepared r n redownload (.writeCfg [])) :=
    run_writeCfg r _ rfl rfl
  have hclose : Session.run r (⟨some ((disk.saveFile.getD []).take r.fileSize ++ fill), some bytes⟩,
      prepared r n redownload (.writeCfg [])) .coord
        = some (⟨some ((disk.saveFile.getD []).take r.fileSize ++ fill), some bytes⟩,
          prepared r n redownload .parse) :=
    run_closeCfg r _ rfl
  refine ⟨_, (exec_append _ _ _ _ [.coord, .coord, .writeCfg bytes.length, .coord]
    hprepare).trans ?_⟩
  rw [exec_cons hnone, exec_cons hcreate, exec_cons hwrite, exec_cons hclose]
  rfl

/-- A session whose coordinator has begun to wait. -/
def waitingSession (u : List Byte) (n : Nat) (counters : List Int) (bytes : List Byte) : Session :=
  { resumed twoBytes u n counters n false with
    offset := counterOffset bytes n
    taskCount := n
    pc := .loop }

/-- The counters the first session leaves behind. -/
def misplaced (n : Nat) : List Int := List.replicate (n - 1) 0 ++ [1]

theorem counters_misplaced {n : Nat} {c : Int} (h : c ∈ misplaced n) : c = 0 ∨ c = 1 := by
  rcases List.mem_append.mp h with h | h
  · exact Or.inl (List.eq_of_mem_replicate h)
  · exact Or.inr (List.mem_singleton.mp h)

/-- The tasks of the second session once the first of them has fetched its
    byte. -/
def misled (n : Nat) : List DownloadTask :=
  (tasksOf twoBytes.fileSize n (misplaced n)).set 0 ⟨0, 0, 1, 1⟩

section Overflow

variable {n : Nat} (hn : n = 1073741825)

include hn

theorem wrapped_slots : toInt32 (4 * (n : Int)) = 4 := by
  unfold toInt32
  rw [Int.bmod_def]
  split <;> omega

theorem share_two : share 2 n = 1 := by
  unfold share
  rw [Nat.div_eq_of_lt_le]
  · omega
  · omega

/-- The tasks of two bytes among so many threads. -/
theorem taskAt_two {i : Nat} (hi : i < n) (c : Int) :
    taskAt twoBytes.fileSize n i c = ⟨i, i, if i + 1 < n then 1 else 2 - (i : Int), c⟩ := by
  have hsize : twoBytes.fileSize = 2 := rfl
  rw [hsize, taskAt_eq (by omega) (by omega) hi, share_two hn, Nat.mul_one]
  rfl

/-- The counter of the first task goes to the slot of the last one. -/
theorem writeCounter_last (u : List Byte) (fileSize : Int) (v : Int) :
    writeCounter (cfgBytes u fileSize n (List.replicate n 0))
      (counterOffset (cfgBytes u fileSize n (List.replicate n 0)) n) 0 v
        = some (cfgBytes u fileSize n (List.replicate (n - 1) 0 ++ [v])) := by
  -- The slot of the last task is the end of the file.
  have hsplit : List.replicate n (0 : Int) = List.replicate (n - 1) 0 ++ [0] := by
    rw [← List.replicate_succ']
    congr 1
    omega
  have hbytes : ∀ c : Int, cfgBytes u fileSize n (List.replicate (n - 1) 0 ++ [c])
      = (cfgHeader u fileSize n ++ (List.replicate (n - 1) (0 : Int)).flatMap intBytes)
        ++ intBytes c ++ [] := by
    intro c
    unfold cfgBytes
    rw [List.flatMap_append, List.flatMap_singleton, List.append_nil, List.append_assoc]
  have hbefore : (cfgHeader u fileSize n ++
      (List.replicate (n - 1) (0 : Int)).flatMap intBytes).length
        = u.length + 24 + 4 * (n - 1) := by
    rw [List.length_append, length_cfgHeader, length_flatMap_intBytes, List.length_replicate]
  -- The wrapped `4 * n` is 4, so the counters are taken to begin there.
  have hoffset : counterOffset (cfgBytes u fileSize n (List.replicate n 0)) n
      = ((cfgHeader u fileSize n ++
        (List.replicate (n - 1) (0 : Int)).flatMap intBytes).length : Nat) := by
    unfold counterOffset cfgBytes
    rw [wrapped_slots hn, List.length_append, length_cfgHeader, length_flatMap_intBytes,
      List.length_replicate, hbefore]
    omega
  have hzero : toInt32 (4 * (0 : Int)) = 0 := by decide
  rw [hoffset]
  unfold writeCounter
  simp only
  rw [hzero, Int.add_zero, if_neg (by omega), Int.toNat_natCast, hsplit, hbytes 0, hbytes v,
    writeAt_slot _ (intBytes 0) [] (intBytes v) rfl]

/-- The first task fetches its byte while the coordinator waits. -/
theorem begin_run {u : List Byte} {counters : List Int} {bytes : List Byte} {disk : Disk}
    {b c : Byte} (hfirst : counters[0]? = some 0) (hcfg : disk.cfg = some bytes)
    (hfile : disk.saveFile = some [b, c]) :
    ∃ moves s', exec (Session.run twoBytes) (disk, resumed twoBytes u n counters n false) moves
        = some ({ disk with saveFile := some [0x41, c] }, s') ∧
      s'.object = { loaded twoBytes u n counters with
        downloadTasks := (tasksOf twoBytes.fileSize n counters).set 0 ⟨0, 0, 1, 1⟩ } ∧
      Moved 0 (.reading 1 1) (waitingSession u n counters bytes) s' := by
  -- The coordinator computes its offset and begins to wait.
  have hopen : Session.run twoBytes (disk, resumed twoBytes u n counters n false) .coord
      = some (disk, waitingSession u n counters bytes) :=
    run_openCfg twoBytes disk rfl hcfg
  have htask : (waitingSession u n counters bytes).object.downloadTasks[0]?
      = some ⟨0, 0, 1, 0⟩ := by
    show (tasksOf twoBytes.fileSize n counters)[0]? = _
    rw [getElem?_tasksOf, hfirst, Option.map_some, taskAt_two hn (by omega), if_pos (by omega)]
    rfl
  have hrun : 0 ∈ List.range n := List.mem_range.mpr (by omega)
  obtain ⟨s₁, hfetch, hobject, hmoved⟩ := fetch_run disk (s := waitingSession u n counters bytes)
    rfl htask hrun rfl rfl rfl rfl hfile
  have htask₁ : s₁.object.downloadTasks[0]? = some ⟨0, 0, 1, 1⟩ := by
    rw [hobject]
    simp only [List.getElem?_set_self (List.getElem?_eq_some_iff.mp htask).1]
  -- No stop yet, so the task goes on reading.
  have hgo := run_goOn twoBytes { disk with saveFile := some [0x41, c] } (s := s₁)
    hmoved.pool htask₁ hrun hmoved.phase hmoved.stopFlag
  have hall := (exec_cons hopen).trans
    ((exec_append _ _ _ _ [.task 0 .checkStop] hfetch).trans (exec_cons hgo))
  exact ⟨_, _, hall, hobject, hmoved.trans (moved_setPhase s₁ 0 _)⟩

/-- The first session crashes after it has recorded the byte in the slot of the
    last task. -/
theorem first_session :
    ∃ moves s', exec (Session.run twoBytes) (⟨none, none⟩, Session.create twoBytes n false) moves
      = some (⟨some [0x41, 0], some (cfgBytes (encodeUtf16 twoBytes.url) twoBytes.fileSize n
        (misplaced n))⟩, s') := by
  obtain ⟨moves₁, hcreate⟩ := create_run twoBytes ⟨none, none⟩ n false [0, 0] (by omega) rfl rfl
  have hsubmit := submit_run twoBytes
    ⟨some (([] : List Byte).take twoBytes.fileSize ++ [0, 0]),
      some (cfgBytes (encodeUtf16 twoBytes.url) twoBytes.fileSize n (List.replicate n 0))⟩
    (encodeUtf16 twoBytes.url) n (List.replicate n 0) n
    false rfl (encodeUtf16_url_lt twoBytes) (by omega) (by omega) List.length_replicate (by
      intro d hd
      rw [List.eq_of_mem_replicate hd]
      omega)
  -- Recording 1 for task zero writes it to the last slot.
  have hlast := writeCounter_last hn (encodeUtf16 twoBytes.url) twoBytes.fileSize 1
  generalize cfgBytes (encodeUtf16 twoBytes.url) twoBytes.fileSize n (List.replicate n 0) = bytes
    at hcreate hsubmit hlast
  obtain ⟨moves₂, s₁, hbegin, hobject, hmoved⟩ := begin_run hn (u := encodeUtf16 twoBytes.url)
    (c := 0) (b := 0)
    (show (List.replicate n (0 : Int))[0]? = some 0 by
      rw [List.getElem?_replicate, if_pos (by omega)])
    (show Disk.cfg ⟨some [0, 0], some bytes⟩ = some bytes from rfl) rfl
  have htask : s₁.object.downloadTasks[0]? = some ⟨0, 0, 1, 1⟩ := by
    rw [hobject]
    exact List.getElem?_set_self (by
      rw [length_tasksOf, List.length_replicate]
      omega)
  -- The task returns, is taken and recorded.
  have hend := run_endOfStream twoBytes ⟨some [0x41, 0], some bytes⟩ (s := s₁) hmoved.pool htask
    (List.mem_range.mpr (by omega)) hmoved.phase
  obtain ⟨s₂, htake, hpc, hobject₂, hoffset⟩ : ∃ s₂ : Session,
      Session.run twoBytes (⟨some [0x41, 0], some bytes⟩,
        s₁.finish ⟨n, n, [], List.range n, [], [], false⟩ 0) .coord
          = some (⟨some [0x41, 0], some bytes⟩, s₂) ∧ s₂.pc = .record 0 ∧
      s₂.object = s₁.object ∧ s₂.offset = s₁.offset := by
    refine ⟨_, run_take twoBytes _ hmoved.pc ?_ rfl rfl, rfl, rfl, rfl⟩
    simp only [Session.finish, Session.setPhase, hmoved.taskCount, waitingSession]
    omega
  have hrecord := run_record twoBytes ⟨some [0x41, 0], some bytes⟩ hpc
    (by rw [hobject₂]; exact htask) rfl
    (by rw [hoffset, hmoved.offset]; exact hlast)
  have hall := (exec_append _ _ _ _ _ hcreate).trans ((exec_append _ _ _ _ _ hsubmit).trans
    ((exec_append _ _ _ _ [.task 0 .endOfStream, .coord, .coord] hbegin).trans
      ((exec_cons hend).trans ((exec_cons htake).trans (exec_cons hrecord)))))
  exact ⟨_, _, hall⟩

theorem misplaced_eq : misplaced n = 0 :: List.replicate (n - 2) 0 ++ [1] := by
  unfold misplaced
  rw [← List.replicate_succ]
  congr 2
  omega

theorem length_misplaced : (misplaced n).length = n := by
  unfold misplaced
  rw [List.length_append, List.length_replicate, List.length_singleton]
  omega

theorem addUp_misled : addUp (misled n) 0 = 2 := by
  refine addUp_two (n := n) ?_
  unfold misled
  rw [List.map_set, map_download_tasksOf, misplaced_eq hn]
  rfl

/-- No request of a misled task is refused for a negative position. -/
theorem misled_tasks (k : Nat) (hk : k < n) :
    ∃ t, (misled n)[k]? = some t ∧ 0 ≤ toInt32 (t.start + t.download) := by
  have hlen := length_misplaced hn
  unfold misled
  rcases k with _ | k
  · refine ⟨⟨0, 0, 1, 1⟩, List.getElem?_set_self (by rw [length_tasksOf, hlen]; omega), by decide⟩
  -- Every other task starts at its own index, with a counter of zero or one.
  · have hget : (misplaced n)[k + 1]? = some (misplaced n)[k + 1] := List.getElem?_eq_getElem _
    have hc := counters_misplaced (List.mem_of_getElem? hget)
    refine ⟨taskAt twoBytes.fileSize n (k + 1) (misplaced n)[k + 1], ?_, ?_⟩
    · rw [List.getElem?_set_ne (by omega), getElem?_tasksOf, hget, Option.map_some]
    · rw [taskAt_two hn hk]
      simp only
      rw [toInt32_eq _ (by omega) (by omega)]
      omega

/-- The second session is stopped when its first task has fetched the byte. -/
theorem stop_run :
    ∃ moves p, exec (Session.run twoBytes) (⟨some [0x41, 0],
        some (cfgBytes (encodeUtf16 twoBytes.url) twoBytes.fileSize n (misplaced n))⟩,
        Session.create twoBytes n false) moves = some p ∧
      Draining n 1 (misled n) [0x41, 0] p := by
  have hlen := length_misplaced hn
  have hcounters : Counters (misplaced n) := by
    intro d hd
    have := counters_misplaced hd
    omega
  -- The second session reads the misplaced counter as progress of the last
  -- task.
  have hresume := resume_run twoBytes ⟨some [0x41, 0], some (cfgBytes (encodeUtf16 twoBytes.url)
      twoBytes.fileSize n (misplaced n))⟩ (encodeUtf16 twoBytes.url) n (misplaced n) n [] rfl
    (encodeUtf16_url_lt twoBytes) (by omega) (by omega) hlen hcounters rfl
  have hoffset : 2147483648 ≤ counterOffset (cfgBytes (encodeUtf16 twoBytes.url) twoBytes.fileSize n
      (misplaced n)) n := by
    unfold counterOffset cfgBytes
    rw [wrapped_slots hn, List.length_append, length_cfgHeader, length_flatMap_intBytes, hlen]
    omega
  generalize cfgBytes (encodeUtf16 twoBytes.url) twoBytes.fileSize n (misplaced n) = bytes
    at hresume hoffset ⊢
  obtain ⟨moves₁, s₁, hbegin, hobject, hmoved⟩ := begin_run hn (u := encodeUtf16 twoBytes.url)
    (c := 0) (b := 0x41) (show (misplaced n)[0]? = some 0 by rw [misplaced_eq hn]; rfl)
    (show Disk.cfg ⟨some [0x41, 0], some bytes⟩ = some bytes from rfl) rfl
  have htask : s₁.object.downloadTasks[0]? = some ⟨0, 0, 1, 1⟩ := by
    rw [hobject]
    exact List.getElem?_set_self (by rw [length_tasksOf, hlen]; omega)
  -- The flag is set, and the task comes back.
  have hflag := run_flag twoBytes ⟨some [0x41, 0], some bytes⟩ hmoved.stopPc
  have hend := run_endOfStream twoBytes ⟨some [0x41, 0], some bytes⟩
    (s := { s₁ with stopFlag := true, stopPc := .flagged }) hmoved.pool htask
    (List.mem_range.mpr (by omega)) hmoved.phase
  obtain ⟨cfg, hsettle⟩ := settle_run twoBytes ⟨some [0x41, 0], some bytes⟩
    (s := Session.finish { s₁ with stopFlag := true, stopPc := .flagged }
      ⟨n, n, [], List.range n, [], [], false⟩ 0)
    (p := ThreadPool.finish ⟨n, n, [], List.range n, [], [], false⟩ 0) (k := 0)
    hmoved.pc (by
      simp only [Session.finish, Session.setPhase, hmoved.taskCount, waitingSession]
      omega) rfl rfl htask rfl (by
      simp only [Session.finish, Session.setPhase, hmoved.offset, waitingSession]
      exact hoffset) rfl
  have hstart := (exec_append _ _ _ _ _ hresume).trans ((exec_append _ _ _ _
    ([.stop, .task 0 .endOfStream] ++ [.coord, .coord, .coord]) hbegin).trans
      ((exec_cons hflag).trans ((exec_cons hend).trans hsettle)))
  -- One task is back, and all the others are still out.
  refine ⟨_, _, hstart, rfl, rfl, ?_, ?_, ?_, ?_, ⟨_, rfl, ?_, rfl⟩, ?_, rfl, cfg, rfl⟩
  · simp only [Session.finish, Session.setPhase, hmoved.taskCount, waitingSession]
    omega
  · simp only [Session.finish, Session.setPhase, hmoved.offset, waitingSession]
    exact hoffset
  · simp only [Session.finish, Session.setPhase, hobject]
    rfl
  · simp only [Session.finish, Session.setPhase, hobject]
    rfl
  · have hrange : List.range n = 0 :: List.range' 1 (n - 1) := by
      rw [List.range_eq_range']
      obtain ⟨m, rfl⟩ : ∃ m, n = m + 1 := ⟨n - 1, by omega⟩
      rw [List.range'_succ, Nat.add_sub_cancel, Nat.zero_add]
    simp only [ThreadPool.finish, hrange, List.erase_cons_head]
  · intro j hj
    simp only [Session.finish, Session.setPhase]
    rw [if_neg (by omega), hmoved.others j (by omega)]
    rfl

/-- The second session reports success with a byte missing. -/
theorem second_session :
    ∃ moves p, exec (Session.run twoBytes) (⟨some [0x41, 0],
        some (cfgBytes (encodeUtf16 twoBytes.url) twoBytes.fileSize n (misplaced n))⟩,
        Session.create twoBytes n false) moves = some p ∧
      p.2.pc = .returned true ∧ p.1.saveFile = some [0x41, 0] := by
  obtain ⟨moves₁, p₁, hrun₁, hdraining⟩ := stop_run hn
  obtain ⟨moves₂, p₂, hrun₂, hdrained⟩ :=
    drain_run twoBytes (misled_tasks hn) (n - 1) 1 p₁ (by omega) hdraining
  obtain ⟨moves₃, p₃, hrun₃, hpc, hfile⟩ := success_run twoBytes hdrained (addUp_misled hn)
  exact ⟨_, p₃, (exec_append _ _ _ _ _ hrun₁).trans ((exec_append _ _ _ _ _ hrun₂).trans hrun₃),
    hpc, hfile⟩

end Overflow

/-- Two sessions of `2 ^ 30 + 1` threads over a file of two bytes, the first cut
    short by a crash and the second by a stop, leave a file with a byte missing
    and report success. -/
theorem overflow_incomplete :
    ∃ (first second : List Move) (w : World),
      exec (World.step twoBytes) (World.initial ⟨none, none⟩)
        ((.newSession 1073741825 false :: first.map (.move 0)) ++
          (.crash :: .newSession 1073741825 false :: second.map (.move 0))) = some w ∧
      ∃ s ∈ w.sessions, s.pc = .returned true ∧ w.disk.saveFile ≠ some twoBytes.bytes := by
  obtain ⟨first, s₁, hfirst⟩ := first_session (n := 1073741825) rfl
  obtain ⟨second, ⟨disk, s₂⟩, hsecond, hpc, hfile⟩ := second_session (n := 1073741825) rfl
  -- The crash leaves the disk to the second session.
  refine ⟨first, second, ⟨disk, [s₂]⟩, ?_, s₂, List.mem_singleton.mpr rfl, hpc, ?_⟩
  · have hworld₁ : exec (World.step twoBytes) (World.initial ⟨none, none⟩)
        (.newSession 1073741825 false :: first.map (.move 0)) = some _ :=
      (exec_cons rfl).trans (World.exec_head hfirst [])
    refine (exec_append _ _ _ _ _ hworld₁).trans ?_
    exact (exec_cons rfl).trans ((exec_cons rfl).trans (World.exec_head hsecond []))
  · rw [hfile]
    decide

end NetProbe
