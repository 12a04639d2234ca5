import NetProbe.Lib.Machine
import NetProbe.Lib.ThreadPool
import NetProbe.Download.Config

/-!
# Download Sessions

A session is one `HttpDownload` object with the thread that runs `download`
on it, the workers that run its tasks, and a thread that may call `stop`. The
machine interleaves them one step at a time, down to the read, write and count
of a task and the single counter writes of the coordinator.

What a session shares with the one before it is on disk: the file being
downloaded and the config file. Sessions follow one another, but a session
whose coordinator has left early leaves its tasks running, so the machine
keeps the earlier sessions and lets them move on. A crash of the process ends
them all and keeps the disk.

The label of a step holds every choice the environment makes: what the server
answers and how much of it arrives, how a file grows, which I/O fails, which
thread is interrupted. The assumptions about `java.util.concurrent` are those
of `ThreadPool`; testing `stopFlag` and submitting is one step, and so is
setting it.

## Main definitions

* `Remote`: The file on the server, and its URL.
* `Disk`: The local file and the config file.
* `Phase`, `TaskMove`: A task inside `call()`.
* `Pc`: The coordinator inside `download`.
* `Session`: The object, its pool, and where each thread is.
* `Session.step`: One step of a session.
* `Session.Called`, `Session.Worked`, `Session.Stepped`: The steps of a task,
  of the coordinator and of a session, one case each.
* `World`, `step`: The disk and the sessions, and one step of all.
* `oneByte`, `fourBytes`, `upToLoop`: Small files, and the beginning of a download.

## Theorems

* `stopStep_frame`: What a part of `stop` leaves alone.
* `callStep_called`, `taskStep_called`: What a step of a task can be.
* `coordStep_worked`: What a step of the coordinator can be.
* `step_stepped`: What a step of a session can be.
* `step_cases`: What a step of the world is.
* `exec_head`: A run of the latest session is a run of the world.
* `sessions_keep`: From the steps of a session to all sessions.
-/

namespace NetProbe

/-- The file on the server. The two bounds say that its length and the length
    of the encoded URL are `int` values. -/
structure Remote where
  url : List CodeUnit
  bytes : List Byte
  nonempty : 1 ≤ bytes.length
  size_lt : bytes.length < 2147483648
  url_lt : 2 * url.length < 2147483648

namespace Remote

/-- `conn.getContentLength()`. -/
def fileSize (r : Remote) : Nat := r.bytes.length

theorem fileSize_pos (r : Remote) : 1 ≤ r.fileSize := r.nonempty

theorem fileSize_lt (r : Remote) : r.fileSize < 2147483648 := r.size_lt

/-- Where the answer to a range request ends: at the end of the range or of
    the file, and at its start if the range asks for nothing. -/
def answerEnd (r : Remote) (startPos endPos : Int) : Nat :=
  if startPos ≤ endPos ∧ startPos < r.fileSize then min (endPos + 1).toNat r.fileSize
  else startPos.toNat

/-- The bytes from `pos` on that one `read` delivers. -/
def chunk (r : Remote) (pos readLen : Nat) : List Byte := (r.bytes.drop pos).take readLen

end Remote

/-- The two files of a download. -/
structure Disk where
  saveFile : Option (List Byte)
  cfg : Option (List Byte)
  deriving DecidableEq, Repr

/-- Where a task is in `call()`. A task that is not submitted, or has returned,
    is `idle`; `ready` is before the request. The positions are those of the
    file and of the answer, which move together. -/
inductive Phase where
  | idle
  | ready
  | requested (startPos endPos : Int)
  | reading (pos limit : Nat)
  | writing (pos limit readLen : Nat)
  | counting (pos limit readLen : Nat)
  | checking (pos limit : Nat)
  deriving DecidableEq, Repr

/-- What a task does next. -/
inductive TaskMove where
  | noConnection
  | request
  | refused
  | opened
  | read (readLen : Nat)
  | writePart (k : Nat)
  | write
  | count
  | checkStop
  | endOfStream
  | broken
  deriving DecidableEq, Repr

/-- Where the coordinator is in `download`. -/
inductive Pc where
  | init
  | localFile
  | setLength
  | createCfg
  | newFile
  | writeCfg (rest : List Byte)
  | parse
  | newPool
  | submitAll
  | openCfg
  | loop
  | record (i : Nat)
  | check (i : Nat)
  | await
  | awaited
  | judge (i : Nat) (downloadSize : Int)
  | saveOpen
  | save (i : Nat)
  | returned (success : Bool)
  | thrown
  deriving DecidableEq, Repr

/-- `download` has not read the config file yet. -/
def Pc.early : Pc → Bool
  | .init | .localFile | .setLength | .createCfg | .newFile | .writeCfg _ | .parse => true
  | _ => false

/-- The three parts of `stop()`. -/
inductive StopPc where
  | idle
  | flagged
  | disconnected
  deriving DecidableEq, Repr

/-- A range request sent by a task. -/
structure Request where
  task : Nat
  startPos : Int
  endPos : Int
  deriving DecidableEq, Repr

/-- An `HttpDownload` object and the threads that work on it. -/
structure Session where
  object : HttpDownload
  redownload : Bool
  stopFlag : Bool
  pool : Option (ThreadPool Nat)
  phase : Nat → Phase
  pc : Pc
  taskCount : Int
  offset : Int
  stopPc : StopPc
  requests : List Request

/-- A step of one session. -/
inductive Move where
  | coord
  | extend (fill : List Byte)
  | writeCfg (k : Nat)
  | fail
  | interrupt
  | pick
  | task (i : Nat) (m : TaskMove)
  | stop
  deriving DecidableEq, Repr

namespace Session

/-- `new HttpDownload(url, localPath, threadCount).download(redownload)`. -/
def create (r : Remote) (threadCount : Int) (redownload : Bool) : Session where
  object := HttpDownload.create r.url threadCount
  redownload := redownload
  stopFlag := false
  pool := none
  phase := fun _ => .idle
  pc := .init
  taskCount := 0
  offset := 0
  stopPc := .idle
  requests := []

/-- The call of `download` is over. -/
def ended (s : Session) : Bool :=
  match s.pc with
  | .returned _ => true
  | .thrown => true
  | _ => false

def setPhase (s : Session) (i : Nat) (ph : Phase) : Session :=
  { s with phase := fun j => if j = i then ph else s.phase j }

/-- `call()` of task `i` returns. -/
def finish (s : Session) (pool : ThreadPool Nat) (i : Nat) : Session :=
  { s.setPhase i .idle with pool := some (pool.finish i) }

/-- `download += readLen` of task `i`. -/
def addDownload (s : Session) (i : Nat) (t : DownloadTask) (readLen : Nat) : Session :=
  { s with
    object := { s.object with
      downloadTasks := s.object.downloadTasks.set i
        { t with download := toInt32 (t.download + readLen) } } }

/-- One step of `call()`, of the running task `i`. An I/O error, a lost
    connection or a `disconnect` ends it anywhere. -/
def callStep (r : Remote) (disk : Disk) (s : Session) (pool : ThreadPool Nat) (i : Nat)
    (t : DownloadTask) : TaskMove → Option (Disk × Session)
  -- `httpConnect` found no connection: `call()` returns before it asks.
  | .noConnection =>
      match s.phase i with
      | .ready => some (disk, s.finish pool i)
      | _ => none
  | .request =>
      match s.phase i with
      | .ready =>
          -- Both positions are `int` sums in the source.
          let startPos := toInt32 (t.start + t.download)
          let endPos := toInt32 (t.start + t.block - 1)
          some (disk, { s.setPhase i (.requested startPos endPos) with
            requests := s.requests ++ [⟨i, startPos, endPos⟩] })
      | _ => none
  | .refused =>
      match s.phase i with
      | .requested _ _ => some (disk, s.finish pool i)
      | _ => none
  | .opened =>
      match s.phase i with
      | .requested startPos endPos =>
          -- `seek` to a negative position fails.
          if startPos < 0 then some (disk, s.finish pool i)
          else some (disk, s.setPhase i
            (.reading startPos.toNat (r.answerEnd startPos endPos)))
      | _ => none
  | .read readLen =>
      match s.phase i with
      | .reading pos limit =>
          -- One `read` fills at most the 10240 bytes of the buffer.
          if 0 < readLen ∧ readLen ≤ 10240 ∧ pos + readLen ≤ limit then
            some (disk, s.setPhase i (.writing pos limit readLen))
          else none
      | _ => none
  | .writePart k =>
      -- A write under way: a crash or an error may follow.
      match s.phase i, disk.saveFile with
      | .writing pos _ readLen, some file =>
          some ({ disk with saveFile := some (writeAt file pos (r.chunk pos (min k readLen))) }, s)
      | _, _ => none
  | .write =>
      match s.phase i, disk.saveFile with
      | .writing pos limit readLen, some file =>
          some ({ disk with saveFile := some (writeAt file pos (r.chunk pos readLen)) },
            s.setPhase i (.counting pos limit readLen))
      | _, _ => none
  -- The bytes are in the file before they are counted.
  | .count =>
      match s.phase i with
      | .counting pos limit readLen =>
          some (disk, (s.addDownload i t readLen).setPhase i (.checking (pos + readLen) limit))
      | _ => none
  | .checkStop =>
      match s.phase i with
      | .checking pos limit =>
          -- The stop flag is looked at after every chunk.
          if s.stopFlag then some (disk, s.finish pool i)
          else some (disk, s.setPhase i (.reading pos limit))
      | _ => none
  | .endOfStream =>
      match s.phase i with
      | .reading _ _ => some (disk, s.finish pool i)
      | _ => none
  | .broken =>
      match s.phase i with
      | .reading _ _ => some (disk, s.finish pool i)
      | .writing _ _ _ => some (disk, s.finish pool i)
      | _ => none

/-- One step of task `i`, if a worker is running it. -/
def taskStep (r : Remote) (disk : Disk) (s : Session) (i : Nat) (m : TaskMove) :
    Option (Disk × Session) :=
  match s.pool, s.object.downloadTasks[i]? with
  | some pool, some t => if i ∈ pool.running then s.callStep r disk pool i t m else none
  | _, _ => none

/-- The open config file, which opening for writing creates. -/
def cfgFile (disk : Disk) : List Byte := disk.cfg.getD []

/-- The first submissions, under the lock. -/
def submitTasks (disk : Disk) (s : Session) : Option (Disk × Session) :=
  if s.stopFlag then some (disk, { s with pc := .returned false })
  else
    match s.pool.bind (fun p => p.submitAll (List.range s.object.downloadTasks.length)) with
    | none => some (disk, { s with pc := .thrown })
    | some p => some (disk, { s with pool := some p, phase := fun _ => .ready, pc := .openCfg })

/-- What follows the counter write of a task taken from the completion
    service, under the lock. -/
def recheck (disk : Disk) (s : Session) (i : Nat) (t : DownloadTask) : Disk × Session :=
  if !s.stopFlag && decide (t.download < t.block) then
    match s.pool.bind (fun p => p.submit i) with
    | none => (disk, { s with pc := .thrown })
    | some p => (disk, { s.setPhase i .ready with pool := some p, pc := .loop })
  else (disk, { s with taskCount := s.taskCount - 1, pc := .loop })

/-- The next step of `download`, where it depends on nothing outside. -/
def coordStep (r : Remote) (disk : Disk) (s : Session) : Option (Disk × Session) :=
  match s.pc with
  | .init => some (disk, { s with stopFlag := false, pc := .localFile })
  -- `createLocalFile`, up to the length: the file is created if it is not
  -- there.
  | .localFile =>
      some ({ disk with saveFile := some (disk.saveFile.getD []) },
        { s with object := { s.object with fileSize := r.fileSize }, pc := .setLength })
  | .setLength => none
  -- `createDownloadCfg` deletes an existing file only for a new download.
  | .createCfg =>
      match disk.cfg with
      | none => some (disk, { s with pc := .newFile })
      | some _ =>
          if s.redownload then some ({ disk with cfg := none }, { s with pc := .newFile })
          else some (disk, { s with pc := .parse })
  | .newFile =>
      some ({ disk with cfg := some [] }, { s with pc := .writeCfg s.object.newCfg })
  | .writeCfg [] => some (disk, { s with pc := .parse })
  | .writeCfg (_ :: _) => none
  | .parse =>
      match s.object.parseDownloadCfg disk.cfg with
      | (.ok true, o, cfg) =>
          some ({ disk with cfg := cfg }, { s with object := o, pc := .newPool })
      | (.ok false, o, cfg) =>
          some ({ disk with cfg := cfg }, { s with object := o, pc := .returned false })
      | (.error _, o, cfg) => some ({ disk with cfg := cfg }, { s with object := o, pc := .thrown })
  -- `newFixedThreadPool` rejects a size below one.
  | .newPool =>
      if s.object.threadCount ≤ 0 then some (disk, { s with pc := .thrown })
      else some (disk, { s with
        pool := some (ThreadPool.newFixed s.object.threadCount.toNat)
        pc := .submitAll })
  | .submitAll => s.submitTasks disk
  -- The length of the file fixes where the counters are taken to be.
  | .openCfg =>
      some ({ disk with cfg := some (cfgFile disk) }, { s with
        offset := HttpDownload.counterOffset (cfgFile disk) s.object.threadCount
        taskCount := s.object.threadCount
        pc := .loop })
  | .loop =>
      if 0 < s.taskCount then
        -- `take()` blocks until a task has come back.
        match s.pool.bind ThreadPool.take with
        | none => none
        | some (i, p) => some (disk, { s with pool := some p, pc := .record i })
      else some (disk, { s with pc := .await })
  -- `writeInt` hands its four bytes to the file in one write, so that a counter
  -- is old or new on the disk; only longer writes get there in parts.
  | .record i =>
      match s.object.downloadTasks[i]? with
      | none => none
      | some t =>
          match HttpDownload.writeCounter (cfgFile disk) s.offset t.taskId t.download with
          -- A negative position makes `seek` fail.
          | none => some (disk, { s with pc := .judge 0 0 })
          | some cfg => some ({ disk with cfg := some cfg }, { s with pc := .check i })
  | .check i =>
      match s.object.downloadTasks[i]? with
      | none => none
      | some t => some (s.recheck disk i t)
  -- `awaitTermination` may time out, so the pool need not be terminated after
  -- it.
  | .await => some (disk, { s with pool := s.pool.map ThreadPool.shutdown, pc := .awaited })
  | .awaited =>
      some (disk, { s with
        pool := s.pool.map (fun p => if p.isTerminated then p else p.shutdownNow)
        pc := .judge 0 0 })
  | .judge i downloadSize =>
      match s.object.downloadTasks[i]? with
      | some t => some (disk, { s with pc := .judge (i + 1) (toInt32 (downloadSize + t.download)) })
      | none =>
          -- The config file goes only when the counters add up to the file
          -- size.
          if s.object.fileSize = downloadSize then
            some ({ disk with cfg := none }, { s with pc := .returned true })
          else some (disk, { s with pc := .saveOpen })
  | .saveOpen =>
      some ({ disk with cfg := some (cfgFile disk) }, { s with
        offset := HttpDownload.counterOffset (cfgFile disk) s.object.threadCount
        pc := .save 0 })
  | .save i =>
      match s.object.downloadTasks[i]? with
      | none => some (disk, { s with pc := .returned false })
      | some t =>
          match HttpDownload.writeCounter (cfgFile disk) s.offset t.taskId t.download with
          | none => some (disk, { s with pc := .returned false })
          | some cfg => some ({ disk with cfg := some cfg }, { s with pc := .save (i + 1) })
  | .returned _ => none
  | .thrown => none

/-- `setLength(fileSize)`: what a longer file loses is gone, and what a shorter
    one gains may be anything. -/
def extendStep (disk : Disk) (s : Session) (fill : List Byte) : Option (Disk × Session) :=
  match s.pc, disk.saveFile with
  | .setLength, some file =>
      if fill.length = s.object.fileSize.toNat - file.length then
        some ({ disk with saveFile := some (file.take s.object.fileSize.toNat ++ fill) },
          { s with pc := .createCfg })
      else none
  | _, _ => none

/-- The next bytes of a new config file reach the disk. -/
def writeCfgStep (disk : Disk) (s : Session) (k : Nat) : Option (Disk × Session) :=
  match s.pc with
  | .writeCfg rest =>
      some ({ disk with cfg := some (cfgFile disk ++ rest.take k) },
        { s with pc := .writeCfg (rest.drop k) })
  | _ => none

/-- What an I/O error, or a failure to connect for the file size, makes of
    `download`. -/
def failStep (disk : Disk) (s : Session) : Option (Disk × Session) :=
  match s.pc with
  | .localFile | .setLength | .newFile | .writeCfg _ | .parse | .saveOpen | .save _ =>
      some (disk, { s with pc := .returned false })
  | .openCfg | .record _ => some (disk, { s with pc := .judge 0 0 })
  | _ => none

/-- `InterruptedException` leaves `download`. -/
def interruptStep (disk : Disk) (s : Session) : Option (Disk × Session) :=
  match s.pc with
  | .loop | .awaited => some (disk, { s with pc := .thrown })
  | _ => none

/-- The next part of `stop()`. Disconnecting changes nothing by itself; it is
    one of the reasons for which tasks break. -/
def stopStep (disk : Disk) (s : Session) : Disk × Session :=
  match s.stopPc with
  | .idle => (disk, { s with stopFlag := true, stopPc := .flagged })
  | .flagged => (disk, { s with stopPc := .disconnected })
  | .disconnected => (disk, { s with pool := s.pool.map ThreadPool.shutdownNow, stopPc := .idle })

def step (r : Remote) (disk : Disk) (s : Session) : Move → Option (Disk × Session)
  | .coord => s.coordStep r disk
  | .extend fill => s.extendStep disk fill
  | .writeCfg k => s.writeCfgStep disk k
  | .fail => s.failStep disk
  | .interrupt => s.interruptStep disk
  | .pick => (s.pool.bind ThreadPool.pick).map (fun p => (disk, { s with pool := some p }))
  | .task i m => s.taskStep r disk i m
  | .stop => some (s.stopStep disk)

/-- A part of `stop` touches the flag and the pool only. -/
theorem stopStep_frame (disk : Disk) (s : Session) :
    (s.stopStep disk).1 = disk ∧ (s.stopStep disk).2.object = s.object ∧
      (s.stopStep disk).2.phase = s.phase ∧ (s.stopStep disk).2.pc = s.pc ∧
      (s.pool = none → (s.stopStep disk).2.pool = none) := by
  unfold stopStep
  split
  · exact ⟨rfl, rfl, rfl, rfl, id⟩
  · exact ⟨rfl, rfl, rfl, rfl, id⟩
  · refine ⟨rfl, rfl, rfl, rfl, fun hnone => ?_⟩
    rw [hnone, Option.map_none]

/-- What a step of `call()` can be. -/
inductive Called (r : Remote) (disk : Disk) (s : Session) (pool : ThreadPool Nat) (i : Nat)
    (t : DownloadTask) : Disk → Session → Prop where
  | returns : Called r disk s pool i t disk (s.finish pool i)
  | asks (hphase : s.phase i = .ready) :
      Called r disk s pool i t disk
        { s.setPhase i (.requested (toInt32 (t.start + t.download))
            (toInt32 (t.start + t.block - 1))) with
          requests := s.requests ++
            [⟨i, toInt32 (t.start + t.download), toInt32 (t.start + t.block - 1)⟩] }
  | opens (startPos endPos : Int) (hphase : s.phase i = .requested startPos endPos)
      (hpos : 0 ≤ startPos) :
      Called r disk s pool i t disk
        (s.setPhase i (.reading startPos.toNat (r.answerEnd startPos endPos)))
  | reads (pos limit readLen : Nat) (hphase : s.phase i = .reading pos limit)
      (hlen : 0 < readLen) (hlimit : pos + readLen ≤ limit) :
      Called r disk s pool i t disk (s.setPhase i (.writing pos limit readLen))
  | writesPart (pos limit readLen k : Nat) (file : List Byte)
      (hphase : s.phase i = .writing pos limit readLen) (hfile : disk.saveFile = some file)
      (hk : k ≤ readLen) :
      Called r disk s pool i t
        { disk with saveFile := some (writeAt file pos (r.chunk pos k)) } s
  | writes (pos limit readLen : Nat) (file : List Byte)
      (hphase : s.phase i = .writing pos limit readLen) (hfile : disk.saveFile = some file) :
      Called r disk s pool i t
        { disk with saveFile := some (writeAt file pos (r.chunk pos readLen)) }
        (s.setPhase i (.counting pos limit readLen))
  | counts (pos limit readLen : Nat) (hphase : s.phase i = .counting pos limit readLen) :
      Called r disk s pool i t disk
        ((s.addDownload i t readLen).setPhase i (.checking (pos + readLen) limit))
  | continues (pos limit : Nat) (hphase : s.phase i = .checking pos limit) :
      Called r disk s pool i t disk (s.setPhase i (.reading pos limit))

theorem callStep_called {r : Remote} {disk disk' : Disk} {s s' : Session} {pool : ThreadPool Nat}
    {i : Nat} {t : DownloadTask} {m : TaskMove}
    (h : s.callStep r disk pool i t m = some (disk', s')) :
    Called r disk s pool i t disk' s' := by
  unfold callStep at h
  rcases m with _ | _ | _ | _ | readLen | k | _ | _ | _ | _ | _ <;> dsimp only at h <;>
    split at h
  all_goals try exact absurd h (by simp only [reduceCtorEq, not_false_eq_true])
  all_goals try split at h
  all_goals try exact absurd h (by simp only [reduceCtorEq, not_false_eq_true])
  all_goals
    simp only [Option.some.injEq, Prod.mk.injEq] at h
    obtain ⟨rfl, rfl⟩ := h
  -- What is left is one case for each way a call goes on.
  all_goals try exact Called.returns
  · rename_i hphase
    exact Called.asks hphase
  · rename_i a b hphase hneg
    exact Called.opens a b hphase (by omega)
  · rename_i pos limit hphase hread
    exact Called.reads pos limit readLen hphase hread.1 hread.2.2
  · rename_i pos limit readLen file hphase hfile
    exact Called.writesPart pos limit readLen _ file hphase hfile (by omega)
  · rename_i pos limit readLen file hphase hfile
    exact Called.writes pos limit readLen file hphase hfile
  · rename_i pos limit readLen hphase
    exact Called.counts pos limit readLen hphase
  · rename_i pos limit hphase hstop
    exact Called.continues pos limit hphase

/-- A step of a task is a step of its `call()`, on a worker. -/
theorem taskStep_called {r : Remote} {disk disk' : Disk} {s s' : Session} {i : Nat} {m : TaskMove}
    (h : s.taskStep r disk i m = some (disk', s')) :
    ∃ pool t, s.pool = some pool ∧ s.object.downloadTasks[i]? = some t ∧ i ∈ pool.running ∧
      Called r disk s pool i t disk' s' := by
  unfold taskStep at h
  split at h
  · rename_i pool t hpool ht
    split at h
    · rename_i hrun
      exact ⟨pool, t, hpool, ht, hrun, callStep_called h⟩
    · exact absurd h (by simp only [reduceCtorEq, not_false_eq_true])
  · exact absurd h (by simp only [reduceCtorEq, not_false_eq_true])

/-- What a step of `download` can be. -/
inductive Worked (r : Remote) (disk : Disk) (s : Session) : Disk → Session → Prop where
  | starts (hpc : s.pc = .init) :
      Worked r disk s disk { s with stopFlag := false, pc := .localFile }
  | connects (hpc : s.pc = .localFile) :
      Worked r disk s { disk with saveFile := some (disk.saveFile.getD []) }
        { s with object := { s.object with fileSize := r.fileSize }, pc := .setLength }
  | setsLength (fill file : List Byte) (hpc : s.pc = .setLength) (hfile : disk.saveFile = some file)
      (hfill : fill.length = s.object.fileSize.toNat - file.length) :
      Worked r disk s
        { disk with saveFile := some (file.take s.object.fileSize.toNat ++ fill) }
        { s with pc := .createCfg }
  | findsNoCfg (hpc : s.pc = .createCfg) (hcfg : disk.cfg = none) :
      Worked r disk s disk { s with pc := .newFile }
  | dropsCfg (hpc : s.pc = .createCfg) (hredownload : s.redownload = true) :
      Worked r disk s { disk with cfg := none } { s with pc := .newFile }
  | keepsCfg (hpc : s.pc = .createCfg) : Worked r disk s disk { s with pc := .parse }
  | createsCfg (hpc : s.pc = .newFile) :
      Worked r disk s { disk with cfg := some [] } { s with pc := .writeCfg s.object.newCfg }
  | writesCfg (rest : List Byte) (k : Nat) (hpc : s.pc = .writeCfg rest) :
      Worked r disk s { disk with cfg := some (cfgFile disk ++ rest.take k) }
        { s with pc := .writeCfg (rest.drop k) }
  | closesCfg (hpc : s.pc = .writeCfg []) : Worked r disk s disk { s with pc := .parse }
  | parses (o : HttpDownload) (cfg : Option (List Byte)) (hpc : s.pc = .parse)
      (hparse : s.object.parseDownloadCfg disk.cfg = (.ok true, o, cfg)) :
      Worked r disk s { disk with cfg := cfg } { s with object := o, pc := .newPool }
  | parseEnds (result : Except JavaException Bool) (o : HttpDownload) (cfg : Option (List Byte))
      (pc : Pc) (hpc : s.pc = .parse) (hresult : result ≠ .ok true)
      (hparse : s.object.parseDownloadCfg disk.cfg = (result, o, cfg))
      (hend : pc = .returned false ∨ pc = .thrown) :
      Worked r disk s { disk with cfg := cfg } { s with object := o, pc := pc }
  | makesPool (hpc : s.pc = .newPool) (hpos : 0 < s.object.threadCount) :
      Worked r disk s disk { s with
        pool := some (ThreadPool.newFixed s.object.threadCount.toNat)
        pc := .submitAll }
  | submits (p p' : ThreadPool Nat) (hpc : s.pc = .submitAll) (hpool : s.pool = some p)
      (hsubmit : p.submitAll (List.range s.object.downloadTasks.length) = some p') :
      Worked r disk s disk { s with pool := some p', phase := fun _ => .ready, pc := .openCfg }
  | opensCfg (hpc : s.pc = .openCfg) :
      Worked r disk s { disk with cfg := some (cfgFile disk) } { s with
        offset := HttpDownload.counterOffset (cfgFile disk) s.object.threadCount
        taskCount := s.object.threadCount
        pc := .loop }
  | takes (p p' : ThreadPool Nat) (i : Nat) (hpc : s.pc = .loop) (hpool : s.pool = some p)
      (htake : p.take = some (i, p')) :
      Worked r disk s disk { s with pool := some p', pc := .record i }
  | leavesLoop (hpc : s.pc = .loop) : Worked r disk s disk { s with pc := .await }
  | records (i : Nat) (t : DownloadTask) (cfg : List Byte) (hpc : s.pc = .record i)
      (htask : s.object.downloadTasks[i]? = some t)
      (hwrite : HttpDownload.writeCounter (cfgFile disk) s.offset t.taskId t.download = some cfg) :
      Worked r disk s { disk with cfg := some cfg } { s with pc := .check i }
  | resubmits (i : Nat) (t : DownloadTask) (p p' : ThreadPool Nat) (hpc : s.pc = .check i)
      (htask : s.object.downloadTasks[i]? = some t) (hmissing : t.download < t.block)
      (hpool : s.pool = some p) (hsubmit : p.submit i = some p') :
      Worked r disk s disk { s.setPhase i .ready with pool := some p', pc := .loop }
  | dismisses (i : Nat) (hpc : s.pc = .check i) :
      Worked r disk s disk { s with taskCount := s.taskCount - 1, pc := .loop }
  | closesPool (pool : Option (ThreadPool Nat)) (pc : Pc)
      (hpc : s.pc = .await ∧ pc = .awaited ∨ s.pc = .awaited ∧ pc = .judge 0 0)
      (hpool : s.pool.isSome = pool.isSome) :
      Worked r disk s disk { s with pool := pool, pc := pc }
  | adds (i : Nat) (downloadSize : Int) (t : DownloadTask) (hpc : s.pc = .judge i downloadSize)
      (htask : s.object.downloadTasks[i]? = some t) :
      Worked r disk s disk { s with pc := .judge (i + 1) (toInt32 (downloadSize + t.download)) }
  | succeeds (i : Nat) (downloadSize : Int) (hpc : s.pc = .judge i downloadSize)
      (hend : s.object.downloadTasks[i]? = none) (hsize : s.object.fileSize = downloadSize) :
      Worked r disk s { disk with cfg := none } { s with pc := .returned true }
  | fallsShort (i : Nat) (downloadSize : Int) (hpc : s.pc = .judge i downloadSize) :
      Worked r disk s disk { s with pc := .saveOpen }
  | opensSave (hpc : s.pc = .saveOpen) :
      Worked r disk s { disk with cfg := some (cfgFile disk) } { s with
        offset := HttpDownload.counterOffset (cfgFile disk) s.object.threadCount
        pc := .save 0 }
  | saves (i : Nat) (t : DownloadTask) (cfg : List Byte) (hpc : s.pc = .save i)
      (htask : s.object.downloadTasks[i]? = some t)
      (hwrite : HttpDownload.writeCounter (cfgFile disk) s.offset t.taskId t.download = some cfg) :
      Worked r disk s { disk with cfg := some cfg } { s with pc := .save (i + 1) }
  | fails (hpc : s.pc = .openCfg ∨ ∃ i, s.pc = .record i) :
      Worked r disk s disk { s with pc := .judge 0 0 }
  | givesUp (hpc : s.ended = false) :
      Worked r disk s disk { s with pc := .returned false }
  | throws (hpc : s.pc = .newPool ∨ s.pc = .submitAll ∨ s.pc = .loop ∨ s.pc = .awaited ∨
        ∃ i, s.pc = .check i) :
      Worked r disk s disk { s with pc := .thrown }

theorem submitTasks_worked {r : Remote} {disk disk' : Disk} {s s' : Session}
    (hpc : s.pc = .submitAll) (h : s.submitTasks disk = some (disk', s')) :
    Worked r disk s disk' s' := by
  unfold submitTasks at h
  split at h
  · simp only [Option.some.injEq, Prod.mk.injEq] at h
    obtain ⟨rfl, rfl⟩ := h
    exact .givesUp (by rw [ended, hpc])
  · split at h
    · simp only [Option.some.injEq, Prod.mk.injEq] at h
      obtain ⟨rfl, rfl⟩ := h
      exact .throws (Or.inr (Or.inl hpc))
    · rename_i p' hsubmit
      simp only [Option.some.injEq, Prod.mk.injEq] at h
      obtain ⟨rfl, rfl⟩ := h
      obtain ⟨p, hp, hsub⟩ := Option.bind_eq_some_iff.mp hsubmit
      exact .submits p p' hpc hp hsub

theorem recheck_worked (r : Remote) (disk : Disk) {s : Session} {i : Nat} {t : DownloadTask}
    (hpc : s.pc = .check i) (ht : s.object.downloadTasks[i]? = some t) :
    Worked r disk s (s.recheck disk i t).1 (s.recheck disk i t).2 := by
  unfold recheck
  split
  · rename_i hmissing
    split
    · exact .throws (Or.inr (Or.inr (Or.inr (Or.inr ⟨i, hpc⟩))))
    · rename_i p' hsubmit
      obtain ⟨p, hp, hsub⟩ := Option.bind_eq_some_iff.mp hsubmit
      simp only [Bool.and_eq_true, decide_eq_true_eq] at hmissing
      exact .resubmits i t p p' hpc ht hmissing.2 hp hsub
  · exact .dismisses i hpc

theorem coordStep_worked {r : Remote} {disk disk' : Disk} {s s' : Session}
    (h : s.coordStep r disk = some (disk', s')) : Worked r disk s disk' s' := by
  unfold coordStep at h
  split at h
  -- Two places have helpers of their own; the rest is the definition case by
  -- case.
  case h_10 hpc => exact submitTasks_worked hpc h
  case h_14 i hpc =>
      split at h
      · exact absurd h (by simp only [reduceCtorEq, not_false_eq_true])
      · rename_i t ht
        simp only [Option.some.injEq] at h
        have hw := recheck_worked r disk hpc ht
        rw [h] at hw
        exact hw
  all_goals
    repeat' split at h
    all_goals
      first
      | (simp only [Option.some.injEq, Prod.mk.injEq] at h
         obtain ⟨rfl, rfl⟩ := h)
      | exact absurd h (by simp only [reduceCtorEq, not_false_eq_true])
  · exact .starts ‹_›
  · exact .connects ‹_›
  · exact .findsNoCfg ‹_› ‹_›
  · exact .dropsCfg ‹_› ‹_›
  · exact .keepsCfg ‹_›
  · exact .createsCfg ‹_›
  · exact .closesCfg ‹_›
  · exact .parses _ _ ‹_› ‹_›
  · rename_i hpc _ o cfg hparse
    exact .parseEnds _ o cfg _ hpc
      (fun heq => Bool.false_ne_true (Except.ok.inj heq)) hparse (Or.inl rfl)
  · rename_i hpc _ e o cfg hparse
    exact .parseEnds _ o cfg _ hpc (by simp only [ne_eq, reduceCtorEq, not_false_eq_true])
      hparse (Or.inr rfl)
  · exact .throws (Or.inl ‹_›)
  · exact .makesPool ‹_› (by omega)
  · exact .opensCfg ‹_›
  · rename_i hpc _ _ i p' htake
    obtain ⟨p, hp, ht⟩ := Option.bind_eq_some_iff.mp htake
    exact .takes p p' i hpc hp ht
  · exact .leavesLoop ‹_›
  · exact .fails (Or.inr ⟨_, ‹_›⟩)
  · exact .records _ _ _ ‹_› ‹_› ‹_›
  · exact .closesPool _ _ (Or.inl ⟨‹_›, rfl⟩) (by rw [Option.isSome_map])
  · exact .closesPool _ _ (Or.inr ⟨‹_›, rfl⟩) (by rw [Option.isSome_map])
  · exact .adds _ _ _ ‹_› ‹_›
  · exact .succeeds _ _ ‹_› ‹_› ‹_›
  · exact .fallsShort _ _ ‹_›
  · exact .opensSave ‹_›
  · rename_i hpc _ _
    exact .givesUp (by rw [ended, hpc])
  · rename_i hpc _ _ _ _ _
    exact .givesUp (by rw [ended, hpc])
  · exact .saves _ _ _ ‹_› ‹_› ‹_›

theorem extendStep_worked {r : Remote} {disk disk' : Disk} {s s' : Session} {fill : List Byte}
    (h : s.extendStep disk fill = some (disk', s')) : Worked r disk s disk' s' := by
  unfold extendStep at h
  split at h
  · rename_i file hpc hfile
    split at h
    · rename_i hfill
      simp only [Option.some.injEq, Prod.mk.injEq] at h
      obtain ⟨rfl, rfl⟩ := h
      exact .setsLength fill file hpc hfile hfill
    · exact absurd h (by simp only [reduceCtorEq, not_false_eq_true])
  · exact absurd h (by simp only [reduceCtorEq, not_false_eq_true])

theorem writeCfgStep_worked {r : Remote} {disk disk' : Disk} {s s' : Session} {k : Nat}
    (h : s.writeCfgStep disk k = some (disk', s')) : Worked r disk s disk' s' := by
  unfold writeCfgStep at h
  split at h
  · rename_i rest hpc
    simp only [Option.some.injEq, Prod.mk.injEq] at h
    obtain ⟨rfl, rfl⟩ := h
    exact .writesCfg rest k hpc
  · exact absurd h (by simp only [reduceCtorEq, not_false_eq_true])

theorem failStep_worked {r : Remote} {disk disk' : Disk} {s s' : Session}
    (h : s.failStep disk = some (disk', s')) : Worked r disk s disk' s' := by
  unfold failStep at h
  split at h
  case h_8 hpc =>
      simp only [Option.some.injEq, Prod.mk.injEq] at h
      obtain ⟨rfl, rfl⟩ := h
      exact .fails (Or.inl hpc)
  case h_9 i hpc =>
      simp only [Option.some.injEq, Prod.mk.injEq] at h
      obtain ⟨rfl, rfl⟩ := h
      exact .fails (Or.inr ⟨i, hpc⟩)
  case h_10 => exact absurd h (by simp only [reduceCtorEq, not_false_eq_true])
  all_goals
    rename_i hpc
    simp only [Option.some.injEq, Prod.mk.injEq] at h
    obtain ⟨rfl, rfl⟩ := h
    exact .givesUp (by rw [ended, hpc])

theorem interruptStep_worked {r : Remote} {disk disk' : Disk} {s s' : Session}
    (h : s.interruptStep disk = some (disk', s')) : Worked r disk s disk' s' := by
  unfold interruptStep at h
  split at h
  · rename_i hpc
    simp only [Option.some.injEq, Prod.mk.injEq] at h
    obtain ⟨rfl, rfl⟩ := h
    exact .throws (Or.inr (Or.inr (Or.inl hpc)))
  · rename_i hpc
    simp only [Option.some.injEq, Prod.mk.injEq] at h
    obtain ⟨rfl, rfl⟩ := h
    exact .throws (Or.inr (Or.inr (Or.inr (Or.inl hpc))))
  · exact absurd h (by simp only [reduceCtorEq, not_false_eq_true])

/-- What a step of a session can be: one of `download`, of a worker picking a
    task, of a task, or of `stop`. -/
inductive Stepped (r : Remote) (disk : Disk) (s : Session) (m : Move) : Disk → Session → Prop where
  | worked {disk' : Disk} {s' : Session} (h : Worked r disk s disk' s') :
      Stepped r disk s m disk' s'
  | picked (p p' : ThreadPool Nat) (hpool : s.pool = some p) (hpick : p.pick = some p') :
      Stepped r disk s m disk { s with pool := some p' }
  | called {disk' : Disk} {s' : Session} (i : Nat) (pool : ThreadPool Nat) (t : DownloadTask)
      (hpool : s.pool = some pool) (htask : s.object.downloadTasks[i]? = some t)
      (hrun : i ∈ pool.running) (h : Called r disk s pool i t disk' s') :
      Stepped r disk s m disk' s'
  | flagged (hm : m = .stop) :
      Stepped r disk s m disk { s with stopFlag := true, stopPc := .flagged }
  | disconnected (hm : m = .stop) : Stepped r disk s m disk { s with stopPc := .disconnected }
  | shutDown (hm : m = .stop) (hstop : s.stopPc = .disconnected) :
      Stepped r disk s m disk { s with pool := s.pool.map ThreadPool.shutdownNow, stopPc := .idle }

theorem step_stepped {r : Remote} {disk disk' : Disk} {s s' : Session} {m : Move}
    (h : s.step r disk m = some (disk', s')) : Stepped r disk s m disk' s' := by
  rcases m with _ | fill | k | _ | _ | _ | ⟨i, m⟩ | _
  -- Five labels are steps of `download`.
  · exact .worked (coordStep_worked h)
  · exact .worked (extendStep_worked h)
  · exact .worked (writeCfgStep_worked h)
  · exact .worked (failStep_worked h)
  · exact .worked (interruptStep_worked h)
  · unfold step at h
    simp only [Option.map_eq_some_iff, Prod.mk.injEq] at h
    obtain ⟨p', hpick, rfl, rfl⟩ := h
    obtain ⟨p, hp, hpick⟩ := Option.bind_eq_some_iff.mp hpick
    exact .picked p p' hp hpick
  · obtain ⟨pool, t, hpool, ht, hrun, hcalled⟩ := taskStep_called h
    exact .called i pool t hpool ht hrun hcalled
  -- The three parts of a stop.
  · unfold step stopStep at h
    dsimp only at h
    split at h
    · simp only [Option.some.injEq, Prod.mk.injEq] at h
      obtain ⟨rfl, rfl⟩ := h
      exact .flagged rfl
    · simp only [Option.some.injEq, Prod.mk.injEq] at h
      obtain ⟨rfl, rfl⟩ := h
      exact .disconnected rfl
    · rename_i hstop
      simp only [Option.some.injEq, Prod.mk.injEq] at h
      obtain ⟨rfl, rfl⟩ := h
      exact .shutDown rfl hstop

/-- Only a call that is not over takes steps. -/
theorem Worked.not_ended {r : Remote} {disk disk' : Disk} {s s' : Session}
    (h : Worked r disk s disk' s') : s.ended = false := by
  unfold ended
  cases h
  case fails hpc => rcases hpc with hpc | ⟨i, hpc⟩ <;> rw [hpc]
  case throws hpc => rcases hpc with hpc | hpc | hpc | hpc | ⟨i, hpc⟩ <;> rw [hpc]
  case closesPool hpc _ => rcases hpc with ⟨hpc, -⟩ | ⟨hpc, -⟩ <;> rw [hpc]
  case givesUp hpc => exact hpc
  all_goals rw [‹s.pc = _›]

/-- A session by itself, with the disk. -/
def run (r : Remote) (p : Disk × Session) (m : Move) : Option (Disk × Session) := p.2.step r p.1 m

end Session

/-- The disk and the sessions of the running process, the latest first. -/
structure World where
  disk : Disk
  sessions : List Session

/-- A step of the world. -/
inductive Label where
  | newSession (threadCount : Int) (redownload : Bool)
  | crash
  | move (k : Nat) (m : Move)
  deriving DecidableEq, Repr

namespace World

/-- No session is inside `download`. -/
def idle (w : World) : Bool :=
  match w.sessions with
  | [] => true
  | s :: _ => s.ended

/-- The world before the first session. -/
def initial (disk : Disk) : World := ⟨disk, []⟩

def step (r : Remote) (w : World) : Label → Option World
  | .newSession threadCount redownload =>
      if w.idle then
        some { w with sessions := Session.create r threadCount redownload :: w.sessions }
      else none
  | .crash => some { w with sessions := [] }
  | .move k m =>
      match w.sessions[k]? with
      | none => none
      | some s => (s.step r w.disk m).map (fun p => ⟨p.1, w.sessions.set k p.2⟩)

/-- What a step of the world is. -/
theorem step_cases {r : Remote} {w w' : World} {l : Label} (h : w.step r l = some w') :
    (∃ n redownload, l = .newSession n redownload ∧ w.idle = true ∧
      w' = { w with sessions := Session.create r n redownload :: w.sessions }) ∨
    (l = .crash ∧ w' = { w with sessions := [] }) ∨
    ∃ k m s disk' s', l = .move k m ∧ w.sessions[k]? = some s ∧
      s.step r w.disk m = some (disk', s') ∧ w' = ⟨disk', w.sessions.set k s'⟩ := by
  rcases l with ⟨n, redownload⟩ | _ | ⟨k, m⟩
  · unfold step at h
    simp only at h
    split at h
    · rename_i hidle
      simp only [Option.some.injEq] at h
      exact Or.inl ⟨n, redownload, rfl, hidle, h.symm⟩
    · exact absurd h (by simp only [reduceCtorEq, not_false_eq_true])
  · unfold step at h
    simp only [Option.some.injEq] at h
    exact Or.inr (Or.inl ⟨rfl, h.symm⟩)
  · unfold step at h
    simp only at h
    rcases hk : w.sessions[k]? with _ | s
    · rw [hk] at h
      exact absurd h (by simp only [reduceCtorEq, not_false_eq_true])
    · rw [hk] at h
      rcases hs : s.step r w.disk m with _ | ⟨disk', s'⟩
      · simp only [hs, Option.map_none] at h
        exact absurd h (by simp only [reduceCtorEq, not_false_eq_true])
      · simp only [hs, Option.map_some, Option.some.injEq] at h
        exact Or.inr (Or.inr ⟨k, m, s, disk', s', rfl, hk, hs, h.symm⟩)

/-- The latest session may run while the others stand still. -/
theorem exec_head {r : Remote} {disk disk' : Disk} {s s' : Session} {moves : List Move}
    (h : Machine.exec (Session.run r) (disk, s) moves = some (disk', s'))
    (rest : List Session) :
    Machine.exec (step r) ⟨disk, s :: rest⟩ (moves.map (Label.move 0))
      = some ⟨disk', s' :: rest⟩ := by
  induction moves generalizing disk s with
  | nil =>
      simp only [Machine.exec, Option.some.injEq, Prod.mk.injEq] at h
      obtain ⟨rfl, rfl⟩ := h
      rfl
  | cons m moves ih =>
      simp only [Machine.exec] at h
      obtain ⟨⟨disk₁, s₁⟩, hstep, hrest⟩ := Option.bind_eq_some_iff.mp h
      -- A move of session zero is a step of the world.
      have hworld : step r ⟨disk, s :: rest⟩ (.move 0 m) = some ⟨disk₁, s₁ :: rest⟩ := by
        unfold step
        simp only [List.getElem?_cons_zero]
        unfold Session.run at hstep
        simp only at hstep
        rw [hstep]
        rfl
      simp only [List.map_cons, Machine.exec, hworld, Option.bind_some]
      exact ih hrest

/-- What every step of a session keeps for it, and what a new session has, is
    had by all sessions. -/
theorem sessions_keep {r : Remote} {P : Session → Prop} {w w' : World} {l : Label}
    (h : w.step r l = some w') (hw : ∀ s ∈ w.sessions, P s)
    (hnew : ∀ n redownload, l = .newSession n redownload → P (Session.create r n redownload))
    (hmove : ∀ k m s disk' s', l = .move k m → w.sessions[k]? = some s →
      s.step r w.disk m = some (disk', s') → P s → P s') :
    ∀ s ∈ w'.sessions, P s := by
  rcases step_cases h with ⟨n, redownload, rfl, -, rfl⟩ | ⟨rfl, rfl⟩ |
    ⟨k, m, s, disk', s', rfl, hk, hs, rfl⟩
  · intro s hmem
    rcases List.mem_cons.mp hmem with rfl | hmem
    · exact hnew n redownload rfl
    · exact hw s hmem
  · intro s hmem
    exact absurd hmem List.not_mem_nil
  · intro t hmem
    rcases List.mem_or_eq_of_mem_set hmem with hmem | rfl
    · exact hw t hmem
    · exact hmove k m s disk' t rfl hk hs (hw s (List.mem_of_getElem? hk))

end World

/-- The URL of the small files. -/
def smallUrl : List CodeUnit := ascii "http://h/f".toList

theorem smallUrl_lt : 2 * smallUrl.length < 2147483648 := by decide

/-- A remote file of one byte. -/
def oneByte : Remote := ⟨smallUrl, [0x41], by decide, by decide, smallUrl_lt⟩

/-- A remote file of four bytes. -/
def fourBytes : Remote :=
  ⟨smallUrl, [0x41, 0x42, 0x43, 0x44], by decide, by decide, smallUrl_lt⟩

/-- A first session of one thread, up to its first `take()`. -/
def upToLoop : List Label :=
  [.newSession 1 false, .move 0 .coord, .move 0 .coord, .move 0 (.extend [0]), .move 0 .coord,
    .move 0 .coord, .move 0 (.writeCfg 48), .move 0 .coord, .move 0 .coord, .move 0 .coord,
    .move 0 .coord, .move 0 .coord]

end NetProbe
