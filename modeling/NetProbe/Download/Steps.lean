import NetProbe.Download.Session

/-!
# Steps One by One

What each step of a session does, stated forwards: from the place of the
coordinator or the phase of a task to the disk and the session after the step.
Runs that are built to reach a certain state are put together from these.

## Theorems

* `run_init` to `run_succeed`: The steps of `download`, in its order.
* `run_flag`: The first part of `stop`.
* `run_request` to `run_endOfStream`: The steps of a task.
-/

namespace NetProbe

open HttpDownload

section Coordinator

variable (r : Remote) (disk : Disk) {s : Session}

theorem run_init (hpc : s.pc = .init) :
    Session.run r (disk, s) .coord
      = some (disk, { s with stopFlag := false, pc := .localFile }) := by
  simp only [Session.run, Session.step, Session.coordStep, hpc]

theorem run_localFile (hpc : s.pc = .localFile) :
    Session.run r (disk, s) .coord = some ({ disk with saveFile := some (disk.saveFile.getD []) },
      { s with object := { s.object with fileSize := r.fileSize }, pc := .setLength }) := by
  simp only [Session.run, Session.step, Session.coordStep, hpc]

theorem run_setLength {file fill : List Byte} (hpc : s.pc = .setLength)
    (hfile : disk.saveFile = some file)
    (hfill : fill.length = s.object.fileSize.toNat - file.length) :
    Session.run r (disk, s) (.extend fill)
      = some ({ disk with saveFile := some (file.take s.object.fileSize.toNat ++ fill) },
        { s with pc := .createCfg }) := by
  simp only [Session.run, Session.step, Session.extendStep, hpc, hfile, hfill, if_true]

theorem run_noCfg (hpc : s.pc = .createCfg) (hcfg : disk.cfg = none) :
    Session.run r (disk, s) .coord = some (disk, { s with pc := .newFile }) := by
  simp only [Session.run, Session.step, Session.coordStep, hpc, hcfg]

theorem run_keepCfg {bytes : List Byte} (hpc : s.pc = .createCfg) (hcfg : disk.cfg = some bytes)
    (hredownload : s.redownload = false) :
    Session.run r (disk, s) .coord = some (disk, { s with pc := .parse }) := by
  simp only [Session.run, Session.step, Session.coordStep, hpc, hcfg, hredownload,
    Bool.false_eq_true, if_false]

theorem run_newFile (hpc : s.pc = .newFile) :
    Session.run r (disk, s) .coord
      = some ({ disk with cfg := some [] }, { s with pc := .writeCfg s.object.newCfg }) := by
  simp only [Session.run, Session.step, Session.coordStep, hpc]

theorem run_writeCfg {bytes : List Byte} (hpc : s.pc = .writeCfg bytes)
    (hcfg : disk.cfg = some []) :
    Session.run r (disk, s) (.writeCfg bytes.length)
      = some ({ disk with cfg := some bytes }, { s with pc := .writeCfg [] }) := by
  simp only [Session.run, Session.step, Session.writeCfgStep, hpc, Session.cfgFile, hcfg,
    Option.getD_some, List.nil_append, List.take_length, List.drop_length]

theorem run_closeCfg (hpc : s.pc = .writeCfg []) :
    Session.run r (disk, s) .coord = some (disk, { s with pc := .parse }) := by
  simp only [Session.run, Session.step, Session.coordStep, hpc]

theorem run_parse {o : HttpDownload} {cfg : Option (List Byte)} (hpc : s.pc = .parse)
    (hparse : s.object.parseDownloadCfg disk.cfg = (.ok true, o, cfg)) :
    Session.run r (disk, s) .coord
      = some ({ disk with cfg := cfg }, { s with object := o, pc := .newPool }) := by
  simp only [Session.run, Session.step, Session.coordStep, hpc, hparse]

theorem run_newPool (hpc : s.pc = .newPool) (hpos : 0 < s.object.threadCount) :
    Session.run r (disk, s) .coord = some (disk, { s with
      pool := some (ThreadPool.newFixed s.object.threadCount.toNat)
      pc := .submitAll }) := by
  simp only [Session.run, Session.step, Session.coordStep, hpc]
  rw [if_neg (by omega)]

theorem run_submitAll {p p' : ThreadPool Nat} (hpc : s.pc = .submitAll) (hpool : s.pool = some p)
    (hstop : s.stopFlag = false)
    (hsubmit : p.submitAll (List.range s.object.downloadTasks.length) = some p') :
    Session.run r (disk, s) .coord
      = some (disk, { s with pool := some p', phase := fun _ => .ready, pc := .openCfg }) := by
  simp only [Session.run, Session.step, Session.coordStep, hpc, Session.submitTasks, hstop,
    Bool.false_eq_true, if_false, hpool, Option.bind_some, hsubmit]

theorem run_openCfg {bytes : List Byte} (hpc : s.pc = .openCfg) (hcfg : disk.cfg = some bytes) :
    Session.run r (disk, s) .coord = some (disk, { s with
      offset := counterOffset bytes s.object.threadCount
      taskCount := s.object.threadCount
      pc := .loop }) := by
  simp only [Session.run, Session.step, Session.coordStep, hpc, Session.cfgFile, hcfg,
    Option.getD_some]
  rw [← hcfg]

theorem run_take {p p' : ThreadPool Nat} {i : Nat} (hpc : s.pc = .loop) (hpos : 0 < s.taskCount)
    (hpool : s.pool = some p) (htake : p.take = some (i, p')) :
    Session.run r (disk, s) .coord = some (disk, { s with pool := some p', pc := .record i }) := by
  simp only [Session.run, Session.step, Session.coordStep, hpc, hpos, if_true, hpool,
    Option.bind_some, htake]

theorem run_record {i : Nat} {t : DownloadTask} {bytes cfg : List Byte} (hpc : s.pc = .record i)
    (htask : s.object.downloadTasks[i]? = some t) (hcfg : disk.cfg = some bytes)
    (hwrite : writeCounter bytes s.offset t.taskId t.download = some cfg) :
    Session.run r (disk, s) .coord
      = some ({ disk with cfg := some cfg }, { s with pc := .check i }) := by
  simp only [Session.run, Session.step, Session.coordStep, hpc, htask, Session.cfgFile, hcfg,
    Option.getD_some, hwrite]

theorem run_dismiss {i : Nat} {t : DownloadTask} (hpc : s.pc = .check i)
    (htask : s.object.downloadTasks[i]? = some t) (hstop : s.stopFlag = true) :
    Session.run r (disk, s) .coord
      = some (disk, { s with taskCount := s.taskCount - 1, pc := .loop }) := by
  simp only [Session.run, Session.step, Session.coordStep, hpc, htask, Session.recheck, hstop,
    Bool.not_true, Bool.false_and, Bool.false_eq_true, if_false]

theorem run_leaveLoop (hpc : s.pc = .loop) (hzero : ¬ 0 < s.taskCount) :
    Session.run r (disk, s) .coord = some (disk, { s with pc := .await }) := by
  simp only [Session.run, Session.step, Session.coordStep, hpc, hzero, if_false]

theorem run_await (hpc : s.pc = .await) :
    Session.run r (disk, s) .coord
      = some (disk, { s with pool := s.pool.map ThreadPool.shutdown, pc := .awaited }) := by
  simp only [Session.run, Session.step, Session.coordStep, hpc]

theorem run_awaited (hpc : s.pc = .awaited) :
    Session.run r (disk, s) .coord = some (disk, { s with
      pool := s.pool.map (fun p => if p.isTerminated then p else p.shutdownNow)
      pc := .judge 0 0 }) := by
  simp only [Session.run, Session.step, Session.coordStep, hpc]

theorem run_add {i : Nat} {downloadSize : Int} {t : DownloadTask}
    (hpc : s.pc = .judge i downloadSize) (htask : s.object.downloadTasks[i]? = some t) :
    Session.run r (disk, s) .coord
      = some (disk, { s with pc := .judge (i + 1) (toInt32 (downloadSize + t.download)) }) := by
  simp only [Session.run, Session.step, Session.coordStep, hpc, htask]

theorem run_succeed {i : Nat} {downloadSize : Int} (hpc : s.pc = .judge i downloadSize)
    (hend : s.object.downloadTasks[i]? = none) (hsize : s.object.fileSize = downloadSize) :
    Session.run r (disk, s) .coord
      = some ({ disk with cfg := none }, { s with pc := .returned true }) := by
  simp only [Session.run, Session.step, Session.coordStep, hpc, hend, hsize, if_true]

theorem run_flag (hstop : s.stopPc = .idle) :
    Session.run r (disk, s) .stop
      = some (disk, { s with stopFlag := true, stopPc := .flagged }) := by
  simp only [Session.run, Session.step, Session.stopStep, hstop]

end Coordinator

section Task

variable (r : Remote) (disk : Disk) {s : Session} {pool : ThreadPool Nat} {i : Nat}
  {t : DownloadTask} (hpool : s.pool = some pool)
  (htask : s.object.downloadTasks[i]? = some t) (hrun : i ∈ pool.running)

include hpool htask hrun

theorem run_request (hphase : s.phase i = .ready) :
    Session.run r (disk, s) (.task i .request)
      = some (disk, { s.setPhase i (.requested (toInt32 (t.start + t.download))
            (toInt32 (t.start + t.block - 1))) with
          requests := s.requests ++
            [⟨i, toInt32 (t.start + t.download), toInt32 (t.start + t.block - 1)⟩] }) := by
  simp only [Session.run, Session.step, Session.taskStep, hpool, htask, hrun, if_true,
    Session.callStep, hphase]

theorem run_opened {startPos endPos : Int} (hphase : s.phase i = .requested startPos endPos)
    (hpos : 0 ≤ startPos) :
    Session.run r (disk, s) (.task i .opened)
      = some (disk, s.setPhase i (.reading startPos.toNat (r.answerEnd startPos endPos))) := by
  simp only [Session.run, Session.step, Session.taskStep, hpool, htask, hrun, if_true,
    Session.callStep, hphase]
  rw [if_neg (by omega)]

theorem run_read {pos limit readLen : Nat} (hphase : s.phase i = .reading pos limit)
    (hlen : 0 < readLen ∧ readLen ≤ 10240 ∧ pos + readLen ≤ limit) :
    Session.run r (disk, s) (.task i (.read readLen))
      = some (disk, s.setPhase i (.writing pos limit readLen)) := by
  simp only [Session.run, Session.step, Session.taskStep, hpool, htask, hrun, if_true,
    Session.callStep, hphase]
  rw [if_pos hlen]

theorem run_write {pos limit readLen : Nat} {file : List Byte}
    (hphase : s.phase i = .writing pos limit readLen) (hfile : disk.saveFile = some file) :
    Session.run r (disk, s) (.task i .write)
      = some ({ disk with saveFile := some (writeAt file pos (r.chunk pos readLen)) },
        s.setPhase i (.counting pos limit readLen)) := by
  simp only [Session.run, Session.step, Session.taskStep, hpool, htask, hrun, if_true,
    Session.callStep, hphase, hfile]

theorem run_count {pos limit readLen : Nat} (hphase : s.phase i = .counting pos limit readLen) :
    Session.run r (disk, s) (.task i .count)
      = some (disk, (s.addDownload i t readLen).setPhase i (.checking (pos + readLen) limit)) := by
  simp only [Session.run, Session.step, Session.taskStep, hpool, htask, hrun, if_true,
    Session.callStep, hphase]

theorem run_goOn {pos limit : Nat} (hphase : s.phase i = .checking pos limit)
    (hstop : s.stopFlag = false) :
    Session.run r (disk, s) (.task i .checkStop)
      = some (disk, s.setPhase i (.reading pos limit)) := by
  simp only [Session.run, Session.step, Session.taskStep, hpool, htask, hrun, if_true,
    Session.callStep, hphase, hstop, Bool.false_eq_true, if_false]

theorem run_endOfStream {pos limit : Nat} (hphase : s.phase i = .reading pos limit) :
    Session.run r (disk, s) (.task i .endOfStream) = some (disk, s.finish pool i) := by
  simp only [Session.run, Session.step, Session.taskStep, hpool, htask, hrun, if_true,
    Session.callStep, hphase]

end Task

end NetProbe
