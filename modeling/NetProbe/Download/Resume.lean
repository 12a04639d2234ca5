import NetProbe.Download.Steps
import NetProbe.Download.Transfer

/-!
# Resuming

A session that finds a config file of the right size makes its tasks from the
counters in it and submits them all. The run that leads there is always the
same, `resumeMoves`, and `resume_run` computes where it ends for any counters.

## Main definitions

* `resumeMoves`: The steps of `download(false)` up to the first submissions.
* `prepared`, `resumed`: The session on the way and after them.

## Theorems

* `prepare_run`, `submit_run`: The steps before and after the choice of the
  config file.
* `resume_run`: All of them, over a file that is kept.
-/

namespace NetProbe

open HttpDownload Machine

/-- The steps of `download(false)` over an existing config file, up to the
    first submissions. -/
def resumeMoves (fill : List Byte) : List Move :=
  [.coord, .coord, .extend fill, .coord, .coord, .coord, .coord]

/-- A session that knows the file size. -/
def prepared (r : Remote) (threadCount : Int) (redownload : Bool) (pc : Pc) : Session :=
  { Session.create r threadCount redownload with
    object := { HttpDownload.create r.url threadCount with fileSize := r.fileSize }
    pc := pc }

/-- The object after reading a config file. -/
def loaded (r : Remote) (urlBytes : List Byte) (n : Nat) (counters : List Int) : HttpDownload :=
  ⟨decodeUtf16 urlBytes, n, r.fileSize, tasksOf r.fileSize n counters⟩

/-- The session after the first submissions. -/
def resumed (r : Remote) (urlBytes : List Byte) (n : Nat) (counters : List Int)
    (threadCount : Int) (redownload : Bool) : Session :=
  { Session.create r threadCount redownload with
    object := loaded r urlBytes n counters
    pool := some ⟨n, n, [], List.range n, [], [], false⟩
    phase := fun _ => .ready
    pc := .openCfg }

/-- From the parse to the first submissions. -/
theorem submit_run (r : Remote) (disk : Disk) (urlBytes : List Byte) (n : Nat)
    (counters : List Int) (threadCount : Int) (redownload : Bool)
    (hcfg : disk.cfg = some (cfgBytes urlBytes r.fileSize n counters))
    (hu : urlBytes.length < 2147483648) (hn : 1 ≤ n) (hn' : n < 2147483648)
    (hlen : counters.length = n) (hcs : Counters counters) :
    exec (Session.run r) (disk, prepared r threadCount redownload .parse) [.coord, .coord, .coord]
      = some (disk, resumed r urlBytes n counters threadCount redownload) := by
  have hsize : ((r.fileSize : Nat) : Int) < 2147483648 := Int.ofNat_lt.mpr r.fileSize_lt
  have hdisk : { disk with cfg := some (cfgBytes urlBytes r.fileSize n counters) } = disk := by
    rw [← hcfg]
  -- The tasks come from the file, not from the thread count of the call.
  have hparse : Session.run r (disk, prepared r threadCount redownload .parse) .coord
      = some (disk, { prepared r threadCount redownload .newPool with
        object := loaded r urlBytes n counters }) := by
    have hread := parseDownloadCfg_cfgBytes
      { HttpDownload.create r.url threadCount with fileSize := r.fileSize } urlBytes n counters hu
      (Int.natCast_nonneg _) hsize hn hn' hlen hcs
    rw [run_parse r _ rfl (by rw [hcfg]; exact hread), hdisk]
    rfl
  have hpool : Session.run r (disk, { prepared r threadCount redownload .newPool with
        object := loaded r urlBytes n counters }) .coord
      = some (disk, { prepared r threadCount redownload .submitAll with
        object := loaded r urlBytes n counters
        pool := some (ThreadPool.newFixed n) }) := by
    rw [run_newPool r _ rfl (by simp only [loaded]; omega)]
    rfl
  have hsubmit : Session.run r (disk, { prepared r threadCount redownload .submitAll with
        object := loaded r urlBytes n counters
        pool := some (ThreadPool.newFixed n) }) .coord
      = some (disk, resumed r urlBytes n counters threadCount redownload) := by
    -- There are as many workers as tasks, so none of them waits.
    have hall := ThreadPool.submitAll_running (ThreadPool.newFixed n) (List.range n) rfl
      (by rw [List.length_range]; exact Nat.le_of_eq (Nat.zero_add n))
    rw [List.length_range] at hall
    rw [run_submitAll r _ rfl rfl rfl (by
      simp only [loaded, length_tasksOf, hlen]
      exact hall)]
    unfold resumed prepared ThreadPool.newFixed
    rw [Nat.zero_add, List.nil_append]
  rw [exec_cons hparse, exec_cons hpool, exec_cons hsubmit]
  rfl

/-- From the call to the config file: the local file gets its length. -/
theorem prepare_run (r : Remote) (disk : Disk) (threadCount : Int) (redownload : Bool)
    (fill : List Byte) (hfill : fill.length = r.fileSize - (disk.saveFile.getD []).length) :
    exec (Session.run r) (disk, Session.create r threadCount redownload)
        [.coord, .coord, .extend fill]
      = some ({ disk with saveFile := some ((disk.saveFile.getD []).take r.fileSize ++ fill) },
        prepared r threadCount redownload .createCfg) := by
  have hinit : Session.run r (disk, Session.create r threadCount redownload) .coord
      = some (disk, { Session.create r threadCount redownload with pc := .localFile }) :=
    run_init r _ rfl
  have hlocal : Session.run r
      (disk, { Session.create r threadCount redownload with pc := .localFile }) .coord
        = some ({ disk with saveFile := some (disk.saveFile.getD []) },
          prepared r threadCount redownload .setLength) :=
    run_localFile r _ rfl
  have hextend : Session.run r ({ disk with saveFile := some (disk.saveFile.getD []) },
      prepared r threadCount redownload .setLength) (.extend fill)
        = some ({ disk with saveFile := some ((disk.saveFile.getD []).take r.fileSize ++ fill) },
          prepared r threadCount redownload .createCfg) :=
    run_setLength r _ rfl rfl hfill
  rw [exec_cons hinit, exec_cons hlocal, exec_cons hextend]
  rfl

theorem resume_run (r : Remote) (disk : Disk) (urlBytes : List Byte) (n : Nat)
    (counters : List Int) (threadCount : Int) (fill : List Byte)
    (hcfg : disk.cfg = some (cfgBytes urlBytes r.fileSize n counters))
    (hu : urlBytes.length < 2147483648) (hn : 1 ≤ n) (hn' : n < 2147483648)
    (hlen : counters.length = n) (hcs : Counters counters)
    (hfill : fill.length = r.fileSize - (disk.saveFile.getD []).length) :
    exec (Session.run r) (disk, Session.create r threadCount false) (resumeMoves fill)
      = some ({ disk with saveFile := some ((disk.saveFile.getD []).take r.fileSize ++ fill) },
        resumed r urlBytes n counters threadCount false) := by
  -- The config file is there, and `download(false)` keeps it.
  have hkeep : Session.run r
      ({ disk with saveFile := some ((disk.saveFile.getD []).take r.fileSize ++ fill) },
        prepared r threadCount false .createCfg) .coord
      = some ({ disk with saveFile := some ((disk.saveFile.getD []).take r.fileSize ++ fill) },
        prepared r threadCount false .parse) :=
    run_keepCfg r _ rfl hcfg rfl
  refine (exec_append _ _ _ _ [.coord, .coord, .coord, .coord]
    (prepare_run r disk threadCount false fill hfill)).trans ?_
  rw [exec_cons hkeep]
  exact submit_run r _ urlBytes n counters threadCount false hcfg hu hn hn' hlen hcs

end NetProbe
