import NetProbe.Download.Complete
import NetProbe.Download.Parsing
import NetProbe.Download.Requests

/-!
# Calling `download` Again

An `HttpDownload` may be used for more than one call of `download`: the stop
flag is reset at the beginning of each. What else a call leaves in the object
stays there, the task list above all. `parseDownloadCfg` adds the tasks of the
config file to the list it finds, while the number of threads is set anew, so
the loop waits for fewer tasks than are submitted, and the counters that are
added up in the end are those of old and new tasks together.

The machine here follows one object through its calls. The server may have
another file for each of them. A call that has ended early leaves its tasks
running, and they go on beside those of later calls, in an executor that the
object no longer knows.

`Resumes` is what a call should find and promise: one task for each id, as many
submitted as waited for, and complete blocks when it returns true. A call keeps
it if the list is empty when the config file is read (`Clear`), and the file is
such as the program leaves it (`Usable`). In every run whose calls do so, all
states have it (`calls_resume`); a call that reads the file into a list with
tasks breaks it at once (`stale_parse`).

## Main definitions

* `Executor`: The pool of an earlier call, and where its tasks are.
* `Calls`, `Act`, `Calls.step`: One object, and what can happen to it.
* `OnePerId`, `DownloadTask.Complete`, `Calls.Resumes`: What is expected.
* `InBlocks`, `Usable`, `Calls.Clear`: The condition on the reading of a config
  file.
* `Made`: An object with the tasks of one config file.
* `Calls.Outside`, `Calls.Inside`, `Calls.Sound`: The invariant.

## Theorems

* `CfgSound.usable`: What other sessions leave is usable.
* `parse_usable`: The tasks made from a usable file.
* `step_sound`: Every step that meets the condition keeps the invariant.
* `calls_resume`: So every state of such a run is as expected.
* `stale_parse`: A reading into a list with tasks.
* `stale_tasks_succeed`: A call that returns true for half a file.
-/

namespace NetProbe

open HttpDownload Machine

/-- The executor of an earlier call, which the object no longer knows. -/
structure Executor where
  pool : ThreadPool Nat
  phase : Nat → Phase

/-- One object over its calls of `download`. `submitted` is the number of tasks
    the current call has handed to its completion service before the loop, and
    `waitsFor` the `taskCount` its loop has started with. -/
structure Calls where
  remote : Remote
  disk : Disk
  session : Session
  replaced : List Executor
  submitted : Nat
  waitsFor : Option Int

/-- A further call of `download`, a step of the current call or of its tasks, an
    I/O error in the middle of the config file, or a step of the tasks of an
    executor that has been replaced. -/
inductive Act where
  | again (remote : Remote) (redownload : Bool)
  | move (m : Move)
  | readError (k : Nat)
  | late (k : Nat) (m : Move)

namespace Calls

/-- `new HttpDownload(url, localPath, threadCount).download(redownload)`. -/
def create (remote : Remote) (disk : Disk) (threadCount : Int) (redownload : Bool) : Calls where
  remote := remote
  disk := disk
  session := Session.create remote threadCount redownload
  replaced := []
  submitted := 0
  waitsFor := none

/-- A step of the session. The object knows one executor only, the latest. -/
def follow (v : Calls) (disk : Disk) (s : Session) : Calls :=
  match v.session.pc, s.pc with
  | .newPool, .submitAll =>
      { v with
        disk := disk
        session := { s with phase := fun _ => .idle }
        replaced := (v.session.pool.map (fun p => ⟨p, v.session.phase⟩)).toList ++ v.replaced }
  | .submitAll, .openCfg =>
      { v with
        disk := disk
        session := s
        submitted := s.object.downloadTasks.length
        waitsFor := none }
  | .openCfg, .loop => { v with disk := disk, session := s, waitsFor := some s.taskCount }
  | _, _ => { v with disk := disk, session := s }

/-- The config file cannot be read beyond its first `k` bytes. The tasks made
    from these stay in the list. -/
def readErrorStep (v : Calls) (k : Nat) : Option Calls :=
  match v.session.pc, v.disk.cfg with
  | .parse, some cfg =>
      match parseOnce v.session.object (cfg.take k) with
      | .done (.ok false) o =>
          some { v with session := { v.session with object := o, pc := .returned false } }
      | _ => none
  | _, _ => none

/-- A worker of a replaced executor picks a task, or its task goes on. -/
def lateStep (v : Calls) (k : Nat) (m : Move) : Option Calls :=
  match v.replaced[k]?, m with
  | some e, .pick | some e, .task _ _ =>
      (Session.step v.remote v.disk { v.session with pool := some e.pool, phase := e.phase } m).map
        (fun p => { v with
          disk := p.1
          session := { v.session with object := p.2.object, requests := p.2.requests }
          replaced := v.replaced.set k ⟨p.2.pool.getD e.pool, p.2.phase⟩ })
  | _, _ => none

def step (v : Calls) : Act → Option Calls
  -- The fields of the object are what the last call has left.
  | .again remote redownload =>
      if v.session.ended then
        some { v with
          remote := remote
          session := { v.session with redownload := redownload, pc := .init }
          submitted := 0
          waitsFor := none }
      else none
  | .move m => (v.session.step v.remote v.disk m).map (fun p => v.follow p.1 p.2)
  | .readError k => v.readErrorStep k
  | .late k m => v.lateStep k m

end Calls

/-- Exactly one task for each id below the thread count. -/
def OnePerId (o : HttpDownload) : Prop :=
  (o.downloadTasks.map DownloadTask.taskId).Perm ((List.range o.threadCount.toNat).map Int.ofNat)

instance (o : HttpDownload) : Decidable (OnePerId o) := inferInstanceAs (Decidable (List.Perm _ _))

/-- The task has counted every byte of its block that the file has: `block`
    bytes, unless the block runs past the end of the file. -/
def DownloadTask.Complete (fileSize : Int) (t : DownloadTask) : Prop :=
  min t.block (fileSize - t.start) ≤ t.download

instance (fileSize : Int) (t : DownloadTask) : Decidable (t.Complete fileSize) :=
  inferInstanceAs (Decidable (_ ≤ _))

/-- What a call of `download` should find and promise, whatever calls there were
    before it. -/
structure Calls.Resumes (v : Calls) : Prop where
  ids : v.session.pc.early = false → v.session.ended = false → OnePerId v.session.object
  waits : ∀ taskCount ∈ v.waitsFor, (v.submitted : Int) = taskCount
  complete : v.session.pc = .returned true → OnePerId v.session.object ∧
    ∀ t ∈ v.session.object.downloadTasks, t.Complete v.session.object.fileSize

/-- Thread count and counters stored in a config file are such as the program
    stores for a file of that size: the blocks are computed without overflow,
    and no counter exceeds what the file has in its block. -/
def InBlocks (fileSize threadCount : Int) (cfg : List Byte) : Prop :=
  1 ≤ threadCount ∧ fileSize + threadCount ≤ 2147483648 ∧
    ∀ i < threadCount.toNat, ∀ c ∈ storedCounter cfg i,
      0 ≤ c ∧ c ≤ cap fileSize.toNat threadCount.toNat i

instance (fileSize threadCount : Int) (cfg : List Byte) :
    Decidable (InBlocks fileSize threadCount cfg) := inferInstanceAs (Decidable (_ ∧ _ ∧ _))

/-- The config file has counters for the current size, or will be replaced by
    one for the object's own thread count. -/
def Usable (o : HttpDownload) (cfg : List Byte) : Prop :=
  ∀ size ∈ storedSize cfg,
    (size = o.fileSize → ∀ n ∈ storedThreads cfg, InBlocks o.fileSize n cfg) ∧
      (size ≠ o.fileSize → 1 ≤ o.threadCount ∧ o.fileSize + o.threadCount ≤ 2147483648)

instance (o : HttpDownload) (cfg : List Byte) : Decidable (Usable o cfg) :=
  inferInstanceAs (Decidable (∀ size ∈ storedSize cfg, _ ∧ _))

/-- A config file is read into an empty list only, and is usable. -/
def Calls.Clear (v : Calls) : Act → Prop
  | .move .coord | .readError _ => v.session.pc = .parse →
      v.session.object.downloadTasks = [] ∧ ∀ cfg ∈ v.disk.cfg, Usable v.session.object cfg
  | _ => True

instance (v : Calls) : (a : Act) → Decidable (v.Clear a)
  | .move .coord | .readError _ => inferInstanceAs (Decidable (_ → _ ∧ ∀ cfg ∈ v.disk.cfg, _))
  | .again _ _ | .late _ _ | .move (.extend _) | .move (.writeCfg _) | .move .fail
  | .move .interrupt | .move .pick | .move (.task _ _) | .move .stop => isTrue trivial

section Usable

variable {o : HttpDownload}

/-- A file that is cut off stores nothing that the whole one does not. -/
theorem usable_of_append {p q : List Byte} (h : Usable o (p ++ q)) : Usable o p := by
  intro size hsize
  -- What is stored behind the URL is found only if the length of the URL is.
  have hstart : counterStart (p ++ q) = counterStart p := by
    have hlong : 20 ≤ p.length := by
      by_contra hshort
      rw [storedSize, Option.mem_def, (intAt_eq_none_iff _ _).mpr
        (by have := Nat.le_add_right 24 ((intAt p 4).getD 0).toNat; unfold counterStart; omega)]
        at hsize
      exact absurd hsize (by simp only [reduceCtorEq, not_false_eq_true])
    rcases hlength : intAt p 4 with _ | urlLen
    · have hshort := (intAt_eq_none_iff p 4).mp hlength
      omega
    · exact counterStart_congr ((intAt_append hlength q).trans hlength.symm)
  have hwhole := h size (by rw [storedSize, hstart]; exact intAt_append hsize q)
  refine ⟨fun hsame n hn => ?_, hwhole.2⟩
  obtain ⟨hpos, hfits, hcounters⟩ :=
    hwhole.1 hsame n (by rw [storedThreads, hstart]; exact intAt_append hn q)
  refine ⟨hpos, hfits, fun i hi c hc => hcounters i hi c ?_⟩
  rw [storedCounter, hstart]
  exact intAt_append hc q

/-- A whole file for the current size, with counters inside their blocks. -/
theorem usable_cfgBytes {u : List Byte} {fileSize n : Nat} {cs : List Int}
    (hsize : o.fileSize = fileSize) (hfile : 1 ≤ fileSize) (hu : u.length < 2147483648)
    (hn : 1 ≤ n) (hfits : fileSize + n ≤ 2147483648) (hlen : cs.length = n)
    (hcs : ∀ (i : Nat) (c : Int), cs[i]? = some c → 0 ≤ c ∧ c ≤ cap fileSize n i) :
    Usable o (cfgBytes u fileSize n cs) := by
  have hcounters : Counters cs := by
    intro c hc
    obtain ⟨i, hi⟩ := List.mem_iff_getElem?.mp hc
    have hrange := hcs i c hi
    have hle := cap_le fileSize n i
    omega
  obtain ⟨hstored, hthreads, hcounter⟩ := stored_cfgBytes u fileSize n cs hu (by omega) (by omega)
    hn (by omega) hlen hcounters
  intro size hsize'
  obtain rfl := Option.some.inj (hstored.symm.trans hsize')
  refine ⟨fun _ m hm => ?_, fun hother => absurd hsize.symm hother⟩
  obtain rfl := Option.some.inj (hthreads.symm.trans hm)
  rw [hsize]
  refine ⟨by omega, by omega, fun i hi c hc => ?_⟩
  rw [Int.toNat_natCast] at hi
  rw [hcounter i hi] at hc
  rw [Int.toNat_natCast, Int.toNat_natCast]
  exact hcs i c hc

/-- A config file that the sessions of other objects have left is usable. -/
theorem CfgSound.usable {r : Remote} {disk : Disk} (h : CfgSound r disk)
    (hsize : o.fileSize = r.fileSize) : ∀ cfg ∈ disk.cfg, Usable o cfg := by
  intro cfg hcfg
  have hu := encodeUtf16_url_lt r
  rcases h with hnone | ⟨n, hn, ⟨cs, hbytes, hlen, hcs⟩ | ⟨p, q, hp, -, heq⟩⟩
  · rw [hnone] at hcfg
    exact absurd hcfg (by simp only [Option.mem_def, reduceCtorEq, not_false_eq_true])
  · obtain rfl := Option.some.inj (hbytes.symm.trans hcfg)
    exact usable_cfgBytes hsize r.fileSize_pos hu hn.pos (Nat.le_of_lt hn.fits) hlen
      (fun i c hc => ⟨(hcs i c hc).1, (hcs i c hc).2.1⟩)
  · obtain rfl := Option.some.inj (hp.symm.trans hcfg)
    refine usable_of_append (q := q) ?_
    rw [heq]
    refine usable_cfgBytes hsize r.fileSize_pos hu hn.pos (Nat.le_of_lt hn.fits)
      List.length_replicate (fun i c hc => ?_)
    obtain rfl := List.eq_of_mem_replicate (List.mem_of_getElem? hc)
    exact ⟨Int.le_refl 0, Int.natCast_nonneg _⟩

end Usable

section Parse

variable {o o' : HttpDownload} {n : Nat}

/-- The tasks of the object are those of `n` blocks of its file, with counters
    inside their blocks. -/
structure Made (o : HttpDownload) (fileSize n : Nat) : Prop where
  pos : 1 ≤ n
  fits : fileSize + n ≤ 2147483648
  size : o.fileSize = fileSize
  threads : o.threadCount = n
  length : o.downloadTasks.length = n
  tasks : ∀ (i : Nat) (t : DownloadTask), o.downloadTasks[i]? = some t →
    t = taskAt fileSize n i t.download ∧ 0 ≤ t.download ∧ t.download ≤ cap fileSize n i

/-- A file for the current size gives the tasks it has counters for. -/
theorem parseOnce_usable {fileSize : Nat} {cfg : List Byte} (hempty : o.downloadTasks = [])
    (hsize : o.fileSize = fileSize) (husable : Usable o cfg)
    (h : parseOnce o cfg = .done (.ok true) o') : ∃ n, Made o' fileSize n := by
  obtain ⟨hstored, hthreads, hsize', -⟩ := parseOnce_ok h
  obtain ⟨hpos, hfits, hcounters⟩ := (husable _ hstored).1 rfl _ hthreads
  have hn : o'.threadCount = o'.threadCount.toNat := by omega
  have hlength := parseOnce_tasks o o' cfg h hpos
  rw [hempty, List.length_nil, Nat.zero_add] at hlength
  refine ⟨o'.threadCount.toNat, by omega, by omega, hsize'.trans hsize, hn, hlength, ?_⟩
  intro i t ht
  obtain ⟨hi, hmade, hcounter⟩ := parseOnce_made h hempty (by omega) hn i t ht
  have hrange := hcounters i hi _ hcounter
  rw [hsize] at hmade hrange
  rw [Int.toNat_natCast] at hrange
  exact ⟨hmade, hrange⟩

/-- A file made anew gives tasks that have counted nothing. -/
theorem parseFresh_usable {fileSize : Nat} {cfg' : Option (List Byte)}
    (hempty : o.downloadTasks = []) (hfile : 1 ≤ fileSize) (hsize : o.fileSize = fileSize)
    (hurl : 2 * o.url.length ≤ 2147483648) (hpos : 1 ≤ o.threadCount)
    (hfits : o.fileSize + o.threadCount ≤ 2147483648)
    (h : parseFresh o o.newCfg = (.ok true, o', cfg')) : ∃ n, Made o' fileSize n := by
  obtain ⟨-, honce⟩ := parseFresh_ok h
  obtain ⟨n, hn⟩ := Int.eq_ofNat_of_zero_le (by omega : 0 ≤ o.threadCount)
  -- A URL whose length does not fit is not read.
  have hshort : (encodeUtf16 o.url).length < 2147483648 := by
    rw [length_encodeUtf16]
    by_contra hlong
    rw [parseOnce_newCfg_tooLong o (by omega), ParseStep.done.injEq] at honce
    exact absurd honce.1 (by simp only [reduceCtorEq, not_false_eq_true])
  rw [parseOnce_newCfg_own o n hshort (by omega) (by omega) (by omega) (by omega) hn,
    ParseStep.done.injEq] at honce
  obtain ⟨-, rfl⟩ := honce
  have htasks : o.downloadTasks ++ tasksOf o.fileSize n (List.replicate n 0)
      = tasksOf fileSize n (List.replicate n 0) := by
    rw [hempty, List.nil_append, hsize]
  refine ⟨n, by omega, by omega, hsize, rfl, ?_, ?_⟩
  · rw [htasks, length_tasksOf, List.length_replicate]
  · intro i t ht
    rw [htasks, getElem?_tasksOf, Option.map_eq_some_iff] at ht
    obtain ⟨c, hc, rfl⟩ := ht
    obtain rfl := List.eq_of_mem_replicate (List.mem_of_getElem? hc)
    rw [download_taskAt]
    exact ⟨rfl, Int.le_refl 0, Int.natCast_nonneg _⟩

/-- The tasks made from a usable file, in an object that has none. -/
theorem parse_usable {fileSize : Nat} {cfg cfg' : Option (List Byte)}
    (hempty : o.downloadTasks = []) (hfile : 1 ≤ fileSize) (hsize : o.fileSize = fileSize)
    (husable : ∀ bytes ∈ cfg, Usable o bytes)
    (h : o.parseDownloadCfg cfg = (.ok true, o', cfg')) : ∃ n, Made o' fileSize n := by
  rcases cfg with _ | bytes
  · unfold parseDownloadCfg at h
    simp only [Prod.mk.injEq, Except.ok.injEq, Bool.false_eq_true, false_and] at h
  have hone := husable bytes rfl
  rw [parseDownloadCfg_ended] at h
  rcases hp : parseOnce o bytes with ⟨result, o₁⟩ | o₁
  · rw [hp] at h
    simp only [ParseStep.ended, Prod.mk.injEq] at h
    obtain ⟨rfl, rfl, -⟩ := h
    exact parseOnce_usable hempty hsize hone hp
  -- A file for another size is replaced by one for the object's threads.
  · rcases parseOnce_reads o bytes with ⟨result, o₂, hread, -⟩ |
      ⟨url, size, hstored, hother, hurl, hread⟩ | ⟨url, threadCount, -, -, hread⟩
    · rw [hread] at hp
      exact absurd hp (by simp only [reduceCtorEq, not_false_eq_true])
    · rw [hread, ParseStep.sizeChanged.injEq] at hp
      obtain ⟨hpos, hfits⟩ := (hone size hstored).2 hother
      rw [hread, ParseStep.ended, hp] at h
      have hurl' : 2 * o₁.url.length ≤ 2147483648 := by
        rw [← hp]
        exact hurl
      refine parseFresh_usable ?_ hfile ?_ hurl' ?_ ?_ h
      · rw [← hp]
        exact hempty
      · rw [← hp]
        exact hsize
      · rw [← hp]
        exact hpos
      · rw [← hp]
        exact hfits
    · exact absurd (hread.symm.trans hp) (parseCounters_done _ _ o₁)

end Parse

namespace Calls

/-- The current call has not read the config file, or has ended without
    success. The object may have tasks of earlier calls. -/
structure Outside (v : Calls) : Prop where
  place : v.session.pc.early = true ∨ v.session.pc = .returned false ∨ v.session.pc = .thrown
  size : v.session.pc.early = true → v.session.pc ≠ .init → v.session.pc ≠ .localFile →
    v.session.object.fileSize = v.remote.fileSize
  unused : v.session.object.downloadTasks = [] →
    v.session.pool = none ∧ ∀ i, v.session.phase i = .idle

/-- The current call has made the tasks of the object, all of them, and is
    running or has succeeded. -/
structure Inside (v : Calls) : Prop where
  pos : 1 ≤ v.session.object.downloadTasks.length
  fits : v.remote.fileSize + v.session.object.downloadTasks.length ≤ 2147483648
  size : v.session.object.fileSize = v.remote.fileSize
  threads : v.session.object.threadCount = v.session.object.downloadTasks.length
  tasks : TasksSound v.remote v.session
  late : v.session.pc.early = false
  unused : v.session.pc = .newPool → v.session.pool = none ∧ ∀ i, v.session.phase i = .idle
  submitted : v.session.pc = .openCfg → v.submitted = v.session.object.downloadTasks.length
  judged : ∀ i downloadSize, v.session.pc = .judge i downloadSize →
    i ≤ v.session.object.downloadTasks.length ∧ 0 ≤ downloadSize ∧
      downloadSize ≤ downloaded v.session.object.downloadTasks i
  running : v.session.pc ≠ .thrown
  succeeded : ∀ success, v.session.pc = .returned success → success = true ∧
    (v.remote.fileSize : Int)
      ≤ downloaded v.session.object.downloadTasks v.session.object.downloadTasks.length

/-- The invariant. No executor has been replaced, as none is made twice. -/
structure Sound (v : Calls) : Prop where
  replaced : v.replaced = []
  waits : ∀ taskCount ∈ v.waitsFor, (v.submitted : Int) = taskCount
  call : v.Outside ∨ v.Inside

section Sound

variable {v : Calls} {disk : Disk} {s : Session}

/-- Three steps of a session do more than the session tells. -/
theorem follow_plain (hpool : v.session.pc = .newPool → s.pc ≠ .submitAll)
    (hsubmit : v.session.pc = .submitAll → s.pc ≠ .openCfg)
    (hopen : v.session.pc = .openCfg → s.pc ≠ .loop) :
    v.follow disk s = { v with disk := disk, session := s } := by
  unfold follow
  split
  · rename_i hpc hpc'
    exact absurd hpc' (hpool hpc)
  · rename_i hpc hpc'
    exact absurd hpc' (hsubmit hpc)
  · rename_i hpc hpc'
    exact absurd hpc' (hopen hpc)
  · rfl

theorem follow_same (h : s.pc = v.session.pc) :
    v.follow disk s = { v with disk := disk, session := s } := by
  refine follow_plain ?_ ?_ ?_ <;>
  · intro hpc
    rw [h, hpc]
    simp only [ne_eq, reduceCtorEq, not_false_eq_true]

theorem follow_early (h : v.session.pc.early = true) :
    v.follow disk s = { v with disk := disk, session := s } := by
  refine follow_plain ?_ ?_ ?_ <;>
  · intro hpc
    rw [hpc] at h
    exact absurd h Bool.false_ne_true

/-- An object without tasks has not made an executor. -/
theorem Sound.unused (hv : v.Sound) (hempty : v.session.object.downloadTasks = []) :
    v.session.pool = none ∧ ∀ i, v.session.phase i = .idle := by
  rcases hv.call with hout | hin
  · exact hout.unused hempty
  · have hpos := hin.pos
    rw [hempty, List.length_nil] at hpos
    omega

/-- A call without success is over. -/
theorem Sound.ends (hv : v.Sound) {pc : Pc} (hpc : pc = .returned false ∨ pc = .thrown) :
    (v.follow disk { v.session with pc := pc }).Sound := by
  have hfollow : v.follow disk { v.session with pc := pc }
      = { v with disk := disk, session := { v.session with pc := pc } } := by
    refine follow_plain ?_ ?_ ?_ <;>
    · intro _
      rcases hpc with rfl | rfl
      · simp only [ne_eq, reduceCtorEq, not_false_eq_true]
      · simp only [ne_eq, reduceCtorEq, not_false_eq_true]
  have hearly : pc.early = false := by
    rcases hpc with rfl | rfl
    · rfl
    · rfl
  rw [hfollow]
  refine ⟨hv.replaced, hv.waits, Or.inl ⟨Or.inr hpc, ?_, hv.unused⟩⟩
  intro h
  exact absurd (hearly.symm.trans h) Bool.false_ne_true

/-- The steps before the parse leave the tasks alone. -/
theorem Sound.before (hv : v.Sound) (hout : v.Outside) {s' : Session}
    (hearly : v.session.pc.early = true) (hearly' : s'.pc.early = true)
    (hsize : s'.pc ≠ .init → s'.pc ≠ .localFile → s'.object.fileSize = v.remote.fileSize)
    (htasks : s'.object.downloadTasks = v.session.object.downloadTasks)
    (hpool : s'.pool = v.session.pool) (hphase : s'.phase = v.session.phase) :
    (v.follow disk s').Sound := by
  rw [follow_early hearly]
  refine ⟨hv.replaced, hv.waits, Or.inl ⟨Or.inl hearly', fun _ => hsize, fun hempty => ?_⟩⟩
  simp only at hempty ⊢
  rw [hpool, hphase]
  exact hout.unused (htasks ▸ hempty)

/-- The tasks made from the config file are those of the call. -/
theorem inside_of_made {n : Nat} (hmade : Made s.object v.remote.fileSize n)
    (hpc : s.pc = .newPool) (hpool : s.pool = none) (hphase : ∀ i, s.phase i = .idle) :
    Inside { v with disk := disk, session := s } := by
  have hlength := hmade.length
  have hplace : ∀ {pc : Pc}, pc ≠ .newPool → s.pc ≠ pc :=
    fun hother heq => hother (heq.symm.trans hpc)
  refine ⟨by rw [hlength]; exact hmade.pos, by rw [hlength]; exact hmade.fits, hmade.size,
    by rw [hlength]; exact hmade.threads, ?_, by rw [hpc]; rfl, fun _ => ⟨hpool, hphase⟩,
    fun h => absurd h (hplace (by simp)), fun _ _ h => absurd h (hplace (by simp)),
    hplace (by simp), fun _ h => absurd h (hplace (by simp))⟩
  intro i t ht
  obtain ⟨htask, hnonneg, hcap⟩ := hmade.tasks i t ht
  rw [hlength, hphase i]
  exact ⟨htask, hnonneg, hcap, trivial⟩

/-- The steps up to the parse. -/
theorem Sound.worked_outside (hv : v.Sound) (hout : v.Outside)
    (hclear : v.session.pc = .parse → v.session.object.downloadTasks = [] ∧
      ∀ cfg ∈ v.disk.cfg, Usable v.session.object cfg)
    (h : Session.Worked v.remote v.disk v.session disk s) : (v.follow disk s).Sound := by
  have hearly : v.session.pc.early = true := by
    have hopen := h.not_ended
    rcases hout.place with hearly | hpc | hpc
    · exact hearly
    · simp only [Session.ended, hpc, Bool.true_eq_false] at hopen
    · simp only [Session.ended, hpc, Bool.true_eq_false] at hopen
  have hsize := hout.size hearly
  cases h
  case starts hpc =>
      exact hv.before hout hearly rfl (fun _ hlocal => absurd rfl hlocal) rfl rfl rfl
  case connects hpc => exact hv.before hout hearly rfl (fun _ _ => rfl) rfl rfl rfl
  -- The list is empty, so the tasks are the ones made now.
  case parses o cfg hpc hparse =>
      obtain ⟨hempty, husable⟩ := hclear hpc
      have hsize' := hsize (by rw [hpc]; simp) (by rw [hpc]; simp)
      obtain ⟨n, hmade⟩ := parse_usable hempty v.remote.fileSize_pos hsize' husable hparse
      obtain ⟨hpool, hphase⟩ := hout.unused hempty
      rw [follow_early hearly]
      exact ⟨hv.replaced, hv.waits, Or.inr (inside_of_made hmade rfl hpool hphase)⟩
  case parseEnds result o cfg pc hpc hresult hparse hend =>
      rw [follow_early hearly]
      refine ⟨hv.replaced, hv.waits, Or.inl ⟨Or.inr hend, ?_, ?_⟩⟩
      · intro hearly'
        rcases hend with rfl | rfl
        · exact absurd hearly' Bool.false_ne_true
        · exact absurd hearly' Bool.false_ne_true
      · exact fun _ => hout.unused (hclear hpc).1
  case givesUp => exact hv.ends (Or.inl rfl)
  -- The other steps belong to later places of `download`, or prepare the files.
  case closesPool hpc _ =>
      rcases hpc with ⟨hpc, -⟩ | ⟨hpc, -⟩ <;> rw [hpc] at hearly <;> cases hearly
  case fails hpc => rcases hpc with hpc | ⟨i, hpc⟩ <;> rw [hpc] at hearly <;> cases hearly
  case throws hpc =>
      rcases hpc with hpc | hpc | hpc | hpc | ⟨i, hpc⟩ <;> rw [hpc] at hearly <;> cases hearly
  all_goals
    have hpc : v.session.pc = _ := ‹v.session.pc = _›
    rw [hpc] at hsize
    first
    | exact hv.before hout hearly rfl (fun _ _ => hsize (by simp) (by simp)) rfl rfl rfl
    | (rw [hpc] at hearly
       cases hearly)

/-- The steps after the parse change no counter. -/
theorem Inside.moves {v' : Calls} (hin : v.Inside) (hremote : v'.remote = v.remote)
    (hobject : v'.session.object = v.session.object)
    (hphase : ∀ i, v'.session.phase i = v.session.phase i ∨ v'.session.phase i = .ready)
    (hlate : v'.session.pc.early = false) (hpool : v'.session.pc ≠ .newPool)
    (hsubmitted : v'.session.pc = .openCfg →
      v'.submitted = v.session.object.downloadTasks.length)
    (hjudged : ∀ i downloadSize, v'.session.pc = .judge i downloadSize →
      i ≤ v.session.object.downloadTasks.length ∧ 0 ≤ downloadSize ∧
        downloadSize ≤ downloaded v.session.object.downloadTasks i)
    (hrunning : v'.session.pc ≠ .thrown)
    (hsucceeded : ∀ success, v'.session.pc = .returned success → success = true ∧
      (v.remote.fileSize : Int)
        ≤ downloaded v.session.object.downloadTasks v.session.object.downloadTasks.length) :
    v'.Inside := by
  refine ⟨?_, ?_, ?_, ?_, ?_, hlate, fun h => absurd h hpool, ?_, ?_, hrunning, ?_⟩
  · rw [hobject]
    exact hin.pos
  · rw [hobject, hremote]
    exact hin.fits
  · rw [hobject, hremote]
    exact hin.size
  · rw [hobject]
    exact hin.threads
  · rw [hremote]
    exact hin.tasks.same hobject hphase
  · rw [hobject]
    exact hsubmitted
  · rw [hobject]
    exact hjudged
  · rw [hobject, hremote]
    exact hsucceeded

/-- The places after the parse that ask for nothing but sound tasks. -/
def quiet : Pc → Bool
  | .newPool | .openCfg | .judge _ _ | .returned _ | .thrown => false
  | _ => true

theorem Inside.passes {v' : Calls} (hin : v.Inside) (hremote : v'.remote = v.remote)
    (hobject : v'.session.object = v.session.object)
    (hphase : ∀ i, v'.session.phase i = v.session.phase i ∨ v'.session.phase i = .ready)
    (hlate : v'.session.pc.early = false) (hquiet : quiet v'.session.pc = true) : v'.Inside := by
  have hnot : ∀ {pc : Pc}, quiet pc = false → v'.session.pc ≠ pc := by
    rintro pc hpc rfl
    exact Bool.false_ne_true (hpc.symm.trans hquiet)
  exact hin.moves hremote hobject hphase hlate (hnot rfl) (fun h => absurd h (hnot rfl))
    (fun _ _ h => absurd h (hnot rfl)) (hnot rfl) (fun _ h => absurd h (hnot rfl))

/-- A sum of counters goes on, and is still one of them. -/
theorem Inside.judges {v' : Calls} {i : Nat} {downloadSize : Int} (hin : v.Inside)
    (hremote : v'.remote = v.remote) (hobject : v'.session.object = v.session.object)
    (hphase : ∀ i, v'.session.phase i = v.session.phase i ∨ v'.session.phase i = .ready)
    (hpc : v'.session.pc = .judge i downloadSize)
    (hjudged : i ≤ v.session.object.downloadTasks.length ∧ 0 ≤ downloadSize
      ∧ downloadSize ≤ downloaded v.session.object.downloadTasks i) : v'.Inside := by
  refine hin.moves hremote hobject hphase (by rw [hpc]; rfl) ?_ ?_ ?_ ?_ ?_
  · rw [hpc]
    simp only [ne_eq, reduceCtorEq, not_false_eq_true]
  · rw [hpc]
    simp only [reduceCtorEq, false_imp_iff]
  · intro j sum heq
    rw [hpc, Pc.judge.injEq] at heq
    obtain ⟨rfl, rfl⟩ := heq
    exact hjudged
  · rw [hpc]
    simp only [ne_eq, reduceCtorEq, not_false_eq_true]
  · rw [hpc]
    simp only [reduceCtorEq, false_imp_iff, implies_true]

/-- Most steps after the parse do what the session tells. -/
theorem Sound.after (hv : v.Sound) {pc : Pc} (hpc : v.session.pc = pc) (hpool : pc ≠ .newPool)
    (hsubmit : pc ≠ .submitAll) (hopen : pc ≠ .openCfg)
    (hin : Inside { v with disk := disk, session := s }) : (v.follow disk s).Sound := by
  rw [follow_plain (fun h => absurd (hpc.symm.trans h) hpool)
    (fun h => absurd (hpc.symm.trans h) hsubmit) (fun h => absurd (hpc.symm.trans h) hopen)]
  exact ⟨hv.replaced, hv.waits, Or.inr hin⟩

/-- The steps after the parse. -/
theorem Sound.worked_inside (hv : v.Sound) (hin : v.Inside)
    (h : Session.Worked v.remote v.disk v.session disk s) : (v.follow disk s).Sound := by
  have hphase : ∀ i, v.session.phase i = v.session.phase i ∨ v.session.phase i = .ready :=
    fun i => Or.inl rfl
  have hlate := hin.late
  -- The sum of the counters starts from nothing.
  have hstart : 0 ≤ v.session.object.downloadTasks.length ∧ (0 : Int) ≤ 0
      ∧ (0 : Int) ≤ downloaded v.session.object.downloadTasks 0 :=
    ⟨Nat.zero_le _, Int.le_refl 0, Int.le_refl 0⟩
  cases h
  -- There is no executor yet that this one could replace.
  case makesPool hpc hpos =>
      obtain ⟨hpool, hidle⟩ := hin.unused hpc
      unfold follow
      simp only [hpc, hpool, Option.map_none, Option.toList_none, List.nil_append]
      refine ⟨hv.replaced, hv.waits, Or.inr ?_⟩
      exact hin.passes rfl rfl (fun i => Or.inl (hidle i).symm) rfl rfl
  case submits p p' hpc hpool hsubmit =>
      unfold follow
      simp only [hpc]
      refine ⟨hv.replaced, by simp, Or.inr ?_⟩
      exact hin.moves rfl rfl (fun _ => Or.inr rfl) rfl (by simp) (fun _ => rfl) (by simp) (by simp)
        (by simp)
  -- The loop starts with the number of threads, which is that of the tasks.
  case opensCfg hpc =>
      unfold follow
      simp only [hpc]
      refine ⟨hv.replaced, fun taskCount htaskCount => ?_, Or.inr ?_⟩
      · rw [← Option.some.inj htaskCount, hin.threads, hin.submitted hpc]
      · exact hin.passes rfl rfl hphase rfl rfl
  case resubmits i t p p' hpc htask hless hpool hsubmit =>
      refine hv.after hpc (by simp) (by simp) (by simp)
        (hin.passes rfl rfl (fun j => ?_) rfl rfl)
      simp only [Session.setPhase]
      split
      · exact Or.inr rfl
      · exact Or.inl rfl
  case closesPool pool pc hpc hsome =>
      rcases hpc with ⟨hpc, rfl⟩ | ⟨hpc, rfl⟩
      · exact hv.after hpc (by simp) (by simp) (by simp) (hin.passes rfl rfl hphase rfl rfl)
      · exact hv.after hpc (by simp) (by simp) (by simp) (hin.judges rfl rfl hphase rfl hstart)
  case adds i downloadSize t hpc htask =>
      obtain ⟨-, hlo, hhi⟩ := hin.judged i downloadSize hpc
      have hi := (List.getElem?_eq_some_iff.mp htask).1
      exact hv.after hpc (by simp) (by simp) (by simp)
        (hin.judges rfl rfl hphase rfl ⟨hi, hin.tasks.add_counter htask hlo hhi⟩)
  -- The sum is at most that of all counters, and has reached the file size.
  case succeeds i downloadSize hpc hend hsize =>
      obtain ⟨hi, -, hhi⟩ := hin.judged i downloadSize hpc
      have hall : i = v.session.object.downloadTasks.length :=
        Nat.le_antisymm hi (List.getElem?_eq_none_iff.mp hend)
      rw [hall, ← hsize, hin.size] at hhi
      refine hv.after hpc (by simp) (by simp) (by simp) (hin.moves rfl rfl hphase rfl (by simp)
        (by simp) (by simp) (by simp) (fun success heq => ?_))
      simp only [Pc.returned.injEq] at heq
      exact ⟨heq.symm, hhi⟩
  case fails hpc =>
      have hfollow : v.follow v.disk { v.session with pc := .judge 0 0 }
          = { v with session := { v.session with pc := .judge 0 0 } } :=
        follow_plain (by simp) (by simp) (by simp)
      rw [hfollow]
      exact ⟨hv.replaced, hv.waits,
        Or.inr (hin.judges rfl rfl hphase rfl hstart)⟩
  case givesUp => exact hv.ends (Or.inl rfl)
  case throws => exact hv.ends (Or.inr rfl)
  case parseEnds hpc _ _ _ =>
      rw [hpc] at hlate
      cases hlate
  -- The others change the place only, or belong to earlier places.
  all_goals
    have hpc : v.session.pc = _ := ‹v.session.pc = _›
    first
    | exact hv.after hpc (by simp) (by simp) (by simp) (hin.passes rfl rfl hphase rfl rfl)
    | (rw [hpc] at hlate
       cases hlate)

/-- A step of a task keeps the place and the other tasks. -/
theorem called_frame {r : Remote} {disk' : Disk} {s' : Session} {pool : ThreadPool Nat} {i : Nat}
    {t : DownloadTask} (h : Session.Called r disk s pool i t disk' s') :
    s'.pc = s.pc ∧ s'.object.fileSize = s.object.fileSize ∧
      s'.object.threadCount = s.object.threadCount ∧
      s'.object.downloadTasks.length = s.object.downloadTasks.length := by
  cases h
  case counts => exact ⟨rfl, rfl, rfl, List.length_set⟩
  all_goals exact ⟨rfl, rfl, rfl, rfl⟩

/-- A task of the latest executor goes on, also after its call has ended. -/
theorem Sound.called (hv : v.Sound) {pool : ThreadPool Nat} {i : Nat} {t : DownloadTask}
    (hpool : v.session.pool = some pool) (htask : v.session.object.downloadTasks[i]? = some t)
    (h : Session.Called v.remote v.disk v.session pool i t disk s) : (v.follow disk s).Sound := by
  obtain ⟨hpc, hsize, hthreads, hlength⟩ := called_frame h
  rw [follow_same hpc]
  refine ⟨hv.replaced, hv.waits, hv.call.imp (fun hout => ?_) (fun hin => ?_)⟩
  · refine ⟨by rw [hpc]; exact hout.place, by rw [hpc, hsize]; exact hout.size, fun hempty => ?_⟩
    -- An object with a running task has a task.
    simp only at hempty
    have hi := (List.getElem?_eq_some_iff.mp htask).1
    rw [hempty, List.length_nil] at hlength
    omega
  · have hmore := called_downloaded_le hin.tasks htask h
    obtain ⟨htasks, -⟩ := called_sound hin.tasks hin.fits htask h
    refine ⟨by rw [hlength]; exact hin.pos, by rw [hlength]; exact hin.fits,
      hsize.trans hin.size, by rw [hlength, hthreads]; exact hin.threads, htasks,
      by rw [hpc]; exact hin.late, ?_, by rw [hlength, hpc]; exact hin.submitted, ?_,
      by rw [hpc]; exact hin.running, ?_⟩
    · intro hnew
      rw [hpc] at hnew
      exact absurd (hpool.symm.trans (hin.unused hnew).1) (Option.some_ne_none pool)
    -- No counter goes down, so no sum of counters does.
    · intro j sum hjudge
      rw [hpc] at hjudge
      obtain ⟨hj, hlo, hhi⟩ := hin.judged j sum hjudge
      rw [hlength]
      exact ⟨hj, hlo, Int.le_trans hhi (hmore j)⟩
    · intro success hreturned
      rw [hpc] at hreturned
      obtain ⟨htrue, hsum⟩ := hin.succeeded success hreturned
      rw [hlength]
      exact ⟨htrue, Int.le_trans hsum (hmore _)⟩

/-- A worker picking a task and a part of `stop` touch neither the object nor
    the place. -/
theorem Sound.repool (hv : v.Sound) (hobject : s.object = v.session.object)
    (hphase : s.phase = v.session.phase) (hpc : s.pc = v.session.pc)
    (hpool : v.session.pool = none → s.pool = none) : (v.follow v.disk s).Sound := by
  rw [follow_same hpc]
  refine ⟨hv.replaced, hv.waits, hv.call.imp (fun hout => ?_) (fun hin => ?_)⟩
  · refine ⟨by rw [hpc]; exact hout.place, by rw [hpc, hobject]; exact hout.size, ?_⟩
    rw [hobject, hphase]
    exact fun hempty => (hout.unused hempty).imp_left hpool
  · refine ⟨by rw [hobject]; exact hin.pos, by rw [hobject]; exact hin.fits,
      by rw [hobject]; exact hin.size, by rw [hobject]; exact hin.threads,
      hin.tasks.same hobject (fun i => Or.inl (by rw [hphase])), by rw [hpc]; exact hin.late, ?_,
      by rw [hobject, hpc]; exact hin.submitted, by rw [hobject, hpc]; exact hin.judged,
      by rw [hpc]; exact hin.running, by rw [hobject, hpc]; exact hin.succeeded⟩
    rw [hpc, hphase]
    exact fun hnew => (hin.unused hnew).imp_left hpool

theorem Sound.worked (hv : v.Sound)
    (hclear : v.session.pc = .parse → v.session.object.downloadTasks = [] ∧
      ∀ cfg ∈ v.disk.cfg, Usable v.session.object cfg)
    (h : Session.Worked v.remote v.disk v.session disk s) : (v.follow disk s).Sound := by
  rcases hv.call with hout | hin
  · exact hv.worked_outside hout hclear h
  · exact hv.worked_inside hin h

/-- The condition is on the steps of `download` itself, at the place of the
    parse; the others cannot read the file. -/
theorem move_sound {m : Move} (hv : v.Sound) (hclear : v.Clear (.move m))
    (h : v.session.step v.remote v.disk m = some (disk, s)) : (v.follow disk s).Sound := by
  cases m with
  | coord => exact hv.worked hclear (Session.coordStep_worked h)
  | extend fill =>
      refine hv.worked (fun hpc => ?_) (Session.extendStep_worked h)
      simp only [Session.step, Session.extendStep, hpc, reduceCtorEq] at h
  | writeCfg k =>
      refine hv.worked (fun hpc => ?_) (Session.writeCfgStep_worked h)
      simp only [Session.step, Session.writeCfgStep, hpc, reduceCtorEq] at h
  | interrupt =>
      refine hv.worked (fun hpc => ?_) (Session.interruptStep_worked h)
      simp only [Session.step, Session.interruptStep, hpc, reduceCtorEq] at h
  | fail =>
      by_cases hpc : v.session.pc = .parse
      · simp only [Session.step, Session.failStep, hpc, Option.some.injEq, Prod.mk.injEq] at h
        obtain ⟨rfl, rfl⟩ := h
        exact hv.ends (Or.inl rfl)
      · exact hv.worked (fun hparse => absurd hparse hpc) (Session.failStep_worked h)
  | task i m =>
      obtain ⟨pool, t, hpool, htask, -, hcalled⟩ := Session.taskStep_called h
      exact hv.called hpool htask hcalled
  | pick =>
      simp only [Session.step, Option.map_eq_some_iff, Prod.mk.injEq] at h
      obtain ⟨p', hpick, rfl, rfl⟩ := h
      refine hv.repool rfl rfl rfl (fun hnone => ?_)
      rw [hnone, Option.bind_none] at hpick
      exact absurd hpick (by simp only [reduceCtorEq, not_false_eq_true])
  | stop =>
      obtain ⟨hdisk, hobject, hphase, hpc, hpool⟩ := Session.stopStep_frame v.disk v.session
      simp only [Session.step, Option.some.injEq] at h
      rw [h] at hdisk hobject hphase hpc hpool
      obtain rfl : disk = v.disk := hdisk
      exact hv.repool hobject hphase hpc hpool

/-- An I/O error ends the call, with an object that had no task before. -/
theorem readError_sound {v' : Calls} {k : Nat} (hv : v.Sound) (hclear : v.Clear (.readError k))
    (h : v.readErrorStep k = some v') : v'.Sound := by
  unfold readErrorStep at h
  split at h
  · rename_i cfg hpc hcfg
    split at h
    · rename_i o hread
      obtain rfl := Option.some.inj h
      refine ⟨hv.replaced, hv.waits, Or.inl ⟨Or.inr (Or.inl rfl), ?_, fun _ => ?_⟩⟩
      · exact fun hearly => absurd hearly Bool.false_ne_true
      · exact hv.unused (hclear hpc).1
    · exact absurd h (by simp only [reduceCtorEq, not_false_eq_true])
  · exact absurd h (by simp only [reduceCtorEq, not_false_eq_true])

/-- Every step that meets the condition keeps the invariant. -/
theorem step_sound {v' : Calls} {a : Act} (hv : v.Sound) (hclear : v.Clear a)
    (h : v.step a = some v') : v'.Sound := by
  cases a with
  | again remote redownload =>
      simp only [step] at h
      split at h
      · obtain rfl := Option.some.inj h
        exact ⟨hv.replaced, nofun,
          Or.inl ⟨Or.inl rfl, fun _ hinit => absurd rfl hinit, hv.unused⟩⟩
      · exact absurd h (by simp only [reduceCtorEq, not_false_eq_true])
  | readError k => exact readError_sound hv hclear h
  -- No executor has been replaced.
  | late k m => simp only [step, lateStep, hv.replaced, List.getElem?_nil, reduceCtorEq] at h
  | move m =>
      simp only [step, Option.map_eq_some_iff] at h
      obtain ⟨⟨disk, s⟩, hstep, rfl⟩ := h
      exact move_sound hv hclear hstep

/-- The tasks of a call are numbered one by one. -/
theorem Inside.onePerId (hin : v.Inside) : OnePerId v.session.object := by
  have hids : v.session.object.downloadTasks.map DownloadTask.taskId
      = (List.range v.session.object.threadCount.toNat).map Int.ofNat := by
    rw [hin.threads, Int.toNat_natCast]
    apply List.ext_getElem?
    intro i
    rw [List.getElem?_map, List.getElem?_map]
    rcases ht : v.session.object.downloadTasks[i]? with _ | t
    · rw [List.getElem?_eq_none (by rw [List.length_range]; exact List.getElem?_eq_none_iff.mp ht)]
      rfl
    · have hi := (List.getElem?_eq_some_iff.mp ht).1
      rw [List.getElem?_range hi, Option.map_some, Option.map_some,
        ((hin.tasks i t ht).shape hin.pos hin.fits hi).1]
      rfl
  unfold OnePerId
  rw [hids]

/-- Counters that add up to the file are all complete. -/
theorem Inside.complete (hin : v.Inside)
    (hsum : (v.remote.fileSize : Int)
      ≤ downloaded v.session.object.downloadTasks v.session.object.downloadTasks.length) :
    ∀ t ∈ v.session.object.downloadTasks, t.Complete v.session.object.fileSize := by
  have hall := counters_full hin.pos v.session.object.downloadTasks
    (fun i _ => hin.tasks.downloadAt_le i) hsum
  intro t hmem
  obtain ⟨i, ht⟩ := List.mem_iff_getElem?.mp hmem
  have hi := (List.getElem?_eq_some_iff.mp ht).1
  obtain ⟨-, hstart, hblock⟩ := (hin.tasks i t ht).shape hin.pos hin.fits hi
  have hfull := hall i hi
  rw [downloadAt_of_getElem? ht] at hfull
  have hend : v.remote.fileSize ≤ v.session.object.downloadTasks.length
      * share v.remote.fileSize v.session.object.downloadTasks.length := le_mul_share hin.pos
  unfold DownloadTask.Complete
  rw [hin.size, hstart, hblock, hfull]
  unfold cap
  rw [Nat.add_mul, Nat.one_mul]
  split
  · omega
  -- The last block ends with the file.
  · have hlast : v.session.object.downloadTasks.length = i + 1 := by omega
    rw [hlast, Nat.add_mul, Nat.one_mul, ← hlast] at hend
    omega

theorem Sound.resumes (hv : v.Sound) : v.Resumes := by
  refine ⟨fun hlate hopen => ?_, hv.waits, fun hpc => ?_⟩
  · rcases hv.call with hout | hin
    · unfold Session.ended at hopen
      rcases hout.place with hearly | hpc | hpc
      · exact absurd (hlate.symm.trans hearly) Bool.false_ne_true
      · simp only [hpc, Bool.true_eq_false] at hopen
      · simp only [hpc, Bool.true_eq_false] at hopen
    · exact hin.onePerId
  · rcases hv.call with hout | hin
    · rcases hout.place with hearly | hfalse | hthrown
      · rw [hpc] at hearly
        exact absurd hearly Bool.false_ne_true
      · exact absurd (hpc.symm.trans hfalse)
          (by simp only [Pc.returned.injEq, Bool.true_eq_false, not_false_eq_true])
      · exact absurd (hpc.symm.trans hthrown) (by simp only [reduceCtorEq, not_false_eq_true])
    · exact ⟨hin.onePerId, hin.complete (hin.succeeded true hpc).2⟩

end Sound

theorem create_sound (remote : Remote) (disk : Disk) (threadCount : Int) (redownload : Bool) :
    (create remote disk threadCount redownload).Sound :=
  ⟨rfl, nofun, Or.inl ⟨Or.inl rfl, fun _ hinit => absurd rfl hinit, fun _ => ⟨rfl, fun _ => rfl⟩⟩⟩

/-- In every run of one object whose calls read the config file into an empty
    list, whatever file the server has for each call, whatever is on disk before
    the first and however each of them ends, every state is as expected. -/
theorem calls_resume (remote : Remote) (disk : Disk) (threadCount : Int) (redownload : Bool)
    (acts : List Act)
    (hclear : Along step Clear (create remote disk threadCount redownload) acts) :
    Throughout step Resumes (create remote disk threadCount redownload) acts := by
  have hsound : Throughout step Sound (create remote disk threadCount redownload) acts :=
    throughout_of_along step Clear Sound (fun _ _ _ hv hclear hstep => step_sound hv hclear hstep)
      acts _ (create_sound remote disk threadCount redownload) hclear
  exact fun start hstart v hrun => (hsound start hstart v hrun).resumes

/-- The steps of a call with one thread up to its first `take()`, over no config
    file. -/
def upToTake (fill : List Byte) : List Move :=
  [.coord, .coord, .extend fill, .coord, .coord, .writeCfg 48, .coord, .coord, .coord, .coord,
    .coord]

/-- A call that cannot connect, and another one that fetches the file. -/
def secondTry : List Act :=
  let fetch : List Move := [.task 0 .request, .task 0 .opened, .task 0 (.read 1), .task 0 .write,
    .task 0 .count, .task 0 .checkStop, .task 0 .endOfStream]
  let moves : List Move := upToTake [0] ++ fetch ++ List.replicate 8 Move.coord
  .move .coord :: .move .fail :: .again oneByte false :: moves.map Act.move

theorem calls_resume_secondTry :
    ∃ v ∈ exec step (create oneByte ⟨none, none⟩ 1 false) secondTry,
      v.session.pc = .returned true ∧ v.Resumes := by
  have hreturn : ∃ v ∈ exec step (create oneByte ⟨none, none⟩ 1 false) secondTry,
      v.session.pc = .returned true := by
    decide +kernel
  obtain ⟨v, hrun, hpc⟩ := hreturn
  exact ⟨v, hrun, hpc, calls_resume oneByte ⟨none, none⟩ 1 false secondTry (by decide +kernel)
    secondTry (List.prefix_refl secondTry) v hrun⟩

/-- A config file that is read into a list with tasks leaves more tasks than
    there are ids. -/
theorem stale_parse {v v' : Calls} (hpc : v.session.pc = .parse)
    (hstale : v.session.object.downloadTasks ≠ []) (h : v.step (.move .coord) = some v')
    (hread : v'.session.pc = .newPool) (hthreads : 1 ≤ v'.session.object.threadCount) :
    ¬ v'.Resumes := by
  simp only [step, Option.map_eq_some_iff] at h
  obtain ⟨⟨disk, s⟩, hstep, rfl⟩ := h
  rw [follow_early (by rw [hpc]; rfl)] at hread hthreads ⊢
  simp only at hread hthreads
  intro hresumes
  have hids := hresumes.ids (by simp only [hread, Pc.early]) (by simp only [Session.ended, hread])
  simp only [Session.step, Session.coordStep, hpc] at hstep
  split at hstep
  · rename_i o cfg hparse
    simp only [Option.some.injEq, Prod.mk.injEq] at hstep
    obtain ⟨rfl, rfl⟩ := hstep
    -- The new tasks alone are as many as the ids.
    have hlength := parseDownloadCfg_tasks _ _ _ _ hparse hthreads
    have hsame := hids.length_eq
    simp only at hthreads hlength hsame
    rw [List.length_map, List.length_map, List.length_range, hlength] at hsame
    exact hstale (List.eq_nil_of_length_eq_zero (by omega))
  · simp only [Option.some.injEq, Prod.mk.injEq] at hstep
    rw [← hstep.2] at hread
    exact absurd hread (by simp only [reduceCtorEq, not_false_eq_true])
  · simp only [Option.some.injEq, Prod.mk.injEq] at hstep
    rw [← hstep.2] at hread
    exact absurd hread (by simp only [reduceCtorEq, not_false_eq_true])

/-- One thread fetches one byte of two, and is stopped. The second call finds
    its task in the list, adds another one with the same counter, and is stopped
    before either of them goes on. -/
def stoppedTwice : List Act :=
  let fetch : List Move := [.task 0 .request, .task 0 .opened, .task 0 (.read 1), .task 0 .write,
    .task 0 .count, .stop, .task 0 .checkStop, .stop, .stop]
  let first : List Move := upToTake [0, 0] ++ fetch ++ List.replicate 11 Move.coord
  let again : List Move := [.coord, .coord, .extend [], .coord, .coord, .coord, .coord, .coord,
    .stop, .task 0 .noConnection]
  let second : List Move := again ++ List.replicate 9 Move.coord
  first.map Act.move ++ Act.again twoBytes false :: second.map Act.move

/-- The counters of both tasks add up to the file size: the call returns true
    and drops the config file, with half of the file missing. -/
theorem stale_tasks_succeed :
    ¬ Throughout step Resumes (create twoBytes ⟨none, none⟩ 1 false) stoppedTwice ∧
      ∃ v ∈ exec step (create twoBytes ⟨none, none⟩ 1 false) stoppedTwice,
        v.session.pc = .returned true ∧ v.disk = ⟨some [0x41, 0], none⟩ ∧
        v.session.object.downloadTasks = [⟨0, 0, 2, 1⟩, ⟨0, 0, 2, 1⟩] ∧
        v.session.object.threadCount = 1 ∧ v.submitted = 2 ∧ v.waitsFor = some 1 := by
  have hreturn : ∃ v ∈ exec step (create twoBytes ⟨none, none⟩ 1 false) stoppedTwice,
      v.session.pc = .returned true ∧ v.disk = ⟨some [0x41, 0], none⟩ ∧
      v.session.object.downloadTasks = [⟨0, 0, 2, 1⟩, ⟨0, 0, 2, 1⟩] ∧
      v.session.object.threadCount = 1 ∧ v.submitted = 2 ∧ v.waitsFor = some 1 := by
    decide +kernel
  refine ⟨fun hall => ?_, hreturn⟩
  obtain ⟨v, hrun, -, -, -, -, hsubmitted, hwaits⟩ := hreturn
  have htwo := (hall stoppedTwice (List.prefix_refl _) v hrun).waits 1 hwaits
  rw [hsubmitted] at htwo
  exact absurd htwo (by decide)

end Calls

end NetProbe
