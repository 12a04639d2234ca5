import NetProbe.Download.Resume

/-!
# What a Resumed Session Asks For

A resumed session should ask only for bytes it does not have. A task asks for
the range from its counter to the end of its block, so it does as long as the
counter has not reached the block. Before a resubmission the coordinator looks
at exactly that. Before the first submission it does not: a task that an
earlier session has finished is submitted like the others and asks for the
range that ends before it starts.

`requests_missing_iff` makes this exact for config files whose task number
divides the file size: every request of every run asks for missing bytes if
and only if no stored counter has reached its block. One direction is an
invariant, `Resuming`; the other is the run of `resume_run` with one request
more.

## Main definitions

* `AsksMissing`: Every request so far starts and ends inside its task's block.
* `Untouched`, `Active`: A session before and after it has read its config.
* `Loads`: Reading the config file leads from one to the other.
* `Resuming`: The invariant, one or the other.

## Theorems

* `Untouched.worked`, `Active.worked`, `Active.called`: The steps of the
  coordinator and of the tasks.
* `step_resuming`: Every step keeps the invariant.
* `finished_request`: A finished task asks for an empty range.
* `requests_missing_iff`: When all requests ask for missing bytes.
-/

namespace NetProbe

open HttpDownload Machine

/-- The request lies inside the block of its task. -/
def Request.Inside (q : Request) (t : DownloadTask) : Prop :=
  t.start ≤ q.startPos ∧ q.startPos ≤ q.endPos ∧ q.endPos ≤ t.start + t.block - 1

instance (q : Request) (t : DownloadTask) : Decidable (q.Inside t) :=
  inferInstanceAs (Decidable (_ ∧ _ ∧ _))

/-- Every request sent so far lies inside the block of its task. -/
def AsksMissing (s : Session) : Prop :=
  ∀ q ∈ s.requests, ∃ t ∈ s.object.downloadTasks[q.task]?, q.Inside t

instance (s : Session) : Decidable (AsksMissing s) :=
  inferInstanceAs (Decidable (∀ q ∈ s.requests, ∃ t ∈ s.object.downloadTasks[q.task]?, q.Inside t))

/-- A session over a config file that it has not read yet. -/
structure Untouched (r : Remote) (cfg : List Byte) (p : Disk × Session) : Prop where
  place : p.2.pc = .init ∨ p.2.pc = .localFile ∨
    (p.2.pc = .setLength ∨ p.2.pc = .createCfg ∨ p.2.pc = .parse) ∧
      p.2.object.fileSize = r.fileSize
  cfg_eq : p.1.cfg = some cfg
  keeps : p.2.redownload = false
  no_tasks : p.2.object.downloadTasks = []
  no_pool : p.2.pool = none
  no_phase : ∀ i, p.2.phase i = .idle
  no_requests : p.2.requests = []

/-- Every task that meets the condition has bytes to ask for. -/
def Missing (s : Session) (P : Nat → Prop) : Prop :=
  ∀ (i : Nat) (t : DownloadTask), s.object.downloadTasks[i]? = some t → P i → t.download < t.block

/-- A session after it has read the config file: the tasks about to ask have
    bytes to ask for. -/
structure Active (r : Remote) (n : Nat) (s : Session) : Prop where
  late : s.pc.early = false
  length : s.object.downloadTasks.length = n
  sound : TasksSound r s
  missing : Missing s (fun i => s.phase i = .ready)
  fresh : s.pc = .newPool ∨ s.pc = .submitAll →
    (∀ i, s.phase i = .idle) ∧ Missing s (fun _ => True)
  asks : AsksMissing s

/-- An object without tasks reads the config file, leaves it as it is, and gets
    tasks that have bytes to ask for. -/
def Loads (r : Remote) (n : Nat) (cfg : List Byte) : Prop :=
  ∀ o : HttpDownload, o.fileSize = r.fileSize → o.downloadTasks = [] →
    ∃ o', o.parseDownloadCfg (some cfg) = (.ok true, o', some cfg) ∧
      ∀ s : Session, s.pc = .newPool → s.object = o' → (∀ i, s.phase i = .idle) →
        s.requests = [] → Active r n s

/-- The session has not read the config file, has ended without, or has made
    its tasks from it. -/
def Resuming (r : Remote) (n : Nat) (cfg : List Byte) (p : Disk × Session) : Prop :=
  Untouched r cfg p ∨ (p.2.ended = true ∧ p.2.pool = none ∧ p.2.requests = []) ∨ Active r n p.2

theorem Untouched.worked {r : Remote} {n : Nat} {cfg : List Byte} {disk disk' : Disk}
    {s s' : Session} (hs : Untouched r cfg (disk, s)) (hparse : Loads r n cfg)
    (h : Session.Worked r disk s disk' s') : Resuming r n cfg (disk', s') := by
  obtain ⟨hplace, hcfg, hkeeps, htasks, hpool, hphase, hrequests⟩ := hs
  simp only at hplace hcfg hkeeps htasks hpool hphase hrequests
  cases h
  case starts hpc =>
      exact Or.inl ⟨Or.inr (Or.inl rfl), hcfg, hkeeps, htasks, hpool, hphase, hrequests⟩
  case connects hpc =>
      exact Or.inl ⟨Or.inr (Or.inr ⟨Or.inl rfl, rfl⟩), hcfg, hkeeps, htasks, hpool, hphase,
        hrequests⟩
  case setsLength fill file hpc hfile hfill =>
      simp only [hpc, reduceCtorEq, false_or, true_or, true_and] at hplace
      exact Or.inl ⟨Or.inr (Or.inr ⟨Or.inr (Or.inl rfl), hplace⟩), hcfg, hkeeps, htasks, hpool,
        hphase, hrequests⟩
  case keepsCfg hpc =>
      simp only [hpc, reduceCtorEq, false_or, true_or, true_and] at hplace
      exact Or.inl ⟨Or.inr (Or.inr ⟨Or.inr (Or.inr rfl), hplace⟩), hcfg, hkeeps, htasks, hpool,
        hphase, hrequests⟩
  -- The parse is the step from one half of the invariant to the other.
  case parses o cfg' hpc hread =>
      simp only [hpc, reduceCtorEq, false_or, or_true, true_and] at hplace
      obtain ⟨o', hread', hactive⟩ := hparse s.object hplace htasks
      rw [hcfg, hread'] at hread
      simp only [Prod.mk.injEq, true_and] at hread
      exact Or.inr (Or.inr (hactive _ rfl hread.1.symm hphase hrequests))
  case parseEnds result o cfg' pc hpc hresult hread hend =>
      simp only [hpc, reduceCtorEq, false_or, or_true, true_and] at hplace
      obtain ⟨o', hread', -⟩ := hparse s.object hplace htasks
      rw [hcfg, hread'] at hread
      exact absurd (congrArg Prod.fst hread).symm hresult
  case givesUp hpc => exact Or.inr (Or.inl ⟨rfl, hpool, hrequests⟩)
  -- The config file is there, and is not to be dropped.
  case findsNoCfg hpc hnone =>
      rw [hcfg] at hnone
      exact absurd hnone (by simp only [reduceCtorEq, not_false_eq_true])
  case dropsCfg hpc hredownload =>
      rw [hkeeps] at hredownload
      exact absurd hredownload Bool.false_ne_true
  -- The other steps belong to later places of `download`.
  case closesPool hpc _ =>
      rcases hpc with ⟨hpc, -⟩ | ⟨hpc, -⟩ <;>
        simp only [hpc, reduceCtorEq, or_false, false_and] at hplace
  case fails hpc =>
      rcases hpc with hpc | ⟨i, hpc⟩ <;>
        simp only [hpc, reduceCtorEq, or_false, false_and] at hplace
  case throws hpc =>
      rcases hpc with hpc | hpc | hpc | hpc | ⟨i, hpc⟩ <;>
        simp only [hpc, reduceCtorEq, or_false, false_and] at hplace
  all_goals
    simp only [‹s.pc = _›, reduceCtorEq, or_false, false_and] at hplace

/-- The steps of `download` after the parse change no counter, and make a task
    ready only if it has bytes to ask for. -/
theorem Active.worked {r : Remote} {n : Nat} {disk disk' : Disk} {s s' : Session}
    (hs : Active r n s) (h : Session.Worked r disk s disk' s') : Active r n s' := by
  obtain ⟨hlate, hlength, hsound, hmissing, hfresh, hasks⟩ := hs
  cases h
  -- The first submissions make every task ready without looking at it.
  case submits p p' hpc hpool hsubmit =>
      obtain ⟨hidle, hall⟩ := hfresh (Or.inr hpc)
      refine ⟨rfl, hlength, ?_, fun i t ht _ => hall i t ht trivial, ?_, hasks⟩
      · intro i t ht
        have hone := hsound i t ht
        exact ⟨hone.made, hone.nonneg, hone.le_cap, trivial⟩
      · intro hpc'
        exact absurd hpc' (by simp only [reduceCtorEq, or_self, not_false_eq_true])
  -- A later one has looked.
  case resubmits i t p p' hpc htask hless hpool hsubmit =>
      refine ⟨rfl, hlength, hsound.setPhase (fun _ _ => trivial), ?_, ?_, hasks⟩
      · intro j u hj hready
        by_cases hij : j = i
        · subst hij
          obtain rfl := Option.some.inj (htask.symm.trans hj)
          exact hless
        · refine hmissing j u hj ?_
          simp only [Session.setPhase, hij, if_false] at hready
          exact hready
      · intro hpc'
        exact absurd hpc' (by simp only [reduceCtorEq, or_self, not_false_eq_true])
  case makesPool hpc hpos =>
      exact ⟨rfl, hlength, hsound, hmissing, fun _ => hfresh (Or.inl hpc), hasks⟩
  case parseEnds hpc _ _ _ =>
      rw [hpc] at hlate
      exact absurd hlate (by simp only [Pc.early, Bool.true_eq_false, not_false_eq_true])
  case closesPool pool pc hpc hsome =>
      rcases hpc with ⟨hpc, rfl⟩ | ⟨hpc, rfl⟩
      · exact ⟨rfl, hlength, hsound, hmissing, by simp only [reduceCtorEq, or_self, false_imp_iff],
          hasks⟩
      · exact ⟨rfl, hlength, hsound, hmissing, by simp only [reduceCtorEq, or_self, false_imp_iff],
          hasks⟩
  -- Either the place is an early one, or nothing but the place changes.
  all_goals
    first
    | exact ⟨rfl, hlength, hsound, hmissing, by simp only [reduceCtorEq, or_self, false_imp_iff],
        hasks⟩
    | (simp only [‹s.pc = _›, Pc.early, Bool.true_eq_false] at hlate)

theorem Active.setPhase {r : Remote} {n : Nat} {s : Session} (hs : Active r n s) {i : Nat}
    {ph : Phase} (hsound : TasksSound r (s.setPhase i ph)) (hready : ph ≠ .ready)
    (hidle : s.phase i = .idle → ph = .idle) : Active r n (s.setPhase i ph) := by
  refine ⟨hs.late, hs.length, hsound, ?_, ?_, hs.asks⟩
  · intro j t hj hph
    refine hs.missing j t hj ?_
    simp only [Session.setPhase] at hph
    split at hph
    · exact absurd hph hready
    · exact hph
  -- Before the first submissions no task moves.
  · intro hpc
    obtain ⟨hall, hmissing⟩ := hs.fresh hpc
    refine ⟨fun j => ?_, hmissing⟩
    simp only [Session.setPhase]
    split
    · exact hidle (hall i)
    · exact hall j

/-- A task that has bytes to ask for asks for them. -/
theorem request_inside {r : Remote} {n i : Nat} {t : DownloadTask} {ph : Phase}
    (hfit : r.fileSize + n ≤ 2147483648) (hi : i < n) (ht : TaskSound r n i t ph)
    (hless : t.download < t.block) :
    (Request.mk i (toInt32 (t.start + t.download)) (toInt32 (t.start + t.block - 1))).Inside t := by
  -- Where the block lies, in terms of the shares of the file.
  have hstart : i * share r.fileSize n ≤ r.fileSize + n - 1 := start_le (Nat.le_of_lt hi)
  have hnext : (i + 1) * share r.fileSize n ≤ r.fileSize + n - 1 := start_le hi
  rw [Nat.add_mul, Nat.one_mul] at hnext
  obtain ⟨-, hs, hb⟩ := ht.shape (by omega) hfit hi
  -- The block ends below the largest `int`, so the positions do not wrap.
  have hend : t.start + t.block ≤ 2147483647 := by
    rw [hs, hb]
    split
    · omega
    · have := r.fileSize_lt
      omega
  have hnonneg := ht.nonneg
  unfold Request.Inside
  simp only
  rw [toInt32_eq (t.start + t.download) (by omega) (by omega),
    toInt32_eq (t.start + t.block - 1) (by omega) (by omega)]
  omega

theorem Active.called {r : Remote} {n : Nat} {disk disk' : Disk} {s s' : Session}
    {pool : ThreadPool Nat} {i : Nat} {t : DownloadTask} (hs : Active r n s)
    (hfit : r.fileSize + n ≤ 2147483648) (ht : s.object.downloadTasks[i]? = some t)
    (h : Session.Called r disk s pool i t disk' s') : Active r n s' := by
  have hi : i < n := by
    rw [← hs.length]
    exact (List.getElem?_eq_some_iff.mp ht).1
  obtain ⟨hsound', -⟩ := called_sound hs.sound (by rw [hs.length]; exact hfit) ht h
  -- A busy task that moves on is not about to ask.
  have hmoves : ∀ {ph ph' : Phase}, s.phase i = ph → ph ≠ .idle → ph' ≠ .ready →
      TasksSound r (s.setPhase i ph') → Active r n (s.setPhase i ph') :=
    fun hphase hbusy hready hsound =>
      hs.setPhase hsound hready (fun hidle => absurd (hphase.symm.trans hidle) hbusy)
  cases h
  case returns =>
      have hfin := hs.setPhase hsound' (by simp) (fun _ => rfl)
      exact ⟨hfin.late, hfin.length, hfin.sound, hfin.missing, hfin.fresh, hfin.asks⟩
  -- The new request is that of a ready task, which has bytes missing.
  case asks hphase =>
      have hmove : Active r n (s.setPhase i (.requested _ _)) :=
        hmoves hphase (by simp) (by simp) hsound'
      refine ⟨hmove.late, hmove.length, hmove.sound, hmove.missing, hmove.fresh, ?_⟩
      intro q hq
      rcases List.mem_append.mp hq with hq | hq
      · exact hs.asks q hq
      · obtain rfl := List.mem_singleton.mp hq
        have hone := hs.sound i t ht
        rw [hs.length] at hone
        exact ⟨t, ht, request_inside hfit hi hone (hs.missing i t ht hphase)⟩
  case writesPart => exact hs
  case counts pos limit readLen hphase =>
      -- Counting is the only step that moves a counter, and the task is not about to ask.
      refine ⟨hs.late, by rw [← hs.length]; exact List.length_set, hsound', ?_, ?_, ?_⟩
      · intro j u hj hready
        simp only [Session.setPhase, Session.addDownload, List.getElem?_set] at hj hready
        by_cases hij : j = i
        · rw [if_pos hij] at hready
          exact absurd hready (by simp only [reduceCtorEq, not_false_eq_true])
        · rw [if_neg hij] at hready
          rw [if_neg (fun h => hij h.symm)] at hj
          exact hs.missing j u hj hready
      · intro hpc
        have hidle := (hs.fresh hpc).1 i
        rw [hphase] at hidle
        exact absurd hidle (by simp only [reduceCtorEq, not_false_eq_true])
      · intro q hq
        obtain ⟨u, hu, hin⟩ := hs.asks q hq
        simp only [Session.setPhase, Session.addDownload, List.getElem?_set]
        by_cases hqi : i = q.task
        · rw [if_pos hqi, if_pos (by rw [hs.length]; exact hi)]
          rw [← hqi] at hu
          obtain rfl := Option.some.inj (ht.symm.trans hu)
          exact ⟨_, rfl, hin⟩
        · rw [if_neg hqi]
          exact ⟨u, hu, hin⟩
  case opens hphase _ => exact hmoves hphase (by simp) (by simp) hsound'
  case reads hphase _ _ => exact hmoves hphase (by simp) (by simp) hsound'
  case writes hphase _ => exact hmoves hphase (by simp) (by simp) hsound'
  case continues hphase => exact hmoves hphase (by simp) (by simp) hsound'

theorem step_resuming {r : Remote} {n : Nat} {cfg : List Byte} {disk disk' : Disk}
    {s s' : Session} {m : Move} (hfit : r.fileSize + n ≤ 2147483648)
    (hparse : Loads r n cfg) (hs : Resuming r n cfg (disk, s))
    (h : s.step r disk m = some (disk', s')) : Resuming r n cfg (disk', s') := by
  rcases hs with hs | ⟨hended, hpool, hrequests⟩ | hs
  -- Without a pool only `download` and `stop` can step.
  · cases Session.step_stepped h
    case worked hworked => exact hs.worked hparse hworked
    case picked hpool _ => exact absurd (hs.no_pool.symm.trans hpool) (by simp)
    case called hpool _ _ _ => exact absurd (hs.no_pool.symm.trans hpool) (by simp)
    case shutDown =>
        exact Or.inl ⟨hs.place, hs.cfg_eq, hs.keeps, hs.no_tasks,
          congrArg (Option.map ThreadPool.shutdownNow) hs.no_pool, hs.no_phase, hs.no_requests⟩
    all_goals
      exact Or.inl ⟨hs.place, hs.cfg_eq, hs.keeps, hs.no_tasks, hs.no_pool, hs.no_phase,
        hs.no_requests⟩
  -- After an early end nothing but a stop is left.
  · simp only at hended hpool hrequests
    cases Session.step_stepped h
    case worked hworked => exact absurd (hworked.not_ended.symm.trans hended) Bool.false_ne_true
    case picked hpool' _ => exact absurd (hpool.symm.trans hpool') (by simp)
    case called hpool' _ _ _ => exact absurd (hpool.symm.trans hpool') (by simp)
    case shutDown =>
        exact Or.inr (Or.inl ⟨hended, congrArg (Option.map ThreadPool.shutdownNow) hpool,
          hrequests⟩)
    all_goals exact Or.inr (Or.inl ⟨hended, hpool, hrequests⟩)
  · refine Or.inr (Or.inr ?_)
    cases Session.step_stepped h
    case worked hworked => exact hs.worked hworked
    case called i pool t hpool htask hrun hcalled => exact hs.called hfit htask hcalled
    all_goals exact ⟨hs.late, hs.length, hs.sound, hs.missing, hs.fresh, hs.asks⟩

/-- What a finished task asks for does not lie inside its block. -/
theorem finished_request {t : DownloadTask} (task : Nat)
    (hstart : -2147483648 ≤ t.start ∧ t.start < 2147483648)
    (hblock : 0 ≤ t.block ∧ t.block < 2147483648) (hfinished : t.download = t.block) :
    ¬ (Request.mk task (toInt32 (t.start + t.download))
      (toInt32 (t.start + t.block - 1))).Inside t := by
  rw [hfinished]
  unfold Request.Inside toInt32
  simp only
  rw [Int.bmod_def, Int.bmod_def]
  split <;> split <;> omega

/-- A file whose stored counters lie between zero and their blocks is read, and
    its tasks are in place. -/
theorem parse_active {r : Remote} {urlBytes : List Byte} {n : Nat} {counters : List Int}
    (hu : urlBytes.length < 2147483648) (hn : 1 ≤ n) (hfit : r.fileSize + n ≤ 2147483648)
    (hdvd : n ∣ r.fileSize) (hlen : counters.length = n)
    (hcs : ∀ (i : Nat) (c : Int), counters[i]? = some c →
      0 ≤ c ∧ c < (taskAt r.fileSize n i c).block) :
    Loads r n (cfgBytes urlBytes r.fileSize n counters) := by
  intro o hsize htasks
  have hrange : Counters counters := by
    intro c hc
    obtain ⟨i, hi⟩ := List.mem_iff_getElem?.mp hc
    have := hcs i c hi
    have := taskAt_range r.fileSize n i c
    omega
  have hpos := r.fileSize_pos
  have hsmall := r.fileSize_lt
  have hread := parseDownloadCfg_cfgBytes o urlBytes n counters hu (by omega) (by omega) hn
    (by omega) hlen hrange
  rw [hsize, htasks, List.nil_append] at hread
  refine ⟨_, hread, ?_⟩
  intro s' hpc hobject hidle hrequests
  have htasks' : s'.object.downloadTasks = tasksOf r.fileSize n counters := by rw [hobject]
  have hlength : s'.object.downloadTasks.length = n := by rw [htasks', length_tasksOf, hlen]
  have hless : Missing s' (fun _ => True) := by
    intro i t ht _
    rw [htasks', getElem?_tasksOf, Option.map_eq_some_iff] at ht
    obtain ⟨c, hc, rfl⟩ := ht
    rw [download_taskAt]
    exact (hcs i c hc).2
  refine ⟨by rw [hpc]; rfl, hlength, ?_, fun i t ht _ => hless i t ht trivial,
    fun _ => ⟨hidle, hless⟩, ?_⟩
  · intro i t ht
    rw [hlength]
    rw [htasks'] at ht
    refine tasksOf_sound r n counters s'.phase hidle (fun j c hj => ?_) i t ht
    have hj' : j < n := by
      rw [← hlen]
      exact (List.getElem?_eq_some_iff.mp hj).1
    have hc := hcs j c hj
    rw [block_of_dvd hn hfit hdvd hj'] at hc
    omega
  · intro q hq
    rw [hrequests] at hq
    exact absurd hq List.not_mem_nil

/-- Over a config file whose task number divides the file size, every request
    of every run of `download(false)` lies inside its task's block if and only
    if no stored counter has reached its block. -/
theorem requests_missing_iff (r : Remote) (saveFile : Option (List Byte)) (urlBytes : List Byte)
    (n : Nat) (counters : List Int) (threadCount : Int) (hu : urlBytes.length < 2147483648)
    (hn : 1 ≤ n) (hdvd : n ∣ r.fileSize) (hlen : counters.length = n)
    (hcs : ∀ (i : Nat) (c : Int), counters[i]? = some c →
      0 ≤ c ∧ c ≤ (taskAt r.fileSize n i c).block) :
    (∀ (moves : List Move) (p : Disk × Session),
      exec (Session.run r) (⟨saveFile, some (cfgBytes urlBytes r.fileSize n counters)⟩,
        Session.create r threadCount false) moves = some p → AsksMissing p.2) ↔
    ∀ (i : Nat) (c : Int), counters[i]? = some c → c < (taskAt r.fileSize n i c).block := by
  have hsmall := r.fileSize_lt
  have hn' : n < 2147483648 := Nat.lt_of_le_of_lt (Nat.le_of_dvd r.fileSize_pos hdvd) hsmall
  constructor
  · intro hall i c hc
    by_contra hnot
    obtain ⟨hnonneg, hle⟩ := hcs i c hc
    have hi : i < n := by
      rw [← hlen]
      exact (List.getElem?_eq_some_iff.mp hc).1
    have hrange : Counters counters := by
      intro d hd
      obtain ⟨j, hj⟩ := List.mem_iff_getElem?.mp hd
      have := hcs j d hj
      have := taskAt_range r.fileSize n j d
      omega
    -- The run up to the first submissions, and the request of the finished task.
    have hrun := resume_run r ⟨saveFile, some (cfgBytes urlBytes r.fileSize n counters)⟩ urlBytes n
      counters threadCount (List.replicate (r.fileSize - (saveFile.getD []).length) 0) rfl hu hn hn'
      hlen hrange List.length_replicate
    have htask : (resumed r urlBytes n counters threadCount false).object.downloadTasks[i]?
        = some (taskAt r.fileSize n i c) := by
      show (tasksOf r.fileSize n counters)[i]? = _
      rw [getElem?_tasksOf, hc]
      rfl
    have hask := (exec_append _ _ _ _ [.task i .request] hrun).trans
      (exec_cons (run_request r _ rfl htask (List.mem_range.mpr hi) rfl))
    obtain ⟨t, ht, hin⟩ := hall _ _ hask _ (List.mem_append_right _ List.mem_cons_self)
    obtain rfl := Option.some.inj (htask.symm.trans ht)
    have hranges := taskAt_range r.fileSize n i c
    exact finished_request i hranges.1 (by omega) (by rw [download_taskAt]; omega) hin
  · intro hless moves p hrun
    -- Positive blocks mean that the arithmetic of the blocks did not wrap.
    have hfit : r.fileSize + n ≤ 2147483648 := by
      refine fits_of_positive hn hsmall hn' (fun i hi => ?_)
      have hc : counters[i]? = some counters[i] := List.getElem?_eq_getElem _
      have hpos := (hcs i _ hc).1
      have hlt := hless i _ hc
      rw [block_taskAt _ _ _ _ 0] at hlt
      omega
    have hparse := parse_active hu hn hfit hdvd hlen
      (fun i c hc => ⟨(hcs i c hc).1, hless i c hc⟩)
    have hinv := exec_keeps (Session.run r) (fun _ _ => True)
      (Resuming r n (cfgBytes urlBytes r.fileSize n counters))
      (fun q m q' hq _ hstep => step_resuming hfit hparse hq hstep) moves _ p
      (Or.inl ⟨Or.inl rfl, rfl, rfl, rfl, rfl, fun _ => rfl, rfl⟩) (along_true _ _ _) hrun
    rcases hinv with h | ⟨-, -, h⟩ | h
    · intro q hq
      rw [h.no_requests] at hq
      exact absurd hq List.not_mem_nil
    · intro q hq
      rw [h] at hq
      exact absurd hq List.not_mem_nil
    · exact h.asks

/-- A remote file of two bytes. -/
def twoBytes : Remote := ⟨smallUrl, [0x41, 0x42], by decide, by decide, smallUrl_lt⟩

/-- Of two tasks the first has one of its two bytes: it asks for the other one, and
    the second task asks for both of its own. -/
theorem requests_missing_partly :
    ∃ p ∈ exec (Session.run fourBytes) (⟨some [0x41, 0, 0, 0],
        some (cfgBytes (encodeUtf16 fourBytes.url) fourBytes.fileSize 2 [1, 0])⟩,
      Session.create fourBytes 5 false) (resumeMoves [] ++ [.task 1 .request, .task 0 .request]),
      p.2.requests = [⟨1, 2, 3⟩, ⟨0, 1, 1⟩] ∧ AsksMissing p.2 := by
  have hblocks : ∀ (i : Nat) (c : Int), [(1 : Int), 0][i]? = some c →
      0 ≤ c ∧ c < (taskAt fourBytes.fileSize 2 i c).block := by
    intro i c hc
    rcases i with _ | _ | i
    · obtain rfl := Option.some.inj hc
      decide +kernel
    · obtain rfl := Option.some.inj hc
      decide +kernel
    · exact absurd hc (by simp)
  have hasks : ∃ p ∈ exec (Session.run fourBytes) (⟨some [0x41, 0, 0, 0],
        some (cfgBytes (encodeUtf16 fourBytes.url) fourBytes.fileSize 2 [1, 0])⟩,
      Session.create fourBytes 5 false) (resumeMoves [] ++ [.task 1 .request, .task 0 .request]),
      p.2.requests = [⟨1, 2, 3⟩, ⟨0, 1, 1⟩] := by
    decide +kernel
  obtain ⟨p, hrun, hsent⟩ := hasks
  refine ⟨p, hrun, hsent, ?_⟩
  refine (requests_missing_iff fourBytes (some [0x41, 0, 0, 0]) (encodeUtf16 fourBytes.url) 2 [1, 0]
    5 (by decide) (by decide) (by decide) rfl (fun i c hc => ?_)).mpr (fun i c hc => ?_) _ p hrun
  · exact ⟨(hblocks i c hc).1, (hblocks i c hc).2.le⟩
  · exact (hblocks i c hc).2

/-- A first session of two threads crashes after the first task has finished
    and before the second has begun; the next one submits both, and the first
    task asks again. -/
def finishedTask : List Label :=
  let first : List Move := [.coord, .coord, .extend [0, 0], .coord, .coord, .writeCfg 52, .coord,
    .coord, .coord, .coord, .coord, .task 0 .request, .task 0 .opened, .task 0 (.read 1),
    .task 0 .write, .task 0 .count, .task 0 .checkStop, .task 0 .endOfStream, .coord, .coord]
  .newSession 2 false :: first.map (.move 0) ++ [.crash, .newSession 2 false] ++
    (resumeMoves [] ++ [Move.task 0 .request]).map (.move 0)

theorem finishedTask_asks_again :
    ∃ w ∈ exec (World.step twoBytes) (World.initial ⟨none, none⟩) finishedTask,
      ∃ s ∈ w.sessions, ¬ AsksMissing s := by
  decide +kernel

end NetProbe
