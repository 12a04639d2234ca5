import NetProbe.Download.Coordinator
import NetProbe.Download.Parsing

/-!
# The Books of a Download

The coordinator of a download counts the tasks that are out and writes the
counter of each one that comes back. This is about a download that nobody
stops, whatever the order in which the tasks come back and however often they
come back incomplete.

The count is the number of tasks in flight, as `Accounted` says. To know what
is true when the loop ends, the tasks have to be told apart: each is in flight
at most once, and one that is not in flight is complete. `Flying` says so, with
the task the coordinator has in its hands set apart. When the loop ends nothing
is in flight, so every task is complete.

The counter of such a task is the one written last for it. Whether the next
reader of the file finds it there is another matter: the coordinator counts the
place of the counters from the end of the file, the reader from its beginning.
The two agree if the file ends with the counters, and the counters take fewer
than `2 ^ 31` bytes, which is what `PlainCfg` asks for when the file is opened.

## Main definitions

* `Flying`, `Tallied`: Which tasks are in flight, at each place of `download`.
* `Shifted`: A step of a worker.
* `Numbered`: The tasks have their places as numbers.
* `Undisturbed`: The invariant without the disk.
* `PlainCfg`: The config file ends with its counters.
* `Booked`, `Stored`: Which counters are stored.

## Theorems

* `Called.shifted`: What a step of a task leaves in place.
* `worked_tallied`, `worked_numbered`, `worked_stored`: What a step of
  `download` keeps.
* `step_undisturbed`, `step_stored`: What every step keeps but one of a stop.
* `accounting`: A download that nobody stops, at the test of its loop and
  behind it.
* `trailing_bytes_misplace`: A file with bytes after its counters.
-/

namespace NetProbe

open HttpDownload Machine

namespace Session

/-- The tasks in flight and those set apart are different tasks of the session,
    and the others are complete. -/
structure Flying (s : Session) (away : List Nat) (p : ThreadPool Nat) : Prop where
  pool : s.pool = some p
  length : (s.object.downloadTasks.length : Int) = s.object.threadCount
  nodup : (away ++ p.flight).Nodup
  known : ∀ i ∈ away ++ p.flight, i < s.object.downloadTasks.length
  complete : ∀ (i : Nat) (t : DownloadTask), s.object.downloadTasks[i]? = some t →
    i ∉ away ++ p.flight → t.block ≤ t.download

/-- Which tasks are in flight, at each place of `download`. -/
def Tallied (s : Session) : Prop :=
  match s.pc with
  | .submitAll => ∃ p, s.pool = some p ∧ p.flight = []
  | .openCfg => ∃ p, s.Flying [] p ∧ ∀ i < s.object.downloadTasks.length, i ∈ p.flight
  | .loop => ∃ p, s.Flying [] p
  | .record i => ∃ p, s.Flying [i] p
  | .check i => ∃ p, s.Flying [i] p
  | .await => ∃ p, s.Flying [] p ∧ p.flight = []
  | _ => True

/-- The tasks of a call that is not over have their places as numbers, and
    counters that are `int` values. -/
def Numbered (s : Session) : Prop :=
  s.ended = false → 1 ≤ s.object.threadCount → ∀ (i : Nat) (t : DownloadTask),
    s.object.downloadTasks[i]? = some t →
      t.taskId = i ∧ -2147483648 ≤ t.download ∧ t.download < 2147483648

/-- A worker picks a task, or a task goes on: it stays in flight, and no other
    task changes. -/
structure Shifted (disk : Disk) (s : Session) (p : ThreadPool Nat) (disk' : Disk) (s' : Session)
    (p' : ThreadPool Nat) : Prop where
  pool : s.pool = some p
  pool' : s'.pool = some p'
  flight : p'.flight.Perm p.flight
  pc : s'.pc = s.pc
  cfg : disk'.cfg = disk.cfg
  offset : s'.offset = s.offset
  stopFlag : s'.stopFlag = s.stopFlag
  threads : s'.object.threadCount = s.object.threadCount
  length : s'.object.downloadTasks.length = s.object.downloadTasks.length
  others : ∀ (i : Nat) (t : DownloadTask), s'.object.downloadTasks[i]? = some t → i ∉ p.flight →
    s.object.downloadTasks[i]? = some t
  same : ∀ (i : Nat) (t : DownloadTask), s'.object.downloadTasks[i]? = some t →
    ∃ t₀, s.object.downloadTasks[i]? = some t₀ ∧ t.taskId = t₀.taskId ∧
      (t.download = t₀.download ∨ -2147483648 ≤ t.download ∧ t.download < 2147483648)

theorem picked_shifted {disk : Disk} {s : Session} {p p' : ThreadPool Nat} (hpool : s.pool = some p)
    (hpick : p.pick = some p') : Shifted disk s p disk { s with pool := some p' } p' where
  pool := hpool
  pool' := rfl
  flight := ThreadPool.flight_pick hpick
  pc := rfl
  cfg := rfl
  offset := rfl
  stopFlag := rfl
  threads := rfl
  length := rfl
  others := fun _ _ ht _ => ht
  same := fun _ t ht => ⟨t, ht, rfl, .inl rfl⟩

/-- A step of a task that changes no counter. -/
theorem shifted_of_object {disk disk' : Disk} {s s' : Session} {p p' : ThreadPool Nat}
    (hpool : s.pool = some p) (hpool' : s'.pool = some p') (hflight : p'.flight.Perm p.flight)
    (hpc : s'.pc = s.pc) (hcfg : disk'.cfg = disk.cfg) (hoffset : s'.offset = s.offset)
    (hflag : s'.stopFlag = s.stopFlag) (hobject : s'.object = s.object) :
    Shifted disk s p disk' s' p' := by
  refine ⟨hpool, hpool', hflight, hpc, hcfg, hoffset, hflag, by rw [hobject], by rw [hobject],
    fun i t ht _ => ?_, fun i t ht => ?_⟩
  · rw [hobject] at ht
    exact ht
  · rw [hobject] at ht
    exact ⟨t, ht, rfl, .inl rfl⟩

theorem Called.shifted {r : Remote} {disk disk' : Disk} {s s' : Session} {p : ThreadPool Nat}
    {i : Nat} {t : DownloadTask} (h : Called r disk s p i t disk' s') (hpool : s.pool = some p)
    (htask : s.object.downloadTasks[i]? = some t) (hrun : i ∈ p.running) :
    ∃ p', Shifted disk s p disk' s' p' := by
  have hsame : ∀ (disk' : Disk) (s' : Session), s'.pool = s.pool → s'.pc = s.pc →
      disk'.cfg = disk.cfg → s'.offset = s.offset → s'.stopFlag = s.stopFlag →
      s'.object = s.object → ∃ p', Shifted disk s p disk' s' p' :=
    fun _ _ hpool' hpc hcfg hoffset hflag hobject =>
      ⟨p, shifted_of_object hpool (hpool'.trans hpool) (List.Perm.refl _) hpc hcfg hoffset hflag
        hobject⟩
  cases h with
  | returns =>
      exact ⟨p.finish i, shifted_of_object hpool rfl (ThreadPool.flight_finish hrun) rfl rfl rfl rfl
        rfl⟩
  | asks _ => exact hsame _ _ rfl rfl rfl rfl rfl rfl
  | opens _ _ _ _ => exact hsame _ _ rfl rfl rfl rfl rfl rfl
  | reads _ _ _ _ _ _ => exact hsame _ _ rfl rfl rfl rfl rfl rfl
  | writesPart _ _ _ _ _ _ _ _ => exact hsame _ _ rfl rfl rfl rfl rfl rfl
  | writes _ _ _ _ _ _ => exact hsame _ _ rfl rfl rfl rfl rfl rfl
  | continues _ _ _ => exact hsame _ _ rfl rfl rfl rfl rfl rfl
  -- The one step that changes a counter, of a task in flight.
  | counts pos limit readLen _ =>
      have hflight : i ∈ p.flight := by
        unfold ThreadPool.flight
        exact List.mem_append_left _ (List.mem_append_right _ hrun)
      refine ⟨p, hpool, hpool, List.Perm.refl _, rfl, rfl, rfl, rfl, rfl, List.length_set,
        fun j u hu hj => ?_, fun j u hu => ?_⟩
      · have hne : i ≠ j := fun heq => hj (heq ▸ hflight)
        simp only [addDownload, setPhase, List.getElem?_set_ne hne] at hu
        exact hu
      · by_cases hij : i = j
        · subst hij
          simp only [addDownload, setPhase,
            List.getElem?_set_self (List.getElem?_eq_some_iff.mp htask).1, Option.some.injEq] at hu
          subst hu
          exact ⟨t, htask, rfl, .inr (toInt32_range _)⟩
        · simp only [addDownload, setPhase, List.getElem?_set_ne hij] at hu
          exact ⟨u, hu, rfl, .inl rfl⟩

theorem Shifted.flying {disk disk' : Disk} {s s' : Session} {p p' q : ThreadPool Nat}
    {away : List Nat} (h : Shifted disk s p disk' s' p') (hs : s.Flying away q) :
    s'.Flying away p' ∧ q = p := by
  obtain rfl : q = p := Option.some.inj (hs.pool.symm.trans h.pool)
  have hperm : (away ++ p'.flight).Perm (away ++ q.flight) := h.flight.append_left away
  refine ⟨⟨h.pool', ?_, hperm.nodup_iff.mpr hs.nodup, fun i hi => ?_, fun i t ht hi => ?_⟩, rfl⟩
  · rw [h.length, h.threads]
    exact hs.length
  · rw [h.length]
    exact hs.known i (hperm.mem_iff.mp hi)
  · rw [hperm.mem_iff] at hi
    exact hs.complete i t (h.others i t ht (fun hmem => hi (List.mem_append_right away hmem))) hi

theorem Shifted.tallied {disk disk' : Disk} {s s' : Session} {p p' : ThreadPool Nat}
    (h : Shifted disk s p disk' s' p') (hs : s.Tallied) : s'.Tallied := by
  unfold Tallied at hs ⊢
  rw [h.pc]
  split at hs
  · obtain ⟨q, hq, hnil⟩ := hs
    obtain rfl : q = p := Option.some.inj (hq.symm.trans h.pool)
    exact ⟨p', h.pool', List.Perm.eq_nil (hnil ▸ h.flight)⟩
  · obtain ⟨q, hq, hall⟩ := hs
    obtain ⟨hflying, rfl⟩ := h.flying hq
    refine ⟨p', hflying, fun i hi => h.flight.mem_iff.mpr (hall i ?_)⟩
    rw [← h.length]
    exact hi
  · obtain ⟨q, hq⟩ := hs
    exact ⟨p', (h.flying hq).1⟩
  · obtain ⟨q, hq⟩ := hs
    exact ⟨p', (h.flying hq).1⟩
  · obtain ⟨q, hq⟩ := hs
    exact ⟨p', (h.flying hq).1⟩
  · obtain ⟨q, hq, hnil⟩ := hs
    obtain ⟨hflying, rfl⟩ := h.flying hq
    exact ⟨p', hflying, List.Perm.eq_nil (hnil ▸ h.flight)⟩
  · trivial

theorem Shifted.numbered {disk disk' : Disk} {s s' : Session} {p p' : ThreadPool Nat}
    (h : Shifted disk s p disk' s' p') (hs : s.Numbered) : s'.Numbered := by
  intro hended hpos i t ht
  have hended' : s.ended = false := by
    unfold ended at hended ⊢
    rw [h.pc] at hended
    exact hended
  obtain ⟨t₀, ht₀, hid, hdownload⟩ := h.same i t ht
  obtain ⟨hid₀, hrange₀⟩ := hs hended' (by rw [← h.threads]; exact hpos) i t₀ ht₀
  refine ⟨hid.trans hid₀, ?_⟩
  rcases hdownload with heq | hrange
  · rw [heq]
    exact hrange₀
  · exact hrange

/-- Between `loop` and what follows it only `download` itself decides. -/
theorem step_coordStep {r : Remote} {disk disk' : Disk} {s s' : Session} {m : Move}
    (h : s.step r disk m = some (disk', s')) (hpc : s.pc = .loop ∨ ∃ i, s.pc = .check i)
    (hmoves : s'.pc ≠ s.pc) (hthrown : s'.pc ≠ .thrown) :
    s.coordStep r disk = some (disk', s') := by
  cases m with
  | coord => exact h
  | extend fill =>
      simp only [step, extendStep] at h
      rcases hpc with hpc | ⟨i, hpc⟩
      · simp only [hpc, reduceCtorEq] at h
      · simp only [hpc, reduceCtorEq] at h
  | writeCfg k =>
      simp only [step, writeCfgStep] at h
      rcases hpc with hpc | ⟨i, hpc⟩
      · simp only [hpc, reduceCtorEq] at h
      · simp only [hpc, reduceCtorEq] at h
  | fail =>
      simp only [step, failStep] at h
      rcases hpc with hpc | ⟨i, hpc⟩
      · simp only [hpc, reduceCtorEq] at h
      · simp only [hpc, reduceCtorEq] at h
  | interrupt =>
      simp only [step, interruptStep] at h
      rcases hpc with hpc | ⟨i, hpc⟩
      · simp only [hpc, Option.some.injEq, Prod.mk.injEq] at h
        rw [← h.2] at hthrown
        exact absurd rfl hthrown
      · simp only [hpc, reduceCtorEq] at h
  | pick =>
      simp only [step, Option.map_eq_some_iff, Prod.mk.injEq] at h
      obtain ⟨p, -, -, rfl⟩ := h
      exact absurd rfl hmoves
  | task i m =>
      obtain ⟨p, t, hpool, htask, hrun, hcalled⟩ := taskStep_called h
      obtain ⟨p', hshifted⟩ := hcalled.shifted hpool htask hrun
      exact absurd hshifted.pc hmoves
  | stop =>
      obtain ⟨-, -, -, hplace, -⟩ := stopStep_frame disk s
      simp only [step, Option.some.injEq] at h
      rw [h] at hplace
      exact absurd hplace hmoves

/-- The loop ends when the count is down. -/
theorem taskCount_of_await {r : Remote} {disk disk' : Disk} {s s' : Session}
    (h : s.coordStep r disk = some (disk', s')) (hpc : s.pc = .loop) (hpc' : s'.pc = .await) :
    s.taskCount ≤ 0 := by
  simp only [coordStep, hpc] at h
  by_cases hpos : 0 < s.taskCount
  · rw [if_pos hpos] at h
    split at h
    · exact absurd h (by simp only [reduceCtorEq, not_false_eq_true])
    · simp only [Option.some.injEq, Prod.mk.injEq] at h
      rw [← h.2] at hpc'
      exact absurd hpc' (by simp only [reduceCtorEq, not_false_eq_true])
  · omega

/-- Without a stop, a task that is dismissed is complete. -/
theorem complete_of_dismissed {r : Remote} {disk disk' : Disk} {s s' : Session} {i : Nat}
    (h : s.coordStep r disk = some (disk', s')) (hflag : s.stopFlag = false)
    (hpc : s.pc = .check i) (hcount : s'.taskCount = s.taskCount - 1) :
    ∀ t, s.object.downloadTasks[i]? = some t → t.block ≤ t.download := by
  intro t ht
  simp only [coordStep, hpc, ht, Option.some.injEq] at h
  unfold recheck at h
  by_cases hmissing : t.download < t.block
  -- The task would have been submitted again, with the count as it was.
  · simp only [hflag, hmissing, Bool.not_false, decide_true, Bool.and_self, if_true] at h
    split at h
    · simp only [Prod.mk.injEq] at h
      rw [← h.2] at hcount
      simp only at hcount
      omega
    · simp only [Prod.mk.injEq] at h
      rw [← h.2] at hcount
      simp only [setPhase] at hcount
      omega
  · omega

/-- The first submissions put every task in flight. -/
theorem flying_submitAll {s : Session} {p p' : ThreadPool Nat}
    (hlength : (s.object.downloadTasks.length : Int) = s.object.threadCount)
    (hnil : p.flight = [])
    (hsubmit : p.submitAll (List.range s.object.downloadTasks.length) = some p') :
    ({ s with pool := some p', phase := fun _ => .ready, pc := .openCfg } : Session).Flying [] p' ∧
      ∀ i < s.object.downloadTasks.length, i ∈ p'.flight := by
  have hperm := ThreadPool.flight_submitAll hsubmit
  rw [hnil, List.append_nil] at hperm
  have hall : ∀ i, i ∈ p'.flight ↔ i < s.object.downloadTasks.length := by
    intro i
    rw [hperm.mem_iff, List.mem_range]
  refine ⟨⟨rfl, hlength, hperm.nodup_iff.mpr List.nodup_range, fun i hi => (hall i).mp hi,
    fun i t ht hi => ?_⟩, fun i hi => (hall i).mpr hi⟩
  exact absurd ((hall i).mpr (List.getElem?_eq_some_iff.mp ht).1) hi

theorem worked_tallied {r : Remote} {disk disk' : Disk} {s s' : Session} (hs : s.Tallied)
    (hacc : s.Accounted) (h : Worked r disk s disk' s')
    (hleave : s.pc = .loop → s'.pc = .await → s.taskCount ≤ 0)
    (hdismiss : ∀ i, s.pc = .check i → s'.pc = .loop → s'.taskCount = s.taskCount - 1 →
      ∀ t, s.object.downloadTasks[i]? = some t → t.block ≤ t.download) : s'.Tallied := by
  unfold Tallied at hs
  unfold Accounted at hacc
  cases h
  case makesPool hpc hpos => exact ⟨_, rfl, rfl⟩
  case submits p p' hpc hpool hsubmit =>
      rw [hpc] at hs hacc
      obtain ⟨q, hq, hnil⟩ := hs
      obtain rfl : q = p := Option.some.inj (hq.symm.trans hpool)
      exact ⟨p', flying_submitAll hacc.1 hnil hsubmit⟩
  case opensCfg hpc =>
      rw [hpc] at hs
      obtain ⟨p, hflying, -⟩ := hs
      exact ⟨p, hflying.pool, hflying.length, hflying.nodup, hflying.known, hflying.complete⟩
  case takes p p' i hpc hpool htake =>
      rw [hpc] at hs
      obtain ⟨q, hflying⟩ := hs
      obtain rfl : q = p := Option.some.inj (hflying.pool.symm.trans hpool)
      -- The task moves from the pool into the coordinator's hands.
      have hperm := ThreadPool.flight_take htake
      refine ⟨p', rfl, hflying.length, hperm.nodup_iff.mp hflying.nodup, fun j hj => ?_,
        fun j t ht hj => ?_⟩
      · exact hflying.known j (hperm.mem_iff.mpr hj)
      · exact hflying.complete j t ht (fun hmem => hj (hperm.mem_iff.mp hmem))
  case leavesLoop hpc =>
      have hcount := hleave hpc rfl
      rw [hpc] at hs hacc
      obtain ⟨p, hflying⟩ := hs
      obtain ⟨q, hq, hout, -⟩ := hacc
      obtain rfl : q = p := Option.some.inj (hq.symm.trans hflying.pool)
      refine ⟨q, ⟨hflying.pool, hflying.length, hflying.nodup, hflying.known, hflying.complete⟩,
        List.eq_nil_of_length_eq_zero ?_⟩
      rw [ThreadPool.length_flight]
      omega
  case records i t cfg hpc htask hwrite =>
      rw [hpc] at hs
      obtain ⟨p, hflying⟩ := hs
      exact ⟨p, hflying.pool, hflying.length, hflying.nodup, hflying.known, hflying.complete⟩
  case resubmits i t p p' hpc htask hmissing hpool hsubmit =>
      rw [hpc] at hs
      obtain ⟨q, hflying⟩ := hs
      obtain rfl : q = p := Option.some.inj (hflying.pool.symm.trans hpool)
      have hperm := ThreadPool.flight_submit hsubmit
      refine ⟨p', rfl, hflying.length, hperm.nodup_iff.mpr hflying.nodup, fun j hj => ?_,
        fun j u hu hj => ?_⟩
      · exact hflying.known j (hperm.mem_iff.mp hj)
      · exact hflying.complete j u hu (fun hmem => hj (hperm.mem_iff.mpr hmem))
  case dismisses i hpc =>
      have hdone := hdismiss i hpc rfl rfl
      rw [hpc] at hs
      obtain ⟨p, hflying⟩ := hs
      refine ⟨p, hflying.pool, hflying.length, (List.nodup_cons.mp hflying.nodup).2,
        fun j hj => hflying.known j (List.mem_cons_of_mem i hj), fun j t ht hj => ?_⟩
      by_cases hij : j = i
      · exact hdone t (hij ▸ ht)
      · refine hflying.complete j t ht (fun hmem => ?_)
        rcases List.mem_cons.mp hmem with heq | hmem
        · exact hij heq
        · exact hj hmem
  case parseEnds hend =>
      rcases hend with rfl | rfl
      · trivial
      · trivial
  case closesPool hpc _ =>
      rcases hpc with ⟨-, rfl⟩ | ⟨-, rfl⟩
      · trivial
      · trivial
  all_goals trivial

theorem worked_numbered {r : Remote} {disk disk' : Disk} {s s' : Session} (hs : s.Numbered)
    (hacc : s.Accounted) (h : Worked r disk s disk' s') : s'.Numbered := by
  have hopen := hs h.not_ended
  intro hended hpos
  cases h
  case parses o cfg hpc hparse =>
      unfold Accounted at hacc
      rw [hpc] at hacc
      obtain ⟨o₁, bytes, -, hempty, honce⟩ := parseDownloadCfg_ok hparse
      intro i t ht
      obtain ⟨hid, hstored⟩ := parseOnce_stored honce (hempty.trans hacc) hpos i t ht
      exact ⟨hid, intAt_range hstored⟩
  case parseEnds hend =>
      rcases hend with rfl | rfl
      · exact absurd hended (by simp only [ended, reduceCtorEq, not_false_eq_true])
      · exact absurd hended (by simp only [ended, reduceCtorEq, not_false_eq_true])
  all_goals exact hopen hpos

/-- The stop flag stays down. -/
theorem worked_stopFlag {r : Remote} {disk disk' : Disk} {s s' : Session}
    (hs : s.stopFlag = false) (h : Worked r disk s disk' s') : s'.stopFlag = false := by
  cases h
  case starts => rfl
  all_goals exact hs

/-- The state of a download that nobody stops. -/
structure Undisturbed (s : Session) : Prop where
  flag : s.stopFlag = false
  accounted : s.Accounted
  tallied : s.Tallied
  numbered : s.Numbered

/-- A step that is not one of a stop is one of `download` or of a worker. -/
theorem step_worked_or_shifted {r : Remote} {disk disk' : Disk} {s s' : Session} {m : Move}
    (hm : m ≠ .stop) (h : s.step r disk m = some (disk', s')) :
    Worked r disk s disk' s' ∨ ∃ p p', Shifted disk s p disk' s' p' := by
  cases step_stepped h
  case worked hworked => exact .inl hworked
  case picked p p' hpool hpick => exact .inr ⟨p, p', picked_shifted hpool hpick⟩
  case called i p t hpool htask hrun hcalled =>
      obtain ⟨p', hshifted⟩ := hcalled.shifted hpool htask hrun
      exact .inr ⟨p, p', hshifted⟩
  case flagged hstop => exact absurd hstop hm
  case disconnected hstop => exact absurd hstop hm
  case shutDown hstop _ => exact absurd hstop hm

theorem step_undisturbed {r : Remote} {disk disk' : Disk} {s s' : Session} {m : Move}
    (hs : s.Undisturbed) (hm : m ≠ .stop) (h : s.step r disk m = some (disk', s')) :
    s'.Undisturbed := by
  have hacc := step_accounted hs.accounted (fun hstop => absurd hstop hm) h
  rcases step_worked_or_shifted hm h with hworked | ⟨p, p', hshifted⟩
  · refine ⟨worked_stopFlag hs.flag hworked, hacc, ?_,
      worked_numbered hs.numbered hs.accounted hworked⟩
    refine worked_tallied hs.tallied hs.accounted hworked (fun hpc hpc' => ?_)
      (fun i hpc hpc' hcount => ?_)
    · exact taskCount_of_await (step_coordStep h (.inl hpc)
        (by rw [hpc, hpc']; exact Pc.noConfusion) (by rw [hpc']; exact Pc.noConfusion)) hpc hpc'
    · exact complete_of_dismissed (step_coordStep h (.inr ⟨i, hpc⟩)
        (by rw [hpc, hpc']; exact Pc.noConfusion) (by rw [hpc']; exact Pc.noConfusion)) hs.flag hpc
        hcount
  · exact ⟨hshifted.stopFlag.trans hs.flag, hacc, hshifted.tallied hs.tallied,
      hshifted.numbered hs.numbered⟩

/-- When the loop opens the config file, the file ends with its counters, and
    these take fewer than `2 ^ 31` bytes. -/
def PlainCfg (p : Disk × Session) (_ : Move) : Prop :=
  p.2.pc = .openCfg → p.2.object.threadCount < 536870912 ∧
    ((cfgFile p.1).length : Int) = counterStart (cfgFile p.1) + 4 * p.2.object.threadCount

instance (p : Disk × Session) (m : Move) : Decidable (PlainCfg p m) :=
  inferInstanceAs (Decidable (_ → _ ∧ _))

/-- The file is laid out as the coordinator takes it to be, and the counters of
    the tasks that are out of flight are stored in it. -/
structure Booked (disk : Disk) (s : Session) (away : List Nat) : Prop where
  slots : s.object.threadCount < 536870912
  offset : s.offset = counterStart (cfgFile disk)
  length : ((cfgFile disk).length : Int)
    = counterStart (cfgFile disk) + 4 * s.object.threadCount
  stored : ∀ p, s.pool = some p → ∀ (i : Nat) (t : DownloadTask),
    s.object.downloadTasks[i]? = some t → i ∉ away ++ p.flight →
      storedCounter (cfgFile disk) i = some t.download

/-- Which counters are stored, at each place of `download`. -/
def Stored (disk : Disk) (s : Session) : Prop :=
  match s.pc with
  | .loop => s.Booked disk []
  | .record i => s.Booked disk [i]
  | .check _ => s.Booked disk []
  | .await => s.Booked disk []
  | _ => True

theorem Shifted.booked {disk disk' : Disk} {s s' : Session} {p p' : ThreadPool Nat}
    {away : List Nat} (h : Shifted disk s p disk' s' p') (hs : s.Booked disk away) :
    s'.Booked disk' away := by
  have hfile : cfgFile disk' = cfgFile disk := by
    unfold cfgFile
    rw [h.cfg]
  refine ⟨?_, ?_, ?_, fun q hq i t ht hi => ?_⟩
  · rw [h.threads]
    exact hs.slots
  · rw [h.offset, hfile]
    exact hs.offset
  · rw [h.threads, hfile]
    exact hs.length
  · obtain rfl : q = p' := Option.some.inj (hq.symm.trans h.pool')
    rw [(h.flight.append_left away).mem_iff] at hi
    rw [hfile]
    exact hs.stored p h.pool i t
      (h.others i t ht (fun hmem => hi (List.mem_append_right away hmem))) hi

theorem Shifted.stored {disk disk' : Disk} {s s' : Session} {p p' : ThreadPool Nat}
    (h : Shifted disk s p disk' s' p') (hs : s.Stored disk) : s'.Stored disk' := by
  unfold Stored at hs ⊢
  rw [h.pc]
  split at hs
  · exact h.booked hs
  · exact h.booked hs
  · exact h.booked hs
  · exact h.booked hs
  · trivial

/-- Opening the file puts the counters where a reader finds them, and no task
    has come back yet. -/
theorem booked_opensCfg {disk : Disk} {s : Session} {p : ThreadPool Nat} (hs : s.Flying [] p)
    (hall : ∀ i < s.object.downloadTasks.length, i ∈ p.flight)
    (hslots : s.object.threadCount < 536870912)
    (hlength : ((cfgFile disk).length : Int)
      = counterStart (cfgFile disk) + 4 * s.object.threadCount) :
    ({ s with
      offset := counterOffset (cfgFile disk) s.object.threadCount
      taskCount := s.object.threadCount
      pc := .loop } : Session).Booked { disk with cfg := some (cfgFile disk) } [] := by
  have hthreads := hs.length
  refine ⟨hslots, ?_, hlength, fun q hq i t ht hi => ?_⟩
  · show counterOffset (cfgFile disk) s.object.threadCount = counterStart (cfgFile disk)
    unfold counterOffset
    rw [toInt32_eq _ (by omega) (by omega)]
    omega
  · obtain rfl : q = p := Option.some.inj (hq.symm.trans hs.pool)
    exact absurd (hall i (List.getElem?_eq_some_iff.mp ht).1) hi

/-- The write of a counter stores it, and leaves the others. -/
theorem booked_records {disk : Disk} {s : Session} {p : ThreadPool Nat} {i : Nat}
    {t : DownloadTask} {cfg : List Byte} (hs : s.Booked disk [i]) (hflying : s.Flying [i] p)
    (hnumbered : s.Numbered) (hopen : s.ended = false)
    (htask : s.object.downloadTasks[i]? = some t)
    (hwrite : writeCounter (cfgFile disk) s.offset t.taskId t.download = some cfg) :
    ({ s with pc := .check i } : Session).Booked { disk with cfg := some cfg } [] := by
  have hi := (List.getElem?_eq_some_iff.mp htask).1
  have hthreads := hflying.length
  have hslots := hs.slots
  have hlength := hs.length
  obtain ⟨hid, hrange⟩ := hnumbered hopen (by omega) i t htask
  rw [hid, hs.offset] at hwrite
  obtain ⟨hstart, hsame, hnew, hother⟩ := storedCounter_writeCounter
    (by omega : s.object.downloadTasks.length < 536870912) (by omega) hi hrange hwrite
  refine ⟨hslots, ?_, ?_, fun q hq j u hu hj => ?_⟩
  · show s.offset = counterStart cfg
    rw [hstart, hs.offset]
  · show (cfg.length : Int) = counterStart cfg + 4 * s.object.threadCount
    rw [hstart, hsame, hlength]
  · show storedCounter cfg j = some u.download
    by_cases hij : j = i
    · subst hij
      obtain rfl : u = t := Option.some.inj (hu.symm.trans htask)
      exact hnew
    · rw [hother j hij]
      refine hs.stored q hq j u hu (fun hmem => ?_)
      rcases List.mem_cons.mp hmem with heq | hmem
      · exact hij heq
      · exact hj hmem

theorem worked_stored {r : Remote} {disk disk' : Disk} {s s' : Session} (hs : s.Stored disk)
    (hundisturbed : s.Undisturbed)
    (hplain : s.pc = .openCfg → s.object.threadCount < 536870912 ∧
      ((cfgFile disk).length : Int) = counterStart (cfgFile disk) + 4 * s.object.threadCount)
    (h : Worked r disk s disk' s') : s'.Stored disk' := by
  have htallied := hundisturbed.tallied
  have hopen := h.not_ended
  unfold Stored at hs
  unfold Tallied at htallied
  cases h
  case opensCfg hpc =>
      obtain ⟨hslots, hlength⟩ := hplain hpc
      rw [hpc] at htallied
      obtain ⟨p, hflying, hall⟩ := htallied
      exact booked_opensCfg hflying hall hslots hlength
  case takes p p' i hpc hpool htake =>
      rw [hpc] at hs
      refine ⟨hs.slots, hs.offset, hs.length, fun q hq j t ht hj => ?_⟩
      obtain rfl : q = p' := (Option.some.inj hq).symm
      exact hs.stored p hpool j t ht
        (fun hmem => hj ((ThreadPool.flight_take htake).mem_iff.mp hmem))
  case leavesLoop hpc =>
      rw [hpc] at hs
      exact ⟨hs.slots, hs.offset, hs.length, hs.stored⟩
  case records i t cfg hpc htask hwrite =>
      rw [hpc] at hs htallied
      obtain ⟨p, hflying⟩ := htallied
      exact booked_records hs hflying hundisturbed.numbered hopen htask hwrite
  case resubmits i t p p' hpc htask hmissing hpool hsubmit =>
      rw [hpc] at hs
      refine ⟨hs.slots, hs.offset, hs.length, fun q hq j u hu hj => ?_⟩
      obtain rfl : q = p' := (Option.some.inj hq).symm
      exact hs.stored p hpool j u hu (fun hmem => hj
        ((ThreadPool.flight_submit hsubmit).mem_iff.mpr (List.mem_cons_of_mem i hmem)))
  case dismisses i hpc =>
      rw [hpc] at hs
      exact ⟨hs.slots, hs.offset, hs.length, hs.stored⟩
  case parseEnds hend =>
      rcases hend with rfl | rfl
      · trivial
      · trivial
  case closesPool hpc _ =>
      rcases hpc with ⟨-, rfl⟩ | ⟨-, rfl⟩
      · trivial
      · trivial
  all_goals trivial

theorem step_stored {r : Remote} {disk disk' : Disk} {s s' : Session} {m : Move}
    (hs : s.Stored disk) (hundisturbed : s.Undisturbed) (hm : m ≠ .stop)
    (hplain : PlainCfg (disk, s) m) (h : s.step r disk m = some (disk', s')) :
    s'.Stored disk' := by
  rcases step_worked_or_shifted hm h with hworked | ⟨p, p', hshifted⟩
  · exact worked_stored hs hundisturbed hplain hworked
  · exact hshifted.stored hs

theorem create_undisturbed (r : Remote) (threadCount : Int) (redownload : Bool) :
    (create r threadCount redownload).Undisturbed := by
  refine ⟨rfl, rfl, trivial, fun _ _ i t ht => ?_⟩
  exact absurd ht (by simp only [create, HttpDownload.create, List.getElem?_nil, reduceCtorEq,
    not_false_eq_true])

end Session

/-- In every run of a download without a stop, `taskCount` is the number of
    tasks in flight at each test of the loop, so that a coordinator that waits
    can be served; and when the loop ends nothing is in flight and every task
    is complete. If the config file ended with its counters when the loop
    opened it, the counter stored for each task is then its own. -/
theorem accounting (r : Remote) (disk disk' : Disk) (threadCount : Int) (redownload : Bool)
    (moves : List Move) (s : Session) (hstop : .stop ∉ moves)
    (h : exec (Session.run r) (disk, Session.create r threadCount redownload) moves
      = some (disk', s)) :
    (s.pc = .loop → (∃ p, s.pool = some p ∧ s.taskCount = p.flight.length) ∧
      (0 < s.taskCount → s.Servable)) ∧
    (s.pc = .await → (∃ p, s.pool = some p ∧ p.flight = []) ∧
      (∀ t ∈ s.object.downloadTasks, t.block ≤ t.download) ∧
      (Along (Session.run r) Session.PlainCfg (disk, Session.create r threadCount redownload)
          moves →
        ∀ t ∈ s.object.downloadTasks,
          storedCounter (Session.cfgFile disk') t.taskId.toNat = some t.download)) := by
  have hmoves : Along (Session.run r) (fun _ m => m ≠ .stop)
      (disk, Session.create r threadCount redownload) moves :=
    along_of_forall _ _ (fun m hm heq => hstop (heq ▸ hm))
  have hs : s.Undisturbed :=
    exec_keeps (Session.run r) (fun _ m => m ≠ .stop) (fun p => p.2.Undisturbed)
      (fun _ _ _ hp hm hstep => Session.step_undisturbed hp hm hstep) moves _ (disk', s)
      (Session.create_undisturbed r threadCount redownload) hmoves h
  refine ⟨fun hpc => ⟨?_, fun hpos => Session.servable_of_accounted hs.accounted ⟨hpc, hpos⟩⟩,
    fun hpc => ?_⟩
  · have hacc := hs.accounted
    unfold Session.Accounted at hacc
    rw [hpc] at hacc
    obtain ⟨p, hp, hcount, -⟩ := hacc
    exact ⟨p, hp, by rw [hcount, ThreadPool.length_flight]⟩
  · have htallied := hs.tallied
    unfold Session.Tallied at htallied
    rw [hpc] at htallied
    obtain ⟨p, hflying, hnil⟩ := htallied
    have hout : ∀ i, i ∉ [] ++ p.flight := by
      intro i
      rw [hnil]
      exact List.not_mem_nil
    refine ⟨⟨p, hflying.pool, hnil⟩, fun t ht => ?_, fun hplain t ht => ?_⟩
    · obtain ⟨i, hi⟩ := List.mem_iff_getElem?.mp ht
      exact hflying.complete i t hi (hout i)
    · have hstored : s.Undisturbed ∧ s.Stored disk' :=
        exec_keeps (Session.run r) (fun p m => m ≠ .stop ∧ Session.PlainCfg p m)
          (fun p => p.2.Undisturbed ∧ p.2.Stored p.1)
          (fun _ _ _ hp hm hstep => ⟨Session.step_undisturbed hp.1 hm.1 hstep,
            Session.step_stored hp.2 hp.1 hm.1 hm.2 hstep⟩) moves
          (disk, Session.create r threadCount redownload) (disk', s)
          ⟨Session.create_undisturbed r threadCount redownload, trivial⟩
          (along_and hmoves hplain) h
      have hbooked := hstored.2
      unfold Session.Stored at hbooked
      rw [hpc] at hbooked
      obtain ⟨i, hi⟩ := List.mem_iff_getElem?.mp ht
      have hpos : 1 ≤ s.object.threadCount := by
        have := (List.getElem?_eq_some_iff.mp hi).1
        have := hflying.length
        omega
      have hopen : s.ended = false := by
        unfold Session.ended
        rw [hpc]
      rw [(hs.numbered hopen hpos i t hi).1, Int.toNat_natCast]
      exact hbooked.stored p hflying.pool i t hi (hout i)

/-- The byte of `oneByte` arrives and is counted, the task comes back, and the
    loop ends. -/
def fetchByte : List Move :=
  [.task 0 .request, .task 0 .opened, .task 0 (.read 1), .task 0 .write, .task 0 .count,
    .task 0 .checkStop, .task 0 .endOfStream, .coord, .coord, .coord, .coord]

/-- A download into a new file whose first attempt finds no connection. -/
def retriedByte : List Move :=
  [.coord, .coord, .extend [0], .coord, .coord, .writeCfg 48, .coord, .coord, .coord, .coord,
    .coord, .task 0 .noConnection, .coord, .coord, .coord, .pick] ++ fetchByte

theorem accounting_retried :
    ∃ p ∈ exec (Session.run oneByte) (⟨none, none⟩, Session.create oneByte 1 false) retriedByte,
      p.2.pc = .await ∧ p.2.object.downloadTasks = [⟨0, 0, 1, 1⟩] ∧
      storedCounter (Session.cfgFile p.1) 0 = some 1 := by
  have hrun : ∃ p ∈ exec (Session.run oneByte) (⟨none, none⟩, Session.create oneByte 1 false)
      retriedByte, p.2.pc = .await ∧ p.2.object.downloadTasks = [⟨0, 0, 1, 1⟩] := by
    decide +kernel
  obtain ⟨⟨disk, s⟩, hp, hpc, htasks⟩ := hrun
  have hbooks := (accounting oneByte ⟨none, none⟩ disk 1 false retriedByte s (by decide) hp).2 hpc
  refine ⟨(disk, s), hp, hpc, htasks, ?_⟩
  refine hbooks.2.2 (by decide +kernel) ⟨0, 0, 1, 1⟩ ?_
  rw [htasks]
  exact List.mem_singleton_self _

/-- The same download over a config file with four bytes after its counter: the
    file is accepted, and the counter is written behind its place. -/
theorem trailing_bytes_misplace :
    ∃ p ∈ exec (Session.run oneByte)
        (⟨none, some (cfgBytes (encodeUtf16 oneByte.url) 1 1 [0] ++ [0, 0, 0, 0])⟩,
          Session.create oneByte 1 false)
        ([.coord, .coord, .extend [0], .coord, .coord, .coord, .coord, .coord] ++ fetchByte),
      p.2.pc = .await ∧ p.2.object.downloadTasks = [⟨0, 0, 1, 1⟩] ∧
      storedCounter (Session.cfgFile p.1) 0 = some 0 := by
  decide +kernel

end NetProbe
