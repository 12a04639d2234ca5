import NetProbe.Download.Session

/-!
# Waiting for the Tasks

The coordinator of a download waits in `take()` as long as it counts tasks
that have not come back. It waits for ever if none of them can: if nothing has
completed, nothing runs, and nothing is queued that a worker could still pick.

The count is right as long as no accepted task is lost. `Accounted` says so at
each place of the coordinator: inside the loop `taskCount` is the number of
tasks outstanding in the pool, one more between a take and the decision about
the task taken. The only step that loses tasks is the `shutdownNow` of a stop
that finds a resubmitted task still in the queue. `KeepsQueue` excludes that
step, and without it the coordinator is never left alone.

## Main definitions

* `Waiting`: The coordinator is in `take()`.
* `Servable`: Some task has completed, runs, or will be picked.
* `KeepsQueue`: A stop that finds no task waiting in the queue.
* `Holds`: The pool holds a number of tasks.
* `Accounted`: The invariant.

## Theorems

* `worked_accounted`, `called_accounted`: The coordinator and the tasks keep
  the count.
* `step_accounted`: So does every step that keeps the queue.
* `waiting_servable`: In every run that keeps the queue, a waiting coordinator
  can be served.
-/

namespace NetProbe

open Machine

namespace Session

/-- The coordinator is in `take()` with tasks to wait for. -/
def Waiting (s : Session) : Prop := s.pc = .loop ∧ 0 < s.taskCount

instance (s : Session) : Decidable s.Waiting := inferInstanceAs (Decidable (_ ∧ _))

/-- A submitted task is completed and not yet taken, running, or queued in a
    pool that is not shut down. -/
def Servable (s : Session) : Prop :=
  ∃ pool ∈ s.pool,
    pool.completed ≠ [] ∨ pool.running ≠ [] ∨ (pool.queue ≠ [] ∧ pool.isShutdown = false)

instance (s : Session) : Decidable s.Servable := inferInstanceAs (Decidable (∃ pool ∈ s.pool, _))

/-- The pool holds `k` tasks, and none waits in it once it is closed. -/
def Holds (pool : Option (ThreadPool Nat)) (k : Int) : Prop :=
  ∃ p, pool = some p ∧ k = p.outstanding ∧ (p.isShutdown = true → p.queue = [])

/-- What the coordinator counts, at each place of `download`. -/
def Accounted (s : Session) : Prop :=
  match s.pc with
  | .newPool => 1 ≤ s.object.threadCount →
      (s.object.downloadTasks.length : Int) = s.object.threadCount
  | .submitAll => (s.object.downloadTasks.length : Int) = s.object.threadCount ∧ Holds s.pool 0
  | .openCfg => Holds s.pool s.object.threadCount
  | .loop => Holds s.pool s.taskCount
  | .record _ => Holds s.pool (s.taskCount - 1)
  | .check _ => Holds s.pool (s.taskCount - 1)
  | .await | .awaited | .judge _ _ | .saveOpen | .save _ | .returned _ | .thrown => True
  | _ => s.object.downloadTasks = []

end Session

/-- The step is not a `shutdownNow` of a pool in which a task is waiting. -/
def KeepsQueue (w : World) : Label → Prop
  | .move k .stop => ∀ s ∈ w.sessions[k]?, s.stopPc = .disconnected →
      ∀ pool ∈ s.pool, pool.queue = []
  | _ => True

instance (w : World) : (l : Label) → Decidable (KeepsQueue w l)
  | .move k .stop => inferInstanceAs (Decidable (∀ s ∈ w.sessions[k]?,
      s.stopPc = .disconnected → ∀ pool ∈ s.pool, pool.queue = []))
  | .newSession _ _ | .crash | .move _ .coord | .move _ (.extend _) | .move _ (.writeCfg _)
  | .move _ .fail | .move _ .interrupt | .move _ .pick | .move _ (.task _ _) => isTrue trivial

namespace Session

/-- A step that moves a task inside the pool, or closes an empty queue, changes
    no count. -/
theorem Accounted.of_pool {s s' : Session} (h : s.Accounted) (hpc : s'.pc = s.pc)
    (hcount : s'.taskCount = s.taskCount) (hthreads : s'.object.threadCount = s.object.threadCount)
    (hlength : s'.object.downloadTasks.length = s.object.downloadTasks.length)
    (hpool : ∀ k, Holds s.pool k → Holds s'.pool k) : s'.Accounted := by
  unfold Accounted at h ⊢
  rw [hpc]
  split
  · rename_i heq
    rw [heq] at h
    rw [hthreads, hlength]
    exact h
  · rename_i heq
    rw [heq] at h
    rw [hthreads, hlength]
    exact ⟨h.1, hpool _ h.2⟩
  · rename_i heq
    rw [heq] at h
    rw [hthreads]
    exact hpool _ h
  · rename_i heq
    rw [heq] at h
    rw [hcount]
    exact hpool _ h
  · rename_i heq
    rw [heq] at h
    rw [hcount]
    exact hpool _ h
  · rename_i heq
    rw [heq] at h
    rw [hcount]
    exact hpool _ h
  -- Before the parse the list of tasks is empty, and stays so.
  all_goals try trivial
  split at h
  all_goals simp_all [List.length_eq_zero_iff]

/-- The first submissions put every task into the pool. -/
theorem holds_submitAll {p p' : ThreadPool Nat} {k : Int} {as : List Nat}
    (h : Holds (some p) k) (hsubmit : p.submitAll as = some p') :
    Holds (some p') (k + as.length) := by
  obtain ⟨q, hq, hk, hclosed⟩ := h
  obtain rfl := Option.some.inj hq
  obtain ⟨hopen, htotal⟩ := ThreadPool.outstanding_submitAll hsubmit
  refine ⟨p', rfl, by omega, fun hshut => ?_⟩
  -- With nothing to submit the pool may already be closed.
  rcases as with _ | ⟨a, as⟩
  · simp only [ThreadPool.submitAll, Option.some.injEq] at hsubmit
    rw [← hsubmit]
    exact hclosed (by rw [← hopen, hshut])
  -- A closed pool would have refused the first of them.
  · unfold ThreadPool.submitAll at hsubmit
    obtain ⟨q, hone, -⟩ := Option.bind_eq_some_iff.mp hsubmit
    have hnot := (ThreadPool.outstanding_submit hone).1
    rw [← hopen, hshut] at hnot
    exact absurd hnot Bool.noConfusion

theorem holds_submit {p p' : ThreadPool Nat} {k : Int} {a : Nat} (h : Holds (some p) k)
    (hsubmit : p.submit a = some p') : Holds (some p') (k + 1) := by
  have hall : p.submitAll [a] = some p' := by
    unfold ThreadPool.submitAll
    rw [hsubmit]
    rfl
  exact holds_submitAll h hall

theorem holds_take {p p' : ThreadPool Nat} {k : Int} {a : Nat} (h : Holds (some p) k)
    (htake : p.take = some (a, p')) : Holds (some p') (k - 1) := by
  obtain ⟨q, hq, hk, hclosed⟩ := h
  obtain rfl := Option.some.inj hq
  obtain ⟨hshut, hqueue, hless⟩ := ThreadPool.outstanding_take htake
  refine ⟨p', rfl, by omega, fun hc => ?_⟩
  rw [hqueue]
  exact hclosed (by rw [← hshut, hc])

theorem worked_accounted {r : Remote} {disk disk' : Disk} {s s' : Session} (hs : s.Accounted)
    (h : Worked r disk s disk' s') : s'.Accounted := by
  unfold Accounted at hs
  cases h
  -- A parse makes as many tasks as it reads threads.
  case parses o cfg hpc hparse =>
      rw [hpc] at hs
      intro hpos
      have htasks := HttpDownload.parseDownloadCfg_tasks s.object o disk.cfg cfg hparse hpos
      simp only at hs hpos htasks ⊢
      rw [hs, List.length_nil] at htasks
      omega
  case parseEnds hend =>
      rcases hend with rfl | rfl
      · trivial
      · trivial
  case makesPool hpc hpos =>
      rw [hpc] at hs
      exact ⟨hs (by omega), _, rfl, rfl, fun _ => rfl⟩
  -- All tasks enter the empty pool at once.
  case submits p p' hpc hpool hsubmit =>
      rw [hpc] at hs
      obtain ⟨hlength, hzero⟩ := hs
      rw [hpool] at hzero
      have hall := holds_submitAll hzero hsubmit
      rw [List.length_range, hlength, Int.zero_add] at hall
      exact hall
  case takes p p' i hpc hpool htake =>
      rw [hpc] at hs
      simp only [hpool] at hs
      exact holds_take hs htake
  case resubmits i t p p' hpc htask hmissing hpool hsubmit =>
      -- The task goes back into the pool, and the count stays.
      rw [hpc] at hs
      simp only [hpool] at hs
      have hmore := holds_submit hs hsubmit
      rw [Int.sub_add_cancel] at hmore
      exact hmore
  case closesPool hpc _ =>
      rcases hpc with ⟨-, rfl⟩ | ⟨-, rfl⟩
      · trivial
      · trivial
  -- The other steps of the loop change no task, and the rest is before or
  -- after it.
  case starts hpc => rw [hpc] at hs; exact hs
  case connects hpc => rw [hpc] at hs; exact hs
  case setsLength hpc hfile hfill => rw [hpc] at hs; exact hs
  case findsNoCfg hpc hcfg => rw [hpc] at hs; exact hs
  case dropsCfg hpc hredownload => rw [hpc] at hs; exact hs
  case keepsCfg hpc => rw [hpc] at hs; exact hs
  case createsCfg hpc => rw [hpc] at hs; exact hs
  case writesCfg hpc => rw [hpc] at hs; exact hs
  case closesCfg hpc => rw [hpc] at hs; exact hs
  case opensCfg hpc => rw [hpc] at hs; exact hs
  case records hpc htask hwrite => rw [hpc] at hs; exact hs
  case dismisses hpc => rw [hpc] at hs; exact hs
  all_goals trivial

theorem called_accounted {r : Remote} {disk disk' : Disk} {s s' : Session} {i : Nat}
    {pool : ThreadPool Nat} {t : DownloadTask} (hs : s.Accounted) (hpool : s.pool = some pool)
    (hrun : i ∈ pool.running) (h : Called r disk s pool i t disk' s') : s'.Accounted := by
  cases h
  -- A task that returns moves from a worker to the completion queue.
  case returns =>
      refine hs.of_pool rfl rfl rfl rfl (fun k hk => ?_)
      obtain ⟨p, hp, hcount, hclosed⟩ := hk
      obtain rfl := Option.some.inj (hpool.symm.trans hp)
      exact ⟨_, rfl, by rw [hcount, ThreadPool.outstanding_finish hrun], hclosed⟩
  case counts =>
      refine hs.of_pool rfl rfl rfl ?_ (fun k hk => hk)
      exact List.length_set
  all_goals exact hs

theorem step_accounted {r : Remote} {disk disk' : Disk} {s s' : Session} {m : Move}
    (hs : s.Accounted)
    (hkeep : m = .stop → s.stopPc = .disconnected → ∀ pool, s.pool = some pool → pool.queue = [])
    (h : s.step r disk m = some (disk', s')) : s'.Accounted := by
  cases step_stepped h
  case worked hworked => exact worked_accounted hs hworked
  case picked p p' hpool hpick =>
      refine hs.of_pool rfl rfl rfl rfl (fun k hk => ?_)
      obtain ⟨q, hq, hcount, hclosed⟩ := hk
      obtain rfl := Option.some.inj (hpool.symm.trans hq)
      obtain ⟨hshut, hsame, hempty⟩ := ThreadPool.outstanding_pick hpick
      exact ⟨p', rfl, by rw [hcount, hsame], fun hc => hempty (hclosed (by rw [← hshut, hc]))⟩
  case called i pool t hpool htask hrun hcalled => exact called_accounted hs hpool hrun hcalled
  case flagged => exact hs
  case disconnected => exact hs
  -- The one step that could lose a task finds the queue empty.
  case shutDown hm hstop =>
      refine hs.of_pool rfl rfl rfl rfl (fun k hk => ?_)
      obtain ⟨p, hp, hcount, -⟩ := hk
      have hlost := ThreadPool.outstanding_shutdownNow p
      rw [hkeep hm hstop p hp, List.length_nil, Nat.add_zero] at hlost
      exact ⟨p.shutdownNow, by rw [hp, Option.map_some], by rw [hcount, hlost], fun _ => rfl⟩

/-- A count that is right and positive means that some task is still there. -/
theorem servable_of_accounted {s : Session} (hs : s.Accounted) (hwait : s.Waiting) :
    s.Servable := by
  obtain ⟨hpc, hpos⟩ := hwait
  simp only [Accounted, hpc] at hs
  obtain ⟨pool, hpool, hcount, hclosed⟩ := hs
  refine ⟨pool, hpool, ?_⟩
  by_contra hnone
  simp only [not_or, not_and, ne_eq, not_not, Bool.not_eq_false] at hnone
  obtain ⟨hcompleted, hrunning, hqueue⟩ := hnone
  -- A closed pool has no queue, an open one with a queue can be served.
  have hnil : pool.queue = [] := by
    by_contra hne
    exact hne (hclosed (hqueue hne))
  unfold ThreadPool.outstanding at hcount
  rw [hnil, hrunning, hcompleted] at hcount
  simp only [List.length_nil] at hcount
  omega

end Session

/-- In every run whose stops find no task waiting in the queue, a coordinator
    that waits can be served. -/
theorem waiting_servable (r : Remote) (disk : Disk) (labels : List Label) (w : World)
    (hkeep : Along (World.step r) KeepsQueue (World.initial disk) labels)
    (hrun : exec (World.step r) (World.initial disk) labels = some w) :
    ∀ s ∈ w.sessions, s.Waiting → s.Servable := by
  have hinv : ∀ s ∈ w.sessions, s.Accounted := by
    refine exec_keeps (World.step r) KeepsQueue (fun w => ∀ s ∈ w.sessions, s.Accounted) ?_
      labels (World.initial disk) w ?_ hkeep hrun
    -- The count of each session is kept by every step of the world.
    · intro v l v' hv hl hstep
      refine World.sessions_keep hstep hv (fun n redownload _ => rfl) ?_
      intro k m s disk' s' hlabel hk hs hacc
      subst hlabel
      refine Session.step_accounted hacc (fun hm hstop pool hpool => ?_) hs
      subst hm
      exact hl s hk hstop pool hpool
    · intro s hs
      exact absurd hs List.not_mem_nil
  exact fun s hs hwait => Session.servable_of_accounted (hinv s hs) hwait

/-- A stop that comes while the task runs is harmless. -/
theorem waiting_servable_stopped :
    ∃ w ∈ exec (World.step oneByte) (World.initial ⟨none, none⟩)
      (upToLoop ++ [.move 0 .stop, .move 0 .stop, .move 0 .stop]),
      ∃ s ∈ w.sessions, s.Waiting ∧ s.Servable := by
  have hwait : ∃ w ∈ exec (World.step oneByte) (World.initial ⟨none, none⟩)
      (upToLoop ++ [.move 0 .stop, .move 0 .stop, .move 0 .stop]),
      ∃ s ∈ w.sessions, s.Waiting := by
    decide +kernel
  obtain ⟨w, hrun, s, hs, hwait⟩ := hwait
  exact ⟨w, hrun, s, hs, hwait,
    waiting_servable oneByte ⟨none, none⟩ _ w (by decide +kernel) hrun s hs hwait⟩

/-- The task fails and is resubmitted, and a stop comes before the worker picks
    it up again. -/
def lostTask : List Label :=
  upToLoop ++ [.move 0 (.task 0 .noConnection), .move 0 .coord, .move 0 .coord, .move 0 .coord,
    .move 0 .stop, .move 0 .stop, .move 0 .stop]

theorem lostTask_waits_forever :
    ∃ w ∈ exec (World.step oneByte) (World.initial ⟨none, none⟩) lostTask,
      ∃ s ∈ w.sessions, s.Waiting ∧ ¬ s.Servable := by
  decide +kernel

end NetProbe
