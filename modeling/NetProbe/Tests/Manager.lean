import NetProbe.Lib.Machine
import NetProbe.Lib.ThreadPool
import NetProbe.Tests.Config

/-!
# The Test Manager

`TestManager` runs one test configuration at a time. `start` refuses while the
state is `TEST_RUN`, and otherwise claims it and hands a `startTest` job to the
application's thread pool. The job makes an executor of its own, loads and
parses the configuration, submits the tests, and waits for the executor to
terminate; every way it returns gives `TEST_RUN` back. `stop` shuts down
whatever executor the field holds.

The machine has one step for every action that another thread can come between:
the locked test-and-set of `start` and its submission, each statement of
`startTest` that touches shared state, the null check of `stop` and its
`shutdownNow`, and the executor's worker, which gets a test and begins it in two
steps. What a job meets outside, the file it loads and how a wait ends, is part
of its label. `executors` holds every executor that was assigned to the field,
the newest and current one first.

A job also ends if it throws: when the configuration cannot be parsed, and when
a test is submitted to an executor that a `stop` has closed. The pool swallows
the exception, and `TEST_RUN` is left behind with nobody to give it back.
`Smooth` excludes the two steps, and `notStuck_iff` says that a manager is free
to start whenever it is idle exactly if its run was smooth.

## Main definitions

* `TestState`, `JobPc`, `Job`, `TestManager`: The state of the machine.
* `startTest`: One statement of a job.
* `step`: One step of any thread.
* `pending`: The runs that were accepted and have not ended.
* `NotStuck`: An idle manager accepts the next start.
* `Smooth`: A step at which no job throws.
* `Exclusive`, `Ready`: The invariants.

## Theorems

* `startTest_cases`: A statement goes on, gives the state back, or throws.
* `stopNow_step`, `pick_step`, `begin_step`, `finish_step`: The steps that change
  an executor and nothing else of a run.
* `step_cases`: What a step does to the state and to the pending runs.
* `step_sound`: There is at most one pending run, and it holds `TEST_RUN`.
* `step_free`, `step_breaks`, `step_stuck`: What smooth steps, throws and stuck
  managers lead to.
* `notStuck_iff`: A manager is not stuck exactly if its run was smooth.
-/

namespace NetProbe

open Machine

/-- The values of `mTestState`. -/
inductive TestState where
  | unknown
  | idle
  | run
  | complete
  | interrupt
  deriving DecidableEq, Repr

/-- The next statement of a `startTest` job. -/
inductive JobPc where
  | queued
  | changeToRun
  | newExecutor
  | load
  | changeToIdle
  | parse
  | submit (next : Nat)
  | shutdown
  | awaitTermination
  | changeToComplete
  | shutdownNow
  | changeToInterrupt
  | ended
  deriving DecidableEq, Repr

structure Job where
  filePath : Option String
  pc : JobPc
  deriving DecidableEq, Repr

/-- Queued or executing. -/
def Job.isActive (job : Job) : Bool := decide (job.pc ≠ .ended)

/-- What a job meets outside when it takes its next statement. -/
inductive Answer where
  | nothing
  | file (found : ConfigFile)
  | timeout
  | interrupted

/-- `executors` lists the values of `mExecutorService`, the current one first.
    `starting` are the calls of `start` between their two parts, `stopping`
    counts the calls of `stop` that have passed the null check. -/
structure TestManager where
  mTestState : TestState
  executors : List (ThreadPool Test)
  mTestConfig : TestConfig
  starting : List (Option String)
  jobs : List Job
  stopping : Nat

namespace TestManager

def fresh : TestManager where
  mTestState := .idle
  executors := []
  mTestConfig := .fresh
  starting := []
  jobs := []
  stopping := 0

def changeTestState (m : TestManager) (state : TestState) : TestManager :=
  { m with mTestState := state }

@[simp] theorem changeTestState_mTestState (m : TestManager) (state : TestState) :
    (m.changeTestState state).mTestState = state := rfl

/-- `mExecutorService.submit(test)`, with `none` for an exception: the executor
    is closed, or there is none. -/
def submitTest (m : TestManager) (test : Test) : Option TestManager :=
  match m.executors with
  | [] => none
  | e :: old => (e.submit test).map (fun e' => { m with executors := e' :: old })

/-- The statement of `startTest` at `pc`. An exception ends the job and leaves
    the rest as it is. -/
def startTest (m : TestManager) (filePath : Option String) :
    JobPc → Answer → Option (TestManager × JobPc)
  | .queued, .nothing => some (m, .changeToRun)
  | .changeToRun, .nothing => some (m.changeTestState .run, .newExecutor)
  | .newExecutor, .nothing =>
      some ({ m with executors := ThreadPool.newFixed 1 :: m.executors }, .load)
  -- The executor exists by now, also when the file is rejected.
  | .load, .file found =>
      let loaded := m.mTestConfig.load filePath found
      some ({ m with mTestConfig := loaded.2 }, if loaded.1 then .parse else .changeToIdle)
  | .changeToIdle, .nothing => some (m.changeTestState .idle, .ended)
  -- No handler: what `parse` throws ends the job.
  | .parse, .nothing =>
      let parsed := m.mTestConfig.parse
      some ({ m with mTestConfig := parsed.state },
        if parsed.isReturned then .submit 0 else .ended)
  | .submit next, .nothing =>
      match m.mTestConfig.testList[next]? with
      | none => some (m, .shutdown)
      | some test =>
          match m.submitTest test with
          | some m' => some (m', .submit (next + 1))
          -- `RejectedExecutionException` ends it as well.
          | none => some (m, .ended)
  | .shutdown, .nothing =>
      match m.executors with
      | [] => some (m, .ended)
      | e :: old => some ({ m with executors := e.shutdown :: old }, .awaitTermination)
  -- The wait is repeated after a timeout, and left by an interrupt.
  | .awaitTermination, answer =>
      match m.executors, answer with
      | [], _ => some (m, .ended)
      | e :: _, .nothing => if e.isTerminated then some (m, .changeToComplete) else none
      | _ :: _, .timeout => some (m, .awaitTermination)
      | _ :: _, .interrupted => some (m, .shutdownNow)
      | _ :: _, .file _ => none
  | .changeToComplete, .nothing => some (m.changeTestState .complete, .ended)
  | .shutdownNow, .nothing =>
      match m.executors with
      | [] => some (m, .ended)
      | e :: old => some ({ m with executors := e.shutdownNow :: old }, .changeToInterrupt)
  | .changeToInterrupt, .nothing => some (m.changeTestState .interrupt, .ended)
  | _, _ => none

/-- A step of a caller of `start` or `stop`, of a job, or of the worker of the
    `k`-th executor. -/
inductive Label where
  | start (filePath : Option String)
  | submit (i : Nat)
  | job (i : Nat) (answer : Answer)
  | stop
  | stopNow
  | pick (k : Nat)
  | begin (k : Nat) (test : Test)
  | finish (k : Nat) (test : Test)

def step (m : TestManager) : Label → Option TestManager
  | .start filePath =>
      -- Test and set, under the lock.
      if m.mTestState = .run then some m
      else some { m with mTestState := .run, starting := m.starting ++ [filePath] }
  | .submit i =>
      match m.starting[i]? with
      | none => none
      | some filePath =>
          some { m with
            starting := m.starting.eraseIdx i
            jobs := m.jobs ++ [⟨filePath, .queued⟩] }
  | .job i answer =>
      match m.jobs[i]? with
      | none => none
      | some job =>
          (m.startTest job.filePath job.pc answer).map
            (fun r => { r.1 with jobs := m.jobs.set i { job with pc := r.2 } })
  -- The null check. The field never becomes null again.
  | .stop => some (if m.executors.isEmpty then m else { m with stopping := m.stopping + 1 })
  | .stopNow =>
      match m.stopping, m.executors with
      -- The field is read again here.
      | calls + 1, e :: old =>
          some { m with executors := e.shutdownNow :: old, stopping := calls }
      | _, _ => none
  | .pick k =>
      match m.executors[k]? with
      | none => none
      | some e => e.pick.map (fun e' => { m with executors := m.executors.set k e' })
  | .begin k test =>
      match m.executors[k]? with
      | none => none
      | some e => (e.begin test).map (fun e' => { m with executors := m.executors.set k e' })
  | .finish k test =>
      match m.executors[k]? with
      | none => none
      | some e =>
          if test ∈ e.running ∧ test ∈ e.begun then
            some { m with executors := m.executors.set k (e.finish test) }
          else none

/-- The accepted runs that have not ended: their job is about to be submitted,
    queued, or executing. -/
def pending (m : TestManager) : Nat :=
  m.starting.length + m.jobs.countP Job.isActive

/-- When no run is pending, the state is not `TEST_RUN` and the next `start` is
    accepted. -/
def NotStuck (m : TestManager) : Prop :=
  m.pending = 0 → m.mTestState ≠ .run ∧
    ∀ filePath, ∃ m', m.step (.start filePath) = some m' ∧ m'.starting = [filePath]

/-- The job at `pc` does not throw: what it parses is readable, and the
    executor it submits a test to is open. -/
def Calm (m : TestManager) : JobPc → Prop
  | .parse => ∀ root ∈ m.mTestConfig.document, Readable root
  | .submit next => next < m.mTestConfig.testList.length →
      ∀ e ∈ m.executors.head?, e.isShutdown = false
  | _ => True

/-- A step at which no job throws. -/
def Smooth (m : TestManager) : Label → Prop
  | .job i _ => ∀ job ∈ m.jobs[i]?, m.Calm job.pc
  | _ => True

instance (m : TestManager) : ∀ pc, Decidable (m.Calm pc)
  | .queued | .changeToRun | .newExecutor | .load | .changeToIdle => isTrue trivial
  | .parse => inferInstanceAs (Decidable (∀ root ∈ m.mTestConfig.document, Readable root))
  | .submit next => inferInstanceAs (Decidable (next < m.mTestConfig.testList.length →
      ∀ e ∈ m.executors.head?, e.isShutdown = false))
  | .shutdown | .awaitTermination | .changeToComplete | .shutdownNow | .changeToInterrupt
  | .ended => isTrue trivial

instance (m : TestManager) : ∀ a, Decidable (m.Smooth a)
  | .job i _ => inferInstanceAs (Decidable (∀ job ∈ m.jobs[i]?, m.Calm job.pc))
  | .start _ | .submit _ | .stop | .stopNow | .pick _ | .begin _ _ | .finish _ _ => isTrue trivial

/-- At most one run is pending, and it holds `TEST_RUN`. -/
def Exclusive (m : TestManager) : Prop :=
  m.pending ≤ 1 ∧ (m.pending ≠ 0 → m.mTestState = .run)

/-- What the statement at `pc` finds in place. -/
def Prepared (m : TestManager) : JobPc → Prop
  | .queued => True
  | .changeToRun => True
  | .newExecutor => True
  | .parse => m.executors ≠ [] ∧ m.mTestConfig.document ≠ none
  | _ => m.executors ≠ []

/-- Every job that has not ended finds what it needs. -/
def Ready (m : TestManager) : Prop := ∀ job ∈ m.jobs, job.pc ≠ .ended → m.Prepared job.pc

theorem prepared_of_executors {m : TestManager} {pc : JobPc} (hexec : m.executors ≠ [])
    (hpc : pc ≠ .parse) : m.Prepared pc := by
  cases pc with
  | queued => trivial
  | changeToRun => trivial
  | newExecutor => trivial
  | parse => exact absurd rfl hpc
  | _ => exact hexec

/-- How a statement at `pc` ends: the job goes on, gives `TEST_RUN` back, or
    throws. Only a statement that is not calm throws. -/
inductive Ending (m : TestManager) (pc : JobPc) (m' : TestManager) : JobPc → Prop where
  | onward {pc' : JobPc} (hpc : pc' ≠ .ended) (hprepared : m'.Prepared pc') (hcalm : m.Calm pc)
      (hstate : m'.mTestState = m.mTestState ∨ m'.mTestState = .run) : Ending m pc m' pc'
  | returned (hcalm : m.Calm pc) (hstate : m'.mTestState ≠ .run) : Ending m pc m' .ended
  | threw (hcalm : ¬ m.Calm pc) (hstate : m'.mTestState = m.mTestState) : Ending m pc m' .ended

/-- What a statement leaves alone. -/
structure Frame (m m' : TestManager) : Prop where
  starting : m'.starting = m.starting
  executors : m.executors ≠ [] → m'.executors ≠ []
  document : m.mTestConfig.document ≠ none → m'.mTestConfig.document ≠ none

theorem load_document (c : TestConfig) (filePath : Option String) (found : ConfigFile) :
    ((c.load filePath found).1 = true → (c.load filePath found).2.document ≠ none) ∧
      (c.document ≠ none → (c.load filePath found).2.document ≠ none) := by
  rcases filePath with _ | path
  · exact ⟨fun h => absurd h Bool.false_ne_true, id⟩
  cases found with
  | absent => exact ⟨fun h => absurd h Bool.false_ne_true, id⟩
  | notAFile => exact ⟨fun h => absurd h Bool.false_ne_true, id⟩
  | malformed => exact ⟨fun h => absurd h Bool.false_ne_true, id⟩
  | document root => simp [TestConfig.load]

theorem Frame.refl (m : TestManager) : Frame m m := ⟨rfl, id, id⟩

/-- A statement that only changes the state, or nothing at all. -/
theorem Frame.changeTestState (m : TestManager) (state : TestState) :
    Frame m (m.changeTestState state) := ⟨rfl, id, id⟩

/-- A statement that only changes the executors. -/
theorem Frame.executors_cons (m : TestManager) (e : ThreadPool Test)
    (old : List (ThreadPool Test)) : Frame m { m with executors := e :: old } :=
  ⟨rfl, fun _ => List.cons_ne_nil e old, id⟩

/-- Submitting goes on to the next test or, on a closed executor, throws. -/
theorem submit_ending {m m' : TestManager} {next : Nat} {pc' : JobPc}
    {filePath : Option String} (hready : m.executors ≠ [])
    (h : m.startTest filePath (.submit next) .nothing = some (m', pc')) :
    Frame m m' ∧ Ending m (.submit next) m' pc' := by
  unfold startTest at h
  rcases htest : m.mTestConfig.testList[next]? with _ | test
  -- The loop is over.
  · simp only [htest, Option.some.injEq, Prod.mk.injEq] at h
    obtain ⟨rfl, rfl⟩ := h
    refine ⟨.refl m, .onward (by decide) hready ?_ (.inl rfl)⟩
    intro hnext
    exact absurd (List.getElem?_eq_none_iff.mp htest) (by omega)
  have hnext := (List.getElem?_eq_some_iff.mp htest).1
  rcases hexec : m.executors with _ | ⟨e, old⟩
  · exact absurd hexec hready
  simp only [htest, submitTest, hexec] at h
  rcases hsubmit : e.submit test with _ | e'
  -- The executor is closed.
  · simp only [hsubmit, Option.map_none, Option.some.injEq, Prod.mk.injEq] at h
    obtain ⟨rfl, rfl⟩ := h
    refine ⟨.refl m, .threw (fun hcalm => ?_) rfl⟩
    have hopen := hcalm hnext e (by rw [hexec]; rfl)
    rw [(ThreadPool.submit_eq_none_iff e test).mp hsubmit] at hopen
    exact absurd hopen (by decide)
  · simp only [hsubmit, Option.map_some, Option.some.injEq, Prod.mk.injEq] at h
    obtain ⟨rfl, rfl⟩ := h
    refine ⟨.executors_cons m e' old, .onward (by simp) (List.cons_ne_nil e' old) ?_ (.inl rfl)⟩
    intro _ e'' he''
    rw [hexec, List.head?_cons, Option.mem_some_iff] at he''
    rw [← he'']
    exact (ThreadPool.outstanding_submit hsubmit).1

/-- Parsing goes on to the first test or, on an unreadable document, throws. -/
theorem parse_ending {m m' : TestManager} {pc' : JobPc} {filePath : Option String}
    (hready : m.Prepared .parse) (h : m.startTest filePath .parse .nothing = some (m', pc')) :
    Frame m m' ∧ Ending m .parse m' pc' := by
  rcases hdoc : m.mTestConfig.document with _ | root
  · exact absurd hdoc hready.2
  simp only [startTest, Option.some.injEq, Prod.mk.injEq] at h
  obtain ⟨rfl, rfl⟩ := h
  have hframe : Frame m { m with mTestConfig := m.mTestConfig.parse.state } :=
    ⟨rfl, id, fun hsome => by rw [TestConfig.parse_document]; exact hsome⟩
  refine ⟨hframe, ?_⟩
  have hiff := TestConfig.parse_isReturned_iff m.mTestConfig root hdoc
  by_cases hret : m.mTestConfig.parse.isReturned = true
  · rw [if_pos hret]
    refine .onward (by decide) hready.1 ?_ (.inl rfl)
    intro root' hroot'
    rw [hdoc, Option.mem_some_iff] at hroot'
    rw [← hroot']
    exact hiff.mp hret
  · rw [if_neg hret]
    exact .threw (fun hcalm => hret (hiff.mpr (hcalm root hdoc))) rfl

/-- A statement of a job that finds what it needs. -/
theorem startTest_cases {m m' : TestManager} {filePath : Option String} {pc pc' : JobPc}
    {answer : Answer} (hready : m.Prepared pc)
    (h : m.startTest filePath pc answer = some (m', pc')) :
    pc ≠ .ended ∧ Frame m m' ∧ Ending m pc m' pc' := by
  have hcopy := h
  unfold startTest at h
  split at h
  -- A worker of the application's pool takes the job.
  · simp only [Option.some.injEq, Prod.mk.injEq] at h
    obtain ⟨rfl, rfl⟩ := h
    exact ⟨by decide, .refl m, .onward (by decide) trivial trivial (.inl rfl)⟩
  · simp only [Option.some.injEq, Prod.mk.injEq] at h
    obtain ⟨rfl, rfl⟩ := h
    exact ⟨by decide, .changeTestState m .run, .onward (by decide) trivial trivial (.inr rfl)⟩
  · simp only [Option.some.injEq, Prod.mk.injEq] at h
    obtain ⟨rfl, rfl⟩ := h
    exact ⟨by decide, .executors_cons m _ _,
      .onward (by decide) (List.cons_ne_nil _ _) trivial (.inl rfl)⟩
  -- A file that is not loaded leaves the old document.
  · rename_i found
    simp only [Option.some.injEq, Prod.mk.injEq] at h
    obtain ⟨rfl, rfl⟩ := h
    have hload := load_document m.mTestConfig filePath found
    refine ⟨by decide, ⟨rfl, id, hload.2⟩, ?_⟩
    by_cases hok : (m.mTestConfig.load filePath found).1 = true
    · rw [if_pos hok]
      exact .onward (by decide) ⟨hready, hload.1 hok⟩ trivial (.inl rfl)
    · rw [if_neg hok]
      exact .onward (by decide) hready trivial (.inl rfl)
  · simp only [Option.some.injEq, Prod.mk.injEq] at h
    obtain ⟨rfl, rfl⟩ := h
    exact ⟨by decide, .changeTestState m .idle, .returned trivial (by simp)⟩
  · exact ⟨by decide, parse_ending hready hcopy⟩
  · exact ⟨by simp, submit_ending hready hcopy⟩
  · rcases hexec : m.executors with _ | ⟨e, old⟩
    · exact absurd hexec hready
    simp only [hexec, Option.some.injEq, Prod.mk.injEq] at h
    obtain ⟨rfl, rfl⟩ := h
    exact ⟨by decide, .executors_cons m _ _,
      .onward (by decide) (List.cons_ne_nil _ _) trivial (.inl rfl)⟩
  -- The wait goes on, or ends in one of two ways; nothing else changes.
  · have hmoved : m' = m ∧ pc' ≠ .ended ∧ pc' ≠ .parse := by
      split at h
      · rename_i hexec
        exact absurd hexec hready
      · split at h
        · simp only [Option.some.injEq, Prod.mk.injEq] at h
          exact ⟨h.1.symm, by rw [← h.2]; decide, by rw [← h.2]; decide⟩
        · exact absurd h (by simp only [reduceCtorEq, not_false_eq_true])
      · simp only [Option.some.injEq, Prod.mk.injEq] at h
        exact ⟨h.1.symm, by rw [← h.2]; decide, by rw [← h.2]; decide⟩
      · simp only [Option.some.injEq, Prod.mk.injEq] at h
        exact ⟨h.1.symm, by rw [← h.2]; decide, by rw [← h.2]; decide⟩
      · exact absurd h (by simp only [reduceCtorEq, not_false_eq_true])
    obtain ⟨rfl, hpc, hparse⟩ := hmoved
    have hprepared := prepared_of_executors hready hparse
    exact ⟨by decide, .refl m', .onward hpc hprepared trivial (.inl rfl)⟩
  · simp only [Option.some.injEq, Prod.mk.injEq] at h
    obtain ⟨rfl, rfl⟩ := h
    exact ⟨by decide, .changeTestState m .complete, .returned trivial (by simp)⟩
  · rcases hexec : m.executors with _ | ⟨e, old⟩
    · exact absurd hexec hready
    simp only [hexec, Option.some.injEq, Prod.mk.injEq] at h
    obtain ⟨rfl, rfl⟩ := h
    exact ⟨by decide, .executors_cons m _ _,
      .onward (by decide) (List.cons_ne_nil _ _) trivial (.inl rfl)⟩
  · simp only [Option.some.injEq, Prod.mk.injEq] at h
    obtain ⟨rfl, rfl⟩ := h
    exact ⟨by decide, .changeTestState m .interrupt, .returned trivial (by simp)⟩
  · exact absurd h (by simp only [reduceCtorEq, not_false_eq_true])

theorem Prepared.mono {m m' : TestManager} {pc : JobPc} (hpc : m.Prepared pc)
    (hexec : m.executors ≠ [] → m'.executors ≠ [])
    (hdoc : m.mTestConfig.document ≠ none → m'.mTestConfig.document ≠ none) : m'.Prepared pc := by
  cases pc with
  | queued => trivial
  | changeToRun => trivial
  | newExecutor => trivial
  | parse => exact ⟨hexec hpc.1, hdoc hpc.2⟩
  | _ => exact hexec hpc

theorem countP_isActive_pos {jobs : List Job} {job : Job} (hmem : job ∈ jobs)
    (hpc : job.pc ≠ .ended) : 0 < jobs.countP Job.isActive :=
  List.countP_pos_iff.mpr ⟨job, hmem, decide_eq_true hpc⟩

/-- Moving one job changes the number of active jobs only if it ends. -/
theorem countP_isActive_set {jobs : List Job} {i : Nat} {job : Job} (hi : jobs[i]? = some job)
    (hpc : job.pc ≠ .ended) (pc' : JobPc) :
    jobs.countP Job.isActive = (jobs.set i { job with pc := pc' }).countP Job.isActive +
      (if pc' = .ended then 1 else 0) := by
  rcases List.getElem?_eq_some_iff.mp hi with ⟨hlen, hget⟩
  have hpos := countP_isActive_pos (List.mem_of_getElem? hi) hpc
  rw [List.countP_set hlen, hget]
  by_cases hended : pc' = .ended
  · simp only [Job.isActive, hended, hpc, ne_eq, not_false_eq_true, decide_true, if_true, not_true,
      decide_false, Bool.false_eq_true, if_false]
    omega
  · simp only [Job.isActive, hended, hpc, ne_eq, not_false_eq_true, decide_true, if_true, if_false]
    omega

/-- What a step does to the state and to the number of pending runs. -/
inductive Effect (m : TestManager) (a : Label) (m' : TestManager) : Prop where
  | quiet (hsmooth : m.Smooth a) (hpending : m'.pending = m.pending)
      (hstate : m'.mTestState = m.mTestState)
  | accepted (hsmooth : m.Smooth a) (hfree : m.mTestState ≠ .run)
      (hpending : m'.pending = m.pending + 1) (hstate : m'.mTestState = .run)
  | running (hsmooth : m.Smooth a) (hbusy : m.pending ≠ 0) (hpending : m'.pending = m.pending)
      (hstate : m'.mTestState = .run)
  | returned (hsmooth : m.Smooth a) (hpending : m.pending = m'.pending + 1)
      (hstate : m'.mTestState ≠ .run)
  | threw (hbroken : ¬ m.Smooth a) (hpending : m.pending = m'.pending + 1)
      (hstate : m'.mTestState = m.mTestState)

/-- The step of a job. -/
theorem job_cases {m m' : TestManager} {i : Nat} {answer : Answer} (hready : m.Ready)
    (h : m.step (.job i answer) = some m') : m'.Ready ∧ Effect m (.job i answer) m' := by
  simp only [step] at h
  rcases hi : m.jobs[i]? with _ | job
  · rw [hi] at h
    exact absurd h (by simp only [reduceCtorEq, not_false_eq_true])
  rcases hrun : m.startTest job.filePath job.pc answer with _ | ⟨m₁, pc'⟩
  · rw [hi] at h
    simp only [hrun, Option.map_none, reduceCtorEq] at h
  rw [hi] at h
  simp only [hrun, Option.map_some, Option.some.injEq] at h
  subst h
  have hmem : job ∈ m.jobs := List.mem_of_getElem? hi
  -- A job that has ended has no next statement.
  have hactive : job.pc ≠ .ended := by
    intro hended
    rw [hended] at hrun
    unfold startTest at hrun
    exact absurd hrun (by simp only [reduceCtorEq, not_false_eq_true])
  obtain ⟨-, hframe, hending⟩ := startTest_cases (hready job hmem hactive) hrun
  have hcount := countP_isActive_set hi hactive pc'
  -- Whether the step is smooth is up to this job.
  have hsmooth : m.Smooth (.job i answer) ↔ m.Calm job.pc := by
    simp only [Smooth, hi, Option.mem_def, Option.some.injEq, forall_eq']
  have hpos : m.pending ≠ 0 := by
    have := countP_isActive_pos hmem hactive
    unfold pending
    omega
  constructor
  -- The other jobs keep what they need, and this one has it at its new place.
  · intro job' hjob' hpc'
    rcases List.mem_or_eq_of_mem_set hjob' with hold | rfl
    · exact (hready job' hold hpc').mono hframe.executors hframe.document
    · cases hending with
      | onward _ hprepared _ _ => exact hprepared
      | returned _ _ => exact absurd rfl hpc'
      | threw _ _ => exact absurd rfl hpc'
  · cases hending with
    | onward hpc _ hcalm hstate =>
        have hsame : ({ m₁ with jobs := m.jobs.set i { job with pc := pc' } } : TestManager).pending
            = m.pending := by
          unfold pending
          rw [hcount, if_neg hpc, hframe.starting, Nat.add_zero]
        rcases hstate with hstate | hstate
        · exact .quiet (hsmooth.mpr hcalm) hsame hstate
        · exact .running (hsmooth.mpr hcalm) hpos hsame hstate
    | returned hcalm hstate =>
        refine .returned (hsmooth.mpr hcalm) ?_ hstate
        unfold pending
        rw [hcount, if_pos rfl, hframe.starting, Nat.add_assoc]
    | threw hcalm hstate =>
        refine .threw (fun hs => hcalm (hsmooth.mp hs)) ?_ hstate
        unfold pending
        rw [hcount, if_pos rfl, hframe.starting, Nat.add_assoc]

/-- A step that leaves the jobs and the configuration alone leaves the jobs
    ready. -/
theorem Ready.mono {m m' : TestManager} (h : m.Ready) (hjobs : m'.jobs = m.jobs)
    (hexec : m.executors ≠ [] → m'.executors ≠ []) (hconfig : m'.mTestConfig = m.mTestConfig) :
    m'.Ready := by
  intro job hjob hpc
  rw [hjobs] at hjob
  exact (h job hjob hpc).mono hexec (fun hdoc => by rw [hconfig]; exact hdoc)

theorem set_ne_nil {m : TestManager} (k : Nat) (e : ThreadPool Test) (h : m.executors ≠ []) :
    m.executors.set k e ≠ [] := by
  intro hnil
  exact h ((List.set_eq_nil_iff k e).mp hnil)

/-- The rest of a call of `stop` acts on the current executor. -/
theorem stopNow_step {m m' : TestManager} (h : m.step .stopNow = some m') :
    ∃ calls e old, m.executors = e :: old ∧
      m' = { m with executors := e.shutdownNow :: old, stopping := calls } := by
  simp only [step] at h
  split at h
  · rename_i calls e old _ hexec
    exact ⟨calls, e, old, hexec, (Option.some.inj h).symm⟩
  · exact absurd h (by simp only [reduceCtorEq, not_false_eq_true])

/-- The steps of a worker change its executor only. -/
theorem pick_step {m m' : TestManager} {k : Nat} (h : m.step (.pick k) = some m') :
    ∃ e e', m.executors[k]? = some e ∧ e.pick = some e' ∧
      m' = { m with executors := m.executors.set k e' } := by
  simp only [step] at h
  split at h
  · exact absurd h (by simp only [reduceCtorEq, not_false_eq_true])
  · rename_i e hk
    obtain ⟨e', hpick, rfl⟩ := Option.map_eq_some_iff.mp h
    exact ⟨e, e', hk, hpick, rfl⟩

theorem begin_step {m m' : TestManager} {k : Nat} {test : Test}
    (h : m.step (.begin k test) = some m') :
    ∃ e e', m.executors[k]? = some e ∧ e.begin test = some e' ∧
      m' = { m with executors := m.executors.set k e' } := by
  simp only [step] at h
  split at h
  · exact absurd h (by simp only [reduceCtorEq, not_false_eq_true])
  · rename_i e hk
    obtain ⟨e', hbegin, rfl⟩ := Option.map_eq_some_iff.mp h
    exact ⟨e, e', hk, hbegin, rfl⟩

theorem finish_step {m m' : TestManager} {k : Nat} {test : Test}
    (h : m.step (.finish k test) = some m') :
    ∃ e, m.executors[k]? = some e ∧ test ∈ e.running ∧ test ∈ e.begun ∧
      m' = { m with executors := m.executors.set k (e.finish test) } := by
  simp only [step] at h
  split at h
  · exact absurd h (by simp only [reduceCtorEq, not_false_eq_true])
  · rename_i e hk
    obtain ⟨⟨hrunning, hbegun⟩, hsame⟩ := Option.ite_none_right_eq_some.mp h
    exact ⟨e, hk, hrunning, hbegun, (Option.some.inj hsame).symm⟩

theorem step_cases {m m' : TestManager} {a : Label} (hready : m.Ready)
    (h : m.step a = some m') : m'.Ready ∧ Effect m a m' := by
  cases a with
  | start filePath =>
      simp only [step] at h
      split at h
      · simp only [Option.some.injEq] at h
        subst h
        exact ⟨hready, .quiet trivial rfl rfl⟩
      · rename_i hfree
        simp only [Option.some.injEq] at h
        subst h
        refine ⟨hready.mono rfl id rfl, .accepted trivial hfree ?_ rfl⟩
        unfold pending
        simp only [List.length_append, List.length_singleton]
        omega
  -- A call of `start` becomes a job, and the number of runs stays.
  | submit i =>
      simp only [step] at h
      rcases hi : m.starting[i]? with _ | filePath
      · rw [hi] at h
        exact absurd h (by simp only [reduceCtorEq, not_false_eq_true])
      rw [hi] at h
      simp only [Option.some.injEq] at h
      subst h
      have hlen := (List.getElem?_eq_some_iff.mp hi).1
      refine ⟨?_, .quiet trivial ?_ rfl⟩
      · intro job hjob hpc
        rcases List.mem_append.mp hjob with hold | hnew
        · exact (hready job hold hpc).mono id id
        · rw [List.mem_singleton.mp hnew]
          trivial
      · unfold pending
        simp only [List.length_eraseIdx_of_lt hlen, List.countP_append, List.countP_singleton,
          Job.isActive, ne_eq, reduceCtorEq, not_false_eq_true, decide_true, if_true]
        omega
  | job i answer => exact job_cases hready h
  | stop =>
      simp only [step, Option.some.injEq] at h
      subst h
      split
      · exact ⟨hready, .quiet trivial rfl rfl⟩
      · exact ⟨hready.mono rfl id rfl, .quiet trivial rfl rfl⟩
  | stopNow =>
      obtain ⟨calls, e, old, -, rfl⟩ := stopNow_step h
      exact ⟨hready.mono rfl (fun _ => List.cons_ne_nil _ _) rfl, .quiet trivial rfl rfl⟩
  | pick k =>
      obtain ⟨-, e', -, -, rfl⟩ := pick_step h
      exact ⟨hready.mono rfl (set_ne_nil k e') rfl, .quiet trivial rfl rfl⟩
  | begin k test =>
      obtain ⟨-, e', -, -, rfl⟩ := begin_step h
      exact ⟨hready.mono rfl (set_ne_nil k e') rfl, .quiet trivial rfl rfl⟩
  | finish k test =>
      obtain ⟨e, -, -, -, rfl⟩ := finish_step h
      exact ⟨hready.mono rfl (set_ne_nil k _) rfl, .quiet trivial rfl rfl⟩

/-- The two invariants together. -/
def Sound (m : TestManager) : Prop := m.Ready ∧ m.Exclusive

theorem step_sound {m m' : TestManager} {a : Label} (hm : m.Sound) (h : m.step a = some m') :
    m'.Sound := by
  obtain ⟨hready, hone, hrun⟩ := hm
  obtain ⟨hready', heffect⟩ := step_cases hready h
  refine ⟨hready', ?_⟩
  cases heffect with
  | quiet _ hpending hstate =>
      refine ⟨by omega, fun hbusy => ?_⟩
      rw [hstate]
      exact hrun (by omega)
  | accepted _ hfree hpending hstate =>
      -- A manager that accepts a start has no pending run.
      have hnone : m.pending = 0 := by
        by_contra hbusy
        exact hfree (hrun hbusy)
      exact ⟨by omega, fun _ => hstate⟩
  | running _ _ hpending hstate => exact ⟨by omega, fun _ => hstate⟩
  -- The one pending run is over.
  | returned _ hpending _ => exact ⟨by omega, fun hbusy => absurd hbusy (by omega)⟩
  | threw _ hpending _ => exact ⟨by omega, fun hbusy => absurd hbusy (by omega)⟩

theorem fresh_sound : fresh.Sound :=
  ⟨fun _ hjob => absurd hjob List.not_mem_nil, by decide, fun hbusy => absurd rfl hbusy⟩

/-- Nobody is left who could give `TEST_RUN` back. -/
def Stuck (m : TestManager) : Prop := m.pending = 0 ∧ m.mTestState = .run

theorem notStuck_iff_not_stuck (m : TestManager) : m.NotStuck ↔ ¬ m.Stuck := by
  constructor
  · intro h hstuck
    exact (h hstuck.1).1 hstuck.2
  · intro h hidle
    have hstate : m.mTestState ≠ .run := fun hrun => h ⟨hidle, hrun⟩
    have hnone : m.starting = [] := by
      unfold pending at hidle
      exact List.length_eq_zero_iff.mp (by omega)
    refine ⟨hstate, fun filePath => ?_⟩
    simp only [step, if_neg hstate]
    exact ⟨_, rfl, by rw [hnone]; rfl⟩

/-- A smooth step leaves no one stuck. -/
theorem step_free {m m' : TestManager} {a : Label} (hm : m.Sound) (hfree : ¬ m.Stuck)
    (hsmooth : m.Smooth a) (h : m.step a = some m') : ¬ m'.Stuck := by
  intro hstuck
  cases (step_cases hm.1 h).2 with
  | quiet _ hpending hstate =>
      exact hfree ⟨hpending ▸ hstuck.1, hstate ▸ hstuck.2⟩
  | accepted _ _ hpending _ => exact absurd hstuck.1 (by omega)
  | running _ hbusy hpending _ => exact absurd hstuck.1 (by omega)
  | returned _ _ hstate => exact hstate hstuck.2
  | threw hbroken _ _ => exact hbroken hsmooth

/-- A throw leaves the manager stuck. -/
theorem step_breaks {m m' : TestManager} {a : Label} (hm : m.Sound) (hbroken : ¬ m.Smooth a)
    (h : m.step a = some m') : m'.Stuck := by
  obtain ⟨hready, hone, hrun⟩ := hm
  cases (step_cases hready h).2 with
  | quiet hsmooth _ _ => exact absurd hsmooth hbroken
  | accepted hsmooth _ _ _ => exact absurd hsmooth hbroken
  | running hsmooth _ _ _ => exact absurd hsmooth hbroken
  | returned hsmooth _ _ => exact absurd hsmooth hbroken
  | threw _ hpending hstate => exact ⟨by omega, by rw [hstate]; exact hrun (by omega)⟩

/-- A stuck manager stays stuck. -/
theorem step_stuck {m m' : TestManager} {a : Label} (hm : m.Sound) (hstuck : m.Stuck)
    (h : m.step a = some m') : m'.Stuck := by
  obtain ⟨hidle, hrun⟩ := hstuck
  cases (step_cases hm.1 h).2 with
  | quiet _ hpending hstate => exact ⟨by omega, by rw [hstate, hrun]⟩
  | accepted _ hfree _ _ => exact absurd hrun hfree
  | running _ hbusy _ _ => exact absurd hidle hbusy
  | returned _ hpending _ => exact absurd hidle (by omega)
  | threw _ hpending _ => exact absurd hidle (by omega)

/-- Wherever a run of the manager ends, an idle manager is free to start again
    if and only if no job threw on the way. -/
theorem notStuck_iff (run : List Label) (m : TestManager) (h : exec step fresh run = some m) :
    m.NotStuck ↔ Along step Smooth fresh run := by
  rw [notStuck_iff_not_stuck]
  constructor
  -- A throw anywhere would have left the manager stuck to the end.
  · intro hfree
    by_contra hbroken
    exact hfree (exec_trapped step Smooth Sound Stuck (fun _ _ _ hm hs => step_sound hm hs)
      (fun _ _ _ hm hb hs => step_breaks hm hb hs) (fun _ _ _ hm hq hs => step_stuck hm hq hs)
      run fresh m fresh_sound hbroken h)
  · intro halong
    exact (exec_keeps step Smooth (fun m => m.Sound ∧ ¬ m.Stuck)
      (fun _ _ _ hm hc hs => ⟨step_sound hm.1 hs, step_free hm.1 hm.2 hc hs⟩)
      run fresh m ⟨fresh_sound, fun hstuck => absurd hstuck.2 (by decide)⟩ halong h).2

/-- A configuration with one voice test and a given text for its count. -/
def voiceCount (text : String) : ConfigFile :=
  .document (.mk "test" [] [.mk "voice" [] [.mk "count" text.toList []]])

/-- A start up to the statement that parses the file. -/
def upToParse (file : ConfigFile) : List Label :=
  [.start (some "test_default.xml"), .submit 0, .job 0 .nothing, .job 0 .nothing,
    .job 0 .nothing, .job 0 (.file file)]

/-- The test of `voiceCount "2"`. -/
def twoCalls : Test :=
  .voice { number := "10086".toList, callTime := 10, count := 2, interval := 5 }

/-- A run of one test that is stopped once the test has been submitted. -/
def stoppedRun : List Label :=
  upToParse (voiceCount "2") ++ [.job 0 .nothing, .job 0 .nothing, .stop, .stopNow,
    .job 0 .nothing, .job 0 .nothing, .begin 0 twoCalls, .finish 0 twoCalls, .job 0 .nothing,
    .job 0 .nothing]

/-- A run stopped after its last submission completes and is not stuck. -/
theorem notStuck_stopped_late :
    ∃ m, exec step fresh stoppedRun = some m ∧ m.pending = 0 ∧ m.mTestState = .complete ∧
      m.NotStuck := by
  have hrun : ∃ m ∈ exec step fresh stoppedRun, m.pending = 0 ∧ m.mTestState = .complete := by
    decide +kernel
  rcases hrun with ⟨m, hm, hidle, hstate⟩
  exact ⟨m, hm, hidle, hstate, (notStuck_iff stoppedRun m hm).mpr (by decide +kernel)⟩

/-- A count that is no number, or a stop before the first submission, leaves an
    idle manager in `TEST_RUN`. -/
theorem stuck_in_run :
    (∃ m ∈ exec step fresh (upToParse (voiceCount "two") ++ [.job 0 .nothing]),
      m.pending = 0 ∧ m.mTestState = .run ∧ ¬ m.NotStuck) ∧
    (∃ m ∈ exec step fresh (upToParse (voiceCount "2") ++
        [.job 0 .nothing, .stop, .stopNow, .job 0 .nothing]),
      m.pending = 0 ∧ m.mTestState = .run ∧ ¬ m.NotStuck) := by
  have hstuck : ∀ m : TestManager, m.pending = 0 → m.mTestState = .run → ¬ m.NotStuck :=
    fun m hidle hrun hfree => (hfree hidle).1 hrun
  constructor
  · have hrun : ∃ m ∈ exec step fresh (upToParse (voiceCount "two") ++ [.job 0 .nothing]),
        m.pending = 0 ∧ m.mTestState = .run := by
      decide +kernel
    rcases hrun with ⟨m, hm, hidle, hstate⟩
    exact ⟨m, hm, hidle, hstate, hstuck m hidle hstate⟩
  · have hrun : ∃ m ∈ exec step fresh (upToParse (voiceCount "2") ++
        [.job 0 .nothing, .stop, .stopNow, .job 0 .nothing]),
        m.pending = 0 ∧ m.mTestState = .run := by
      decide +kernel
    rcases hrun with ⟨m, hm, hidle, hstate⟩
    exact ⟨m, hm, hidle, hstate, hstuck m hidle hstate⟩

end TestManager

end NetProbe
