import NetProbe.Tests.Manager

/-!
# Test Runs, Stops and `isEnd`

What a user of `TestManager` sees of a run: that no second one is let in beside
it, that a stop ends it, and that `isEnd` tells whether one is there.

The first holds as it stands (`one_run`). A stop acts on the executor the field
holds at that moment. If the run has not made its executor yet, the stop is
lost, and the run goes on with an executor of its own. If it has one, no waiting
test of the run begins any more, but a test that the worker has already got
begins all the same. `stop_holds` says when a stop holds, for every call of
`stop` during a run. `isEnd` looks at the same field, so between an accepted
start and the new executor it answers for the run before; it is right
throughout a history only if nothing was ever started (`isEnd_right_iff`).

Executors are numbered in the order in which they were made. The tests begun on
an executor have completed or are still running.

## Main definitions

* `executor`, `begun`: An executor by its number, and the tests begun on it.
* `runExecutor`: The number of the executor a pending run has or will make.
* `StopCall`: A call of `stop` from its null check to its return.
* `Caught`: The run has its executor, and no test in it is about to begin.
* `isEnd`: The answer of the manager.
* `Settled`, `Tidy`: Which executors have tests waiting.
* `Sealed`: An executor on which no test begins any more.
* `Unequipped`: A run that has not made its executor yet.

## Theorems

* `one_run`: There is at most one run, and no start is accepted beside it.
* `step_tidy`: Tests wait on the executor of the current run only.
* `step_sealed`: A sealed executor stays sealed.
* `stop_holds`: A stop ends the run exactly if the run is caught.
* `isEnd_right_iff`: `isEnd` is right throughout exactly if nothing is started.
-/

namespace NetProbe

open Machine

namespace TestManager

/-- Of two jobs that have not ended, there would be two pending runs. -/
theorem active_unique {m : TestManager} (hone : m.pending ≤ 1) {i j : Nat} {job job' : Job}
    (hi : m.jobs[i]? = some job) (hj : m.jobs[j]? = some job') (hjob : job.pc ≠ .ended)
    (hjob' : job'.pc ≠ .ended) : i = j := by
  by_contra hne
  -- End the first job; the second one is still counted.
  have hcount := countP_isActive_set hi hjob .ended
  have hkept : (m.jobs.set i { job with pc := .ended })[j]? = some job' := by
    rw [List.getElem?_set_ne hne]
    exact hj
  have hpos := countP_isActive_pos (List.mem_of_getElem? hkept) hjob'
  rw [if_pos rfl] at hcount
  unfold pending at hone
  omega

/-- In every state reached there is at most one job that is queued or executing,
    and a start is accepted only when there is none. -/
theorem one_run (run : List Label) (m : TestManager) (h : exec step fresh run = some m) :
    (∀ (i j : Nat) (job job' : Job), m.jobs[i]? = some job → m.jobs[j]? = some job' →
      job.isActive = true → job'.isActive = true → i = j) ∧ m.pending ≤ 1 ∧
    ∀ filePath m', m.step (.start filePath) = some m' →
      m'.starting = m.starting ++ [filePath] → m.pending = 0 := by
  obtain ⟨-, hone, hrun⟩ : m.Sound :=
    exec_keeps step (fun _ _ => True) Sound (fun _ _ _ hm _ hstep => step_sound hm hstep) run
      fresh m fresh_sound (along_true step fresh run) h
  refine ⟨?_, hone, ?_⟩
  · intro i j job job' hi hj hjob hjob'
    exact active_unique hone hi hj (of_decide_eq_true hjob) (of_decide_eq_true hjob')
  · intro filePath m' hstart haccepted
    by_contra hbusy
    -- A refused start changes nothing.
    simp only [step, hrun hbusy, if_true, Option.some.injEq] at hstart
    rw [← hstart] at haccepted
    exact absurd (congrArg List.length haccepted) (by
      rw [List.length_append, List.length_singleton]
      omega)

/-- A second start is refused while the first run is queued. -/
theorem one_run_refused :
    ∃ m, exec step fresh [.start (some "a.xml"), .submit 0, .start (some "b.xml")] = some m ∧
      m.pending = 1 ∧ m.pending ≤ 1 := by
  have hrun : ∃ m ∈ exec step fresh [.start (some "a.xml"), .submit 0, .start (some "b.xml")],
      m.pending = 1 := by
    decide +kernel
  obtain ⟨m, hm, hpending⟩ := hrun
  exact ⟨m, hm, hpending, (one_run _ m hm).2.1⟩

/-- The `n`-th executor, counted from the first one made. -/
def executor (m : TestManager) (n : Nat) : Option (ThreadPool Test) := m.executors.reverse[n]?

/-- The tests that have begun on an executor, also those that have completed. -/
def begunOn (e : ThreadPool Test) : Nat := e.begun.length + e.completed.length

/-- The tests begun on the `n`-th executor. -/
def begun (m : TestManager) (n : Nat) : Nat := ((m.executor n).map begunOn).getD 0

/-- The job has made its executor and not ended. -/
def equippedJob (job : Job) : Bool :=
  match job.pc with
  | .queued => false
  | .changeToRun => false
  | .newExecutor => false
  | .ended => false
  | _ => true

/-- The number of the executor that the pending run has made, or is going to
    make. -/
def runExecutor (m : TestManager) : Nat :=
  if m.jobs.any equippedJob then m.executors.length - 1 else m.executors.length

/-- An accepted run for this file has not ended. -/
def RunOf (m : TestManager) (filePath : Option String) : Prop :=
  filePath ∈ m.starting ∨ ∃ job ∈ m.jobs, job.isActive = true ∧ job.filePath = filePath

/-- A call of `stop` made in `m` that takes effect in `m₁` and returns in `m'`: it
    finds no executor, or some steps later it shuts down the one the field holds
    by then. -/
inductive StopCall (m m₁ m' : TestManager) : Prop where
  | nothing (hnone : m.executors = []) (hsame : m₁ = m) (h : m.step .stop = some m')
  | shutdown (between : List Label) (hsome : m.executors ≠ [])
      (hbetween : exec step m (.stop :: between) = some m₁) (h : m₁.step .stopNow = some m')

/-- The `n`-th executor is there, and the tests its worker has got have begun. -/
def Caught (m : TestManager) (n : Nat) : Prop := ∃ e ∈ m.executor n, e.AllBegun

/-- What a step does to the executors. -/
inductive Changed (m m' : TestManager) : Prop where
  | same (h : m'.executors = m.executors)
  | made (h : m'.executors = ThreadPool.newFixed 1 :: m.executors)
  | current (e e' : ThreadPool Test) (old : List (ThreadPool Test)) (h : m.executors = e :: old)
      (h' : m'.executors = e' :: old)
      (hnew : (∃ test, e.submit test = some e') ∨ e' = e.shutdown ∨ e' = e.shutdownNow)
  | worked (k : Nat) (e e' : ThreadPool Test) (h : m.executors[k]? = some e)
      (h' : m'.executors = m.executors.set k e')
      (hnew : e.pick = some e' ∨ (∃ test, e.begin test = some e') ∨
        ∃ test ∈ e.running, test ∈ e.begun ∧ e' = e.finish test)

theorem startTest_changed {m m' : TestManager} {filePath : Option String} {pc pc' : JobPc}
    {answer : Answer} (h : m.startTest filePath pc answer = some (m', pc')) : Changed m m' := by
  unfold startTest at h
  split at h
  case h_3 =>
      simp only [Option.some.injEq, Prod.mk.injEq] at h
      obtain ⟨rfl, -⟩ := h
      exact .made rfl
  case h_7 next =>
      split at h
      · simp only [Option.some.injEq, Prod.mk.injEq] at h
        obtain ⟨rfl, -⟩ := h
        exact .same rfl
      · rename_i test _
        unfold submitTest at h
        rcases hexec : m.executors with _ | ⟨e, old⟩
        · simp only [hexec, Option.some.injEq, Prod.mk.injEq] at h
          obtain ⟨rfl, -⟩ := h
          exact .same rfl
        · rcases hsubmit : e.submit test with _ | e'
          · simp only [hexec, hsubmit, Option.map_none, Option.some.injEq, Prod.mk.injEq] at h
            obtain ⟨rfl, -⟩ := h
            exact .same rfl
          · simp only [hexec, hsubmit, Option.map_some, Option.some.injEq, Prod.mk.injEq] at h
            obtain ⟨rfl, -⟩ := h
            exact .current e e' old hexec rfl (.inl ⟨test, hsubmit⟩)
  case h_8 =>
      split at h
      · simp only [Option.some.injEq, Prod.mk.injEq] at h
        obtain ⟨rfl, -⟩ := h
        exact .same rfl
      · rename_i e old hexec
        simp only [Option.some.injEq, Prod.mk.injEq] at h
        obtain ⟨rfl, -⟩ := h
        exact .current e _ old hexec rfl (.inr (.inl rfl))
  case h_11 =>
      split at h
      · simp only [Option.some.injEq, Prod.mk.injEq] at h
        obtain ⟨rfl, -⟩ := h
        exact .same rfl
      · rename_i e old hexec
        simp only [Option.some.injEq, Prod.mk.injEq] at h
        obtain ⟨rfl, -⟩ := h
        exact .current e _ old hexec rfl (.inr (.inr rfl))
  -- The other statements leave the executors alone.
  all_goals
    repeat' split at h
    all_goals
      first
      | (simp only [Option.some.injEq, Prod.mk.injEq] at h
         obtain ⟨rfl, -⟩ := h
         exact .same rfl)
      | exact absurd h (by simp only [reduceCtorEq, not_false_eq_true])

/-- The step of a job is a statement of `startTest`. -/
theorem job_step {m m' : TestManager} {i : Nat} {answer : Answer}
    (h : m.step (.job i answer) = some m') :
    ∃ job m₁ pc', m.jobs[i]? = some job ∧
      m.startTest job.filePath job.pc answer = some (m₁, pc') ∧
      m' = { m₁ with jobs := m.jobs.set i { job with pc := pc' } } := by
  simp only [step] at h
  rcases hi : m.jobs[i]? with _ | job
  · rw [hi] at h
    exact absurd h (by simp only [reduceCtorEq, not_false_eq_true])
  rw [hi] at h
  simp only [Option.map_eq_some_iff] at h
  obtain ⟨⟨m₁, pc'⟩, hrun, rfl⟩ := h
  exact ⟨job, m₁, pc', rfl, hrun, rfl⟩

theorem step_changed {m m' : TestManager} {a : Label} (h : m.step a = some m') :
    Changed m m' := by
  cases a with
  | start filePath =>
      simp only [step] at h
      split at h
      · rw [← Option.some.inj h]
        exact .same rfl
      · rw [← Option.some.inj h]
        exact .same rfl
  | submit i =>
      simp only [step] at h
      split at h
      · exact absurd h (by simp only [reduceCtorEq, not_false_eq_true])
      · rw [← Option.some.inj h]
        exact .same rfl
  | job i answer =>
      obtain ⟨job, m₁, pc', -, hrun, rfl⟩ := job_step h
      cases startTest_changed hrun with
      | same h => exact .same h
      | made h => exact .made h
      | current e e' old h h' hnew => exact .current e e' old h h' hnew
      | worked k e e' h h' hnew => exact .worked k e e' h h' hnew
  | stop =>
      simp only [step] at h
      rw [← Option.some.inj h]
      split
      · exact .same rfl
      · exact .same rfl
  | stopNow =>
      obtain ⟨calls, e, old, hexec, rfl⟩ := stopNow_step h
      exact .current e _ old hexec rfl (.inr (.inr rfl))
  | pick k =>
      obtain ⟨e, e', hk, hpick, rfl⟩ := pick_step h
      exact .worked k e e' hk rfl (.inl hpick)
  | begin k test =>
      obtain ⟨e, e', hk, hbegin, rfl⟩ := begin_step h
      exact .worked k e e' hk rfl (.inr (.inl ⟨test, hbegin⟩))
  | finish k test =>
      obtain ⟨e, hk, hrunning, hbegun, rfl⟩ := finish_step h
      exact .worked k e _ hk rfl (.inr (.inr ⟨test, hrunning, hbegun, rfl⟩))

/-- The `n`-th executor stands `n` places before the end of the list. -/
theorem executor_eq_some_iff {m : TestManager} {n : Nat} {e : ThreadPool Test} :
    m.executor n = some e ↔
      n < m.executors.length ∧ m.executors[m.executors.length - 1 - n]? = some e := by
  unfold executor
  constructor
  · intro h
    have hlt := (List.getElem?_eq_some_iff.mp h).1
    rw [List.length_reverse] at hlt
    rw [List.getElem?_reverse hlt] at h
    exact ⟨hlt, h⟩
  · rintro ⟨hlt, h⟩
    rw [List.getElem?_reverse hlt]
    exact h

/-- No test begins on the `n`-th executor any more: none waits for its worker or
    has just got it, and no job will add one. `c` tests have begun on it. -/
def Sealed (m : TestManager) (n c : Nat) : Prop :=
  ∃ e, m.executor n = some e ∧ e.queue = [] ∧ e.AllBegun ∧ begunOn e = c ∧
    (e.isShutdown = true ∨ n + 1 < m.executors.length)

theorem Sealed.begun {m : TestManager} {n c : Nat} (h : m.Sealed n c) : m.begun n = c := by
  obtain ⟨e, he, -, -, hc, -⟩ := h
  unfold TestManager.begun
  rw [he]
  exact hc

/-- Nothing waits on a worker that has just taken a test. -/
theorem queue_ne_nil_of_pick {e e' : ThreadPool Test} (h : e.pick = some e') : e.queue ≠ [] := by
  intro hnil
  unfold ThreadPool.pick at h
  rw [hnil] at h
  exact absurd h (by simp only [reduceCtorEq, not_false_eq_true])

theorem begunOn_finish {e : ThreadPool Test} {test : Test} (h : test ∈ e.begun) :
    begunOn (e.finish test) = begunOn e := by
  have hpos := List.length_pos_of_mem h
  unfold begunOn ThreadPool.finish
  simp only [List.length_append, List.length_singleton, List.length_erase_of_mem h]
  omega

/-- Changing the current executor leaves the others in place. -/
theorem executor_of_current {m m' : TestManager} {e₁ e₂ : ThreadPool Test}
    {old : List (ThreadPool Test)} {n : Nat} (h : m.executors = e₁ :: old)
    (h' : m'.executors = e₂ :: old) (hn : n + 1 < m.executors.length) :
    m'.executor n = m.executor n := by
  rw [h, List.length_cons] at hn
  unfold executor
  rw [h, h', List.reverse_cons, List.reverse_cons,
    List.getElem?_append_left (by rw [List.length_reverse]; omega),
    List.getElem?_append_left (by rw [List.length_reverse]; omega)]

theorem executor_current {m : TestManager} {e : ThreadPool Test} {old : List (ThreadPool Test)}
    (h : m.executors = e :: old) : m.executor old.length = some e := by
  unfold executor
  rw [h, List.reverse_cons, List.getElem?_append_right (by rw [List.length_reverse]),
    List.length_reverse, Nat.sub_self]
  rfl

theorem current_sealed {m m' : TestManager} {e₁ e₂ : ThreadPool Test}
    {old : List (ThreadPool Test)} {n c : Nat} (hm : m.Sealed n c) (h : m.executors = e₁ :: old)
    (h' : m'.executors = e₂ :: old)
    (hnew : (∃ test, e₁.submit test = some e₂) ∨ e₂ = e₁.shutdown ∨ e₂ = e₁.shutdownNow) :
    m'.Sealed n c := by
  obtain ⟨e, he, hqueue, hall, hcount, hclosed⟩ := hm
  have hlen : m'.executors.length = m.executors.length := by rw [h, h', List.length_cons,
    List.length_cons]
  have hlt := (executor_eq_some_iff.mp he).1
  by_cases hn : n + 1 < m.executors.length
  · exact ⟨e, (executor_of_current h h' hn).trans he, hqueue, hall, hcount, .inr (hlen ▸ hn)⟩
  -- The current executor is sealed only if it is closed.
  rw [h, List.length_cons] at hn hlt
  obtain rfl : n = old.length := by omega
  obtain rfl : e₁ = e := Option.some.inj ((executor_current h).symm.trans he)
  have hshut : e₁.isShutdown = true := by
    rcases hclosed with hshut | hmore
    · exact hshut
    · rw [h, List.length_cons] at hmore
      omega
  rcases hnew with ⟨test, hsubmit⟩ | rfl | rfl
  · rw [(ThreadPool.submit_eq_none_iff e₁ test).mpr hshut] at hsubmit
    exact absurd hsubmit (by simp only [reduceCtorEq, not_false_eq_true])
  · exact ⟨_, executor_current h', hqueue, hall, hcount, .inl rfl⟩
  · exact ⟨_, executor_current h', rfl, hall, hcount, .inl rfl⟩

theorem step_sealed {m m' : TestManager} {a : Label} {n c : Nat} (hm : m.Sealed n c)
    (h : m.step a = some m') : m'.Sealed n c := by
  cases step_changed h with
  | same hsame =>
      unfold Sealed executor at hm ⊢
      rw [hsame]
      exact hm
  -- A new executor takes the first place from this one.
  | made hmade =>
      obtain ⟨e, he, hqueue, hall, hcount, -⟩ := hm
      have hlt := (executor_eq_some_iff.mp he).1
      refine ⟨e, ?_, hqueue, hall, hcount, .inr ?_⟩
      · unfold executor at he ⊢
        rw [hmade, List.reverse_cons,
          List.getElem?_append_left (by rw [List.length_reverse]; exact hlt)]
        exact he
      · rw [hmade, List.length_cons]
        omega
  | current e₁ e₂ old hold hnew hcases => exact current_sealed hm hold hnew hcases
  | worked k e₁ e₂ hk hnew hcases =>
      obtain ⟨e, he, hqueue, hall, hcount, hclosed⟩ := hm
      obtain ⟨hlt, hget⟩ := executor_eq_some_iff.mp he
      have hlen : m'.executors.length = m.executors.length := by rw [hnew, List.length_set]
      have hget' : m'.executors[m'.executors.length - 1 - n]?
          = if k = m.executors.length - 1 - n then some e₂ else some e := by
        rw [hlen, hnew, List.getElem?_set, hget]
        split
        · rw [if_pos (by omega)]
        · rfl
      split at hget'
      · rename_i hsame
        rw [hsame, hget, Option.some.injEq] at hk
        subst hk
        rcases hcases with hpick | ⟨test, hbegin⟩ | ⟨test, -, hmem, rfl⟩
        · exact absurd hqueue (queue_ne_nil_of_pick hpick)
        · rw [hall.begin_eq_none test] at hbegin
          exact absurd hbegin (by simp only [reduceCtorEq, not_false_eq_true])
        · exact ⟨_, executor_eq_some_iff.mpr ⟨by omega, hget'⟩, hqueue, hall.finish test,
            (begunOn_finish hmem).trans hcount, by rw [hlen]; exact hclosed⟩
      · exact ⟨e, executor_eq_some_iff.mpr ⟨by omega, hget'⟩, hqueue, hall, hcount,
          by rw [hlen]; exact hclosed⟩

/-- The tests that wait on the current executor. -/
def waiting (m : TestManager) : List Test := (m.executors.head?.map ThreadPool.queue).getD []

/-- The current executor is closed. -/
def closed (m : TestManager) : Bool := (m.executors.head?.map ThreadPool.isShutdown).getD false

/-- Which tests may wait while a job is at `pc`: those it has submitted. A stop
    leaves none. -/
def Settled (m : TestManager) : JobPc → Prop
  | .submit _ => m.closed = true → m.waiting = []
  | .shutdown => m.closed = true → m.waiting = []
  | .awaitTermination => True
  | .shutdownNow => True
  | _ => m.waiting = []

/-- Tests wait on the current executor only, and only while its job looks after
    them. -/
structure Tidy (m : TestManager) : Prop where
  old : ∀ e ∈ m.executors.tail, e.queue = []
  jobs : ∀ job ∈ m.jobs, job.pc ≠ .ended → m.Settled job.pc
  idle : (∀ job ∈ m.jobs, job.pc = .ended) → m.waiting = []

theorem settled_of_waiting {m : TestManager} (h : m.waiting = []) (pc : JobPc) : m.Settled pc := by
  unfold Settled
  split
  · exact fun _ => h
  · exact fun _ => h
  · trivial
  · trivial
  · exact h

theorem Settled.mono {m m' : TestManager} {pc : JobPc} (h : m.Settled pc)
    (hclosed : m'.closed = true → m.closed = true ∨ m'.waiting = [])
    (hwaiting : m.waiting = [] → m'.waiting = []) : m'.Settled pc := by
  unfold Settled at h ⊢
  split
  · exact fun hc => (hclosed hc).elim (fun hc => hwaiting (h hc)) id
  · exact fun hc => (hclosed hc).elim (fun hc => hwaiting (h hc)) id
  · trivial
  · trivial
  · rename_i h₁ h₂ h₃ h₄
    refine hwaiting ?_
    split at h
    · exact absurd rfl (h₁ _)
    · exact absurd rfl h₂
    · exact absurd rfl h₃
    · exact absurd rfl h₄
    · exact h

theorem waiting_nil {m : TestManager} (h : m.executors = []) : m.waiting = [] := by
  unfold waiting
  rw [h]
  rfl

theorem waiting_cons {m : TestManager} {e : ThreadPool Test} {old : List (ThreadPool Test)}
    (h : m.executors = e :: old) : m.waiting = e.queue := by
  unfold waiting
  rw [h]
  rfl

theorem closed_cons {m : TestManager} {e : ThreadPool Test} {old : List (ThreadPool Test)}
    (h : m.executors = e :: old) : m.closed = e.isShutdown := by
  unfold closed
  rw [h]
  rfl

/-- A job that submits leaves tests waiting on an open executor only. -/
theorem submit_settled {m m' : TestManager} {filePath : Option String} {next : Nat} {pc' : JobPc}
    (hpc : m.Settled (.submit next)) (hold : ∀ e ∈ m.executors.tail, e.queue = [])
    (h : m.startTest filePath (.submit next) .nothing = some (m', pc')) :
    m'.Settled pc' ∧ ∀ e ∈ m'.executors.tail, e.queue = [] := by
  unfold startTest at h
  rcases htest : m.mTestConfig.testList[next]? with _ | test
  · simp only [htest, Option.some.injEq, Prod.mk.injEq] at h
    obtain ⟨rfl, rfl⟩ := h
    exact ⟨hpc, hold⟩
  rcases hexec : m.executors with _ | ⟨e, old⟩
  · simp only [htest, submitTest, hexec, Option.some.injEq, Prod.mk.injEq] at h
    obtain ⟨rfl, rfl⟩ := h
    exact ⟨waiting_nil hexec, hold⟩
  rcases hsubmit : e.submit test with _ | e'
  -- The executor has been closed, by a stop that has emptied it.
  · simp only [htest, submitTest, hexec, hsubmit, Option.map_none, Option.some.injEq,
      Prod.mk.injEq] at h
    obtain ⟨rfl, rfl⟩ := h
    refine ⟨hpc ?_, hold⟩
    rw [closed_cons hexec]
    exact (ThreadPool.submit_eq_none_iff e test).mp hsubmit
  · simp only [htest, submitTest, hexec, hsubmit, Option.map_some, Option.some.injEq,
      Prod.mk.injEq] at h
    obtain ⟨rfl, rfl⟩ := h
    refine ⟨fun hclosed => ?_, ?_⟩
    · rw [closed_cons rfl, (ThreadPool.outstanding_submit hsubmit).2.1] at hclosed
      exact absurd hclosed Bool.false_ne_true
    · rw [hexec] at hold
      exact hold

/-- A statement of a job leaves what the next one may find. -/
theorem startTest_settled {m m' : TestManager} {filePath : Option String} {pc pc' : JobPc}
    {answer : Answer} (hpc : m.Settled pc) (hold : ∀ e ∈ m.executors.tail, e.queue = [])
    (h : m.startTest filePath pc answer = some (m', pc')) :
    m'.Settled pc' ∧ ∀ e ∈ m'.executors.tail, e.queue = [] := by
  have hcopy := h
  unfold startTest at h
  split at h
  · simp only [Option.some.injEq, Prod.mk.injEq] at h
    obtain ⟨rfl, rfl⟩ := h
    exact ⟨hpc, hold⟩
  · simp only [Option.some.injEq, Prod.mk.injEq] at h
    obtain ⟨rfl, rfl⟩ := h
    exact ⟨hpc, hold⟩
  -- The executor of the last run joins the old ones with nothing waiting.
  · simp only [Option.some.injEq, Prod.mk.injEq] at h
    obtain ⟨rfl, rfl⟩ := h
    refine ⟨rfl, fun e he => ?_⟩
    rw [List.tail_cons] at he
    rcases hexec : m.executors with _ | ⟨e₁, old⟩
    · rw [hexec] at he
      exact absurd he List.not_mem_nil
    · rw [hexec] at he hold
      rcases List.mem_cons.mp he with rfl | he
      · exact (waiting_cons hexec).symm.trans hpc
      · exact hold e he
  · simp only [Option.some.injEq, Prod.mk.injEq] at h
    obtain ⟨rfl, rfl⟩ := h
    exact ⟨settled_of_waiting (m := { m with mTestConfig := _ }) hpc _, hold⟩
  · simp only [Option.some.injEq, Prod.mk.injEq] at h
    obtain ⟨rfl, rfl⟩ := h
    exact ⟨hpc, hold⟩
  · simp only [Option.some.injEq, Prod.mk.injEq] at h
    obtain ⟨rfl, rfl⟩ := h
    exact ⟨settled_of_waiting (m := { m with mTestConfig := _ }) hpc _, hold⟩
  · exact submit_settled hpc hold hcopy
  · split at h
    · rename_i hexec
      simp only [Option.some.injEq, Prod.mk.injEq] at h
      obtain ⟨rfl, rfl⟩ := h
      exact ⟨waiting_nil hexec, hold⟩
    · rename_i e old hexec
      simp only [Option.some.injEq, Prod.mk.injEq] at h
      obtain ⟨rfl, rfl⟩ := h
      rw [hexec] at hold
      exact ⟨trivial, hold⟩
  -- A terminated executor has nothing waiting.
  · split at h
    · rename_i hexec
      simp only [Option.some.injEq, Prod.mk.injEq] at h
      obtain ⟨rfl, rfl⟩ := h
      exact ⟨waiting_nil hexec, hold⟩
    · rename_i e old hexec
      split at h
      · rename_i hterm
        simp only [Option.some.injEq, Prod.mk.injEq] at h
        obtain ⟨rfl, rfl⟩ := h
        simp only [ThreadPool.isTerminated, Bool.and_eq_true, List.isEmpty_iff] at hterm
        exact ⟨(waiting_cons hexec).trans hterm.1.2, hold⟩
      · exact absurd h (by simp only [reduceCtorEq, not_false_eq_true])
    · simp only [Option.some.injEq, Prod.mk.injEq] at h
      obtain ⟨rfl, rfl⟩ := h
      exact ⟨trivial, hold⟩
    · simp only [Option.some.injEq, Prod.mk.injEq] at h
      obtain ⟨rfl, rfl⟩ := h
      exact ⟨trivial, hold⟩
    · exact absurd h (by simp only [reduceCtorEq, not_false_eq_true])
  · simp only [Option.some.injEq, Prod.mk.injEq] at h
    obtain ⟨rfl, rfl⟩ := h
    exact ⟨hpc, hold⟩
  · split at h
    · rename_i hexec
      simp only [Option.some.injEq, Prod.mk.injEq] at h
      obtain ⟨rfl, rfl⟩ := h
      exact ⟨waiting_nil hexec, hold⟩
    · rename_i e old hexec
      simp only [Option.some.injEq, Prod.mk.injEq] at h
      obtain ⟨rfl, rfl⟩ := h
      rw [hexec] at hold
      exact ⟨rfl, hold⟩
  · simp only [Option.some.injEq, Prod.mk.injEq] at h
    obtain ⟨rfl, rfl⟩ := h
    exact ⟨hpc, hold⟩
  · exact absurd h (by simp only [reduceCtorEq, not_false_eq_true])

/-- After one job has moved, the others are where they were. -/
theorem mem_set_cases {jobs : List Job} {i : Nat} {job job' : Job} (h : job' ∈ jobs.set i job) :
    job' = job ∨ ∃ j, j ≠ i ∧ jobs[j]? = some job' := by
  obtain ⟨j, hj⟩ := List.mem_iff_getElem?.mp h
  rw [List.getElem?_set] at hj
  split at hj
  · split at hj
    · exact .inl (Option.some.inj hj).symm
    · exact absurd hj (by simp only [reduceCtorEq, not_false_eq_true])
  · rename_i hne
    exact .inr ⟨j, Ne.symm hne, hj⟩

theorem job_tidy {m m' : TestManager} {i : Nat} {answer : Answer} (hone : m.pending ≤ 1)
    (hm : m.Tidy) (h : m.step (.job i answer) = some m') : m'.Tidy := by
  obtain ⟨job, m₁, pc', hi, hrun, rfl⟩ := job_step h
  have hmem := List.mem_of_getElem? hi
  have hactive : job.pc ≠ .ended := by
    intro hended
    rw [hended] at hrun
    unfold startTest at hrun
    exact absurd hrun (by simp only [reduceCtorEq, not_false_eq_true])
  obtain ⟨hsettled, hold⟩ := startTest_settled (hm.jobs job hmem hactive) hm.old hrun
  -- The other jobs have ended.
  have hothers : ∀ j job', j ≠ i → m.jobs[j]? = some job' → job'.pc = .ended := by
    intro j job' hne hj
    by_contra hjob'
    exact hne (active_unique hone hj hi hjob' hactive)
  refine ⟨hold, ?_, ?_⟩
  · intro job' hjob' hpc
    rcases mem_set_cases hjob' with rfl | ⟨j, hne, hj⟩
    · exact hsettled
    · exact absurd (hothers j job' hne hj) hpc
  · intro hall
    have hlt := (List.getElem?_eq_some_iff.mp hi).1
    have hended : pc' = .ended :=
      hall { job with pc := pc' } (List.mem_of_getElem? (List.getElem?_set_self hlt))
    rw [hended] at hsettled
    exact hsettled

/-- A step that moves no job, and leaves nothing waiting where nothing was. -/
theorem Tidy.mono {m m' : TestManager} (hm : m.Tidy) (hjobs : m'.jobs = m.jobs)
    (hold : ∀ e ∈ m'.executors.tail, e.queue = [])
    (hclosed : m'.closed = true → m.closed = true ∨ m'.waiting = [])
    (hwaiting : m.waiting = [] → m'.waiting = []) : m'.Tidy := by
  refine ⟨hold, ?_, ?_⟩
  · intro job hjob hpc
    rw [hjobs] at hjob
    exact (hm.jobs job hjob hpc).mono hclosed hwaiting
  · intro hall
    rw [hjobs] at hall
    exact hwaiting (hm.idle hall)

/-- The worker of an executor takes or finishes a test. -/
theorem worked_tidy {m : TestManager} {k : Nat} {e e' : ThreadPool Test} (hm : m.Tidy)
    (hk : m.executors[k]? = some e) (hshut : e'.isShutdown = e.isShutdown)
    (hqueue : e.queue = [] → e'.queue = []) :
    ({ m with executors := m.executors.set k e' } : TestManager).Tidy := by
  rcases hexec : m.executors with _ | ⟨e₁, old⟩
  · rw [hexec] at hk
    exact absurd hk (by simp only [List.getElem?_nil, reduceCtorEq, not_false_eq_true])
  rw [hexec] at hk
  have hold : ∀ e ∈ old, e.queue = [] := by
    have := hm.old
    rw [hexec] at this
    exact this
  rcases k with _ | k
  · simp only [List.getElem?_cons_zero, Option.some.injEq] at hk
    subst hk
    refine hm.mono rfl hold (fun hc => .inl ?_) (fun hw => hqueue ?_)
    · rw [closed_cons hexec, ← hshut]
      exact hc
    · rw [← waiting_cons hexec]
      exact hw
  -- An old executor has nothing waiting, and so it stays.
  · rw [List.getElem?_cons_succ] at hk
    refine hm.mono rfl ?_ (fun hc => .inl ?_) (fun hw => ?_)
    · intro e₂ he₂
      rcases List.mem_or_eq_of_mem_set he₂ with he₂ | rfl
      · exact hold e₂ he₂
      · exact hqueue (hold e (List.mem_of_getElem? hk))
    · rw [closed_cons hexec]
      exact hc
    · rw [waiting_cons hexec] at hw
      exact hw

theorem step_tidy {m m' : TestManager} {a : Label} (hsound : m.Sound) (hm : m.Tidy)
    (h : m.step a = some m') : m'.Tidy := by
  cases a with
  | start filePath =>
      simp only [step] at h
      split at h
      · rw [← Option.some.inj h]
        exact hm
      · rw [← Option.some.inj h]
        exact hm.mono rfl hm.old .inl id
  -- A run that is about to be queued is the only one.
  | submit i =>
      simp only [step] at h
      split at h
      · exact absurd h (by simp only [reduceCtorEq, not_false_eq_true])
      rename_i filePath hi
      have hlen := (List.getElem?_eq_some_iff.mp hi).1
      have hidle : ∀ job ∈ m.jobs, job.pc = .ended := by
        intro job hjob
        by_contra hpc
        have hpos := countP_isActive_pos hjob hpc
        have hone := hsound.2.1
        unfold pending at hone
        omega
      rw [← Option.some.inj h]
      refine ⟨hm.old, fun job hjob hpc => ?_, fun hall => hm.idle hidle⟩
      exact settled_of_waiting (m := { m with starting := _, jobs := _ }) (hm.idle hidle) job.pc
  | job i answer => exact job_tidy hsound.2.1 hm h
  | stop =>
      simp only [step] at h
      rw [← Option.some.inj h]
      split
      · exact hm
      · exact hm.mono rfl hm.old .inl id
  | stopNow =>
      obtain ⟨calls, e, old, hexec, rfl⟩ := stopNow_step h
      refine hm.mono rfl ?_ (fun _ => .inr rfl) (fun _ => rfl)
      have hold := hm.old
      rw [hexec] at hold
      exact hold
  | pick k =>
      obtain ⟨e, e', hk, hpick, rfl⟩ := pick_step h
      obtain ⟨hshut, -, hempty⟩ := ThreadPool.outstanding_pick hpick
      exact worked_tidy hm hk hshut hempty
  | begin k test =>
      obtain ⟨e, e', hk, hbegin, rfl⟩ := begin_step h
      obtain ⟨-, rfl⟩ := ThreadPool.begin_eq_some_iff.mp hbegin
      exact worked_tidy hm hk rfl id
  | finish k test =>
      obtain ⟨e, hk, -, -, rfl⟩ := finish_step h
      exact worked_tidy hm hk rfl id

theorem fresh_tidy : fresh.Tidy :=
  ⟨fun _ he => absurd he List.not_mem_nil, fun _ hjob => absurd hjob List.not_mem_nil, fun _ => rfl⟩

/-- Both invariants hold wherever a run leads. -/
theorem reached {run : List Label} {m : TestManager} (h : exec step fresh run = some m) :
    m.Sound ∧ m.Tidy :=
  exec_keeps step (fun _ _ => True) (fun m => m.Sound ∧ m.Tidy)
    (fun _ _ _ hm _ hstep => ⟨step_sound hm.1 hstep, step_tidy hm.1 hm.2 hstep⟩) run fresh m
    ⟨fresh_sound, fresh_tidy⟩ (along_true step fresh run) h

/-- A `shutdownNow` seals the current executor and every older one whose worker
    has no test that is still to begin. -/
theorem stopNow_sealed {m m' : TestManager} {n : Nat} (hm : m.Tidy)
    (h : m.step .stopNow = some m') (hcaught : m.Caught n) : m'.Sealed n (m'.begun n) := by
  obtain ⟨e₁, he₁, hall⟩ := hcaught
  have hn := (executor_eq_some_iff.mp he₁).1
  obtain ⟨calls, e, old, hexec, rfl⟩ := stopNow_step h
  rw [hexec, List.length_cons] at hn
  by_cases hcurrent : n = old.length
  · subst hcurrent
    obtain rfl : e = e₁ := Option.some.inj ((executor_current hexec).symm.trans he₁)
    have he := executor_current
      (m := { m with executors := e.shutdownNow :: old, stopping := calls }) rfl
    exact ⟨_, he, rfl, hall, by unfold begun; rw [he]; rfl, .inl rfl⟩
  -- An older executor has nothing waiting, and is left alone.
  · have hsame : ({ m with executors := e.shutdownNow :: old, stopping := calls } :
        TestManager).executor n = m.executor n :=
      executor_of_current hexec rfl (by rw [hexec, List.length_cons]; omega)
    have he₂ := hsame.trans he₁
    refine ⟨e₁, he₂, ?_, hall, by unfold begun; rw [he₂]; rfl, .inr ?_⟩
    · have hget := (executor_eq_some_iff.mp he₁).2
      rw [hexec, List.length_cons, show old.length + 1 - 1 - n = old.length - 1 - n + 1 by omega,
        List.getElem?_cons_succ] at hget
      have hold := hm.old
      rw [hexec] at hold
      exact hold e₁ (List.mem_of_getElem? hget)
    · simp only [List.length_cons]
      omega

/-- A test that the worker has got can begin. -/
theorem begins_next {m : TestManager} {n : Nat} {e : ThreadPool Test} (he : m.executor n = some e)
    (hall : ¬ e.AllBegun) :
    ∃ (a : Label) (m' : TestManager), m.step a = some m' ∧ m'.begun n = m.begun n + 1 := by
  obtain ⟨test, hbegin⟩ := ThreadPool.exists_begin hall
  obtain ⟨hn, hget⟩ := executor_eq_some_iff.mp he
  have hstep : m.step (.begin (m.executors.length - 1 - n) test) = some { m with
      executors := m.executors.set (m.executors.length - 1 - n)
        ({ e with begun := e.begun ++ [test] }) } := by
    simp only [step, hget, hbegin, Option.map_some]
  refine ⟨_, _, hstep, ?_⟩
  have he' : ({ m with
      executors := m.executors.set (m.executors.length - 1 - n)
        ({ e with begun := e.begun ++ [test] }) } : TestManager).executor n
        = some { e with begun := e.begun ++ [test] } := by
    rw [executor_eq_some_iff]
    simp only [List.length_set]
    exact ⟨hn, List.getElem?_set_self (List.getElem?_eq_some_iff.mp hget).1⟩
  unfold begun
  rw [he, he']
  simp only [Option.map_some, Option.getD_some, begunOn, List.length_append,
    List.length_singleton]
  omega

/-- Executors are made and never given up. -/
theorem step_executors_le {m m' : TestManager} {a : Label} (h : m.step a = some m') :
    m.executors.length ≤ m'.executors.length := by
  cases step_changed h with
  | same hsame => rw [hsame]
  | made hmade =>
      rw [hmade, List.length_cons]
      exact Nat.le_succ _
  | current e e' old hold hnew _ => rw [hold, hnew, List.length_cons, List.length_cons]
  | worked k e e' _ hnew _ => rw [hnew, List.length_set]

/-- The run for this file has been accepted and has no executor yet. -/
def Unequipped (m : TestManager) (filePath : Option String) : Prop :=
  filePath ∈ m.starting ∨ ∃ (i : Nat) (job : Job), m.jobs[i]? = some job ∧
    job.filePath = filePath ∧ (job.pc = .queued ∨ job.pc = .changeToRun ∨ job.pc = .newExecutor)

theorem Unequipped.mono {m m' : TestManager} {filePath : Option String}
    (h : m.Unequipped filePath) (hstarting : m'.starting = m.starting) (hjobs : m'.jobs = m.jobs) :
    m'.Unequipped filePath := by
  unfold Unequipped at h ⊢
  rw [hstarting, hjobs]
  exact h

/-- No statement of a job touches the calls of `start`. -/
theorem startTest_starting {m m' : TestManager} {filePath : Option String} {pc pc' : JobPc}
    {answer : Answer} (h : m.startTest filePath pc answer = some (m', pc')) :
    m'.starting = m.starting := by
  unfold startTest at h
  split at h
  case h_7 =>
      split at h
      · simp only [Option.some.injEq, Prod.mk.injEq] at h
        rw [← h.1]
      · rename_i test _
        unfold submitTest at h
        rcases hexec : m.executors with _ | ⟨e, old⟩
        · simp only [hexec, Option.some.injEq, Prod.mk.injEq] at h
          rw [← h.1]
        · rcases hsubmit : e.submit test with _ | e'
          · simp only [hexec, hsubmit, Option.map_none, Option.some.injEq, Prod.mk.injEq] at h
            rw [← h.1]
          · simp only [hexec, hsubmit, Option.map_some, Option.some.injEq, Prod.mk.injEq] at h
            rw [← h.1]
  all_goals
    repeat' split at h
    all_goals
      first
      | (simp only [Option.some.injEq, Prod.mk.injEq] at h
         rw [← h.1]
         done)
      | (simp only [Option.some.injEq, Prod.mk.injEq] at h
         rw [← h.1]
         rfl)
      | exact absurd h (by simp only [reduceCtorEq, not_false_eq_true])

/-- The first three statements of a job lead to its executor. -/
theorem startTest_unequipped {m m' : TestManager} {filePath : Option String} {pc pc' : JobPc}
    {answer : Answer} (hpc : pc = .queued ∨ pc = .changeToRun ∨ pc = .newExecutor)
    (h : m.startTest filePath pc answer = some (m', pc')) :
    (pc' = .changeToRun ∨ pc' = .newExecutor) ∨ m.executors.length < m'.executors.length := by
  rcases hpc with rfl | rfl | rfl
  · cases answer with
    | nothing =>
        simp only [startTest, Option.some.injEq, Prod.mk.injEq] at h
        exact .inl (.inl h.2.symm)
    | _ => simp only [startTest, reduceCtorEq] at h
  · cases answer with
    | nothing =>
        simp only [startTest, Option.some.injEq, Prod.mk.injEq] at h
        exact .inl (.inr h.2.symm)
    | _ => simp only [startTest, reduceCtorEq] at h
  · cases answer with
    | nothing =>
        simp only [startTest, Option.some.injEq, Prod.mk.injEq] at h
        rw [← h.1]
        exact .inr (Nat.lt_succ_self _)
    | _ => simp only [startTest, reduceCtorEq] at h

/-- A run stays without executor until it makes one. -/
theorem step_unequipped {m m' : TestManager} {a : Label} {filePath : Option String}
    (hm : m.Unequipped filePath) (h : m.step a = some m') :
    m'.Unequipped filePath ∨ m.executors.length < m'.executors.length := by
  cases a with
  | start path =>
      simp only [step] at h
      split at h
      · rw [← Option.some.inj h]
        exact .inl hm
      · rw [← Option.some.inj h]
        exact .inl (hm.imp_left (List.mem_append_left _))
  | submit i =>
      simp only [step] at h
      split at h
      · exact absurd h (by simp only [reduceCtorEq, not_false_eq_true])
      rename_i path hi
      rw [← Option.some.inj h]
      refine .inl ?_
      rcases hm with hm | ⟨j, job, hj, hfile, hpc⟩
      · obtain ⟨j, hj⟩ := List.mem_iff_getElem?.mp hm
        by_cases hij : j = i
        · subst hij
          obtain rfl : path = filePath := Option.some.inj (hi.symm.trans hj)
          refine .inr ⟨m.jobs.length, ⟨path, .queued⟩, ?_, rfl, .inl rfl⟩
          rw [List.getElem?_append_right (Nat.le_refl _), Nat.sub_self]
          rfl
        · exact .inl (List.mem_eraseIdx_iff_getElem?.mpr ⟨j, hij, hj⟩)
      · refine .inr ⟨j, job, ?_, hfile, hpc⟩
        rw [List.getElem?_append_left (List.getElem?_eq_some_iff.mp hj).1]
        exact hj
  | job i answer =>
      obtain ⟨job, m₁, pc', hi, hrun, rfl⟩ := job_step h
      rcases hm with hm | ⟨j, job', hj, hfile, hpc⟩
      · refine .inl (.inl ?_)
        simp only [startTest_starting hrun]
        exact hm
      by_cases hij : i = j
      · subst hij
        obtain rfl : job = job' := Option.some.inj (hi.symm.trans hj)
        rcases startTest_unequipped hpc hrun with hpc' | hmore
        · refine .inl (.inr ⟨i, { job with pc := pc' }, ?_, hfile, .inr hpc'⟩)
          exact List.getElem?_set_self (List.getElem?_eq_some_iff.mp hi).1
        · exact .inr hmore
      · refine .inl (.inr ⟨j, job', ?_, hfile, hpc⟩)
        simp only [List.getElem?_set_ne hij]
        exact hj
  | stop =>
      simp only [step] at h
      rw [← Option.some.inj h]
      split
      · exact .inl hm
      · exact .inl (hm.mono rfl rfl)
  | stopNow =>
      obtain ⟨calls, e, old, -, rfl⟩ := stopNow_step h
      exact .inl (hm.mono rfl rfl)
  | pick k =>
      obtain ⟨e, e', -, -, rfl⟩ := pick_step h
      exact .inl (hm.mono rfl rfl)
  | begin k test =>
      obtain ⟨e, e', -, -, rfl⟩ := begin_step h
      exact .inl (hm.mono rfl rfl)
  | finish k test =>
      obtain ⟨e, -, -, -, rfl⟩ := finish_step h
      exact .inl (hm.mono rfl rfl)

/-- A statement of a job as a step, and what the next one finds. -/
theorem step_job {m : TestManager} {i : Nat} {job : Job} (answer : Answer) (m₁ : TestManager)
    (pc' : JobPc) (hi : m.jobs[i]? = some job)
    (h : m.startTest job.filePath job.pc answer = some (m₁, pc')) :
    ∃ m', m.step (.job i answer) = some m' ∧ m'.jobs[i]? = some { job with pc := pc' } ∧
      m'.executors = m₁.executors ∧ m'.mTestConfig = m₁.mTestConfig := by
  refine ⟨{ m₁ with jobs := m.jobs.set i { job with pc := pc' } }, ?_, ?_, rfl, rfl⟩
  · simp only [step, hi, h, Option.map_some]
  · exact List.getElem?_set_self (List.getElem?_eq_some_iff.mp hi).1

/-- Parsing the document of `voiceCount "2"`. -/
theorem parse_twoCalls {c : TestConfig}
    (hdoc : c.document = some (.mk "test" [] [.mk "voice" [] [.mk "count" "2".toList []]])) :
    c.parse = .returned { c with testList := [twoCalls] } := by
  have hconfigure : TestConfig.configure (.mk "voice" [] [.mk "count" "2".toList []])
      = .ok (some twoCalls) := by
    decide +kernel
  unfold TestConfig.parse
  simp only [hdoc, Element.getName, if_true, Element.elements, Outcome.feed_cons, Outcome.feed_nil,
    TestConfig.addTest, hconfigure, Outcome.bind_returned, List.nil_append, Option.toList_some]

/-- A job that is about to make its executor, and then meets no stop, begins
    the test of its file. -/
theorem begins_test {m : TestManager} {i : Nat} {job : Job} {path : String}
    (hi : m.jobs[i]? = some job) (hfile : job.filePath = some path)
    (hpc : job.pc = .newExecutor) :
    ∃ (labels : List Label) (m' : TestManager), exec step m labels = some m' ∧
      m'.begun m.executors.length = 1 := by
  obtain ⟨m₁, hstep₁, hi₁, hexec₁, -⟩ := step_job .nothing _ _ hi (by rw [hpc]; rfl)
  obtain ⟨m₂, hstep₂, hi₂, hexec₂, hconfig₂⟩ := step_job (.file (voiceCount "2")) _ _ hi₁
    (by rw [hfile]; rfl)
  -- The file has been loaded, and is parsed next.
  have hparse : m₂.mTestConfig.parse
      = .returned { m₂.mTestConfig with testList := [twoCalls] } := by
    refine parse_twoCalls ?_
    rw [hconfig₂]
    rfl
  obtain ⟨m₃, hstep₃, hi₃, hexec₃, hconfig₃⟩ := step_job .nothing
    { m₂ with mTestConfig := { m₂.mTestConfig with testList := [twoCalls] } } (.submit 0) hi₂ (by
      simp only [TestConfig.load, voiceCount, if_true, startTest, hparse, Outcome.state_returned,
        Outcome.isReturned_returned])
  have hexec : m₃.executors = ThreadPool.newFixed 1 :: m.executors := by
    rw [hexec₃, hexec₂, hexec₁]
  -- The new executor has a worker for the first test, which then begins.
  obtain ⟨m₄, hstep₄, -, hexec₄, -⟩ := step_job .nothing
    { m₃ with
      executors := { ThreadPool.newFixed 1 with workers := 1, running := [twoCalls] } ::
        m.executors }
    (.submit 1) hi₃ (by
      simp only [startTest, hconfig₃, List.getElem?_cons_zero, submitTest, hexec]
      rfl)
  obtain ⟨a, m₅, hstep₅, hbegun⟩ := begins_next (executor_current hexec₄) (by decide)
  refine ⟨[.job i .nothing, .job i (.file (voiceCount "2")), .job i .nothing, .job i .nothing, a],
    m₅, ?_, ?_⟩
  · rw [exec_cons hstep₁, exec_cons hstep₂, exec_cons hstep₃, exec_cons hstep₄, exec_cons hstep₅]
    rfl
  · rw [hbegun]
    unfold begun
    rw [executor_current hexec₄]
    rfl

/-- A step that makes no executor can be put in front. -/
theorem begins_after {m m₁ : TestManager} {a : Label} (h : m.step a = some m₁)
    (hexec : m₁.executors = m.executors)
    (hbegins : ∃ (labels : List Label) (m' : TestManager), exec step m₁ labels = some m' ∧
      m'.begun m₁.executors.length = 1) :
    ∃ (labels : List Label) (m' : TestManager), exec step m labels = some m' ∧
      m'.begun m.executors.length = 1 := by
  obtain ⟨labels, m', hrun, hbegun⟩ := hbegins
  refine ⟨a :: labels, m', ?_, ?_⟩
  · rw [exec_cons h]
    exact hrun
  · rw [← hexec]
    exact hbegun

/-- A run without executor can still begin a test. -/
theorem unequipped_begins {m : TestManager} {path : String} (hm : m.Unequipped (some path)) :
    ∃ (labels : List Label) (m' : TestManager), exec step m labels = some m' ∧
      m'.begun m.executors.length = 1 := by
  have hchange : ∀ (m : TestManager) (i : Nat) (job : Job), m.jobs[i]? = some job →
      job.filePath = some path → job.pc = .changeToRun →
      ∃ (labels : List Label) (m' : TestManager), exec step m labels = some m' ∧
        m'.begun m.executors.length = 1 := by
    intro m i job hi hfile hpc
    obtain ⟨m₁, hstep, hi₁, hexec, -⟩ := step_job .nothing _ _ hi (by rw [hpc]; rfl)
    exact begins_after hstep hexec (begins_test hi₁ hfile rfl)
  have hqueued : ∀ (m : TestManager) (i : Nat) (job : Job), m.jobs[i]? = some job →
      job.filePath = some path → job.pc = .queued →
      ∃ (labels : List Label) (m' : TestManager), exec step m labels = some m' ∧
        m'.begun m.executors.length = 1 := by
    intro m i job hi hfile hpc
    obtain ⟨m₁, hstep, hi₁, hexec, -⟩ := step_job .nothing _ _ hi (by rw [hpc]; rfl)
    exact begins_after hstep hexec (hchange m₁ i _ hi₁ hfile rfl)
  rcases hm with hm | ⟨i, job, hi, hfile, hpc | hpc | hpc⟩
  -- The call of `start` has yet to submit the job.
  · obtain ⟨j, hj⟩ := List.mem_iff_getElem?.mp hm
    have hstep : m.step (.submit j) = some { m with
        starting := m.starting.eraseIdx j
        jobs := m.jobs ++ [⟨some path, .queued⟩] } := by
      simp only [step, hj]
    refine begins_after hstep rfl (hqueued _ m.jobs.length ⟨some path, .queued⟩ ?_ rfl rfl)
    rw [List.getElem?_append_right (Nat.le_refl _), Nat.sub_self]
    rfl
  · exact hqueued m i job hi hfile hpc
  · exact hchange m i job hi hfile hpc
  · exact begins_test hi hfile hpc

/-- The pending run has its executor, or is on its way to it. -/
theorem unequipped_of_runOf {m : TestManager} {filePath : Option String}
    (hm : m.RunOf filePath) (hnone : m.jobs.any equippedJob = false) : m.Unequipped filePath := by
  rcases hm with hm | ⟨job, hmem, hactive, hfile⟩
  · exact .inl hm
  obtain ⟨i, hi⟩ := List.mem_iff_getElem?.mp hmem
  refine .inr ⟨i, job, hi, hfile, ?_⟩
  have hjob : equippedJob job = false := by
    by_contra hne
    rw [Bool.not_eq_false] at hne
    rw [List.any_eq_true.mpr ⟨job, hmem, hne⟩] at hnone
    exact absurd hnone (by decide)
  have hpc : job.pc ≠ .ended := of_decide_eq_true hactive
  unfold equippedJob at hjob
  split at hjob
  · exact .inl ‹_›
  · exact .inr (.inl ‹_›)
  · exact .inr (.inr ‹_›)
  · exact absurd ‹_› hpc
  · exact absurd hjob (by decide)

theorem exec_executors_le {m m' : TestManager} {labels : List Label}
    (h : exec step m labels = some m') : m.executors.length ≤ m'.executors.length :=
  exec_keeps step (fun _ _ => True) (fun t => m.executors.length ≤ t.executors.length)
    (fun _ _ _ ht _ hstep => Nat.le_trans ht (step_executors_le hstep)) labels m m' (Nat.le_refl _)
    (along_true step m labels) h

/-- While the number of executors stays, a run stays without one. -/
theorem exec_unequipped {m m' : TestManager} {labels : List Label} {filePath : Option String}
    (hm : m.Unequipped filePath) (h : exec step m labels = some m')
    (hlen : m'.executors.length ≤ m.executors.length) : m'.Unequipped filePath := by
  have hinv : m.executors.length ≤ m'.executors.length ∧
      (m'.executors.length ≤ m.executors.length → m'.Unequipped filePath) := by
    refine exec_keeps step (fun _ _ => True) (fun t => m.executors.length ≤ t.executors.length ∧
      (t.executors.length ≤ m.executors.length → t.Unequipped filePath)) ?_ labels m m'
      ⟨Nat.le_refl _, fun _ => hm⟩ (along_true step m labels) h
    intro t a t' ht _ hstep
    have hle := step_executors_le hstep
    refine ⟨Nat.le_trans ht.1 hle, fun hlen => ?_⟩
    rcases step_unequipped (ht.2 (Nat.le_trans hle hlen)) hstep with hun | hmore
    · exact hun
    · omega
  exact hinv.2 hlen

/-- An equipped job has an executor to work with. -/
theorem executors_of_equipped {m : TestManager} (hready : m.Ready)
    (h : m.jobs.any equippedJob = true) : m.executors ≠ [] := by
  obtain ⟨job, hmem, hjob⟩ := List.any_eq_true.mp h
  unfold equippedJob at hjob
  have hprepared := hready job hmem
  split at hjob
  · exact absurd hjob (by decide)
  · exact absurd hjob (by decide)
  · exact absurd hjob (by decide)
  · exact absurd hjob (by decide)
  · rename_i h₁ h₂ h₃ h₄
    have hexec := hprepared h₄
    unfold Prepared at hexec
    split at hexec
    · exact absurd ‹_› h₁
    · exact absurd ‹_› h₂
    · exact absurd ‹_› h₃
    · exact hexec.1
    · exact hexec

/-- The steps of a call of `stop`. -/
theorem StopCall.exec {m m₁ m' : TestManager} (h : StopCall m m₁ m') :
    ∃ labels, Machine.exec step m labels = some m' := by
  cases h with
  | nothing hnone hsame h =>
      refine ⟨[.stop], ?_⟩
      rw [exec_cons h]
      rfl
  | shutdown between hsome hbetween h =>
      refine ⟨.stop :: between ++ [.stopNow], ?_⟩
      rw [exec_append step m m₁ _ _ hbetween, exec_cons h]
      rfl

/-- A stop changes neither the number of the executors nor which tests have a
    worker and have begun. -/
theorem StopCall.executor {m m₁ m' : TestManager} (h : StopCall m m₁ m') (n : Nat) :
    (m'.executor n).map (fun e => (e.running, e.begun))
      = (m₁.executor n).map fun e => (e.running, e.begun) := by
  cases h with
  | nothing hnone hsame h =>
      simp only [step, hnone, List.isEmpty_nil, if_true, Option.some.injEq] at h
      rw [hsame, h]
  | shutdown between hsome hbetween h =>
      obtain ⟨calls, e, old, hexec, rfl⟩ := stopNow_step h
      unfold TestManager.executor
      rw [hexec, ← List.getElem?_map, ← List.getElem?_map, List.map_reverse, List.map_reverse]
      rfl

/-- A stop that catches the run seals its executor. -/
theorem stopCall_sealed {run : List Label} {m m₁ m' : TestManager}
    (h : exec step fresh run = some m) (hstop : StopCall m m₁ m')
    (hcaught : m₁.Caught m.runExecutor) :
    m'.Sealed m.runExecutor (m'.begun m.runExecutor) := by
  cases hstop with
  | nothing hnone hsame hstep =>
      obtain ⟨e, he, -⟩ := hcaught
      have hlt := (executor_eq_some_iff.mp he).1
      rw [hsame, hnone] at hlt
      exact absurd hlt (Nat.not_lt_zero _)
  | shutdown between hsome hbetween hstep =>
      have hreached := reached ((exec_append step fresh m run _ h).trans hbetween)
      exact stopNow_sealed hreached.2 hstep hcaught

theorem begun_of_length_le {m : TestManager} {n : Nat} (h : m.executors.length ≤ n) :
    m.begun n = 0 := by
  unfold begun TestManager.executor
  rw [List.getElem?_eq_none (by rw [List.length_reverse]; exact h)]
  rfl

/-- For every call of `stop` made while a run is pending: if, when the call takes
    effect, the run has its executor and every test that has its worker has
    begun, no test of the run begins after the call has returned. If not, and the
    run is for some file, the call does not keep its tests from beginning. -/
theorem stop_holds (run : List Label) (m m₁ m' : TestManager) (filePath : Option String)
    (h : exec step fresh run = some m) (hrun : m.RunOf filePath) (hstop : StopCall m m₁ m') :
    (m₁.Caught m.runExecutor → ∀ (more : List Label) (t : TestManager),
      exec step m' more = some t → t.begun m.runExecutor = m'.begun m.runExecutor) ∧
    (filePath ≠ none →
      (∀ (more : List Label) (t : TestManager), exec step m' more = some t →
        t.begun m.runExecutor = m'.begun m.runExecutor) →
      m₁.Caught m.runExecutor) := by
  constructor
  · intro hcaught more t hmore
    have hsealed := stopCall_sealed h hstop hcaught
    exact (exec_keeps step (fun _ _ => True)
      (fun t => t.Sealed m.runExecutor (m'.begun m.runExecutor))
      (fun _ _ _ ht _ hstep => step_sealed ht hstep) more m' t hsealed
      (along_true step m' more) hmore).begun
  · intro hfile hnone
    obtain ⟨path, rfl⟩ := Option.ne_none_iff_exists'.mp hfile
    have hsame := hstop.executor m.runExecutor
    -- If the run has its executor, a test that has its worker could begin.
    cases he' : m'.executor m.runExecutor with
    | some e' =>
        rw [he', Option.map_some] at hsame
        obtain ⟨e, he, hpair⟩ := Option.map_eq_some_iff.mp hsame.symm
        obtain ⟨hrunning, hbegun⟩ := Prod.mk.inj hpair
        refine ⟨e, he, ?_⟩
        by_contra hall
        have hall' : ¬ e'.AllBegun := by
          unfold ThreadPool.AllBegun at hall ⊢
          rw [← hrunning, ← hbegun]
          exact hall
        obtain ⟨a, t, hstep, hmore⟩ := begins_next he' hall'
        have hsilent := hnone [a] t ((exec_cons hstep).trans rfl)
        omega
    | none =>
        exfalso
        obtain ⟨labels, hlabels⟩ := hstop.exec
        have hle := exec_executors_le hlabels
        have hlate : m'.executors.length ≤ m.runExecutor := by
          unfold TestManager.executor at he'
          rw [List.getElem?_eq_none_iff, List.length_reverse] at he'
          exact he'
        unfold runExecutor at hlate hnone
        cases hequipped : m.jobs.any equippedJob with
        | true =>
            rw [hequipped, if_pos rfl] at hlate
            have hpos := List.length_pos_iff.mpr (executors_of_equipped (reached h).1.1 hequipped)
            omega
        -- The run has no executor when the call returns, and can begin its test.
        | false =>
            rw [hequipped, if_neg Bool.false_ne_true] at hlate hnone
            have hlen : m'.executors.length = m.executors.length := by omega
            have hun := exec_unequipped (unequipped_of_runOf hrun hequipped) hlabels (by omega)
            obtain ⟨more, t, hmore, hbegun⟩ := unequipped_begins hun
            have hsilent := hnone more t hmore
            rw [← hlen, hbegun, begun_of_length_le (Nat.le_refl _)] at hsilent
            exact absurd hsilent (by decide)

/-- A start up to the statement that submits the first test, with a second test
    in the file. -/
def twoTests : ConfigFile :=
  .document (.mk "test" [] [.mk "voice" [] [.mk "count" "2".toList []],
    .mk "voice" [] [.mk "count" "2".toList []]])

/-- Both tests are submitted and the first one begins. -/
def upToFirst : List Label :=
  upToParse twoTests ++ [.job 0 .nothing, .job 0 .nothing, .job 0 .nothing, .begin 0 twoCalls]

theorem runOf_of_any {m : TestManager} {filePath : Option String}
    (h : m.jobs.any (fun job => job.isActive && decide (job.filePath = filePath)) = true) :
    m.RunOf filePath := by
  obtain ⟨job, hmem, hjob⟩ := List.any_eq_true.mp h
  simp only [Bool.and_eq_true, decide_eq_true_eq] at hjob
  exact .inr ⟨job, hmem, hjob⟩

/-- A stop that comes while the first of two tests runs keeps the second from
    beginning. -/
theorem stop_holds_between_tests :
    ∃ m m₁ m', exec step fresh upToFirst = some m ∧ StopCall m m₁ m' ∧ m'.begun 0 = 1 ∧
      ∀ (more : List Label) (t : TestManager), exec step m' more = some t → t.begun 0 = 1 := by
  have hrun : ∃ m ∈ exec step fresh upToFirst, ∃ m₁ ∈ exec step m [.stop],
      ∃ m' ∈ m₁.step .stopNow, m.jobs.any (fun job => job.isActive &&
        decide (job.filePath = some "test_default.xml")) = true ∧ m.executors.length = 1 ∧
        m.runExecutor = 0 ∧ (∃ e ∈ m₁.executor 0, e.AllBegun) ∧ m'.begun 0 = 1 := by
    decide +kernel
  obtain ⟨m, hm, m₁, hm₁, m', hm', hany, hlen, hnumber, hcaught, hbegun⟩ := hrun
  have hsome : m.executors ≠ [] := by
    rintro hnil
    rw [hnil] at hlen
    exact absurd hlen (by decide)
  have hcall : StopCall m m₁ m' := .shutdown [] hsome hm₁ hm'
  refine ⟨m, m₁, m', hm, hcall, hbegun, fun more t hmore => ?_⟩
  have hholds := (stop_holds upToFirst m m₁ m' (some "test_default.xml") hm
    (runOf_of_any hany) hcall).1 (by rw [hnumber]; exact hcaught) more t hmore
  rw [hnumber, hbegun] at hholds
  exact hholds

/-- A stop that comes while the run is queued is lost: the run goes on and
    begins its test. One that comes when the worker has just got the test does
    not keep it from beginning either. -/
theorem stop_lost :
    (∃ m m' t, exec step fresh [.start (some "test_default.xml"), .submit 0] = some m ∧
      m.RunOf (some "test_default.xml") ∧ StopCall m m m' ∧ m'.begun 0 = 0 ∧
      exec step m' [.job 0 .nothing, .job 0 .nothing, .job 0 .nothing,
        .job 0 (.file (voiceCount "2")), .job 0 .nothing, .job 0 .nothing,
        .begin 0 twoCalls] = some t ∧
      m.runExecutor = 0 ∧ t.begun 0 = 1) ∧
    (∃ m m₁ m' t, exec step fresh (upToParse (voiceCount "2") ++ [.job 0 .nothing, .job 0 .nothing])
        = some m ∧
      m.RunOf (some "test_default.xml") ∧ StopCall m m₁ m' ∧ m'.begun 0 = 0 ∧
      exec step m' [.begin 0 twoCalls] = some t ∧ m.runExecutor = 0 ∧ t.begun 0 = 1) := by
  constructor
  · have hrun : ∃ m ∈ exec step fresh [.start (some "test_default.xml"), .submit 0],
        ∃ m' ∈ m.step .stop, ∃ t ∈ exec step m' [.job 0 .nothing, .job 0 .nothing, .job 0 .nothing,
          .job 0 (.file (voiceCount "2")), .job 0 .nothing, .job 0 .nothing, .begin 0 twoCalls],
        m.jobs.any (fun job => job.isActive &&
          decide (job.filePath = some "test_default.xml")) = true ∧ m.executors.isEmpty = true ∧
          m'.begun 0 = 0 ∧ m.runExecutor = 0 ∧ t.begun 0 = 1 := by
      decide +kernel
    obtain ⟨m, hm, m', hm', t, ht, hany, hnone, hbefore, hnumber, hafter⟩ := hrun
    exact ⟨m, m', t, hm, runOf_of_any hany, .nothing (List.isEmpty_iff.mp hnone) rfl hm', hbefore,
      ht, hnumber, hafter⟩
  · have hrun : ∃ m ∈ exec step fresh
          (upToParse (voiceCount "2") ++ [.job 0 .nothing, .job 0 .nothing]),
        ∃ m₁ ∈ exec step m [.stop], ∃ m' ∈ m₁.step .stopNow, ∃ t ∈ exec step m' [.begin 0 twoCalls],
        m.jobs.any (fun job => job.isActive &&
          decide (job.filePath = some "test_default.xml")) = true ∧ m.executors.isEmpty = false ∧
          m'.begun 0 = 0 ∧ m.runExecutor = 0 ∧ t.begun 0 = 1 := by
      decide +kernel
    obtain ⟨m, hm, m₁, hm₁, m', hm', t, ht, hany, hsome, hbefore, hnumber, hafter⟩ := hrun
    refine ⟨m, m₁, m', t, hm, runOf_of_any hany, .shutdown [] ?_ hm₁ hm', hbefore, ht, hnumber,
      hafter⟩
    rintro hnil
    rw [hnil] at hsome
    exact absurd hsome (by decide)

/-- `isEnd()`. -/
def isEnd (m : TestManager) : Bool :=
  match m.executors with
  | [] => true
  | e :: _ => e.isTerminated

/-- `isEnd` answers true exactly if no run is pending. -/
def EndRight (m : TestManager) : Prop := m.isEnd = true ↔ m.pending = 0

/-- Nothing has been started. -/
structure Untouched (m : TestManager) : Prop where
  state : m.mTestState ≠ .run
  executors : m.executors = []
  starting : m.starting = []
  jobs : m.jobs = []

theorem Untouched.endRight {m : TestManager} (hm : m.Untouched) : m.EndRight := by
  unfold EndRight isEnd pending
  rw [hm.executors, hm.starting, hm.jobs]
  simp

/-- Without a start nothing happens. -/
theorem step_untouched {m m' : TestManager} {a : Label} (hm : m.Untouched)
    (ha : ∀ filePath, a ≠ .start filePath) (h : m.step a = some m') : m'.Untouched := by
  cases a with
  | start filePath => exact absurd rfl (ha filePath)
  | submit i => simp only [step, hm.starting, List.getElem?_nil, reduceCtorEq] at h
  | job i answer => simp only [step, hm.jobs, List.getElem?_nil, reduceCtorEq] at h
  | stop =>
      simp only [step, hm.executors, List.isEmpty_nil, if_true, Option.some.injEq] at h
      rw [← h]
      exact hm
  | stopNow =>
      obtain ⟨calls, e, old, hexec, -⟩ := stopNow_step h
      exact absurd (hm.executors.symm.trans hexec) (List.cons_ne_nil e old).symm
  | pick k => simp only [step, hm.executors, List.getElem?_nil, reduceCtorEq] at h
  | begin k test => simp only [step, hm.executors, List.getElem?_nil, reduceCtorEq] at h
  | finish k test => simp only [step, hm.executors, List.getElem?_nil, reduceCtorEq] at h

/-- The first start is accepted, and `isEnd` still answers for no run at all. -/
theorem start_not_endRight {m m' : TestManager} {filePath : Option String} (hm : m.Untouched)
    (h : m.step (.start filePath) = some m') : ¬ m'.EndRight := by
  simp only [step, if_neg hm.state, Option.some.injEq] at h
  subst h
  unfold EndRight isEnd pending
  simp only [hm.executors, hm.starting, hm.jobs, List.nil_append, List.length_singleton,
    List.countP_nil, true_iff]
  omega

/-- While nothing has been started, a step leaves `isEnd` right exactly if it
    starts nothing. -/
theorem step_endRight_iff {m m' : TestManager} {a : Label} (hm : m.Untouched)
    (h : m.step a = some m') : m'.EndRight ↔ ∀ filePath, a ≠ .start filePath := by
  constructor
  · rintro hright filePath rfl
    exact start_not_endRight hm h hright
  · intro ha
    exact (step_untouched hm ha h).endRight

/-- In every run `isEnd` is right in every state on the way exactly if nothing
    is started. -/
theorem isEnd_right_iff (run : List Label) (m : TestManager) (h : exec step fresh run = some m) :
    (∀ (start : List Label), start <+: run → ∀ t, exec step fresh start = some t →
      (t.isEnd = true ↔ t.pending = 0)) ↔ ∀ filePath, .start filePath ∉ run := by
  have hfresh : fresh.Untouched := ⟨by decide, rfl, rfl, rfl⟩
  have hthroughout := throughout_iff_along step (fun _ a => ∀ filePath, a ≠ .start filePath)
    Untouched EndRight (fun _ _ _ hm _ ha hstep => step_untouched hm ha hstep)
    (fun _ _ _ hm _ hstep => step_endRight_iff hm hstep) run fresh m hfresh hfresh.endRight h
  refine hthroughout.trans ((along_label_iff h).trans ⟨?_, ?_⟩)
  · exact fun hnone filePath hmem => hnone _ hmem filePath rfl
  · rintro hnone a hmem filePath rfl
    exact hnone filePath hmem

/-- A stop of a manager that has started nothing. -/
theorem isEnd_right_unstarted :
    exec step fresh [.stop] = some fresh ∧
    (∀ (start : List Label), start <+: [.stop] → ∀ t, exec step fresh start = some t →
      (t.isEnd = true ↔ t.pending = 0)) := by
  have hrun : exec step fresh [.stop] = some fresh := rfl
  refine ⟨hrun, (isEnd_right_iff [.stop] fresh hrun).mpr ?_⟩
  intro filePath hmem
  exact absurd (List.mem_singleton.mp hmem) Label.noConfusion

/-- `isEnd` answers true while the first run is queued, and false for ever when
    the file of a run was rejected and the run is over. -/
theorem isEnd_wrong :
    (∃ m ∈ exec step fresh [.start (some "test_default.xml"), .submit 0],
      m.isEnd = true ∧ m.pending = 1) ∧
    (∃ m ∈ exec step fresh (upToParse .absent ++ [.job 0 .nothing]),
      m.isEnd = false ∧ m.pending = 0) := by
  decide +kernel

end TestManager

end NetProbe
