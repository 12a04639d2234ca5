import NetProbe.Lib.Machine
import NetProbe.Lib.ThreadPool
import NetProbe.Lib.ByteBuffer

/-!
# Starting and Stopping the Diag Threads

`Qualcomm.start` makes a diag thread, which submits a dispatch task to the
application's thread pool and then feeds the packet queue. The task takes
packets from the queue and hands them to the listeners, and looks at the stop
flag between two packets. `stop` raises the flag, joins the diag thread, waits
a second for the task, and would cancel it if it had not finished; but a wait
that runs out throws past the `cancel`, and a wait that does not run out leaves
nothing to cancel. A task that sits in `take()` on an empty queue is therefore
left there for good.

The machine has one step for every action another thread can come between. One
thread calls `start` and `stop`, one call after the other, in any order. The
diag thread may fail to initialise, enqueue packets until it sees the flag, or
die; a listener may throw; other parts of the application use the same pool.

What `stop` is for is that no dispatch task is left on the pool when it has
returned. `Clean` excludes the steps that break this, among them every wait that
runs out, also on a task that has not got a thread of the pool by then.
`released` shows that nothing else does: not a diag thread that outlives its
join, and not a packet that is still being dispatched.

## Main definitions

* `DiagPc`, `TaskPc`, `CallerPc`: Where the threads are.
* `Qualcomm`, `step`: The state of the machine, and one step.
* `Called`, `Fed`, `Dispatched`: The steps of each thread, one case each.
* `Blocked`: A dispatch task waits in `take()` on an empty queue.
* `Settled`: No diag thread has a dispatch task to submit.
* `Clean`: The steps of a `stop` that waits long enough and finds no blocked
  task.
* `Quiet`, `Serving`, `Draining`, `Tracked`, `Pooled`: The invariants.

## Theorems

* `callerStep_called`, `diagStep_fed`, `taskStep_dispatched`: What a step can
  be.
* `step_pooled`: The pool holds the dispatch tasks that have not ended.
* `step_tracked`: In a clean run at most one dispatch task is alive.
* `released`: In a clean run a `stop` that has returned leaves none.
* `dispatchTask_left_behind`: A blocked task outlives the `stop`.
-/

namespace NetProbe

open Machine

/-- Where a diag thread is: before and at `startDispatchPacket`, at the test of
    its loop, or inside `processDiagFiles`. -/
inductive DiagPc where
  | starting
  | submitting
  | assigning (task : Nat)
  | loop
  | processing
  | ended
  deriving DecidableEq, Repr

/-- The thread has submitted its dispatch task, or never will. -/
def DiagPc.isSettled : DiagPc → Bool
  | .loop | .processing | .ended => true
  | _ => false

/-- Where a dispatch task is. It ends at the stop flag or with an exception. -/
inductive TaskPc where
  | test
  | take
  | notify (packetData : List Byte)
  | ended (threw : Bool)
  deriving DecidableEq, Repr

/-- A dispatch task: the runnable, and the `Future` around it. -/
structure DispatchTask where
  pc : TaskPc
  interrupted : Bool
  cancelled : Bool
  deriving DecidableEq, Repr

namespace DispatchTask

/-- The runnable has returned or thrown. -/
def hasEnded (t : DispatchTask) : Bool :=
  match t.pc with
  | .ended _ => true
  | _ => false

/-- The task has left its loop or has been cancelled. This is also
    `isDone()`. -/
def isReleased (t : DispatchTask) : Bool := t.hasEnded || t.cancelled

end DispatchTask

/-- Where the calls of `start` and `stop` are: between two calls, inside
    `start`, or at a statement of `stop`. -/
inductive CallerPc where
  | fresh
  | starting
  | started
  | joining
  | nullCheck
  | fetching
  | getting (task : Nat)
  | checking
  | cancelling
  | stopped
  | failed
  deriving DecidableEq, Repr

/-- No call is under way. -/
def CallerPc.isIdle : CallerPc → Bool
  | .fresh | .started | .stopped | .failed => true
  | _ => false

/-- `stop` waits for the dispatch task. -/
def CallerPc.isGetting : CallerPc → Bool
  | .getting _ => true
  | _ => false

/-- How a wait of `stop` ends. -/
inductive WaitAnswer where
  | go
  | timeout
  | interrupted
  deriving DecidableEq, Repr

/-- What a diag thread meets: the library and the files, a packet of the
    decoder, or a failure. -/
inductive DiagAnswer where
  | go
  | packet (packetData : List Byte)
  | failure
  deriving DecidableEq, Repr

/-- The fields of a `Qualcomm` object, the threads it has started, the dispatch
    tasks it has submitted, and the pool. A job of the pool is a dispatch task,
    or none of them. -/
structure Qualcomm where
  stopFlag : Bool
  mDiagThread : Option Nat
  mPacketQueue : List (List Byte)
  mPacketDispatchTask : Option Nat
  mExecutor : ThreadPool (Option Nat)
  diagThreads : List DiagPc
  tasks : List DispatchTask
  caller : CallerPc

namespace Qualcomm

/-- A new object; the pool of `MyThreadPool` has five threads. -/
def fresh : Qualcomm where
  stopFlag := false
  mDiagThread := none
  mPacketQueue := []
  mPacketDispatchTask := none
  mExecutor := ThreadPool.newFixed 5
  diagThreads := []
  tasks := []
  caller := .fresh

/-- The next statement of the thread inside `start` or `stop`. -/
def callerStep (s : Qualcomm) (answer : WaitAnswer) : Option Qualcomm :=
  match s.caller, answer with
  | .starting, .go =>
      some { s with
        diagThreads := s.diagThreads ++ [.starting]
        mDiagThread := some s.diagThreads.length
        caller := .started }
  | .joining, answer =>
      match s.mDiagThread with
      -- Nothing has been started: a `NullPointerException`.
      | none => some { s with caller := .failed }
      | some k =>
          -- A join that runs out, or is interrupted, is not noticed.
          if answer = .go ∧ s.diagThreads[k]? ≠ some .ended then none
          else some { s with caller := .nullCheck }
  | .nullCheck, .go =>
      some { s with caller := if s.mPacketDispatchTask.isNone then .stopped else .fetching }
  | .fetching, .go => s.mPacketDispatchTask.map (fun i => { s with caller := .getting i })
  | .getting i, answer =>
      match s.tasks[i]?, answer with
      | none, _ => none
      | some t, .go =>
          if t.cancelled then some { s with caller := .failed }
          else match t.pc with
            | .ended false => some { s with caller := .checking }
            -- `ExecutionException`, which is caught.
            | .ended true => some { s with caller := .stopped }
            | _ => none
      -- `TimeoutException` and `InterruptedException` skip the rest.
      | some t, .timeout => if t.isReleased then none else some { s with caller := .stopped }
      | some _, .interrupted => some { s with caller := .stopped }
  | .checking, .go =>
      match s.mPacketDispatchTask.bind (fun i => s.tasks[i]?) with
      | none => none
      | some t => some { s with caller := if t.isReleased then .stopped else .cancelling }
  | .cancelling, .go =>
      match s.mPacketDispatchTask with
      | none => none
      | some i =>
          some { s with
            tasks := s.tasks.modify i (fun t =>
              if t.isReleased then t else { t with interrupted := true, cancelled := true })
            caller := .stopped }
  | _, _ => none

/-- Diag thread `k` goes on at `pc`. -/
def setDiag (s : Qualcomm) (k : Nat) (pc : DiagPc) : Qualcomm :=
  { s with diagThreads := s.diagThreads.set k pc }

/-- The next step of diag thread `k`. -/
def diagStep (s : Qualcomm) (k : Nat) (answer : DiagAnswer) : Option Qualcomm :=
  match s.diagThreads[k]?, answer with
  | some .starting, .go => some (s.setDiag k .submitting)
  -- `Diag_LSM_Init` has failed.
  | some .starting, .failure => some (s.setDiag k .ended)
  | some .submitting, .go =>
      (s.mExecutor.submit (some s.tasks.length)).map (fun pool =>
        { s.setDiag k (.assigning s.tasks.length) with
          mExecutor := pool
          tasks := s.tasks ++ [⟨.test, false, false⟩] })
  | some (.assigning i), .go => some { s.setDiag k .loop with mPacketDispatchTask := some i }
  | some .loop, .go => some (s.setDiag k (if s.stopFlag then .ended else .processing))
  | some .processing, .packet p => some { s with mPacketQueue := s.mPacketQueue ++ [p] }
  | some .processing, .go => some (s.setDiag k .loop)
  -- An exception of the decoder ends the thread.
  | some .processing, .failure => some (s.setDiag k .ended)
  | _, _ => none

/-- Dispatch task `i` goes on at `pc`. -/
def setTask (s : Qualcomm) (i : Nat) (t : DispatchTask) : Qualcomm :=
  { s with tasks := s.tasks.set i t }

/-- Dispatch task `i` ends and leaves its thread to the pool. -/
def endTask (s : Qualcomm) (i : Nat) (t : DispatchTask) (threw : Bool) : Qualcomm :=
  { s.setTask i { t with pc := .ended threw } with mExecutor := s.mExecutor.finish (some i) }

/-- The next step of dispatch task `i`, if a thread of the pool runs it. A
    listener may throw. -/
def taskStep (s : Qualcomm) (i : Nat) (throws : Bool) : Option Qualcomm :=
  match s.tasks[i]? with
  | none => none
  | some t =>
      if some i ∈ s.mExecutor.running then
        match t.pc with
        | .test =>
            if s.stopFlag then some (s.endTask i t false)
            else some (s.setTask i { t with pc := .take })
        | .take =>
            -- The `InterruptedException` is caught inside the loop.
            if t.interrupted then some (s.setTask i { t with pc := .test, interrupted := false })
            else match s.mPacketQueue with
              | [] => none
              | p :: rest =>
                  some { s.setTask i { t with pc := .notify p } with mPacketQueue := rest }
        | .notify _ =>
            if throws then some (s.endTask i t true) else some (s.setTask i { t with pc := .test })
        | .ended _ => none
      else none

/-- A call of `start` or `stop`, a step of a thread, or a job of another part of
    the application. -/
inductive Label where
  | start
  | stop
  | caller (answer : WaitAnswer)
  | diag (k : Nat) (answer : DiagAnswer)
  | task (i : Nat) (throws : Bool)
  | pick
  | otherSubmit
  | otherEnd
  deriving DecidableEq, Repr

def step (s : Qualcomm) : Label → Option Qualcomm
  | .start =>
      if s.caller.isIdle then some { s with stopFlag := false, caller := .starting } else none
  | .stop =>
      if s.caller.isIdle then some { s with stopFlag := true, caller := .joining } else none
  | .caller answer => s.callerStep answer
  | .diag k answer => s.diagStep k answer
  | .task i throws => s.taskStep i throws
  | .pick => s.mExecutor.pick.map (fun pool => { s with mExecutor := pool })
  | .otherSubmit => (s.mExecutor.submit none).map (fun pool => { s with mExecutor := pool })
  | .otherEnd =>
      if none ∈ s.mExecutor.running then some { s with mExecutor := s.mExecutor.finish none }
      else none

/-- A dispatch task waits in `take()` on an empty queue. -/
def Blocked (s : Qualcomm) : Prop :=
  s.mPacketQueue = [] ∧ ∃ t ∈ s.tasks, t.isReleased = false ∧ t.pc = .take

/-- No diag thread has a dispatch task to submit. -/
def Settled (s : Qualcomm) : Prop := ∀ pc ∈ s.diagThreads, pc.isSettled = true

/-- An object is started when it is not running; when a `stop` goes on from its
    join, no diag thread has a dispatch task to submit yet and none is blocked;
    and the wait for the task is not interrupted, and runs out only on a task
    that cannot go on. In a clean run no task is blocked any more by then
    (`Draining.unblocked`), so that no wait runs out. -/
def Clean (s : Qualcomm) : Label → Prop
  | .start => s.caller ≠ .started
  | .caller answer =>
      (s.caller = .joining → s.Settled ∧ ¬ s.Blocked) ∧
        (s.caller.isGetting = true → answer = .go ∨ answer = .timeout ∧ s.Blocked)
  | _ => True

instance (s : Qualcomm) : Decidable s.Blocked :=
  inferInstanceAs (Decidable (s.mPacketQueue = [] ∧ ∃ t ∈ s.tasks, _))

instance (s : Qualcomm) : Decidable s.Settled :=
  inferInstanceAs (Decidable (∀ pc ∈ s.diagThreads, _))

instance (s : Qualcomm) : ∀ l, Decidable (s.Clean l)
  | .start => inferInstanceAs (Decidable (s.caller ≠ .started))
  | .caller answer =>
      inferInstanceAs (Decidable ((s.caller = .joining → s.Settled ∧ ¬ s.Blocked) ∧
        (s.caller.isGetting = true → answer = .go ∨ answer = .timeout ∧ s.Blocked)))
  | .stop | .diag _ _ | .task _ _ | .pick | .otherSubmit | .otherEnd => isTrue trivial

/-- What the thread inside `start` or `stop` does next. -/
inductive Called (s : Qualcomm) : WaitAnswer → Qualcomm → Prop where
  | spawns (hpc : s.caller = .starting) :
      Called s .go { s with
        diagThreads := s.diagThreads ++ [.starting]
        mDiagThread := some s.diagThreads.length
        caller := .started }
  | joinsNobody (answer : WaitAnswer) (hpc : s.caller = .joining) (hnone : s.mDiagThread = none) :
      Called s answer { s with caller := .failed }
  | joins (k : Nat) (hpc : s.caller = .joining) (hthread : s.mDiagThread = some k)
      (hended : s.diagThreads[k]? = some .ended) : Called s .go { s with caller := .nullCheck }
  | leavesThread (answer : WaitAnswer) (hpc : s.caller = .joining) (hwait : answer ≠ .go) :
      Called s answer { s with caller := .nullCheck }
  | findsNone (hpc : s.caller = .nullCheck) (hnone : s.mPacketDispatchTask = none) :
      Called s .go { s with caller := .stopped }
  | findsTask (hpc : s.caller = .nullCheck) : Called s .go { s with caller := .fetching }
  | fetches (i : Nat) (hpc : s.caller = .fetching) (htask : s.mPacketDispatchTask = some i) :
      Called s .go { s with caller := .getting i }
  | gets (i : Nat) (t : DispatchTask) (pc : CallerPc) (hpc : s.caller = .getting i)
      (htask : s.tasks[i]? = some t) (hdone : t.isReleased = true)
      (hnext : pc = .checking ∨ pc = .stopped ∨ pc = .failed) : Called s .go { s with caller := pc }
  | leavesTask (i : Nat) (answer : WaitAnswer) (hpc : s.caller = .getting i)
      (hwait : answer ≠ .go) : Called s answer { s with caller := .stopped }
  | checks (t : DispatchTask) (hpc : s.caller = .checking) (ht : t ∈ s.tasks) :
      Called s .go { s with caller := if t.isReleased then .stopped else .cancelling }
  | cancels (tasks : List DispatchTask) (hpc : s.caller = .cancelling) :
      Called s .go { s with tasks := tasks, caller := .stopped }

theorem joins_or_leaves {s : Qualcomm} {k : Nat} (answer : WaitAnswer) (hpc : s.caller = .joining)
    (hthread : s.mDiagThread = some k) (hended : s.diagThreads[k]? = some .ended) :
    Called s answer { s with caller := .nullCheck } := by
  cases answer with
  | go => exact .joins k hpc hthread hended
  | timeout => exact .leavesThread .timeout hpc (by decide)
  | interrupted => exact .leavesThread .interrupted hpc (by decide)

theorem callerStep_called {s s' : Qualcomm} {answer : WaitAnswer}
    (h : s.callerStep answer = some s') : Called s answer s' := by
  unfold callerStep at h
  split at h
  case h_1 hpc => exact Option.some.inj h ▸ .spawns hpc
  case h_2 hpc =>
      split at h
      · exact Option.some.inj h ▸ .joinsNobody _ hpc ‹_›
      · rename_i k hthread
        split at h
        · exact absurd h (by simp only [reduceCtorEq, not_false_eq_true])
        · rename_i hjoin
          rw [← Option.some.inj h]
          rcases not_and_or.mp hjoin with hgo | hended
          · exact .leavesThread _ hpc hgo
          · exact joins_or_leaves _ hpc hthread (not_not.mp hended)
  case h_3 hpc =>
      rw [← Option.some.inj h]
      split
      · rename_i hnone
        exact .findsNone hpc (Option.isNone_iff_eq_none.mp hnone)
      · exact .findsTask hpc
  case h_4 hpc =>
      simp only [Option.map_eq_some_iff] at h
      obtain ⟨i, htask, rfl⟩ := h
      exact .fetches i hpc htask
  case h_5 i hpc =>
      split at h
      · exact absurd h (by simp only [reduceCtorEq, not_false_eq_true])
      · rename_i t htask
        split at h
        · rename_i hcancelled
          rw [← Option.some.inj h]
          refine .gets i t _ hpc htask ?_ (.inr (.inr rfl))
          unfold DispatchTask.isReleased
          rw [hcancelled, Bool.or_true]
        · split at h
          · rename_i hended
            rw [← Option.some.inj h]
            refine .gets i t _ hpc htask ?_ (.inl rfl)
            unfold DispatchTask.isReleased DispatchTask.hasEnded
            rw [hended, Bool.true_or]
          · rename_i hended
            rw [← Option.some.inj h]
            refine .gets i t _ hpc htask ?_ (.inr (.inl rfl))
            unfold DispatchTask.isReleased DispatchTask.hasEnded
            rw [hended, Bool.true_or]
          · exact absurd h (by simp only [reduceCtorEq, not_false_eq_true])
      · split at h
        · exact absurd h (by simp only [reduceCtorEq, not_false_eq_true])
        · exact Option.some.inj h ▸ .leavesTask i _ hpc (by decide)
      · exact Option.some.inj h ▸ .leavesTask i _ hpc (by decide)
  case h_6 hpc =>
      split at h
      · exact absurd h (by simp only [reduceCtorEq, not_false_eq_true])
      · rename_i t htask
        obtain ⟨i, -, hi⟩ := Option.bind_eq_some_iff.mp htask
        exact Option.some.inj h ▸ .checks t hpc (List.mem_of_getElem? hi)
  case h_7 hpc =>
      split at h
      · exact absurd h (by simp only [reduceCtorEq, not_false_eq_true])
      · exact Option.some.inj h ▸ .cancels _ hpc
  case h_8 => exact absurd h (by simp only [reduceCtorEq, not_false_eq_true])

/-- What diag thread `k` does next. -/
inductive Fed (s : Qualcomm) (k : Nat) : Qualcomm → Prop where
  | initialises (hpc : s.diagThreads[k]? = some .starting) : Fed s k (s.setDiag k .submitting)
  | failsToInit (hpc : s.diagThreads[k]? = some .starting) : Fed s k (s.setDiag k .ended)
  | submits (pool : ThreadPool (Option Nat)) (hpc : s.diagThreads[k]? = some .submitting)
      (hpool : s.mExecutor.submit (some s.tasks.length) = some pool) :
      Fed s k { s.setDiag k (.assigning s.tasks.length) with
        mExecutor := pool
        tasks := s.tasks ++ [⟨.test, false, false⟩] }
  | assigns (i : Nat) (hpc : s.diagThreads[k]? = some (.assigning i)) :
      Fed s k { s.setDiag k .loop with mPacketDispatchTask := some i }
  | turns (pc pc' : DiagPc) (hpc : s.diagThreads[k]? = some pc)
      (hloop : pc = .loop ∨ pc = .processing)
      (hnext : pc' = .loop ∨ pc' = .processing ∨ pc' = .ended) : Fed s k (s.setDiag k pc')
  | enqueues (p : List Byte) (hpc : s.diagThreads[k]? = some .processing) :
      Fed s k { s with mPacketQueue := s.mPacketQueue ++ [p] }

theorem diagStep_fed {s s' : Qualcomm} {k : Nat} {answer : DiagAnswer}
    (h : s.diagStep k answer = some s') : Fed s k s' := by
  unfold diagStep at h
  split at h
  case h_1 hpc => exact Option.some.inj h ▸ .initialises hpc
  case h_2 hpc => exact Option.some.inj h ▸ .failsToInit hpc
  case h_3 hpc =>
      simp only [Option.map_eq_some_iff] at h
      obtain ⟨pool, hpool, rfl⟩ := h
      exact .submits pool hpc hpool
  case h_4 i hpc => exact Option.some.inj h ▸ .assigns i hpc
  case h_5 hpc =>
      rw [← Option.some.inj h]
      refine .turns _ _ hpc (.inl rfl) ?_
      split
      · exact .inr (.inr rfl)
      · exact .inr (.inl rfl)
  case h_6 p hpc => exact Option.some.inj h ▸ .enqueues p hpc
  case h_7 hpc => exact Option.some.inj h ▸ .turns _ _ hpc (.inr rfl) (.inl rfl)
  case h_8 hpc => exact Option.some.inj h ▸ .turns _ _ hpc (.inr rfl) (.inr (.inr rfl))
  case h_9 => exact absurd h (by simp only [reduceCtorEq, not_false_eq_true])

/-- What dispatch task `i` does next. -/
inductive Dispatched (s : Qualcomm) (i : Nat) (t : DispatchTask) : Qualcomm → Prop where
  | ends (threw : Bool) : Dispatched s i t (s.endTask i t threw)
  | waits (hpc : t.pc = .test) (hstop : s.stopFlag = false) :
      Dispatched s i t (s.setTask i { t with pc := .take })
  | moves (pc : TaskPc) (interrupted : Bool) (queue : List (List Byte))
      (hended : ∀ b, pc ≠ .ended b) (htake : pc ≠ .take) :
      Dispatched s i t
        { s.setTask i { t with pc := pc, interrupted := interrupted } with mPacketQueue := queue }

theorem taskStep_dispatched {s s' : Qualcomm} {i : Nat} {throws : Bool}
    (h : s.taskStep i throws = some s') :
    ∃ t, s.tasks[i]? = some t ∧ some i ∈ s.mExecutor.running ∧ t.hasEnded = false ∧
      Dispatched s i t s' := by
  unfold taskStep at h
  split at h
  · exact absurd h (by simp only [reduceCtorEq, not_false_eq_true])
  rename_i t htask
  split at h
  · rename_i hrunning
    refine ⟨t, htask, hrunning, ?_⟩
    unfold DispatchTask.hasEnded
    split at h
    · rename_i hpc
      rw [hpc]
      refine ⟨rfl, ?_⟩
      split at h
      · exact Option.some.inj h ▸ .ends false
      · rename_i hstop
        exact Option.some.inj h ▸ .waits hpc (Bool.not_eq_true _ ▸ hstop)
    · rename_i hpc
      rw [hpc]
      refine ⟨rfl, ?_⟩
      split at h
      · rw [← Option.some.inj h]
        exact .moves .test false s.mPacketQueue (fun _ => TaskPc.noConfusion) TaskPc.noConfusion
      · split at h
        · exact absurd h (by simp only [reduceCtorEq, not_false_eq_true])
        · rename_i p rest hqueue
          rw [← Option.some.inj h]
          exact .moves (.notify p) t.interrupted rest (fun _ => TaskPc.noConfusion)
            TaskPc.noConfusion
    · rename_i hpc
      rw [hpc]
      refine ⟨rfl, ?_⟩
      split at h
      · exact Option.some.inj h ▸ .ends true
      · rw [← Option.some.inj h]
        exact .moves .test t.interrupted s.mPacketQueue (fun _ => TaskPc.noConfusion)
          TaskPc.noConfusion
    · exact absurd h (by simp only [reduceCtorEq, not_false_eq_true])
  · exact absurd h (by simp only [reduceCtorEq, not_false_eq_true])

/-- Dispatch task `i` has been submitted and has not ended. -/
def alive (s : Qualcomm) (i : Nat) : Bool := (s.tasks[i]?.map (fun t => !t.hasEnded)).getD false

/-- The pool holds a dispatch task once while it is alive, and not at all after
    that. -/
def Pooled (s : Qualcomm) : Prop :=
  ∀ i, s.mExecutor.held.count (some i) ≤ if s.alive i then 1 else 0

theorem alive_set {tasks : List DispatchTask} {i j : Nat} {t t' : DispatchTask}
    (h : tasks[i]? = some t) :
    (((tasks.set i t')[j]?).map (fun t => !t.hasEnded)).getD false
      = if i = j then !t'.hasEnded else (tasks[j]?.map (fun t => !t.hasEnded)).getD false := by
  rw [List.getElem?_set]
  by_cases hij : i = j
  · subst hij
    rw [if_pos rfl, if_pos (List.getElem?_eq_some_iff.mp h).1, if_pos rfl]
    rfl
  · rw [if_neg hij, if_neg hij]

/-- A task that goes on stays where it is in the pool. -/
theorem Pooled.setTask {s s' : Qualcomm} {i : Nat} {t : DispatchTask} (t' : DispatchTask)
    (hs : s.Pooled) (htask : s.tasks[i]? = some t) (halive : t.hasEnded = false)
    (halive' : t'.hasEnded = false)
    (hpool : s'.mExecutor = s.mExecutor) (htasks : s'.tasks = s.tasks.set i t') : s'.Pooled := by
  intro j
  have hj := hs j
  unfold alive at hj ⊢
  rw [hpool, htasks, alive_set htask]
  split
  · rename_i hij
    subst hij
    rw [htask] at hj
    simp only [Option.map_some, Option.getD_some, halive] at hj
    rw [halive']
    exact hj
  · exact hj

/-- A task that ends is no longer held. -/
theorem endTask_pooled {s : Qualcomm} {i : Nat} {t : DispatchTask} (threw : Bool) (hs : s.Pooled)
    (htask : s.tasks[i]? = some t) (hrunning : some i ∈ s.mExecutor.running) :
    (s.endTask i t threw).Pooled := by
  intro j
  have hj := hs j
  have hcount := ThreadPool.count_held_finish (some j) hrunning
  unfold alive at hj ⊢
  have htasks : (s.endTask i t threw).tasks = s.tasks.set i { t with pc := .ended threw } := rfl
  have hpool : (s.endTask i t threw).mExecutor = s.mExecutor.finish (some i) := rfl
  rw [htasks, hpool, alive_set htask]
  simp only [beq_iff_eq, Option.some.injEq] at hcount
  split
  · rename_i hij
    rw [if_pos hij] at hcount
    split at hj
    · simp only [DispatchTask.hasEnded, Bool.not_true, Bool.false_eq_true, if_false]
      omega
    · omega
  · rename_i hij
    rw [if_neg hij] at hcount
    omega

theorem submit_pooled {s : Qualcomm} {k : Nat} {pool : ThreadPool (Option Nat)} (hs : s.Pooled)
    (hpool : s.mExecutor.submit (some s.tasks.length) = some pool) :
    ({ s.setDiag k (.assigning s.tasks.length) with
      mExecutor := pool
      tasks := s.tasks ++ [⟨.test, false, false⟩] } : Qualcomm).Pooled := by
  intro j
  have hj := hs j
  have hcount := ThreadPool.count_held_submit (some j) hpool
  simp only [beq_iff_eq, Option.some.injEq] at hcount
  unfold alive at hj ⊢
  simp only
  rw [hcount]
  by_cases hnew : s.tasks.length = j
  -- The new task is the only one of its number.
  · subst hnew
    rw [List.getElem?_eq_none (Nat.le_refl _)] at hj
    rw [if_pos rfl, List.getElem?_append_right (Nat.le_refl _), Nat.sub_self]
    simp only [Option.map_none, Option.getD_none, Bool.false_eq_true, if_false] at hj
    simp only [List.getElem?_cons_zero, Option.map_some, Option.getD_some, DispatchTask.hasEnded,
      Bool.not_false, if_true]
    omega
  · rw [if_neg hnew, Nat.add_zero]
    have hsame : (s.tasks ++ [(⟨.test, false, false⟩ : DispatchTask)])[j]? = s.tasks[j]? := by
      rcases Nat.lt_or_gt_of_ne hnew with hgt | hlt
      · rw [List.getElem?_eq_none (by rw [List.length_append, List.length_singleton]; omega),
          List.getElem?_eq_none (by omega)]
      · rw [List.getElem?_append_left hlt]
    rw [hsame]
    exact hj

theorem step_pooled {s s' : Qualcomm} {l : Label} (hs : s.Pooled) (hcancel : s.caller ≠ .cancelling)
    (h : s.step l = some s') : s'.Pooled := by
  cases l with
  | start =>
      simp only [step] at h
      split at h
      · exact Option.some.inj h ▸ hs
      · exact absurd h (by simp only [reduceCtorEq, not_false_eq_true])
  | stop =>
      simp only [step] at h
      split at h
      · exact Option.some.inj h ▸ hs
      · exact absurd h (by simp only [reduceCtorEq, not_false_eq_true])
  | caller answer =>
      cases callerStep_called h
      case cancels hpc => exact absurd hpc hcancel
      all_goals exact hs
  | diag k answer =>
      cases diagStep_fed h
      case submits pool _ hpool => exact submit_pooled hs hpool
      all_goals exact hs
  | task i throws =>
      obtain ⟨t, htask, hrunning, halive, hdispatched⟩ := taskStep_dispatched h
      cases hdispatched with
      | ends threw => exact endTask_pooled threw hs htask hrunning
      | waits _ _ => exact hs.setTask _ htask halive rfl rfl rfl
      | moves pc interrupted queue hended _ =>
          refine hs.setTask { t with pc := pc, interrupted := interrupted } htask halive ?_ rfl rfl
          unfold DispatchTask.hasEnded
          split
          · exact absurd ‹_› (hended _)
          · rfl
  | pick =>
      simp only [step, Option.map_eq_some_iff] at h
      obtain ⟨pool, hpick, rfl⟩ := h
      intro i
      have hcount := ThreadPool.count_held_pick (some i) hpick
      simp only [hcount]
      exact hs i
  | otherSubmit =>
      simp only [step, Option.map_eq_some_iff] at h
      obtain ⟨pool, hsubmit, rfl⟩ := h
      intro i
      have hcount := ThreadPool.count_held_submit (some i) hsubmit
      simp only [hcount, beq_iff_eq, reduceCtorEq, if_false, Nat.add_zero]
      exact hs i
  | otherEnd =>
      simp only [step] at h
      split at h
      · rename_i hrunning
        rw [← Option.some.inj h]
        intro i
        have hcount := ThreadPool.count_held_finish (some i) hrunning
        simp only [beq_iff_eq, reduceCtorEq, if_false, Nat.add_zero] at hcount
        simp only [hcount]
        exact hs i
      · exact absurd h (by simp only [reduceCtorEq, not_false_eq_true])

/-- Every dispatch task but those excepted is released. -/
def ReleasedBut (s : Qualcomm) (excepted : Nat → Prop) : Prop :=
  ∀ j t, s.tasks[j]? = some t → ¬ excepted j → t.isReleased = true

/-- No dispatch task is left, and none will come. -/
def Quiet (s : Qualcomm) : Prop := s.Settled ∧ s.ReleasedBut (fun _ => False)

/-- What a diag thread at `pc` has made of the dispatch tasks. -/
def Made (s : Qualcomm) : DiagPc → Prop
  | .starting => s.ReleasedBut (fun _ => False)
  | .submitting => s.ReleasedBut (fun _ => False)
  | .assigning i => s.ReleasedBut (· = i)
  | _ => s.ReleasedBut (fun j => s.mPacketDispatchTask = some j)

/-- Only the thread of the last start may submit a task, and its task is the
    only one. -/
def Serving (s : Qualcomm) : Prop :=
  ∃ k pc, s.mDiagThread = some k ∧ s.diagThreads[k]? = some pc ∧
    (∀ j pc', s.diagThreads[j]? = some pc' → j ≠ k → pc'.isSettled = true) ∧ s.Made pc

/-- The only task left is the one in the field, and it will see the flag. -/
structure Draining (s : Qualcomm) : Prop where
  flag : s.stopFlag = true
  threads : s.Settled
  tasks : s.ReleasedBut (fun j => s.mPacketDispatchTask = some j)
  unblocked : ¬ s.Blocked

/-- What the place of the caller says about the threads. -/
def Tracked (s : Qualcomm) : Prop :=
  match s.caller with
  | .started => s.Serving
  | .joining => s.stopFlag = true ∧ (s.Quiet ∨ s.Serving)
  | .nullCheck => s.Draining
  | .fetching => s.Draining
  | .getting i => s.Draining ∧ s.mPacketDispatchTask = some i
  | .cancelling => False
  | _ => s.Quiet

/-- No task has been cancelled. -/
def Uncancelled (s : Qualcomm) : Prop := ∀ t ∈ s.tasks, t.cancelled = false

theorem ReleasedBut.mono {s : Qualcomm} {P Q : Nat → Prop} (h : s.ReleasedBut P)
    (hPQ : ∀ j, P j → Q j) : s.ReleasedBut Q :=
  fun j t ht hnot => h j t ht (fun hp => hnot (hPQ j hp))

/-- A task that is not released may move. -/
theorem ReleasedBut.setTask {s s' : Qualcomm} {P : Nat → Prop} {i : Nat} {t t' : DispatchTask}
    (h : s.ReleasedBut P) (htask : s.tasks[i]? = some t) (hnot : t.isReleased = false)
    (htasks : s'.tasks = s.tasks.set i t') : s'.ReleasedBut P := by
  intro j u hu hj
  rw [htasks] at hu
  by_cases hij : i = j
  · subst hij
    rw [h i t htask hj] at hnot
    exact absurd hnot (by decide)
  · rw [List.getElem?_set_ne hij] at hu
    exact h j u hu hj

theorem ReleasedBut.eq_of_not {s : Qualcomm} {P : Nat → Prop} (h : s.ReleasedBut P) {i : Nat}
    {t : DispatchTask} (htask : s.tasks[i]? = some t) (hnot : t.isReleased = false) : P i := by
  by_contra hP
  rw [h i t htask hP] at hnot
  exact absurd hnot (by decide)

theorem Quiet.no_task {s : Qualcomm} (h : s.Quiet) {i : Nat} {t : DispatchTask}
    (htask : s.tasks[i]? = some t) (hnot : t.isReleased = false) : False :=
  h.2.eq_of_not htask hnot

/-- A step of a settled diag thread: it stays settled, submits nothing and
    takes nothing from the queue. -/
structure Turned (s s' : Qualcomm) : Prop where
  threads : ∀ j : Nat, s'.diagThreads[j]? = s.diagThreads[j]? ∨
    ∃ pc pc' : DiagPc, s.diagThreads[j]? = some pc ∧ s'.diagThreads[j]? = some pc' ∧
      pc.isSettled = true ∧ pc'.isSettled = true
  tasks : s'.tasks = s.tasks
  task : s'.mPacketDispatchTask = s.mPacketDispatchTask
  thread : s'.mDiagThread = s.mDiagThread
  flag : s'.stopFlag = s.stopFlag
  caller : s'.caller = s.caller
  queue : s'.mPacketQueue = [] → s.mPacketQueue = []

theorem getElem?_setDiag {s : Qualcomm} {k : Nat} {pc pc' : DiagPc}
    (h : s.diagThreads[k]? = some pc) (j : Nat) :
    (s.setDiag k pc').diagThreads[j]? = if k = j then some pc' else s.diagThreads[j]? := by
  unfold setDiag
  rw [List.getElem?_set]
  by_cases hkj : k = j
  · subst hkj
    rw [if_pos rfl, if_pos rfl, if_pos (List.getElem?_eq_some_iff.mp h).1]
  · rw [if_neg hkj, if_neg hkj]

/-- A settled thread turns; the others are on their way to their task. -/
theorem Fed.turned {s s' : Qualcomm} {k : Nat} {pc : DiagPc} (h : Fed s k s')
    (hpc : s.diagThreads[k]? = some pc) (hsettled : pc.isSettled = true) : Turned s s' := by
  have hmoves : ∀ pc', s.diagThreads[k]? = some pc' → pc'.isSettled = false → False := by
    intro pc' hpc' hnot
    rw [hpc, Option.some.injEq] at hpc'
    rw [hpc', hnot] at hsettled
    exact absurd hsettled (by decide)
  cases h with
  | initialises h => exact absurd rfl (hmoves _ h)
  | failsToInit h => exact absurd rfl (hmoves _ h)
  | submits pool h _ => exact absurd rfl (hmoves _ h)
  | assigns i h => exact absurd rfl (hmoves _ h)
  | turns pc₀ pc' h hloop hnext =>
      refine ⟨fun j => ?_, rfl, rfl, rfl, rfl, rfl, id⟩
      rw [getElem?_setDiag h]
      by_cases hkj : k = j
      · subst hkj
        rw [if_pos rfl]
        refine .inr ⟨pc, pc', hpc, rfl, hsettled, ?_⟩
        rcases hnext with rfl | rfl | rfl
        all_goals rfl
      · exact .inl (if_neg hkj)
  | enqueues p _ =>
      refine ⟨fun _ => .inl rfl, rfl, rfl, rfl, rfl, rfl, fun hnil => ?_⟩
      exact (List.append_eq_nil_iff.mp hnil).1

theorem made_iff {s : Qualcomm} {pc : DiagPc} (hsettled : pc.isSettled = true) :
    s.Made pc ↔ s.ReleasedBut (fun j => s.mPacketDispatchTask = some j) := by
  cases pc with
  | loop => exact Iff.rfl
  | processing => exact Iff.rfl
  | ended => exact Iff.rfl
  | starting => exact absurd hsettled Bool.false_ne_true
  | submitting => exact absurd hsettled Bool.false_ne_true
  | assigning i => exact absurd hsettled Bool.false_ne_true

theorem Turned.settled {s s' : Qualcomm} (h : Turned s s') (hs : s.Settled) : s'.Settled := by
  intro pc' hpc'
  obtain ⟨j, hj⟩ := List.mem_iff_getElem?.mp hpc'
  rcases h.threads j with hsame | ⟨pc₀, pc₁, -, hnew, -, hsettled⟩
  · exact hs pc' (List.mem_of_getElem? (hsame ▸ hj))
  · rw [hj, Option.some.injEq] at hnew
    rw [hnew]
    exact hsettled

theorem Turned.releasedBut {s s' : Qualcomm} (h : Turned s s') {P : Nat → Prop}
    (hs : s.ReleasedBut P) : s'.ReleasedBut P := by
  intro j t ht
  rw [h.tasks] at ht
  exact hs j t ht

theorem Turned.field {s s' : Qualcomm} (h : Turned s s')
    (hs : s.ReleasedBut (fun j => s.mPacketDispatchTask = some j)) :
    s'.ReleasedBut (fun j => s'.mPacketDispatchTask = some j) := by
  rw [h.task]
  exact h.releasedBut hs

theorem Turned.made {s s' : Qualcomm} (h : Turned s s') {pc : DiagPc} (hs : s.Made pc) :
    s'.Made pc := by
  cases pc with
  | starting => exact h.releasedBut hs
  | submitting => exact h.releasedBut hs
  | assigning i => exact h.releasedBut hs
  | loop => exact h.field hs
  | processing => exact h.field hs
  | ended => exact h.field hs

theorem Turned.serving {s s' : Qualcomm} (h : Turned s s') (hs : s.Serving) : s'.Serving := by
  obtain ⟨k, pc, hthread, hpc, hothers, hmade⟩ := hs
  have hothers' : ∀ j pc', s'.diagThreads[j]? = some pc' → j ≠ k → pc'.isSettled = true := by
    intro j pc' hj hne
    rcases h.threads j with hsame | ⟨pc₀, pc₁, -, hnew, -, hsettled⟩
    · exact hothers j pc' (hsame ▸ hj) hne
    · rw [hj, Option.some.injEq] at hnew
      rw [hnew]
      exact hsettled
  rcases h.threads k with hsame | ⟨pc₀, pc₁, hold, hnew, hsettled, hsettled'⟩
  · exact ⟨k, pc, h.thread.trans hthread, hsame.trans hpc, hothers', h.made hmade⟩
  · rw [hpc, Option.some.injEq] at hold
    refine ⟨k, pc₁, h.thread.trans hthread, hnew, hothers', (made_iff hsettled').mpr ?_⟩
    exact h.field ((made_iff (hold ▸ hsettled)).mp hmade)

theorem Turned.draining {s s' : Qualcomm} (h : Turned s s') (hs : s.Draining) : s'.Draining where
  flag := h.flag.trans hs.flag
  threads := h.settled hs.threads
  tasks := h.field hs.tasks
  unblocked := by
    rintro ⟨hqueue, t, ht, hblocked⟩
    exact hs.unblocked ⟨h.queue hqueue, t, h.tasks ▸ ht, hblocked⟩

theorem Draining.aside {s : Qualcomm} (hs : s.Draining) (pool : ThreadPool (Option Nat))
    (caller : CallerPc) :
    ({ s with mExecutor := pool, caller := caller } : Qualcomm).Draining :=
  ⟨hs.flag, hs.threads, hs.tasks, hs.unblocked⟩

/-- A step of another thread leaves the caller where it is. -/
theorem Tracked.same {s s' : Qualcomm} (hs : s.Tracked) (hcaller : s'.caller = s.caller)
    (hflag : s'.stopFlag = s.stopFlag) (hquiet : s.Quiet → s'.Quiet)
    (hserving : s.Serving → s'.Serving)
    (hdraining : s.Draining → s'.Draining ∧ s'.mPacketDispatchTask = s.mPacketDispatchTask) :
    s'.Tracked := by
  unfold Tracked at hs ⊢
  rw [hcaller]
  cases hpc : s.caller with
  | started =>
      rw [hpc] at hs
      exact hserving hs
  | joining =>
      rw [hpc] at hs
      exact ⟨hflag.trans hs.1, hs.2.imp hquiet hserving⟩
  | nullCheck =>
      rw [hpc] at hs
      exact (hdraining hs).1
  | fetching =>
      rw [hpc] at hs
      exact (hdraining hs).1
  | getting i =>
      rw [hpc] at hs
      obtain ⟨hdrained, htask⟩ := hdraining hs.1
      exact ⟨hdrained, htask.trans hs.2⟩
  | cancelling =>
      rw [hpc] at hs
      exact hs
  | fresh | starting | checking | stopped | failed =>
      rw [hpc] at hs
      exact hquiet hs

theorem Tracked.repool {s : Qualcomm} (hs : s.Tracked) (pool : ThreadPool (Option Nat)) :
    ({ s with mExecutor := pool } : Qualcomm).Tracked :=
  hs.same rfl rfl id id (fun hdraining => ⟨hdraining.aside pool s.caller, rfl⟩)

/-- A thread that is not settled is the one of the last start. -/
theorem Serving.unsettled {s : Qualcomm} {k : Nat} {pc : DiagPc} (hs : s.Serving)
    (hpc : s.diagThreads[k]? = some pc) (hnot : pc.isSettled = false) :
    s.mDiagThread = some k ∧
      (∀ j pc', s.diagThreads[j]? = some pc' → j ≠ k → pc'.isSettled = true) ∧ s.Made pc := by
  obtain ⟨k₀, pc₀, hthread, hpc₀, hothers, hmade⟩ := hs
  have hk : k = k₀ := by
    by_contra hne
    rw [hothers k pc hpc hne] at hnot
    exact absurd hnot (by decide)
  subst hk
  rw [hpc, Option.some.injEq] at hpc₀
  exact ⟨hthread, hothers, hpc₀ ▸ hmade⟩

/-- The thread of the last start goes on. -/
theorem Serving.goOn {s s' : Qualcomm} {k : Nat} {pc pc' : DiagPc}
    (hpc : s.diagThreads[k]? = some pc) (hthread : s.mDiagThread = some k)
    (hothers : ∀ j pc', s.diagThreads[j]? = some pc' → j ≠ k → pc'.isSettled = true)
    (hthreads : s'.diagThreads = (s.setDiag k pc').diagThreads)
    (hthread' : s'.mDiagThread = s.mDiagThread) (hmade : s'.Made pc') : s'.Serving := by
  refine ⟨k, pc', hthread'.trans hthread, ?_, fun j pc₁ hj hne => ?_, hmade⟩
  · rw [hthreads, getElem?_setDiag hpc, if_pos rfl]
  · rw [hthreads, getElem?_setDiag hpc, if_neg (Ne.symm hne)] at hj
    exact hothers j pc₁ hj hne

/-- The new task is the only one. -/
theorem releasedBut_append {s s' : Qualcomm} {t : DispatchTask}
    (hs : s.ReleasedBut (fun _ => False)) (htasks : s'.tasks = s.tasks ++ [t]) :
    s'.ReleasedBut (· = s.tasks.length) := by
  intro j u hu hne
  rw [htasks, List.getElem?_append] at hu
  split at hu
  · exact hs j u hu id
  · rename_i hlt
    rw [List.getElem?_eq_none (by rw [List.length_singleton]; omega)] at hu
    exact absurd hu (by simp only [reduceCtorEq, not_false_eq_true])

theorem Serving.fed {s s' : Qualcomm} {k : Nat} (hs : s.Serving) (h : Fed s k s') : s'.Serving := by
  cases h with
  | initialises hpc =>
      obtain ⟨hthread, hothers, hmade⟩ := hs.unsettled hpc rfl
      exact .goOn hpc hthread hothers rfl rfl hmade
  | failsToInit hpc =>
      obtain ⟨hthread, hothers, hmade⟩ := hs.unsettled hpc rfl
      exact .goOn hpc hthread hothers rfl rfl (ReleasedBut.mono hmade (fun _ => False.elim))
  | submits pool hpc _ =>
      obtain ⟨hthread, hothers, hmade⟩ := hs.unsettled hpc rfl
      exact .goOn hpc hthread hothers rfl rfl (releasedBut_append hmade rfl)
  | assigns i hpc =>
      obtain ⟨hthread, hothers, hmade⟩ := hs.unsettled hpc rfl
      refine .goOn hpc hthread hothers rfl rfl ?_
      exact ReleasedBut.mono hmade (fun j hj => hj ▸ rfl)
  | turns pc pc' hpc hloop hnext =>
      refine (Fed.turned (.turns pc pc' hpc hloop hnext) hpc ?_).serving hs
      rcases hloop with rfl | rfl
      all_goals rfl
  | enqueues p hpc => exact (Fed.turned (.enqueues p hpc) hpc rfl).serving hs

theorem diag_tracked {s s' : Qualcomm} {k : Nat} (hs : s.Tracked) (h : Fed s k s') :
    s'.Tracked := by
  -- A thread that runs at all is settled, unless it is the one that serves.
  have hturned : s.Settled → Turned s s' := by
    intro hsettled
    have hpc : ∃ pc, s.diagThreads[k]? = some pc := by
      cases h
      all_goals exact ⟨_, ‹s.diagThreads[k]? = some _›⟩
    obtain ⟨pc, hpc⟩ := hpc
    exact h.turned hpc (hsettled pc (List.mem_of_getElem? hpc))
  have hcaller : s'.caller = s.caller := by
    cases h
    all_goals rfl
  have hflag : s'.stopFlag = s.stopFlag := by
    cases h
    all_goals rfl
  refine hs.same hcaller hflag (fun hquiet => ?_) (fun hserving => hserving.fed h)
    (fun hdraining => ?_)
  · exact ⟨(hturned hquiet.1).settled hquiet.1, (hturned hquiet.1).releasedBut hquiet.2⟩
  · have hturned := hturned hdraining.threads
    exact ⟨hturned.draining hdraining, hturned.task⟩

/-- A dispatch task goes on: it stays alone, and under the flag it does not wait
    for another packet. -/
theorem Dispatched.spec {s s' : Qualcomm} {i : Nat} {t : DispatchTask} (h : Dispatched s i t s') :
    ∃ t', s'.tasks = s.tasks.set i t' ∧ t'.cancelled = t.cancelled ∧
      (s.stopFlag = true → t'.pc ≠ .take) ∧ s'.diagThreads = s.diagThreads ∧
      s'.mDiagThread = s.mDiagThread ∧ s'.mPacketDispatchTask = s.mPacketDispatchTask ∧
      s'.stopFlag = s.stopFlag ∧ s'.caller = s.caller := by
  cases h with
  | ends threw => exact ⟨_, rfl, rfl, fun _ => TaskPc.noConfusion, rfl, rfl, rfl, rfl, rfl⟩
  | waits hpc hstop =>
      refine ⟨_, rfl, rfl, fun hflag => ?_, rfl, rfl, rfl, rfl, rfl⟩
      rw [hstop] at hflag
      exact absurd hflag Bool.false_ne_true
  | moves pc interrupted queue _ htake =>
      exact ⟨_, rfl, rfl, fun _ => htake, rfl, rfl, rfl, rfl, rfl⟩

theorem task_tracked {s s' : Qualcomm} {i : Nat} {t : DispatchTask} (hs : s.Tracked)
    (htask : s.tasks[i]? = some t) (hnot : t.isReleased = false) (h : Dispatched s i t s') :
    s'.Tracked := by
  obtain ⟨t', htasks, -, htake, hthreads, hthread, hfield, hflag, hcaller⟩ := h.spec
  have hreleased : ∀ P, s.ReleasedBut P → s'.ReleasedBut P :=
    fun P hP => hP.setTask htask hnot htasks
  refine hs.same hcaller hflag (fun hquiet => (hquiet.no_task htask hnot).elim) ?_ ?_
  · rintro ⟨k, pc, hk, hpc, hothers, hmade⟩
    refine ⟨k, pc, hthread.trans hk, hthreads ▸ hpc, hthreads ▸ hothers, ?_⟩
    cases pc with
    | starting | submitting | assigning i => exact hreleased _ hmade
    | loop | processing | ended =>
        unfold Made at hmade ⊢
        rw [hfield]
        exact hreleased _ hmade
  · intro hdraining
    have honly := hreleased _ hdraining.tasks
    have hi := hdraining.tasks.eq_of_not htask hnot
    refine ⟨⟨hflag.trans hdraining.flag, ?_, hfield ▸ honly, ?_⟩, hfield⟩
    · unfold Settled
      rw [hthreads]
      exact hdraining.threads
    -- Task `i` is the only one that could be blocked.
    · rintro ⟨-, u, hu, hlive, hpc⟩
      obtain ⟨j, hj⟩ := List.mem_iff_getElem?.mp hu
      have hij := honly.eq_of_not hj hlive
      rw [hi, Option.some.injEq] at hij
      subst hij
      rw [htasks, List.getElem?_set_self (List.getElem?_eq_some_iff.mp htask).1,
        Option.some.injEq] at hj
      exact htake hdraining.flag (hj ▸ hpc)

theorem Quiet.spawn {s : Qualcomm} (hs : s.Quiet) :
    ({ s with
      diagThreads := s.diagThreads ++ [.starting]
      mDiagThread := some s.diagThreads.length
      caller := .started } : Qualcomm).Serving := by
  refine ⟨s.diagThreads.length, .starting, rfl, ?_, fun j pc hj hne => ?_, hs.2⟩
  · rw [List.getElem?_append_right (Nat.le_refl _), Nat.sub_self]
    rfl
  · rw [List.getElem?_append] at hj
    split at hj
    · exact hs.1 pc (List.mem_of_getElem? hj)
    · rename_i hlt
      rw [List.getElem?_eq_none (by rw [List.length_singleton]; omega)] at hj
      exact absurd hj (by simp only [reduceCtorEq, not_false_eq_true])

theorem caller_tracked {s s' : Qualcomm} {answer : WaitAnswer} (hs : s.Tracked)
    (hclean : s.Clean (.caller answer)) (h : Called s answer s') : s'.Tracked := by
  have hdrain : s.caller = .joining → s.Draining := by
    intro hpc
    obtain ⟨hsettled, hblocked⟩ := hclean.1 hpc
    unfold Tracked at hs
    rw [hpc] at hs
    refine ⟨hs.1, hsettled, ?_, hblocked⟩
    rcases hs.2 with hquiet | ⟨k, pc, -, hk, -, hmade⟩
    · exact hquiet.2.mono (fun _ => False.elim)
    · exact (made_iff (hsettled pc (List.mem_of_getElem? hk))).mp hmade
  unfold Tracked at hs
  cases h with
  | spawns hpc =>
      rw [hpc] at hs
      exact hs.spawn
  | joinsNobody answer hpc hnone =>
      rw [hpc] at hs
      rcases hs.2 with hquiet | ⟨k, pc, hthread, -⟩
      · exact hquiet
      · rw [hnone] at hthread
        exact absurd hthread (by simp only [reduceCtorEq, not_false_eq_true])
  | joins k hpc _ _ => exact (hdrain hpc).aside _ _
  | leavesThread answer hpc _ => exact (hdrain hpc).aside _ _
  | findsNone hpc hnone =>
      rw [hpc] at hs
      refine ⟨hs.threads, hs.tasks.mono (fun j hj => ?_)⟩
      rw [hnone] at hj
      exact absurd hj (by simp only [reduceCtorEq, not_false_eq_true])
  | findsTask hpc =>
      rw [hpc] at hs
      exact hs.aside _ _
  | fetches i hpc htask =>
      rw [hpc] at hs
      exact ⟨hs.aside _ _, htask⟩
  | gets i t pc hpc htask hdone hnext =>
      rw [hpc] at hs
      -- The task in the field was the only one left.
      have hquiet : s.Quiet := by
        refine ⟨hs.1.threads, fun j u hu _ => ?_⟩
        by_contra hlive
        have hj := hs.1.tasks.eq_of_not hu (Bool.not_eq_true _ ▸ hlive)
        rw [hs.2, Option.some.injEq] at hj
        subst hj
        rw [htask, Option.some.injEq] at hu
        exact hlive (hu ▸ hdone)
      rcases hnext with rfl | rfl | rfl
      all_goals exact hquiet
  | leavesTask i answer hpc hwait =>
      rw [hpc] at hs
      have hgetting : s.caller.isGetting = true := by
        rw [hpc]
        rfl
      rcases hclean.2 hgetting with hgo | ⟨-, hblocked⟩
      · exact absurd hgo hwait
      · exact absurd hblocked hs.1.unblocked
  | checks t hpc ht =>
      rw [hpc] at hs
      obtain ⟨j, hj⟩ := List.mem_iff_getElem?.mp ht
      rw [hs.2 j t hj id, if_pos rfl]
      exact hs
  | cancels tasks hpc =>
      rw [hpc] at hs
      exact hs.elim

theorem Tracked.idle {s : Qualcomm} (hs : s.Tracked) (hidle : s.caller.isIdle = true) :
    s.Quiet ∨ s.caller = .started ∧ s.Serving := by
  unfold Tracked at hs
  cases hpc : s.caller with
  | fresh | stopped | failed =>
      rw [hpc] at hs
      exact .inl hs
  | started =>
      rw [hpc] at hs
      exact .inr ⟨rfl, hs⟩
  | starting | joining | nullCheck | fetching | getting i | checking | cancelling =>
      rw [hpc] at hidle
      exact absurd hidle Bool.false_ne_true

/-- The invariant of the clean runs. -/
structure Sound (s : Qualcomm) : Prop where
  tracked : s.Tracked
  uncancelled : s.Uncancelled
  pooled : s.Pooled

theorem Uncancelled.isReleased {s : Qualcomm} (hs : s.Uncancelled) {t : DispatchTask}
    (ht : t ∈ s.tasks) : t.isReleased = t.hasEnded := by
  unfold DispatchTask.isReleased
  rw [hs t ht, Bool.or_false]

theorem step_tracked {s s' : Qualcomm} {l : Label} (hs : s.Sound) (hclean : s.Clean l)
    (h : s.step l = some s') : s'.Tracked := by
  cases l with
  | start =>
      simp only [step] at h
      split at h
      · rename_i hidle
        rw [← Option.some.inj h]
        rcases hs.tracked.idle hidle with hquiet | ⟨hstarted, -⟩
        · exact hquiet
        · exact absurd hstarted hclean
      · exact absurd h (by simp only [reduceCtorEq, not_false_eq_true])
  | stop =>
      simp only [step] at h
      split at h
      · rename_i hidle
        rw [← Option.some.inj h]
        exact ⟨rfl, (hs.tracked.idle hidle).imp id And.right⟩
      · exact absurd h (by simp only [reduceCtorEq, not_false_eq_true])
  | caller answer => exact caller_tracked hs.tracked hclean (callerStep_called h)
  | diag k answer => exact diag_tracked hs.tracked (diagStep_fed h)
  | task i throws =>
      obtain ⟨t, htask, -, hlive, hdispatched⟩ := taskStep_dispatched h
      refine task_tracked hs.tracked htask ?_ hdispatched
      rw [hs.uncancelled.isReleased (List.mem_of_getElem? htask)]
      exact hlive
  | pick =>
      simp only [step, Option.map_eq_some_iff] at h
      obtain ⟨pool, -, rfl⟩ := h
      exact hs.tracked.repool pool
  | otherSubmit =>
      simp only [step, Option.map_eq_some_iff] at h
      obtain ⟨pool, -, rfl⟩ := h
      exact hs.tracked.repool pool
  | otherEnd =>
      simp only [step] at h
      split at h
      · exact Option.some.inj h ▸ hs.tracked.repool _
      · exact absurd h (by simp only [reduceCtorEq, not_false_eq_true])

theorem Tracked.not_cancelling {s : Qualcomm} (hs : s.Tracked) : s.caller ≠ .cancelling := by
  intro hpc
  unfold Tracked at hs
  rw [hpc] at hs
  exact hs

theorem step_uncancelled {s s' : Qualcomm} {l : Label} (hs : s.Uncancelled)
    (hcancel : s.caller ≠ .cancelling) (h : s.step l = some s') : s'.Uncancelled := by
  cases l with
  | start | stop =>
      simp only [step] at h
      split at h
      · exact Option.some.inj h ▸ hs
      · exact absurd h (by simp only [reduceCtorEq, not_false_eq_true])
  | caller answer =>
      cases callerStep_called h
      case cancels hpc => exact absurd hpc hcancel
      all_goals exact hs
  | diag k answer =>
      cases diagStep_fed h
      case submits pool _ _ =>
        intro t ht
        rcases List.mem_append.mp ht with hold | hnew
        · exact hs t hold
        · rw [List.mem_singleton.mp hnew]
      all_goals exact hs
  | task i throws =>
      obtain ⟨t, htask, -, -, hdispatched⟩ := taskStep_dispatched h
      obtain ⟨t', htasks, hsame, -⟩ := hdispatched.spec
      intro u hu
      rw [htasks] at hu
      rcases List.mem_or_eq_of_mem_set hu with hold | rfl
      · exact hs u hold
      · rw [hsame]
        exact hs t (List.mem_of_getElem? htask)
  | pick | otherSubmit =>
      simp only [step, Option.map_eq_some_iff] at h
      obtain ⟨pool, -, rfl⟩ := h
      exact hs
  | otherEnd =>
      simp only [step] at h
      split at h
      · exact Option.some.inj h ▸ hs
      · exact absurd h (by simp only [reduceCtorEq, not_false_eq_true])

theorem step_sound {s s' : Qualcomm} {l : Label} (hs : s.Sound) (hclean : s.Clean l)
    (h : s.step l = some s') : s'.Sound :=
  ⟨step_tracked hs hclean h, step_uncancelled hs.uncancelled hs.tracked.not_cancelling h,
    step_pooled hs.pooled hs.tracked.not_cancelling h⟩

theorem fresh_sound : fresh.Sound := by
  refine ⟨⟨fun _ hpc => absurd hpc List.not_mem_nil, fun j t ht => ?_⟩,
    fun _ ht => absurd ht List.not_mem_nil, fun i => Nat.le_refl 0⟩
  exact absurd ht (by simp only [fresh, List.getElem?_nil, reduceCtorEq, not_false_eq_true])

/-- Wherever the caller is, all dispatch tasks but one are released. -/
theorem Tracked.alone {s : Qualcomm} (hs : s.Tracked) :
    ∃ P, s.ReleasedBut P ∧ ∀ i j, P i → P j → i = j := by
  have hquiet : s.Quiet → ∃ P, s.ReleasedBut P ∧ ∀ i j, P i → P j → i = j :=
    fun h => ⟨fun _ => False, h.2, fun _ _ hi _ => hi.elim⟩
  have hfield : ∀ i j, s.mPacketDispatchTask = some i → s.mPacketDispatchTask = some j → i = j := by
    intro i j hi hj
    rw [hi, Option.some.injEq] at hj
    exact hj
  have hserving : s.Serving → ∃ P, s.ReleasedBut P ∧ ∀ i j, P i → P j → i = j := by
    rintro ⟨k, pc, -, -, -, hmade⟩
    cases pc with
    | starting | submitting => exact ⟨_, hmade, fun _ _ hi _ => hi.elim⟩
    | assigning task => exact ⟨_, hmade, fun _ _ hi hj => hi.trans hj.symm⟩
    | loop | processing | ended => exact ⟨_, hmade, hfield⟩
  unfold Tracked at hs
  cases hpc : s.caller with
  | started =>
      rw [hpc] at hs
      exact hserving hs
  | joining =>
      rw [hpc] at hs
      exact hs.2.elim hquiet hserving
  | nullCheck | fetching =>
      rw [hpc] at hs
      exact ⟨_, hs.tasks, hfield⟩
  | getting i =>
      rw [hpc] at hs
      exact ⟨_, hs.1.tasks, hfield⟩
  | cancelling =>
      rw [hpc] at hs
      exact hs.elim
  | fresh | starting | checking | stopped | failed =>
      rw [hpc] at hs
      exact hquiet hs

/-- A released task is not on the pool. -/
theorem Sound.not_held {s : Qualcomm} (hs : s.Sound) {i : Nat}
    (h : ∀ t, s.tasks[i]? = some t → t.isReleased = true) : some i ∉ s.mExecutor.held := by
  have hdead : s.alive i = false := by
    unfold alive
    rcases htask : s.tasks[i]? with _ | t
    · rfl
    · have hended := h t htask
      rw [hs.uncancelled.isReleased (List.mem_of_getElem? htask)] at hended
      simp only [Option.map_some, Option.getD_some, hended, Bool.not_true]
  have hcount := hs.pooled i
  rw [hdead, if_neg Bool.false_ne_true, Nat.le_zero] at hcount
  exact List.count_eq_zero.mp hcount

/-- In every clean run, a `stop` that has returned has left no dispatch task in
    its loop and none on the pool, and there are never two of them. -/
theorem released (labels : List Label) (s : Qualcomm) (hclean : Along step Clean fresh labels)
    (h : exec step fresh labels = some s) :
    (s.caller = .stopped →
      (∀ t ∈ s.tasks, t.isReleased = true) ∧ ∀ i, some i ∉ s.mExecutor.held) ∧
    ∀ (i j : Nat) (t u : DispatchTask), s.tasks[i]? = some t → s.tasks[j]? = some u →
      t.isReleased = false → u.isReleased = false → i = j := by
  have hs : s.Sound := exec_keeps step Clean Sound (fun _ _ _ hs hc hstep => step_sound hs hc hstep)
    labels fresh s fresh_sound hclean h
  refine ⟨fun hstopped => ?_, fun i j t u hi hj ht hu => ?_⟩
  · have hquiet := hs.tracked
    unfold Tracked at hquiet
    rw [hstopped] at hquiet
    refine ⟨fun t ht => ?_, fun i => hs.not_held (fun t ht => hquiet.2 i t ht id)⟩
    obtain ⟨i, hi⟩ := List.mem_iff_getElem?.mp ht
    exact hquiet.2 i t hi id
  · obtain ⟨P, hP, hunique⟩ := hs.tracked.alone
    exact hunique i j (hP.eq_of_not hi ht) (hP.eq_of_not hj hu)

/-- A start, a packet that the dispatch task waits for, and a stop. -/
def packetStop : List Label :=
  [.start, .caller .go, .diag 0 .go, .diag 0 .go, .diag 0 .go, .task 0 false, .diag 0 .go,
    .diag 0 (.packet [0x10]), .stop, .diag 0 .go, .diag 0 .go, .caller .go, .caller .go,
    .caller .go, .task 0 false, .task 0 false, .task 0 false, .caller .go, .caller .go]

theorem released_after_packet :
    ∃ s ∈ exec step fresh packetStop, s.caller = .stopped ∧ s.tasks.length = 1 ∧
      (∀ t ∈ s.tasks, t.isReleased = true) ∧ ∀ i, some i ∉ s.mExecutor.held := by
  have hrun : ∃ s ∈ exec step fresh packetStop, s.caller = .stopped ∧ s.tasks.length = 1 := by
    decide +kernel
  obtain ⟨s, hs, hstopped, hlength⟩ := hrun
  exact ⟨s, hs, hstopped, hlength, (released packetStop s (by decide +kernel) hs).1 hstopped⟩

/-- A start, a dispatch task that waits for a packet, and a stop up to the wait
    for it. -/
def blockedStop : List Label :=
  [.start, .caller .go, .diag 0 .go, .diag 0 .go, .diag 0 .go, .task 0 false, .stop, .diag 0 .go,
    .caller .go, .caller .go, .caller .go]

/-- The wait runs out, `stop` returns, and the task is still there; a second
    start puts another one beside it. -/
theorem dispatchTask_left_behind :
    (∃ s ∈ exec step fresh (blockedStop ++ [.caller .timeout]),
      s.caller = .stopped ∧ ∃ t ∈ s.tasks, t.isReleased = false) ∧
    (∃ s ∈ exec step fresh (blockedStop ++ [.caller .timeout, .start, .caller .go, .diag 1 .go,
        .diag 1 .go, .diag 1 .go, .task 1 false]),
      s.mExecutor.running = [some 0, some 1] ∧ s.tasks.countP (fun t => !t.isReleased) = 2) := by
  decide +kernel

end Qualcomm

end NetProbe
