import Mathlib.Data.List.Basic

/-!
# Thread Pools

A `java.util.concurrent` pool of a fixed number of workers, with the queue of
a completion service behind it. A submitted task gets a new worker while
there are fewer workers than the pool's size, and waits in the queue after
that; an idle worker picks the next waiting task. `shutdown` refuses further
tasks, and `shutdownNow` also throws the waiting ones away: they neither run
nor complete.

A task that has a worker does not begin at once, and no `shutdown` keeps it from
beginning later. A user of a pool who follows its tasks step by step has the
first step for that; for one who does not, `begin` is the moment, and `begun`
the tasks with a worker for which it has come.

Tasks are counted, not followed. `outstanding` is the number of tasks that
were accepted and not yet taken from the completion queue, and it moves only
at `submit`, at `take`, and at a `shutdownNow` that finds the queue filled.

## Main definitions

* `ThreadPool`: Workers, and the tasks that wait, have a worker or have completed.
* `submit`, `submitAll`, `pick`, `begin`, `finish`, `take`: The life of a task.
* `shutdown`, `shutdownNow`: The two ways to close a pool.
* `isTerminated`: Closed, with nothing left to run.
* `outstanding`: Tasks accepted and not yet taken.
* `flight`: These tasks themselves.
* `held`: Tasks that wait or run.
* `AllBegun`: No task that has a worker is still to begin.
* `accepted`: The tasks of a pool in the order of their acceptance.
* `Serial`: A pool with a single worker.

## Theorems

* `submit_eq_none_iff`: Exactly a closed pool rejects a task.
* `outstanding_submit`, `outstanding_submitAll`: A submission adds its tasks.
* `submitAll_running`: Tasks for which there are workers do not wait.
* `outstanding_pick`, `outstanding_finish`: Running a task moves it.
* `outstanding_take`: A take removes one.
* `outstanding_shutdownNow`: Closing over an empty queue loses none.
* `flight_submit`, `flight_submitAll`, `flight_pick`, `flight_finish`,
  `flight_take`: Which tasks are in flight.
* `count_held_submit`, `count_held_pick`, `count_held_finish`: How often a task
  is held.
* `begin_eq_some_iff`, `AllBegun.begin_eq_none`, `AllBegun.finish`: Which tasks
  can begin.
* `Serial.submit`, `Serial.pick`, `Serial.begin`, `Serial.finish`,
  `Serial.shutdownNow`: A single worker keeps its tasks in order.
-/

namespace NetProbe

/-- A pool with a fixed number of workers and its completion queue. `running` are
    the tasks that have a worker, and `begun` those of them that have begun. -/
structure ThreadPool (α : Type) where
  size : Nat
  workers : Nat
  queue : List α
  running : List α
  begun : List α
  completed : List α
  isShutdown : Bool
  deriving Repr

namespace ThreadPool

variable {α : Type}

/-- `Executors.newFixedThreadPool(size)`. -/
def newFixed (size : Nat) : ThreadPool α where
  size := size
  workers := 0
  queue := []
  running := []
  begun := []
  completed := []
  isShutdown := false

/-- `submit(a)`, or the rejection of a closed pool. -/
def submit (p : ThreadPool α) (a : α) : Option (ThreadPool α) :=
  if p.isShutdown then none
  -- A new worker gets the task; it does not go through the queue.
  else if p.workers < p.size then
    some { p with workers := p.workers + 1, running := p.running ++ [a] }
  else some { p with queue := p.queue ++ [a] }

/-- A loop of submissions. -/
def submitAll (p : ThreadPool α) : List α → Option (ThreadPool α)
  | [] => some p
  | a :: as => (p.submit a).bind (fun p' => submitAll p' as)

/-- An idle worker takes the task that waits longest. -/
def pick (p : ThreadPool α) : Option (ThreadPool α) :=
  match p.queue with
  | [] => none
  | a :: rest =>
      if p.running.length < p.workers then
        some { p with queue := rest, running := p.running ++ [a] }
      else none

/-- A worker calls `run()` of the task it has, also in a closed pool. -/
def begin [BEq α] (p : ThreadPool α) (a : α) : Option (ThreadPool α) :=
  if p.begun.count a < p.running.count a then some { p with begun := p.begun ++ [a] } else none

/-- A running task returns. -/
def finish [BEq α] (p : ThreadPool α) (a : α) : ThreadPool α :=
  { p with
    running := p.running.erase a
    begun := p.begun.erase a
    completed := p.completed ++ [a] }

/-- `take()`, or none while nothing has completed. -/
def take (p : ThreadPool α) : Option (α × ThreadPool α) :=
  match p.completed with
  | [] => none
  | a :: rest => some (a, { p with completed := rest })

/-- `shutdown()`: waiting tasks still run. -/
def shutdown (p : ThreadPool α) : ThreadPool α := { p with isShutdown := true }

/-- `shutdownNow()`: waiting tasks are removed. -/
def shutdownNow (p : ThreadPool α) : ThreadPool α := { p with isShutdown := true, queue := [] }

/-- `isTerminated()`. -/
def isTerminated (p : ThreadPool α) : Bool :=
  p.isShutdown && p.queue.isEmpty && p.running.isEmpty

/-- The tasks accepted and not yet taken. -/
def outstanding (p : ThreadPool α) : Nat :=
  p.queue.length + p.running.length + p.completed.length

/-- Those tasks: waiting, running, or completed and not taken. -/
def flight (p : ThreadPool α) : List α := p.queue ++ p.running ++ p.completed

/-- The tasks that wait or run. -/
def held (p : ThreadPool α) : List α := p.queue ++ p.running

/-- Every task that has a worker has begun. -/
def AllBegun [BEq α] (p : ThreadPool α) : Prop :=
  ∀ a ∈ p.running, p.running.count a ≤ p.begun.count a

instance [BEq α] (p : ThreadPool α) : Decidable p.AllBegun :=
  inferInstanceAs (Decidable (∀ a ∈ p.running, p.running.count a ≤ p.begun.count a))

theorem submit_eq_none_iff (p : ThreadPool α) (a : α) :
    p.submit a = none ↔ p.isShutdown = true := by
  unfold submit
  by_cases hclosed : p.isShutdown = true
  · simp [hclosed]
  · by_cases hroom : p.workers < p.size
    · simp [hclosed, hroom]
    · simp [hclosed, hroom]

/-- A submission is accepted by an open pool only, leaves it open and adds one
    task. -/
theorem outstanding_submit {p p' : ThreadPool α} {a : α} (h : p.submit a = some p') :
    p.isShutdown = false ∧ p'.isShutdown = false ∧ p'.outstanding = p.outstanding + 1 := by
  unfold submit at h
  split at h
  · exact absurd h (by simp only [reduceCtorEq, not_false_eq_true])
  · rename_i hopen
    have hopen' : p.isShutdown = false := Bool.not_eq_true _ ▸ hopen
    split at h
    · simp only [Option.some.injEq] at h
      subst h
      refine ⟨hopen', hopen', ?_⟩
      unfold outstanding
      simp only [List.length_append, List.length_singleton]
      omega
    · simp only [Option.some.injEq] at h
      subst h
      refine ⟨hopen', hopen', ?_⟩
      unfold outstanding
      simp only [List.length_append, List.length_singleton]
      omega

theorem outstanding_submitAll {p p' : ThreadPool α} {as : List α}
    (h : p.submitAll as = some p') :
    p'.isShutdown = p.isShutdown ∧ p'.outstanding = p.outstanding + as.length := by
  induction as generalizing p with
  | nil =>
      simp only [submitAll, Option.some.injEq] at h
      subst h
      exact ⟨rfl, rfl⟩
  | cons a as ih =>
      unfold submitAll at h
      rcases hs : p.submit a with _ | q
      · rw [hs] at h
        exact absurd h (by simp only [Option.bind_none, reduceCtorEq, not_false_eq_true])
      · rw [hs, Option.bind_some] at h
        -- The first submission adds one, the others the rest.
        obtain ⟨hp, hq, hcount⟩ := outstanding_submit hs
        obtain ⟨hopen, htotal⟩ := ih h
        refine ⟨by rw [hopen, hq, hp], ?_⟩
        rw [htotal, hcount, List.length_cons]
        omega

/-- While there are fewer workers than the pool's size, every task gets a
    worker at once. -/
theorem submitAll_running (p : ThreadPool α) (as : List α) (hopen : p.isShutdown = false)
    (hroom : p.workers + as.length ≤ p.size) :
    p.submitAll as =
      some { p with workers := p.workers + as.length, running := p.running ++ as } := by
  induction as generalizing p with
  | nil => simp only [submitAll, List.length_nil, Nat.add_zero, List.append_nil]
  | cons a as ih =>
      rw [List.length_cons] at hroom
      -- There is a worker for this task, and one less for the others.
      have hsubmit : p.submit a =
          some { p with workers := p.workers + 1, running := p.running ++ [a] } := by
        unfold submit
        rw [hopen, if_neg Bool.false_ne_true, if_pos (by omega)]
      have hrest := ih { p with workers := p.workers + 1, running := p.running ++ [a] } hopen
        (by simp only; omega)
      unfold submitAll
      rw [hsubmit, Option.bind_some, hrest]
      simp only [List.length_cons, List.append_assoc, List.singleton_append, Nat.add_assoc,
        Nat.add_comm 1]

/-- Picking moves a task from the queue to a worker. -/
theorem outstanding_pick {p p' : ThreadPool α} (h : p.pick = some p') :
    p'.isShutdown = p.isShutdown ∧ p'.outstanding = p.outstanding ∧
      (p.queue = [] → p'.queue = []) := by
  unfold pick at h
  rcases hq : p.queue with _ | ⟨a, rest⟩
  · rw [hq] at h
    exact absurd h (by simp only [reduceCtorEq, not_false_eq_true])
  · rw [hq] at h
    simp only at h
    split at h
    · simp only [Option.some.injEq] at h
      subst h
      refine ⟨rfl, ?_, fun hnil => absurd hnil (by simp only [reduceCtorEq, not_false_eq_true])⟩
      unfold outstanding
      simp only [hq, List.length_append, List.length_cons, List.length_nil]
      omega
    · exact absurd h (by simp only [reduceCtorEq, not_false_eq_true])

theorem outstanding_finish [BEq α] [LawfulBEq α] {p : ThreadPool α} {a : α} (h : a ∈ p.running) :
    (p.finish a).outstanding = p.outstanding := by
  have hpos := List.length_pos_of_mem h
  unfold finish outstanding
  simp only [List.length_append, List.length_singleton, List.length_erase_of_mem h]
  omega

theorem outstanding_take {p p' : ThreadPool α} {a : α} (h : p.take = some (a, p')) :
    p'.isShutdown = p.isShutdown ∧ p'.queue = p.queue ∧
      p.outstanding = p'.outstanding + 1 := by
  unfold take at h
  rcases hc : p.completed with _ | ⟨b, rest⟩
  · rw [hc] at h
    exact absurd h (by simp only [reduceCtorEq, not_false_eq_true])
  · rw [hc] at h
    simp only [Option.some.injEq, Prod.mk.injEq] at h
    obtain ⟨-, rfl⟩ := h
    refine ⟨rfl, rfl, ?_⟩
    unfold outstanding
    simp only [hc, List.length_cons]
    omega

/-- Closing a pool loses exactly the waiting tasks. -/
theorem outstanding_shutdownNow (p : ThreadPool α) :
    p.shutdownNow.outstanding + p.queue.length = p.outstanding := by
  unfold shutdownNow outstanding
  simp only [List.length_nil]
  omega

theorem length_flight (p : ThreadPool α) : p.flight.length = p.outstanding := by
  unfold flight outstanding
  rw [List.length_append, List.length_append]

theorem flight_submit {p p' : ThreadPool α} {a : α} (h : p.submit a = some p') :
    p'.flight.Perm (a :: p.flight) := by
  unfold submit at h
  split at h
  · exact absurd h (by simp only [reduceCtorEq, not_false_eq_true])
  -- The task goes to a new worker or to the end of the queue.
  · split at h
    · rw [← Option.some.inj h]
      unfold flight
      simp only [List.append_assoc, List.singleton_append]
      rw [← List.append_assoc, ← List.append_assoc]
      exact List.perm_middle
    · rw [← Option.some.inj h]
      unfold flight
      simp only [List.append_assoc, List.singleton_append]
      exact List.perm_middle

theorem flight_submitAll {p p' : ThreadPool α} {as : List α} (h : p.submitAll as = some p') :
    p'.flight.Perm (as ++ p.flight) := by
  induction as generalizing p with
  | nil =>
      simp only [submitAll, Option.some.injEq] at h
      rw [h]
      exact List.Perm.refl _
  | cons a as ih =>
      unfold submitAll at h
      obtain ⟨q, hsubmit, hrest⟩ := Option.bind_eq_some_iff.mp h
      refine (ih hrest).trans (((flight_submit hsubmit).append_left as).trans ?_)
      exact List.perm_middle

theorem flight_pick {p p' : ThreadPool α} (h : p.pick = some p') : p'.flight.Perm p.flight := by
  unfold pick at h
  split at h
  · exact absurd h (by simp only [reduceCtorEq, not_false_eq_true])
  · rename_i a rest hqueue
    split at h
    · rw [← Option.some.inj h]
      unfold flight
      rw [hqueue]
      refine List.Perm.append_right _ ?_
      rw [← List.append_assoc]
      exact List.perm_append_singleton a _
    · exact absurd h (by simp only [reduceCtorEq, not_false_eq_true])

theorem flight_finish [BEq α] [LawfulBEq α] {p : ThreadPool α} {a : α} (h : a ∈ p.running) :
    (p.finish a).flight.Perm p.flight := by
  unfold finish flight
  simp only [List.append_assoc]
  refine List.Perm.append_left _ ?_
  rw [← List.append_assoc]
  -- From the end to the front, and back into its place.
  exact (List.perm_append_singleton a _).trans ((List.perm_cons_erase h).symm.append_right _)

theorem flight_take {p p' : ThreadPool α} {a : α} (h : p.take = some (a, p')) :
    p.flight.Perm (a :: p'.flight) := by
  unfold take at h
  split at h
  · exact absurd h (by simp only [reduceCtorEq, not_false_eq_true])
  · rename_i b rest hcompleted
    simp only [Option.some.injEq, Prod.mk.injEq] at h
    obtain ⟨rfl, rfl⟩ := h
    unfold flight
    rw [hcompleted]
    exact List.perm_middle

section Held

variable [BEq α]

theorem count_held_submit {p p' : ThreadPool α} {a : α} (x : α) (h : p.submit a = some p') :
    p'.held.count x = p.held.count x + if a == x then 1 else 0 := by
  unfold submit at h
  split at h
  · exact absurd h (by simp only [reduceCtorEq, not_false_eq_true])
  -- The task goes to a new worker or to the end of the queue.
  · split at h
    · rw [← Option.some.inj h]
      unfold held
      simp only [List.count_append, List.count_singleton]
      omega
    · rw [← Option.some.inj h]
      unfold held
      simp only [List.count_append, List.count_singleton]
      omega

theorem count_held_pick {p p' : ThreadPool α} (x : α) (h : p.pick = some p') :
    p'.held.count x = p.held.count x := by
  unfold pick at h
  split at h
  · exact absurd h (by simp only [reduceCtorEq, not_false_eq_true])
  · rename_i a rest hqueue
    split at h
    · rw [← Option.some.inj h]
      unfold held
      simp only [hqueue, List.count_append, List.count_cons, List.count_nil]
      omega
    · exact absurd h (by simp only [reduceCtorEq, not_false_eq_true])

theorem count_held_finish [LawfulBEq α] {p : ThreadPool α} {a : α} (x : α) (h : a ∈ p.running) :
    (p.finish a).held.count x + (if a == x then 1 else 0) = p.held.count x := by
  unfold finish held
  simp only [List.count_append, List.count_erase]
  split
  · rename_i heq
    have := List.count_pos_iff.mpr ((eq_of_beq heq) ▸ h)
    omega
  · omega

end Held

section Begun

variable [BEq α]

theorem begin_eq_some_iff {p p' : ThreadPool α} {a : α} :
    p.begin a = some p' ↔
      p.begun.count a < p.running.count a ∧ { p with begun := p.begun ++ [a] } = p' := by
  unfold ThreadPool.begin
  rw [Option.ite_none_right_eq_some, Option.some.injEq]

theorem AllBegun.begin_eq_none [LawfulBEq α] {p : ThreadPool α} (hp : p.AllBegun) (a : α) :
    p.begin a = none := by
  refine if_neg fun hlt => ?_
  have hle := hp a (List.count_pos_iff.mp (Nat.zero_lt_of_lt hlt))
  omega

/-- A task that has a worker and has not begun can begin. -/
theorem exists_begin {p : ThreadPool α} (hp : ¬ p.AllBegun) :
    ∃ a, p.begin a = some { p with begun := p.begun ++ [a] } := by
  simp only [AllBegun, not_forall, exists_prop] at hp
  obtain ⟨a, -, hlt⟩ := hp
  exact ⟨a, if_pos (Nat.lt_of_not_le hlt)⟩

theorem AllBegun.finish [LawfulBEq α] {p : ThreadPool α} (hp : p.AllBegun) (a : α) :
    (p.finish a).AllBegun := by
  intro b hb
  have hle := hp b (List.mem_of_mem_erase hb)
  simp only [ThreadPool.finish, List.count_erase]
  omega

end Begun

section Serial

/-- The tasks that have completed, run and wait. -/
def accepted (p : ThreadPool α) : List α := p.completed ++ p.running ++ p.queue

/-- A pool of one worker: it runs one task at a time, and nothing waits before
    it is there. -/
structure Serial (p : ThreadPool α) : Prop where
  size : p.size = 1
  workers : p.workers ≤ 1
  running : p.running.length ≤ p.workers
  waits : p.workers = 0 → p.queue = []

theorem serial_newFixed : (newFixed 1 : ThreadPool α).Serial :=
  ⟨rfl, Nat.zero_le 1, Nat.le_refl 0, fun _ => rfl⟩

theorem Serial.submit {p p' : ThreadPool α} {a : α} (hp : p.Serial) (h : p.submit a = some p') :
    p'.Serial ∧ p'.accepted = p.accepted ++ [a] := by
  have hsize := hp.size
  have hworkers := hp.workers
  have hrunning := hp.running
  unfold ThreadPool.submit at h
  split at h
  · exact absurd h (by simp only [reduceCtorEq, not_false_eq_true])
  split at h
  -- The first task of all meets an empty queue.
  · rename_i hroom
    have hqueue := hp.waits (by omega)
    rw [← Option.some.inj h]
    refine ⟨⟨hsize, ?_, ?_, fun _ => hqueue⟩, ?_⟩
    · simp only
      omega
    · simp only [List.length_append, List.length_singleton]
      omega
    · unfold accepted
      simp only [hqueue, List.append_nil, List.append_assoc]
  · rename_i hfull
    rw [← Option.some.inj h]
    refine ⟨⟨hsize, hworkers, hrunning, fun hnone => ?_⟩, ?_⟩
    · simp only at hnone
      omega
    · unfold accepted
      simp only [List.append_assoc]

theorem Serial.pick {p p' : ThreadPool α} (hp : p.Serial) (h : p.pick = some p') :
    p'.Serial ∧ p'.accepted = p.accepted := by
  have hworkers := hp.workers
  unfold ThreadPool.pick at h
  split at h
  · exact absurd h (by simp only [reduceCtorEq, not_false_eq_true])
  rename_i a rest hqueue
  split at h
  -- The worker had nothing to run.
  · rename_i hidle
    have hnone : p.running = [] := List.length_eq_zero_iff.mp (by omega)
    rw [← Option.some.inj h]
    refine ⟨⟨hp.size, hworkers, ?_, fun hzero => ?_⟩, ?_⟩
    · simp only [hnone, List.nil_append, List.length_singleton]
      omega
    · simp only at hzero
      omega
    · unfold accepted
      simp only [hnone, hqueue, List.nil_append, List.append_nil, List.append_assoc,
        List.singleton_append]
  · exact absurd h (by simp only [reduceCtorEq, not_false_eq_true])

theorem Serial.begin [BEq α] {p p' : ThreadPool α} {a : α} (hp : p.Serial)
    (h : p.begin a = some p') : p'.Serial ∧ p'.accepted = p.accepted := by
  rw [← (begin_eq_some_iff.mp h).2]
  exact ⟨⟨hp.size, hp.workers, hp.running, hp.waits⟩, rfl⟩

theorem Serial.finish [BEq α] [LawfulBEq α] {p : ThreadPool α} {a : α} (hp : p.Serial)
    (h : a ∈ p.running) : (p.finish a).Serial ∧ (p.finish a).accepted = p.accepted := by
  have hlen := hp.running
  have hworkers := hp.workers
  have honly : p.running = [a] := by
    rcases hrunning : p.running with _ | ⟨b, _ | ⟨c, rest⟩⟩
    · rw [hrunning] at h
      exact absurd h List.not_mem_nil
    · rw [hrunning, List.mem_singleton] at h
      rw [h]
    · rw [hrunning, List.length_cons, List.length_cons] at hlen
      omega
  have hnone : (p.finish a).running = [] := by
    unfold ThreadPool.finish
    rw [honly, List.erase_cons_head]
  refine ⟨⟨hp.size, hworkers, ?_, hp.waits⟩, ?_⟩
  · rw [hnone]
    exact Nat.zero_le _
  · unfold accepted
    rw [hnone, honly]
    unfold ThreadPool.finish
    simp only [List.append_nil]

theorem Serial.shutdown {p : ThreadPool α} (hp : p.Serial) :
    p.shutdown.Serial ∧ p.shutdown.accepted = p.accepted :=
  ⟨⟨hp.size, hp.workers, hp.running, hp.waits⟩, rfl⟩

/-- Tasks that are thrown away were the last ones. -/
theorem Serial.shutdownNow {p : ThreadPool α} (hp : p.Serial) :
    p.shutdownNow.Serial ∧ p.shutdownNow.accepted <+: p.accepted := by
  refine ⟨⟨hp.size, hp.workers, hp.running, fun _ => rfl⟩, ?_⟩
  unfold accepted ThreadPool.shutdownNow
  simp only [List.append_nil]
  exact List.prefix_append _ _

end Serial

end ThreadPool

end NetProbe
