import NetProbe.Lib.Machine

/-!
# The End-Call Timer of a Voice Test

A `VoiceTest` hears of the state of the phone. When a call is established it
schedules a task that hangs up after the time set for a call, and when the phone
is idle again it cancels the task it remembers. It remembers the latest one
only, so a second `OFFHOOK` in one call leaves a task that nobody cancels.

The machine has the events in any order and with repetitions, and the firing of
a task at any time after it was scheduled; a task that fires hangs up. Calls are
numbered: an `IDLE` event ends one, and a task belongs to the call it was
scheduled in. The history of the hang-ups holds, for each, the call of the task
and the call it hit.

## Main definitions

* `CallState`, `TaskStatus`, `EndCallTask`, `VoiceTimers`: The state of the
  machine.
* `update`, `fire`, `step`: An event, a firing, and one step.
* `OneCall`: Timers belong to one call.
* `Alone`: An event that schedules no second task.
* `Remembered`: The invariant: the field refers to the task that is pending.

## Theorems

* `step_oneCall`: Among the steps only a second task breaks `OneCall`.
* `timers_iff`: Timers belong to one call throughout exactly the runs in which
  no `OFFHOOK` comes while a task is pending.
-/

namespace NetProbe

open Machine

/-- The states the phone reports. -/
inductive CallState where
  | idle
  | ringing
  | offhook
  deriving DecidableEq, Repr

/-- What has become of a scheduled task. -/
inductive TaskStatus where
  | pending
  | done
  | cancelled
  deriving DecidableEq, Repr

/-- A scheduled task, with the call it was scheduled in. -/
structure EndCallTask where
  status : TaskStatus
  call : Nat
  deriving DecidableEq, Repr

/-- `future.isDone()`. -/
def EndCallTask.isDone (t : EndCallTask) : Bool := decide (t.status ≠ .pending)

/-- `tasks` are all tasks ever scheduled, and `endCallTask` the field, which
    refers to one of them. `call` counts the `IDLE` events, `afterIdle` says
    that the last event other than `RINGING` was one, and `hangUps` has, for
    each firing, the call of the task and the call it hit. -/
structure VoiceTimers where
  tasks : List EndCallTask
  endCallTask : Option Nat
  call : Nat
  afterIdle : Bool
  hangUps : List (Nat × Nat)
  deriving DecidableEq, Repr

namespace VoiceTimers

def fresh : VoiceTimers where
  tasks := []
  endCallTask := none
  call := 0
  afterIdle := false
  hangUps := []

/-- `endCallTask.cancel(true)`, unless there is none or it is done. -/
def cancelled (s : VoiceTimers) : List EndCallTask :=
  match s.endCallTask with
  | none => s.tasks
  | some i =>
      match s.tasks[i]? with
      | none => s.tasks
      | some t => if t.isDone then s.tasks else s.tasks.set i { t with status := .cancelled }

/-- `update(observable, state)`. -/
def update (s : VoiceTimers) : CallState → VoiceTimers
  | .idle => { s with tasks := s.cancelled, call := s.call + 1, afterIdle := true }
  -- The task of an earlier event is forgotten here, pending or not.
  | .offhook => { s with
      tasks := s.tasks ++ [⟨.pending, s.call⟩]
      endCallTask := some s.tasks.length
      afterIdle := false }
  | .ringing => s

/-- The scheduled task `i` runs: `endCall()`. -/
def fire (s : VoiceTimers) (i : Nat) : Option VoiceTimers :=
  match s.tasks[i]? with
  | none => none
  | some t =>
      if t.isDone then none
      else some { s with
        tasks := s.tasks.set i { t with status := .done }
        hangUps := s.hangUps ++ [(t.call, s.call)] }

inductive Label where
  | event (state : CallState)
  | fire (i : Nat)
  deriving DecidableEq, Repr

def step (s : VoiceTimers) : Label → Option VoiceTimers
  | .event state => some (s.update state)
  | .fire i => s.fire i

/-- The task waits for its time. -/
def Pending (s : VoiceTimers) (i : Nat) : Prop :=
  ∃ t, s.tasks[i]? = some t ∧ t.status = .pending

/-- Timers belong to one call: at most one task is pending, none is after an
    `IDLE` until the next `OFFHOOK`, and no task has hung up another call than
    its own. -/
structure OneCall (s : VoiceTimers) : Prop where
  one : ∀ i j, s.Pending i → s.Pending j → i = j
  none : s.afterIdle = true → ∀ i, ¬ s.Pending i
  own : ∀ h ∈ s.hangUps, h.1 = h.2

/-- The event is no `OFFHOOK` while a task is pending. -/
def Alone (s : VoiceTimers) : Label → Prop
  | .event .offhook => ∀ i, ¬ s.Pending i
  | _ => True

instance (s : VoiceTimers) : (a : Label) → Decidable (s.Alone a)
  | .event .offhook => decidable_of_iff (∀ t ∈ s.tasks, t.status ≠ .pending) (by
      constructor
      · rintro hall i ⟨t, ht, hpending⟩
        exact hall t (List.mem_of_getElem? ht) hpending
      · intro hnone t ht hpending
        obtain ⟨i, hi⟩ := List.mem_iff_getElem?.mp ht
        exact hnone i ⟨t, hi, hpending⟩)
  | .event .idle | .event .ringing | .fire _ => isTrue trivial

/-- A pending task is the one remembered, and of the current call. -/
def Remembered (s : VoiceTimers) : Prop :=
  ∀ i t, s.tasks[i]? = some t → t.status = .pending → s.endCallTask = some i ∧ t.call = s.call

theorem Remembered.one {s : VoiceTimers} (h : s.Remembered) {i j : Nat} (hi : s.Pending i)
    (hj : s.Pending j) : i = j := by
  obtain ⟨t, ht, hpending⟩ := hi
  obtain ⟨u, hu, hpending'⟩ := hj
  exact Option.some.inj ((h i t ht hpending).1.symm.trans (h j u hu hpending').1)

/-- Cancelling the task remembered leaves none pending. -/
theorem cancelled_pending {s : VoiceTimers} (h : s.Remembered) {i : Nat} {t : EndCallTask}
    (ht : s.cancelled[i]? = some t) : t.status ≠ .pending := by
  intro hpending
  -- Only the task remembered could be pending before.
  have hfield : s.tasks[i]? = some t → s.endCallTask = some i :=
    fun hi => (h i t hi hpending).1
  unfold cancelled at ht
  split at ht
  · rename_i hnone
    rw [hfield ht] at hnone
    exact absurd hnone (Option.some_ne_none i)
  · rename_i j hj
    split at ht
    · rename_i hmissing
      obtain rfl : j = i := Option.some.inj (hj.symm.trans (hfield ht))
      rw [ht] at hmissing
      exact absurd hmissing (Option.some_ne_none t)
    · rename_i u hu
      split at ht
      · rename_i hdone
        obtain rfl : j = i := Option.some.inj (hj.symm.trans (hfield ht))
        obtain rfl : t = u := Option.some.inj (ht.symm.trans hu)
        exact absurd hpending (of_decide_eq_true hdone)
      · rw [List.getElem?_set] at ht
        split at ht
        · split at ht
          · rw [← Option.some.inj ht] at hpending
            exact absurd hpending TaskStatus.noConfusion
          · exact absurd ht (by simp only [reduceCtorEq, not_false_eq_true])
        · rename_i hne
          exact hne (Option.some.inj (hj.symm.trans (hfield ht)))

/-- What a step keeps, and that only a second task breaks it. -/
theorem step_oneCall {s s' : VoiceTimers} {a : Label} (hs : s.Remembered) (hone : s.OneCall)
    (h : s.step a = some s') : (s.Alone a → s'.Remembered) ∧ (s'.OneCall ↔ s.Alone a) := by
  cases a with
  | event state =>
      rw [step, Option.some.injEq] at h
      subst h
      cases state with
      | idle =>
          have hnone : ∀ i, ¬ (s.update .idle).Pending i :=
            fun i ⟨t, ht, hpending⟩ => cancelled_pending hs ht hpending
          refine ⟨fun _ i t ht hpending => absurd ⟨t, ht, hpending⟩ (hnone i),
            fun _ => trivial, fun _ => ⟨fun i j hi _ => absurd hi (hnone i), fun _ => hnone,
              hone.own⟩⟩
      | ringing => exact ⟨fun _ => hs, fun _ => trivial, fun _ => hone⟩
      | offhook =>
          -- The new task stands behind all others.
          have hnew : (s.update .offhook).Pending s.tasks.length :=
            ⟨⟨.pending, s.call⟩, List.getElem?_concat_length, rfl⟩
          have hold : ∀ i, s.Pending i → (s.update .offhook).Pending i := by
            rintro i ⟨t, ht, hpending⟩
            refine ⟨t, ?_, hpending⟩
            exact (List.getElem?_append_left (List.getElem?_eq_some_iff.mp ht).1).trans ht
          have hremembered : s.Alone (.event .offhook) → (s.update .offhook).Remembered := by
            intro halone i t ht hpending
            simp only [update] at ht ⊢
            rcases Nat.lt_trichotomy i s.tasks.length with hlt | rfl | hgt
            · rw [List.getElem?_append_left hlt] at ht
              exact absurd ⟨t, ht, hpending⟩ (halone i)
            · rw [List.getElem?_concat_length, Option.some.injEq] at ht
              exact ⟨rfl, by rw [← ht]⟩
            · rw [List.getElem?_eq_none (by rw [List.length_append, List.length_singleton]; omega)]
                at ht
              exact absurd ht (by simp only [reduceCtorEq, not_false_eq_true])
          refine ⟨hremembered, ?_, ?_⟩
          · intro hafter i hi
            have heq := hafter.one i s.tasks.length (hold i hi) hnew
            obtain ⟨t, ht, -⟩ := hi
            exact absurd (List.getElem?_eq_some_iff.mp ht).1 (by omega)
          · intro halone
            refine ⟨fun i j hi hj => (hremembered halone).one hi hj, ?_, hone.own⟩
            exact fun hidle => absurd hidle Bool.false_ne_true
  | fire i =>
      simp only [step, fire] at h
      split at h
      · exact absurd h (by simp only [reduceCtorEq, not_false_eq_true])
      rename_i t ht
      split at h
      · exact absurd h (by simp only [reduceCtorEq, not_false_eq_true])
      rename_i hdone
      rw [Option.some.injEq] at h
      subst h
      have hpending : t.status = .pending := by
        by_contra hne
        exact hdone (decide_eq_true hne)
      obtain ⟨hfield, hcall⟩ := hs i t ht hpending
      -- The task that fired was the only one pending.
      have hnone : ∀ (j : Nat) (u : EndCallTask),
          (s.tasks.set i { t with status := .done })[j]? = some u → u.status ≠ .pending := by
        intro j u hj hpending'
        rw [List.getElem?_set] at hj
        split at hj
        · split at hj
          · rw [← Option.some.inj hj] at hpending'
            exact absurd hpending' TaskStatus.noConfusion
          · exact absurd hj (by simp only [reduceCtorEq, not_false_eq_true])
        · rename_i hne
          exact hne (hs.one ⟨t, ht, hpending⟩ ⟨u, hj, hpending'⟩)
      refine ⟨fun _ j u hj hpending' => absurd hpending' (hnone j u hj), fun _ => trivial,
        fun _ => ⟨?_, ?_, ?_⟩⟩
      · rintro j k ⟨u, hj, hpending'⟩ -
        exact absurd hpending' (hnone j u hj)
      · rintro - j ⟨u, hj, hpending'⟩
        exact hnone j u hj hpending'
      · intro hangUp hmem
        rcases List.mem_append.mp hmem with hmem | hmem
        · exact hone.own hangUp hmem
        · rw [List.mem_singleton.mp hmem]
          exact hcall

/-- In every run, timers belong to one call in every state on the way exactly if
    no `OFFHOOK` comes while a task is pending. -/
theorem timers_iff (run : List Label) (s : VoiceTimers) (h : exec step fresh run = some s) :
    Throughout step OneCall fresh run ↔ Along step Alone fresh run := by
  refine throughout_iff_along step Alone Remembered OneCall
    (fun _ _ _ hs hone halone hstep => (step_oneCall hs hone hstep).1 halone)
    (fun _ _ _ hs hone hstep => (step_oneCall hs hone hstep).2) run fresh s ?_ ?_ h
  · intro i t ht
    exact absurd ht (by simp only [fresh, List.getElem?_nil, reduceCtorEq, not_false_eq_true])
  · refine ⟨?_, fun hidle => absurd hidle Bool.false_ne_true, fun _ hmem => ?_⟩
    · rintro i j ⟨t, ht, -⟩ -
      exact absurd ht (by simp only [fresh, List.getElem?_nil, reduceCtorEq, not_false_eq_true])
    · exact absurd hmem List.not_mem_nil

/-- Two calls, one ended by its timer and one by the other side. -/
def callsInTurn : List Label :=
  [.event .offhook, .fire 0, .event .idle, .event .ringing, .event .offhook, .event .idle]

/-- Nothing is pending before either call. -/
theorem timers_calls_in_turn :
    ∃ s, exec step fresh callsInTurn = some s ∧ Throughout step OneCall fresh callsInTurn := by
  obtain ⟨s, hs⟩ :=
    Option.isSome_iff_exists.mp (show (exec step fresh callsInTurn).isSome by decide)
  exact ⟨s, hs, (timers_iff callsInTurn s hs).mpr (by decide +kernel)⟩

/-- An `OFFHOOK` that is reported twice leaves a timer behind, which hangs up
    the next call. -/
theorem timer_hits_next_call :
    ∃ s ∈ exec step fresh [.event .offhook, .event .offhook, .event .idle],
      s.afterIdle = true ∧ s.Pending 0 ∧
      ∃ t ∈ exec step s [.event .offhook, .fire 0], t.hangUps = [(0, 1)] :=
  ⟨_, rfl, rfl, ⟨_, rfl, rfl⟩, _, rfl, rfl⟩

end VoiceTimers

end NetProbe
