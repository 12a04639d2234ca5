import Mathlib.Algebra.Order.Field.Rat
import Mathlib.Data.List.TakeWhile
import NetProbe.Lib.Machine
import NetProbe.Tests.Config

/-!
# The Watchdog of a Download Test

A download may stall. While a download test is in its `call` it is an observer
of the traffic statistics, which measure the rate once a second and tell their
observers. The test counts the seconds in which the rate was below 0.1 kbit/s,
from zero for each download and from zero again after any other rate, and stops
the download when it has counted more than thirty.

The counter is an `int` that wraps, it is written by two threads, and nothing
guards it. It is set to zero by the test thread before a download is made, and
`++` reads it, adds one and writes it back, so a zero written in between is
lost. The task that measures is scheduled when the first observer registers and
cancelled when the last one has gone. Cancelling does not wait for a run of the
task that is under way, and such a run may tell the test that registers next.

The machine has a list of tests on the test thread, one after the other, with
any way for a download to end, and the runs of every schedule of the task, step
by step and with any traffic. Rates are exact here, a `float` in the source:
rounding is monotone, and the rates of 12 and of 13 bytes lie on the two sides
of the limit. Kept on the side are the rates a test has been told, all of them
and those since its counter was last set to zero, and the stops.

## Main definitions

* `TickPc`, `Schedule`, `CallPc`, `Tester`, `Watchdog`: The state of the machine.
* `callStep`, `runStep`, `step`: The steps of the two threads.
* `silence`: How many of the last rates were below the limit.
* `Prompt`: A test registers when no run of the task is under way.
* `Apart`: The counter is not set to zero in the middle of an update either, and
  the download is made soon after.
* `JustStopped`: The last rates have made the task stop the download of the test.
* `counterOf`: A number of rates as an `int` has it.
* `Held`, `Single`, `Counts`, `Recorded`: The invariants.
* `Gauge`: What the counter is compared with.

## Theorems

* `step_held`: The observers and the schedules, in any run.
* `step_early`, `step_exact`: The counter, in a run of either kind.
* `stops_need_silence`: The task stops a download only in silence.
* `stopped_exactly`: It has stopped the download that the test holds exactly when
  the counter of its silence is above thirty.
* `watchdog_released`: One schedule at a time, and none without a test.
-/

namespace NetProbe

/-- Where a run of the task is: not running, before `notifyObservers`, before
    the next `update`, or within the update of a test. -/
inductive TickPc where
  | waiting
  | measured
  | notifying (observers : List Nat)
  | quiet (test : Nat) (observers : List Nat)
  | counting (test : Nat) (read : BitVec 32) (observers : List Nat)
  | counted (test : Nat) (observers : List Nat)
  | stopping (test : Nat) (observers : List Nat)
  deriving DecidableEq, Repr

/-- The test that is within its update. -/
def TickPc.updates : TickPc → Option Nat
  | .waiting | .measured | .notifying _ => none
  | .quiet test _ | .counting test _ _ | .counted test _ | .stopping test _ => some test

/-- The tests that the run is still to tell, or is telling. -/
def TickPc.tests : TickPc → List Nat
  | .waiting | .measured => []
  | .notifying observers => observers
  | .quiet test observers | .counting test _ observers | .counted test observers
  | .stopping test observers => test :: observers

/-- A schedule of the task, which goes on until it is cancelled or a run throws. -/
structure Schedule where
  alive : Bool
  pc : TickPc
  deriving DecidableEq, Repr

/-- Where the test thread is in `call`, or before it. -/
inductive CallPc where
  | register
  | baseline
  | add
  | loop
  | create
  | download
  | sleep
  | finish
  | delete
  | cancel
  deriving DecidableEq, Repr

/-- The fields of a test that the watchdog works on, with the rates it has been
    told: all, and those since the counter was last set to zero, which happens
    once in each `round`. -/
structure Tester where
  rxkpsZeroCount : BitVec 32
  httpDownload : Option Nat
  heard : List ℚ
  round : Nat
  own : List ℚ

/-- The counter is set to zero for the next download. -/
def Tester.restarted (t : Tester) : Tester :=
  { t with rxkpsZeroCount := 0, round := t.round + 1, own := [] }

/-- Nothing has been told in between, and the counter has not been set to zero. -/
def Tester.SameAs (t t' : Tester) : Prop := t.round = t'.round ∧ t.own = t'.own

/-- A call of `httpDownload.stop()` in an update, with the number of the download
    and the fields of the test at that moment. -/
structure TickStop where
  test : Nat
  download : Nat
  tester : Tester

/-- The task with its observers and schedules, the test thread with the number
    of its test and the downloads left to it, and the tests. -/
structure Watchdog where
  observers : List Nat
  futureTask : Option Nat
  uidRxBytes : Int
  uidRxkps : ℚ
  changed : Bool
  schedules : List Schedule
  test : Nat
  pc : CallPc
  left : Nat
  created : Nat
  testers : Nat → Tester
  stops : List TickStop

/-- The downloads of a test, `count` for each row. -/
def HttpDownloadTest.downloads (t : HttpDownloadTest) : Nat :=
  (t.httpCfgList.map fun httpCfg => httpCfg.count.toNat).sum

namespace Watchdog

open Machine

def fresh : Watchdog where
  observers := []
  futureTask := none
  uidRxBytes := 0
  uidRxkps := 0
  changed := false
  schedules := []
  test := 0
  pc := .register
  left := 0
  created := 0
  testers := fun _ => ⟨0, none, [], 0, []⟩
  stops := []

/-- The fields of a test are changed. -/
def tell (s : Watchdog) (k : Nat) (tester : Tester) : Watchdog :=
  { s with testers := Function.update s.testers k tester }

/-- `future.cancel(true)`: a run that is under way goes on. -/
def cancelled (s : Watchdog) (i : Nat) : List Schedule :=
  s.schedules.modify i fun schedule => { schedule with alive := false }

/-- The next step of the test thread; `bytes` is what `getUidRxBytes` answers. -/
def callStep (tests : List HttpDownloadTest) (s : Watchdog) (bytes : Int) : Option Watchdog :=
  match s.pc with
  | .register =>
      if s.test < tests.length then
        if s.observers.length = 0 then
          some { s with
            schedules := s.schedules ++ [⟨true, .waiting⟩]
            futureTask := some s.schedules.length
            pc := .baseline }
        else some { s with pc := .add }
      else none
  | .baseline => some { s with uidRxBytes := bytes, pc := .add }
  | .add => some { s with
      observers := if s.test ∈ s.observers then s.observers else s.observers ++ [s.test]
      left := (tests[s.test]?.map HttpDownloadTest.downloads).getD 0
      pc := .loop }
  | .loop =>
      match s.left with
      | 0 => some { s with pc := .finish }
      | left + 1 => some ({ s with left := left, pc := .create }.tell s.test
          (s.testers s.test).restarted)
  | .create => some ({ s with created := s.created + 1, pc := .download }.tell s.test
      { s.testers s.test with httpDownload := some s.created })
  | .download => some { s with pc := .sleep }
  | .sleep => some { s with pc := .loop }
  | .finish => some { s with pc := .delete }
  | .delete => some { s with observers := s.observers.erase s.test, pc := .cancel }
  | .cancel => some { s with
      schedules := if s.observers.length = 0 then (s.futureTask.map s.cancelled).getD s.schedules
        else s.schedules
      test := s.test + 1
      pc := .register }

/-- An exception out of `download` or `sleep`, an interrupt or another one. -/
def throwStep (s : Watchdog) : Option Watchdog :=
  match s.pc with
  | .download | .sleep => some { s with pc := .finish }
  | _ => none

/-- The tester has been told the rate. -/
def told (s : Watchdog) (k : Nat) : Tester :=
  { s.testers k with
    heard := (s.testers k).heard ++ [s.uidRxkps]
    own := (s.testers k).own ++ [s.uidRxkps] }

/-- The next step of a run of a schedule, or its first one if `bytes` have been
    received by then. `throws` says that the download is adding its tasks while
    `stop` goes through them. -/
def taskStep (s : Watchdog) (schedule : Schedule) (bytes : Int) (throws : Bool) :
    Option (Watchdog × Schedule) :=
  match schedule.pc with
  | .waiting =>
      if schedule.alive then
        some ({ s with
            uidRxkps := 8 * (bytes - s.uidRxBytes) / 1000
            uidRxBytes := bytes
            changed := true },
          { schedule with pc := .measured })
      else none
  | .measured =>
      if s.changed then
        some ({ s with changed := false }, { schedule with pc := .notifying s.observers })
      else some (s, { schedule with pc := .waiting })
  | .notifying [] => some (s, { schedule with pc := .waiting })
  | .notifying (k :: rest) =>
      if s.uidRxkps < 1 / 10 then some (s.tell k (s.told k), { schedule with pc := .quiet k rest })
      else
        some (s.tell k { s.told k with rxkpsZeroCount := 0 },
          { schedule with pc := .notifying rest })
  | .quiet k rest =>
      some (s, { schedule with pc := .counting k (s.testers k).rxkpsZeroCount rest })
  | .counting k read rest =>
      some (s.tell k { s.testers k with rxkpsZeroCount := read + 1 },
        { schedule with pc := .counted k rest })
  | .counted k rest =>
      some (s, { schedule with
        pc := if 30 < (s.testers k).rxkpsZeroCount.toInt then .stopping k rest
          else .notifying rest })
  | .stopping k rest =>
      match (s.testers k).httpDownload with
      | none => some (s, ⟨false, .waiting⟩)
      | some d =>
          some ({ s with stops := s.stops ++ [⟨k, d, s.testers k⟩] },
            if throws && s.pc = .download then ⟨false, .waiting⟩
            else { schedule with pc := .notifying rest })

def runStep (s : Watchdog) (i : Nat) (bytes : Int) (throws : Bool) : Option Watchdog :=
  s.schedules[i]?.bind fun schedule =>
    (s.taskStep schedule bytes throws).map fun (s', schedule') =>
      { s' with schedules := s.schedules.set i schedule' }

inductive Label where
  | call (bytes : Int)
  | throw
  | run (i : Nat) (bytes : Int) (throws : Bool)
  deriving DecidableEq, Repr

def step (tests : List HttpDownloadTest) (s : Watchdog) : Label → Option Watchdog
  | .call bytes => s.callStep tests bytes
  | .throw => s.throwStep
  | .run i bytes throws => s.runStep i bytes throws

/-- Where the runs are, one for each schedule. -/
def pcs (s : Watchdog) : List TickPc := s.schedules.map Schedule.pc

/-- A test registers when no run of the task is under way. -/
def Prompt (s : Watchdog) : Label → Prop
  | .call _ => s.pc = .register → ∀ pc ∈ s.pcs, pc = .waiting
  | _ => True

/-- Nor is the counter set to zero in the middle of an update, and from there it
    takes no more than thirty rates until the new download is in its field. -/
def Apart (s : Watchdog) : Label → Prop
  | .call bytes => s.Prompt (.call bytes)
      ∧ (s.pc = .loop → ∀ pc ∈ s.pcs, pc.updates ≠ some s.test)
      ∧ (s.pc = .create → (s.testers s.test).own.length ≤ 30)
  | _ => True

instance (s : Watchdog) : (a : Label) → Decidable (s.Prompt a)
  | .call _ => inferInstanceAs (Decidable (s.pc = .register → ∀ pc ∈ s.pcs, pc = .waiting))
  | .throw | .run _ _ _ => isTrue trivial

instance (s : Watchdog) : (a : Label) → Decidable (s.Apart a)
  | .call bytes => inferInstanceAs (Decidable (s.Prompt (.call bytes)
      ∧ (s.pc = .loop → ∀ pc ∈ s.pcs, pc.updates ≠ some s.test)
      ∧ (s.pc = .create → (s.testers s.test).own.length ≤ 30)))
  | .throw | .run _ _ _ => isTrue trivial

/-! ### Schedules and observers -/

/-- What a step of a run leaves as it is, and what it may do. -/
structure Framed (s t : Watchdog) (schedule schedule' : Schedule) : Prop where
  observers : t.observers = s.observers
  futureTask : t.futureTask = s.futureTask
  test : t.test = s.test
  pc : t.pc = s.pc
  alive : schedule'.alive = true → schedule.alive = true
  started : schedule.pc = .waiting → schedule.alive = true
  tests : ∀ k ∈ schedule'.pc.tests, k ∈ schedule.pc.tests ∨ k ∈ s.observers
  testers : ∀ k, k ∉ schedule.pc.tests → t.testers k = s.testers k
  stops : ∀ c ∈ s.stops, c ∈ t.stops

theorem tell_of_ne {s : Watchdog} {k j : Nat} {tester : Tester} (h : j ≠ k) :
    (s.tell k tester).testers j = s.testers j := Function.update_of_ne h _ _

theorem tell_self (s : Watchdog) (k : Nat) (tester : Tester) :
    (s.tell k tester).testers k = tester := Function.update_self _ _ _

theorem taskStep_framed {s t : Watchdog} {schedule schedule' : Schedule} {bytes : Int}
    {throws : Bool} (h : s.taskStep schedule bytes throws = some (t, schedule')) :
    Framed s t schedule schedule' := by
  obtain ⟨alive, pc⟩ := schedule
  cases pc with
  | waiting =>
      simp only [taskStep] at h
      split at h
      · rename_i halive
        obtain ⟨rfl, rfl⟩ := Prod.mk.inj (Option.some.inj h)
        exact ⟨rfl, rfl, rfl, rfl, id, fun _ => halive, fun _ hk => absurd hk List.not_mem_nil,
          fun _ _ => rfl, fun _ => id⟩
      · exact absurd h (by simp only [reduceCtorEq, not_false_eq_true])
  | measured =>
      simp only [taskStep] at h
      split at h
      · obtain ⟨rfl, rfl⟩ := Prod.mk.inj (Option.some.inj h)
        exact ⟨rfl, rfl, rfl, rfl, id, TickPc.noConfusion, fun _ hk => .inr hk, fun _ _ => rfl,
          fun _ => id⟩
      · obtain ⟨rfl, rfl⟩ := Prod.mk.inj (Option.some.inj h)
        exact ⟨rfl, rfl, rfl, rfl, id, TickPc.noConfusion, fun _ hk => .inl hk, fun _ _ => rfl,
          fun _ => id⟩
  | notifying observers =>
      cases observers with
      | nil =>
          obtain ⟨rfl, rfl⟩ := Prod.mk.inj (Option.some.inj h)
          exact ⟨rfl, rfl, rfl, rfl, id, TickPc.noConfusion, fun _ hk => .inl hk, fun _ _ => rfl,
            fun _ => id⟩
      | cons k rest =>
          simp only [taskStep] at h
          split at h
          · obtain ⟨rfl, rfl⟩ := Prod.mk.inj (Option.some.inj h)
            exact ⟨rfl, rfl, rfl, rfl, id, TickPc.noConfusion, fun _ hk => .inl hk,
              fun _ hk => tell_of_ne (List.ne_of_not_mem_cons hk), fun _ => id⟩
          · obtain ⟨rfl, rfl⟩ := Prod.mk.inj (Option.some.inj h)
            exact ⟨rfl, rfl, rfl, rfl, id, TickPc.noConfusion,
              fun _ hk => .inl (List.mem_cons_of_mem k hk),
              fun _ hk => tell_of_ne (List.ne_of_not_mem_cons hk), fun _ => id⟩
  | quiet k rest =>
      obtain ⟨rfl, rfl⟩ := Prod.mk.inj (Option.some.inj h)
      exact ⟨rfl, rfl, rfl, rfl, id, TickPc.noConfusion, fun _ hk => .inl hk, fun _ _ => rfl,
        fun _ => id⟩
  | counting k read rest =>
      obtain ⟨rfl, rfl⟩ := Prod.mk.inj (Option.some.inj h)
      exact ⟨rfl, rfl, rfl, rfl, id, TickPc.noConfusion, fun _ hk => .inl hk,
        fun _ hk => tell_of_ne (List.ne_of_not_mem_cons hk), fun _ => id⟩
  | counted k rest =>
      obtain ⟨rfl, rfl⟩ := Prod.mk.inj (Option.some.inj h)
      refine ⟨rfl, rfl, rfl, rfl, id, TickPc.noConfusion, fun j hj => .inl ?_, fun _ _ => rfl,
        fun _ => id⟩
      split at hj
      · exact hj
      · exact List.mem_cons_of_mem k hj
  | stopping k rest =>
      simp only [taskStep] at h
      split at h
      · obtain ⟨rfl, rfl⟩ := Prod.mk.inj (Option.some.inj h)
        exact ⟨rfl, rfl, rfl, rfl, fun halive => absurd halive Bool.false_ne_true,
          TickPc.noConfusion, fun _ hk => absurd hk List.not_mem_nil, fun _ _ => rfl, fun _ => id⟩
      · obtain ⟨rfl, rfl⟩ := Prod.mk.inj (Option.some.inj h)
        refine ⟨rfl, rfl, rfl, rfl, fun halive => ?_, TickPc.noConfusion, fun j hj => .inl ?_,
          fun _ _ => rfl, fun _ hc => List.mem_append_left _ hc⟩
        · split at halive
          · exact absurd halive Bool.false_ne_true
          · exact halive
        · split at hj
          · exact absurd hj List.not_mem_nil
          · exact List.mem_cons_of_mem k hj

theorem runStep_eq_some {s s' : Watchdog} {i : Nat} {bytes : Int} {throws : Bool} :
    s.runStep i bytes throws = some s' ↔ ∃ schedule t schedule', s.schedules[i]? = some schedule
      ∧ s.taskStep schedule bytes throws = some (t, schedule')
      ∧ { t with schedules := s.schedules.set i schedule' } = s' := by
  simp only [runStep, Option.bind_eq_some_iff, Option.map_eq_some_iff, Prod.exists]
  constructor
  · rintro ⟨schedule, hi, t, schedule', ht, heq⟩
    exact ⟨schedule, t, schedule', hi, ht, heq⟩
  · rintro ⟨schedule, t, schedule', hi, ht, heq⟩
    exact ⟨schedule, hi, t, schedule', ht, heq⟩

/-- The test thread is between `addObserver` and `deleteObserver`. -/
def registered : CallPc → Bool
  | .loop | .create | .download | .sleep | .finish | .delete => true
  | .register | .baseline | .add | .cancel => false

/-- The number of the schedules, one for each test that has registered. -/
def scheduled (s : Watchdog) : Nat := if s.pc = .register then s.test else s.test + 1

/-- The test in its `call` is the one observer, and only its schedule is alive. -/
structure Held (s : Watchdog) : Prop where
  observers : s.observers = if registered s.pc then [s.test] else []
  length : s.schedules.length = s.scheduled
  futureTask : s.pc ≠ .register → s.futureTask = some s.test
  alive : ∀ (i : Nat) (schedule : Schedule), s.schedules[i]? = some schedule →
    schedule.alive = true → i = s.test

/-- A step within `call` that makes no schedule and cancels none. -/
theorem Held.moves {s s' : Watchdog} (hs : s.Held) (hpc : s.pc ≠ .register)
    (hpc' : s'.pc ≠ .register) (hsch : s'.schedules = s.schedules) (htest : s'.test = s.test)
    (hfuture : s'.futureTask = s.futureTask)
    (hobs : s'.observers = if registered s'.pc then [s.test] else []) : s'.Held := by
  refine ⟨by rw [hobs, htest], ?_, fun _ => ?_, fun i schedule hi halive => ?_⟩
  · rw [hsch, hs.length, scheduled, scheduled, if_neg hpc, if_neg hpc', htest]
  · rw [hfuture, htest]
    exact hs.futureTask hpc
  · rw [hsch] at hi
    rw [htest]
    exact hs.alive i schedule hi halive

theorem callStep_held {tests : List HttpDownloadTest} {s s' : Watchdog} {bytes : Int}
    (hs : s.Held) (h : s.callStep tests bytes = some s') : s'.Held := by
  have hobs := hs.observers
  cases hpc : s.pc with
  | register =>
      have hlen := hs.length
      rw [scheduled, if_pos hpc] at hlen
      rw [hpc] at hobs
      have hzero : s.observers.length = 0 := congrArg List.length hobs
      simp only [callStep, hpc, if_pos hzero] at h
      split at h
      · obtain rfl := Option.some.inj h
        refine ⟨hobs, ?_, fun _ => congrArg some hlen, fun i schedule hi halive => ?_⟩
        · exact List.length_append.trans (congrArg (· + 1) hlen)
        · -- No schedule before was alive.
          rcases Nat.lt_or_ge i s.schedules.length with hlt | hge
          · rw [List.getElem?_append_left hlt] at hi
            exact hs.alive i schedule hi halive
          · have hbound := (List.getElem?_eq_some_iff.mp hi).1
            rw [List.length_append, List.length_singleton] at hbound
            show i = s.test
            omega
      · exact absurd h (by simp only [reduceCtorEq, not_false_eq_true])
  | cancel =>
      rw [hpc] at hobs
      have hfuture := hs.futureTask (by rw [hpc]; exact CallPc.noConfusion)
      have hzero : s.observers.length = 0 := congrArg List.length hobs
      simp only [callStep, hpc, if_pos hzero, hfuture] at h
      obtain rfl := Option.some.inj h
      have hlen := hs.length
      rw [scheduled, if_neg (by rw [hpc]; exact CallPc.noConfusion)] at hlen
      refine ⟨hobs, ?_, fun hne => absurd rfl hne, fun i schedule hi halive => ?_⟩
      · exact (List.length_modify _ _ _).trans hlen
      · -- The one that was alive has been cancelled.
        have hi' : (s.cancelled s.test)[i]? = some schedule := hi
        rw [cancelled, List.getElem?_modify] at hi'
        obtain ⟨old, hold, heq⟩ := Option.map_eq_some_iff.mp hi'
        split at heq
        · rw [← heq] at halive
          exact absurd halive Bool.false_ne_true
        · rename_i hne
          rw [← heq] at halive
          exact absurd (hs.alive i old hold halive).symm hne
  | add =>
      rw [hpc] at hobs
      simp only [callStep, hpc] at h
      obtain rfl := Option.some.inj h
      refine hs.moves (by rw [hpc]; exact CallPc.noConfusion) CallPc.noConfusion rfl rfl rfl ?_
      show (if s.test ∈ s.observers then s.observers else s.observers ++ [s.test]) = [s.test]
      rw [hobs]
      exact if_neg List.not_mem_nil
  | delete =>
      rw [hpc] at hobs
      simp only [callStep, hpc] at h
      obtain rfl := Option.some.inj h
      refine hs.moves (by rw [hpc]; exact CallPc.noConfusion) CallPc.noConfusion rfl rfl rfl ?_
      show s.observers.erase s.test = []
      rw [hobs]
      exact List.erase_cons_head s.test []
  | loop =>
      rw [hpc] at hobs
      simp only [callStep, hpc] at h
      split at h
      · obtain rfl := Option.some.inj h
        exact hs.moves (by rw [hpc]; exact CallPc.noConfusion) CallPc.noConfusion rfl rfl rfl hobs
      · obtain rfl := Option.some.inj h
        exact hs.moves (by rw [hpc]; exact CallPc.noConfusion) CallPc.noConfusion rfl rfl rfl hobs
  | baseline | create | download | sleep | finish =>
      rw [hpc] at hobs
      simp only [callStep, hpc] at h
      obtain rfl := Option.some.inj h
      exact hs.moves (by rw [hpc]; exact CallPc.noConfusion) CallPc.noConfusion rfl rfl rfl hobs

theorem throwStep_eq_some {s s' : Watchdog} : s.throwStep = some s' ↔
    (s.pc = .download ∨ s.pc = .sleep) ∧ { s with pc := .finish } = s' := by
  cases hpc : s.pc <;> simp only [throwStep, hpc, Option.some.injEq, reduceCtorEq, or_self,
    or_false, or_true, false_and, true_and]

theorem getElem?_set_cases {α : Type} {l : List α} {i j : Nat} {a b : α}
    (h : (l.set i a)[j]? = some b) : (j = i ∧ b = a) ∨ (j ≠ i ∧ l[j]? = some b) := by
  rw [List.getElem?_set] at h
  split at h
  · rename_i hij
    split at h
    · exact .inl ⟨hij.symm, (Option.some.inj h).symm⟩
    · exact absurd h (by simp only [reduceCtorEq, not_false_eq_true])
  · rename_i hne
    exact .inr ⟨Ne.symm hne, h⟩

theorem runStep_held {s s' : Watchdog} {i : Nat} {bytes : Int} {throws : Bool} (hs : s.Held)
    (h : s.runStep i bytes throws = some s') : s'.Held := by
  obtain ⟨schedule, t, schedule', hi, ht, rfl⟩ := runStep_eq_some.mp h
  have hframe := taskStep_framed ht
  refine ⟨?_, ?_, fun hpc => ?_, fun j other hj halive => ?_⟩
  · show t.observers = if registered t.pc then [t.test] else []
    rw [hframe.observers, hframe.pc, hframe.test]
    exact hs.observers
  · show (s.schedules.set i schedule').length = if t.pc = .register then t.test else t.test + 1
    rw [List.length_set, hframe.pc, hframe.test]
    exact hs.length
  · show t.futureTask = some t.test
    rw [hframe.futureTask, hframe.test]
    exact hs.futureTask (fun heq => hpc (hframe.pc.trans heq))
  · show j = t.test
    rw [hframe.test]
    rcases getElem?_set_cases hj with ⟨rfl, rfl⟩ | ⟨-, hj⟩
    · exact hs.alive j schedule hi (hframe.alive halive)
    · exact hs.alive j other hj halive

theorem step_held {tests : List HttpDownloadTest} {s s' : Watchdog} {a : Label} (hs : s.Held)
    (h : step tests s a = some s') : s'.Held := by
  cases a with
  | call bytes => exact callStep_held hs h
  | run i bytes throws => exact runStep_held hs h
  | throw =>
      obtain ⟨hpc, rfl⟩ := throwStep_eq_some.mp h
      have hobs := hs.observers
      have hreg : registered s.pc = true ∧ s.pc ≠ .register := by
        rcases hpc with hpc | hpc
        · rw [hpc]
          exact ⟨rfl, CallPc.noConfusion⟩
        · rw [hpc]
          exact ⟨rfl, CallPc.noConfusion⟩
      rw [hreg.1] at hobs
      exact hs.moves hreg.2 CallPc.noConfusion rfl rfl rfl hobs

theorem fresh_held : fresh.Held :=
  ⟨rfl, rfl, fun hne => absurd rfl hne, fun i schedule hi _ => absurd hi (by
    simp only [fresh, List.getElem?_nil, reduceCtorEq, not_false_eq_true])⟩

/-! ### Which runs can be under way -/

/-- What a step of the test thread does to the schedules and the tests. -/
inductive Called (s s' : Watchdog) : Prop where
  | registers (hpc : s.pc = .register) (htest : s'.test = s.test)
      (hpcs : s'.pcs = s.pcs ++ [.waiting]) (htesters : s'.testers = s.testers)
  | resets (hpc : s.pc = .loop) (htest : s'.test = s.test) (hsch : s'.schedules = s.schedules)
      (htesters : s'.testers = Function.update s.testers s.test
        (s.testers s.test).restarted)
  | creates (hpc : s.pc = .create) (htest : s'.test = s.test) (hsch : s'.schedules = s.schedules)
      (d : Nat) (htesters : s'.testers = Function.update s.testers s.test
        { s.testers s.test with httpDownload := some d })
  | leaves (hpcs : s'.pcs = s.pcs) (hlen : s'.pcs.length ≤ s'.test)
      (htesters : s'.testers = s.testers)
  | rests (htest : s'.test = s.test) (hsch : s'.schedules = s.schedules)
      (htesters : s'.testers = s.testers)

theorem length_pcs (s : Watchdog) : s.pcs.length = s.schedules.length := List.length_map _

theorem callStep_called {tests : List HttpDownloadTest} {s s' : Watchdog} {bytes : Int}
    (hs : s.Held) (h : s.callStep tests bytes = some s') : s'.stops = s.stops ∧ Called s s' := by
  have hobs := hs.observers
  cases hpc : s.pc with
  | register =>
      rw [hpc] at hobs
      have hzero : s.observers.length = 0 := congrArg List.length hobs
      simp only [callStep, hpc, if_pos hzero] at h
      split at h
      · obtain rfl := Option.some.inj h
        exact ⟨rfl, .registers hpc rfl List.map_append rfl⟩
      · exact absurd h (by simp only [reduceCtorEq, not_false_eq_true])
  | loop =>
      simp only [callStep, hpc] at h
      split at h
      · obtain rfl := Option.some.inj h
        exact ⟨rfl, .rests rfl rfl rfl⟩
      · obtain rfl := Option.some.inj h
        exact ⟨rfl, .resets hpc rfl rfl rfl⟩
  | create =>
      simp only [callStep, hpc] at h
      obtain rfl := Option.some.inj h
      exact ⟨rfl, .creates hpc rfl rfl _ rfl⟩
  | cancel =>
      rw [hpc] at hobs
      have hzero : s.observers.length = 0 := congrArg List.length hobs
      have hfuture := hs.futureTask (by rw [hpc]; exact CallPc.noConfusion)
      have hlen := hs.length
      rw [scheduled, if_neg (by rw [hpc]; exact CallPc.noConfusion)] at hlen
      simp only [callStep, hpc, if_pos hzero, hfuture] at h
      obtain rfl := Option.some.inj h
      have hpcs : (s.cancelled s.test).map Schedule.pc = s.pcs := by
        refine List.ext_getElem? fun i => ?_
        rw [pcs, cancelled, List.getElem?_map, List.getElem?_modify, List.getElem?_map]
        cases s.schedules[i]? with
        | none => rfl
        | some schedule =>
            refine congrArg some ?_
            show (ite (s.test = i) { schedule with alive := false } schedule).pc = schedule.pc
            split <;> rfl
      refine ⟨rfl, .leaves hpcs ?_ rfl⟩
      exact Nat.le_of_eq ((congrArg List.length hpcs).trans ((length_pcs s).trans hlen))
  | baseline | add | download | sleep | finish | delete =>
      simp only [callStep, hpc] at h
      obtain rfl := Option.some.inj h
      exact ⟨rfl, .rests rfl rfl rfl⟩

/-- An exception comes while the test waits, for the download or in a sleep. -/
theorem throwStep_pc_ne {s s' : Watchdog} (h : s.throwStep = some s') :
    s.pc ≠ .register ∧ s.pc ≠ .loop ∧ s.pc ≠ .create := by
  rcases (throwStep_eq_some.mp h).1 with hpc | hpc
  · rw [hpc]
    exact ⟨CallPc.noConfusion, CallPc.noConfusion, CallPc.noConfusion⟩
  · rw [hpc]
    exact ⟨CallPc.noConfusion, CallPc.noConfusion, CallPc.noConfusion⟩

theorem throwStep_called {s s' : Watchdog} (h : s.throwStep = some s') :
    s'.stops = s.stops ∧ Called s s' := by
  obtain ⟨-, rfl⟩ := throwStep_eq_some.mp h
  exact ⟨rfl, .rests rfl rfl rfl⟩

/-- Only the last schedule has a run under way, and it tells its own test. -/
structure Single (s : Watchdog) : Prop where
  last : ∀ (i : Nat) (pc : TickPc), s.pcs[i]? = some pc → pc ≠ .waiting → i + 1 = s.pcs.length
  tests : ∀ (i : Nat) (pc : TickPc), s.pcs[i]? = some pc → ∀ k ∈ pc.tests, k = i
  later : ∀ k, s.pcs.length ≤ k → (s.testers k).own = []

/-- A step that does not change where the runs are. -/
theorem Single.moves {s s' : Watchdog} (hs : s.Single) (hpcs : s'.pcs = s.pcs)
    (hlater : ∀ k, (s.testers k).own = [] → (s'.testers k).own = []) : s'.Single := by
  refine ⟨fun i pc hi hne => ?_, fun i pc hi k hk => ?_, fun k hk => hlater k (hs.later k ?_)⟩
  · rw [hpcs] at hi ⊢
    exact hs.last i pc hi hne
  · rw [hpcs] at hi
    exact hs.tests i pc hi k hk
  · rw [hpcs] at hk
    exact hk

theorem called_single {s s' : Watchdog} (hs : s.Single) (h : Called s s')
    (hprompt : s.pc = .register → ∀ pc ∈ s.pcs, pc = .waiting) : s'.Single := by
  cases h with
  | registers hpc htest hpcs htesters =>
      have hnew : ∀ (i : Nat) (pc : TickPc), s'.pcs[i]? = some pc → pc = .waiting := by
        intro i pc hi
        rw [hpcs] at hi
        rcases List.mem_append.mp (List.mem_of_getElem? hi) with hmem | hmem
        · exact hprompt hpc pc hmem
        · exact List.mem_singleton.mp hmem
      refine ⟨fun i pc hi hne => absurd (hnew i pc hi) hne, fun i pc hi k hk => ?_, fun k hk => ?_⟩
      · rw [hnew i pc hi] at hk
        exact absurd hk List.not_mem_nil
      · rw [hpcs, List.length_append] at hk
        rw [htesters]
        exact hs.later k (Nat.le_of_succ_le hk)
  | resets hpc htest hsch htesters =>
      refine hs.moves (congrArg (List.map Schedule.pc) hsch) fun k hk => ?_
      rw [htesters]
      by_cases hkt : k = s.test
      · rw [hkt, Function.update_self]
        rfl
      · rw [Function.update_of_ne hkt]
        exact hk
  | creates hpc htest hsch d htesters =>
      refine hs.moves (congrArg (List.map Schedule.pc) hsch) fun k hk => ?_
      rw [htesters]
      by_cases hkt : k = s.test
      · rw [hkt, Function.update_self, ← hkt]
        exact hk
      · rw [Function.update_of_ne hkt]
        exact hk
  | leaves hpcs hlen htesters => exact hs.moves hpcs fun k hk => htesters ▸ hk
  | rests htest hsch htesters =>
      exact hs.moves (congrArg (List.map Schedule.pc) hsch) fun k hk => htesters ▸ hk

/-- The run that takes a step is one of the last schedule. -/
theorem Single.running {s t : Watchdog} {i : Nat} {schedule schedule' : Schedule} {bytes : Int}
    {throws : Bool} (hs : s.Held) (hsingle : s.Single) (hi : s.schedules[i]? = some schedule)
    (ht : s.taskStep schedule bytes throws = some (t, schedule')) : i + 1 = s.pcs.length := by
  by_cases hpc : schedule.pc = .waiting
  · -- It begins, so it has not been cancelled.
    have htest := hs.alive i schedule hi ((taskStep_framed ht).started hpc)
    have hlt := (List.getElem?_eq_some_iff.mp hi).1
    have hlen := hs.length
    rw [scheduled] at hlen
    rw [length_pcs]
    split at hlen <;> omega
  · exact hsingle.last i schedule.pc (List.getElem?_map.trans (congrArg (Option.map _) hi)) hpc

theorem runStep_single {s s' : Watchdog} {i : Nat} {bytes : Int} {throws : Bool} (hs : s.Held)
    (hsingle : s.Single) (h : s.runStep i bytes throws = some s') : s'.Single := by
  obtain ⟨schedule, t, schedule', hi, ht, rfl⟩ := runStep_eq_some.mp h
  have hframe := taskStep_framed ht
  have hlast := hsingle.running hs hi ht
  have hpc : s.pcs[i]? = some schedule.pc := List.getElem?_map.trans (congrArg (Option.map _) hi)
  have htests : ∀ k ∈ schedule'.pc.tests, k = i := by
    intro k hk
    rcases hframe.tests k hk with hk | hk
    · exact hsingle.tests i schedule.pc hpc k hk
    · -- The observer is the test whose schedule is the last one.
      have hlen := hs.length
      rw [← length_pcs] at hlen
      rw [hs.observers] at hk
      split at hk
      · rename_i hreg
        have hne : s.pc ≠ .register := fun heq => by
          rw [heq] at hreg
          exact Bool.false_ne_true hreg
        rw [scheduled, if_neg hne] at hlen
        have hkt := List.mem_singleton.mp hk
        omega
      · exact absurd hk List.not_mem_nil
  have hpcs : ({ t with schedules := s.schedules.set i schedule' } : Watchdog).pcs
      = s.pcs.set i schedule'.pc := List.map_set
  refine ⟨fun j pc hj hne => ?_, fun j pc hj k hk => ?_, fun k hk => ?_⟩
  · rw [hpcs] at hj ⊢
    rw [List.length_set]
    rcases getElem?_set_cases hj with ⟨rfl, -⟩ | ⟨-, hj⟩
    · exact hlast
    · exact hsingle.last j pc hj hne
  · rw [hpcs] at hj
    rcases getElem?_set_cases hj with ⟨rfl, rfl⟩ | ⟨-, hj⟩
    · exact htests k hk
    · exact hsingle.tests j pc hj k hk
  · rw [hpcs, List.length_set] at hk
    show (t.testers k).own = []
    rw [hframe.testers k (fun hmem => by have := hsingle.tests i schedule.pc hpc k hmem; omega)]
    exact hsingle.later k hk

theorem step_single {tests : List HttpDownloadTest} {s s' : Watchdog} {a : Label} (hs : s.Held)
    (hsingle : s.Single) (hprompt : s.Prompt a) (h : step tests s a = some s') : s'.Single := by
  cases a with
  | call bytes => exact called_single hsingle (callStep_called hs h).2 hprompt
  | throw =>
      exact called_single hsingle (throwStep_called h).2
        (fun hpc => absurd hpc (throwStep_pc_ne h).1)
  | run i bytes throws => exact runStep_single hs hsingle h

/-! ### What the counter counts -/

/-- How many of the last rates were below the limit. -/
def silence (rates : List ℚ) : Nat := (rates.reverse.takeWhile fun rate => rate < 1 / 10).length

theorem silence_quiet {rates : List ℚ} {rate : ℚ} (h : rate < 1 / 10) :
    silence (rates ++ [rate]) = silence rates + 1 := by
  simp only [silence, List.reverse_append, List.reverse_singleton, List.singleton_append,
    List.takeWhile_cons, decide_eq_true h, ↓reduceIte, List.length_cons]

theorem silence_loud {rates : List ℚ} {rate : ℚ} (h : ¬rate < 1 / 10) :
    silence (rates ++ [rate]) = 0 := by
  simp only [silence, List.reverse_append, List.reverse_singleton, List.singleton_append,
    List.takeWhile_cons, decide_eq_false h, Bool.false_eq_true, ↓reduceIte, List.length_nil]

theorem silence_le_length (rates : List ℚ) : silence rates ≤ rates.length := by
  have hle := (List.takeWhile_prefix (fun rate : ℚ => decide (rate < 1 / 10))
    (l := rates.reverse)).length_le
  rw [List.length_reverse] at hle
  exact hle

/-- A number of rates as the counter has it. -/
def counterOf (n : Nat) : Int := (BitVec.ofNat 32 n).toInt

theorem counterOf_of_lt {n : Nat} (h : n < 2 ^ 31) : counterOf n = n := by
  unfold counterOf
  rw [BitVec.toInt_ofNat', Int.bmod_eq_of_le (by omega) (by omega)]

/-- An `int` wraps to something smaller. -/
theorem toInt_add_one_le (m : BitVec 32) : (m + 1).toInt ≤ m.toInt + 1 := by
  have hlow := BitVec.le_toInt m
  have hhigh := BitVec.toInt_lt (x := m)
  rw [BitVec.toInt_add, show (1 : BitVec 32).toInt = 1 from rfl]
  by_cases hroom : m.toInt + 1 < 2 ^ 31
  · exact Int.le_of_eq (Int.bmod_eq_of_le (by omega) (by omega))
  · have hmax : m.toInt + 1 = 2 ^ 31 := by omega
    rw [hmax]
    decide

theorem counterOf_le (n : Nat) : counterOf n ≤ n := by
  induction n with
  | zero => exact Int.le_refl 0
  | succ n ih =>
      have hstep := toInt_add_one_le (BitVec.ofNat 32 n)
      unfold counterOf at ih ⊢
      rw [BitVec.ofNat_add]
      push_cast
      exact Int.le_trans hstep (by omega)

/-- A silence is a number of rates in a row. -/
theorem exists_last_of_lt_silence {rates : List ℚ} {n : Nat} (h : n < silence rates) :
    ∃ last, last <:+ rates ∧ n < last.length ∧ ∀ rate ∈ last, rate < 1 / 10 := by
  refine ⟨(rates.reverse.takeWhile fun rate => rate < 1 / 10).reverse, ?_, ?_, fun rate hrate => ?_⟩
  · have hpre := List.reverse_suffix.mpr
      (List.takeWhile_prefix (fun rate : ℚ => decide (rate < 1 / 10)) (l := rates.reverse))
    rw [List.reverse_reverse] at hpre
    exact hpre
  · rw [List.length_reverse]
    exact h
  · have hquiet := List.mem_takeWhile_imp (p := fun rate : ℚ => decide (rate < 1 / 10))
      (List.mem_reverse.mp hrate)
    exact of_decide_eq_true hquiet

/-- What the counter is compared with: a relation between it and a length that
    grows with each quiet rate and is zero after any other. -/
structure Gauge (R : BitVec 32 → Nat → Prop) (g : Tester → Nat) : Prop where
  zero : R 0 0
  succ : ∀ {m : BitVec 32} {n : Nat}, R m n → R (m + 1) (n + 1)
  quiet : ∀ (s : Watchdog) (k : Nat), s.uidRxkps < 1 / 10 → g (s.told k) = g (s.testers k) + 1
  loud : ∀ (s : Watchdog) (k : Nat), ¬s.uidRxkps < 1 / 10 → g (s.told k) = 0
  counter : ∀ (t : Tester) (n : BitVec 32), g { t with rxkpsZeroCount := n } = g t
  download : ∀ (t : Tester) (d : Option Nat), g { t with httpDownload := d } = g t

/-- The counter is no more than the length. -/
def AtMost (m : BitVec 32) (n : Nat) : Prop := m.toInt ≤ n

/-- The counter is the length, as an `int`. -/
def Equals (m : BitVec 32) (n : Nat) : Prop := m = BitVec.ofNat 32 n

/-- All the rates a test has been told. -/
theorem gauge_heard : Gauge AtMost fun t => silence t.heard where
  zero := Int.le_refl 0
  succ := fun h => Int.le_trans (toInt_add_one_le _) (Int.add_le_add_right h 1)
  quiet := fun _ _ h => silence_quiet h
  loud := fun _ _ h => silence_loud h
  counter := fun _ _ => rfl
  download := fun _ _ => rfl

/-- The rates since the counter was set to zero. -/
theorem gauge_own : Gauge Equals fun t => silence t.own where
  zero := rfl
  succ := fun h => (congrArg (· + 1) h).trans (BitVec.ofNat_add _ 1).symm
  quiet := fun _ _ h => silence_quiet h
  loud := fun _ _ h => silence_loud h
  counter := fun _ _ => rfl
  download := fun _ _ => rfl

/-- A length with which the counter is above thirty. -/
def Over (R : BitVec 32 → Nat → Prop) (n : Nat) : Prop := ∃ m, R m n ∧ 30 < m.toInt

theorem Over.lt {n : Nat} (h : Over AtMost n) : 30 < n := by
  obtain ⟨m, hle, hlt⟩ := h
  unfold AtMost at hle
  omega

theorem Over.counterOf {n : Nat} (h : Over Equals n) : 30 < counterOf n := by
  obtain ⟨m, rfl, hlt⟩ := h
  exact hlt

/-- What holds in the middle of an update. -/
def Within (R : BitVec 32 → Nat → Prop) (g : Tester → Nat) (testers : Nat → Tester) :
    TickPc → Prop
  | .quiet k _ => R ((testers k).rxkpsZeroCount + 1) (g (testers k)) ∧ 0 < g (testers k)
  | .counting k read _ => R (read + 1) (g (testers k))
  | .counted k _ => R (testers k).rxkpsZeroCount (g (testers k))
  | .stopping k _ => R (testers k).rxkpsZeroCount (g (testers k)) ∧ Over R (g (testers k))
  | .waiting | .measured | .notifying _ => True

/-- The counter of each test is in the relation, before and after an update and
    in the middle of it, and no stop has come too early. -/
structure Counts (R : BitVec 32 → Nat → Prop) (g : Tester → Nat) (s : Watchdog) : Prop where
  idle : ∀ k, (∀ pc ∈ s.pcs, pc.updates ≠ some k) →
    R (s.testers k).rxkpsZeroCount (g (s.testers k))
  within : ∀ pc ∈ s.pcs, Within R g s.testers pc
  stops : ∀ c ∈ s.stops, Over R (g c.tester)

section Counts

variable {R : BitVec 32 → Nat → Prop} {g : Tester → Nat}

/-- A step that changes neither counter nor length. -/
theorem Counts.moves {s s' : Watchdog} (hs : Counts R g s) (hpcs : s'.pcs = s.pcs)
    (hstops : s'.stops = s.stops)
    (hcount : ∀ k, (s'.testers k).rxkpsZeroCount = (s.testers k).rxkpsZeroCount)
    (hg : ∀ k, g (s'.testers k) = g (s.testers k)) : Counts R g s' := by
  refine ⟨fun k hk => ?_, fun pc hmem => ?_, fun c hc => ?_⟩
  · rw [hcount, hg]
    exact hs.idle k (hpcs ▸ hk)
  · rw [hpcs] at hmem
    have hwithin := hs.within pc hmem
    cases pc with
    | quiet k rest | counted k rest | stopping k rest =>
        simp only [Within, hcount, hg] at hwithin ⊢
        exact hwithin
    | counting k read rest =>
        simp only [Within, hg] at hwithin ⊢
        exact hwithin
    | waiting | measured | notifying observers => trivial
  · rw [hstops] at hc
    exact hs.stops c hc

/-- What a step of a run means for the counters, where no other run is within an
    update. -/
theorem taskStep_counts (hg : Gauge R g) {s t : Watchdog} {schedule schedule' : Schedule}
    {bytes : Int} {throws : Bool} (ht : s.taskStep schedule bytes throws = some (t, schedule'))
    (hidle : ∀ k, schedule.pc.updates ≠ some k →
      R (s.testers k).rxkpsZeroCount (g (s.testers k)))
    (hwithin : Within R g s.testers schedule.pc) (hstops : ∀ c ∈ s.stops, Over R (g c.tester)) :
    (∀ k, schedule'.pc.updates ≠ some k → R (t.testers k).rxkpsZeroCount (g (t.testers k)))
      ∧ Within R g t.testers schedule'.pc ∧ ∀ c ∈ t.stops, Over R (g c.tester) := by
  obtain ⟨alive, pc⟩ := schedule
  have hnone : pc.updates = none → ∀ k, R (s.testers k).rxkpsZeroCount (g (s.testers k)) :=
    fun heq k => hidle k (heq ▸ (by simp only [ne_eq, reduceCtorEq, not_false_eq_true]))
  -- Around the update of a test it is the relation in the middle that holds of it.
  have hsome : ∀ k, pc.updates = some k → R (s.testers k).rxkpsZeroCount (g (s.testers k)) →
      ∀ j, R (s.testers j).rxkpsZeroCount (g (s.testers j)) := by
    intro k heq hk j
    by_cases hjk : j = k
    · exact hjk ▸ hk
    · exact hidle j (fun hj => hjk (Option.some.inj (hj.symm.trans heq)))
  cases pc with
  | waiting =>
      simp only [taskStep] at ht
      split at ht
      · obtain ⟨rfl, rfl⟩ := Prod.mk.inj (Option.some.inj ht)
        exact ⟨fun k _ => hnone rfl k, trivial, hstops⟩
      · exact absurd ht (by simp only [reduceCtorEq, not_false_eq_true])
  | measured =>
      simp only [taskStep] at ht
      split at ht
      · obtain ⟨rfl, rfl⟩ := Prod.mk.inj (Option.some.inj ht)
        exact ⟨fun k _ => hnone rfl k, trivial, hstops⟩
      · obtain ⟨rfl, rfl⟩ := Prod.mk.inj (Option.some.inj ht)
        exact ⟨fun k _ => hnone rfl k, trivial, hstops⟩
  | notifying observers =>
      cases observers with
      | nil =>
          obtain ⟨rfl, rfl⟩ := Prod.mk.inj (Option.some.inj ht)
          exact ⟨fun k _ => hnone rfl k, trivial, hstops⟩
      | cons k rest =>
          simp only [taskStep] at ht
          split at ht
          · rename_i hquiet
            obtain ⟨rfl, rfl⟩ := Prod.mk.inj (Option.some.inj ht)
            refine ⟨fun j hj => ?_, ?_, hstops⟩
            · rw [tell_of_ne (fun heq => hj (congrArg some heq.symm))]
              exact hnone rfl j
            · rw [Within, tell_self, hg.quiet s k hquiet]
              exact ⟨hg.succ (hnone rfl k), Nat.succ_pos _⟩
          · rename_i hloud
            obtain ⟨rfl, rfl⟩ := Prod.mk.inj (Option.some.inj ht)
            refine ⟨fun j _ => ?_, trivial, hstops⟩
            by_cases hjk : j = k
            · rw [hjk, tell_self, hg.counter, hg.loud s k hloud]
              exact hg.zero
            · rw [tell_of_ne hjk]
              exact hnone rfl j
  | quiet k rest =>
      obtain ⟨rfl, rfl⟩ := Prod.mk.inj (Option.some.inj ht)
      exact ⟨hidle, hwithin.1, hstops⟩
  | counting k read rest =>
      obtain ⟨rfl, rfl⟩ := Prod.mk.inj (Option.some.inj ht)
      refine ⟨fun j hj => ?_, ?_, hstops⟩
      · rw [tell_of_ne (fun heq => hj (congrArg some heq.symm))]
        exact hidle j hj
      · rw [Within, tell_self, hg.counter]
        exact hwithin
  | counted k rest =>
      obtain ⟨rfl, rfl⟩ := Prod.mk.inj (Option.some.inj ht)
      refine ⟨fun j _ => hsome k rfl hwithin j, ?_, hstops⟩
      split
      · rename_i hlt
        exact ⟨hwithin, _, hwithin, hlt⟩
      · trivial
  | stopping k rest =>
      simp only [taskStep] at ht
      split at ht
      · obtain ⟨rfl, rfl⟩ := Prod.mk.inj (Option.some.inj ht)
        exact ⟨fun j _ => hsome k rfl hwithin.1 j, trivial, hstops⟩
      · obtain ⟨rfl, rfl⟩ := Prod.mk.inj (Option.some.inj ht)
        refine ⟨fun j _ => hsome k rfl hwithin.1 j, ?_, fun c hc => ?_⟩
        · split <;> trivial
        · rcases List.mem_append.mp hc with hc | hc
          · exact hstops c hc
          · rw [List.mem_singleton.mp hc]
            exact hwithin.2

theorem runStep_counts (hg : Gauge R g) {s s' : Watchdog} {i : Nat} {bytes : Int} {throws : Bool}
    (hheld : s.Held) (hsingle : s.Single) (hs : Counts R g s)
    (h : s.runStep i bytes throws = some s') : Counts R g s' := by
  obtain ⟨schedule, t, schedule', hi, ht, rfl⟩ := runStep_eq_some.mp h
  have hlast := hsingle.running hheld hi ht
  have hpc : s.pcs[i]? = some schedule.pc := List.getElem?_map.trans (congrArg (Option.map _) hi)
  have hpcs : ({ t with schedules := s.schedules.set i schedule' } : Watchdog).pcs
      = s.pcs.set i schedule'.pc := List.map_set
  -- The other runs are not under way.
  have hothers : ∀ pc ∈ s.pcs.set i schedule'.pc, pc = schedule'.pc ∨ pc = .waiting := by
    intro pc hmem
    obtain ⟨j, hj⟩ := List.mem_iff_getElem?.mp hmem
    by_cases hji : j = i
    · rw [hji, List.getElem?_set_self (List.getElem?_eq_some_iff.mp hpc).1] at hj
      exact .inl (Option.some.inj hj).symm
    · rw [List.getElem?_set_ne (Ne.symm hji)] at hj
      by_cases hne : pc = .waiting
      · exact .inr hne
      · have hj' := hsingle.last j pc hj hne
        omega
  have hidle : ∀ k, schedule.pc.updates ≠ some k →
      R (s.testers k).rxkpsZeroCount (g (s.testers k)) := by
    refine fun k hk => hs.idle k fun pc hmem => ?_
    obtain ⟨j, hj⟩ := List.mem_iff_getElem?.mp hmem
    by_cases hji : j = i
    · rw [hji, hpc] at hj
      rwa [← Option.some.inj hj]
    · by_cases hne : pc = .waiting
      · rw [hne]
        simp only [TickPc.updates, ne_eq, reduceCtorEq, not_false_eq_true]
      · have hj' := hsingle.last j pc hj hne
        omega
  obtain ⟨hidle', hwithin', hstops'⟩ := taskStep_counts hg ht hidle
    (hs.within schedule.pc (List.mem_of_getElem? hpc)) hs.stops
  refine ⟨fun k hk => hidle' k (hk _ ?_), fun pc hmem => ?_, hstops'⟩
  · rw [hpcs]
    exact List.mem_set (List.getElem?_eq_some_iff.mp hpc).1 _
  · rw [hpcs] at hmem
    rcases hothers pc hmem with rfl | rfl
    · exact hwithin'
    · trivial

/-- What is left to the two gauges is the reset. -/
theorem called_counts (hg : Gauge R g) {s s' : Watchdog} (hs : Counts R g s) (h : Called s s')
    (hstops : s'.stops = s.stops)
    (hreset : s.pc = .loop → s'.pcs = s.pcs → s'.testers = Function.update s.testers s.test
      (s.testers s.test).restarted → Counts R g s') :
    Counts R g s' := by
  cases h with
  | registers hpc htest hpcs htesters =>
      refine ⟨fun k hk => ?_, fun pc hmem => ?_, fun c hc => hs.stops c (hstops ▸ hc)⟩
      · rw [htesters]
        exact hs.idle k fun pc hmem => hk pc (hpcs ▸ List.mem_append_left _ hmem)
      · rw [hpcs] at hmem
        rw [htesters]
        rcases List.mem_append.mp hmem with hmem | hmem
        · exact hs.within pc hmem
        · rw [List.mem_singleton.mp hmem]
          trivial
  | resets hpc htest hsch htesters =>
      exact hreset hpc (congrArg (List.map Schedule.pc) hsch) htesters
  | creates hpc htest hsch d htesters =>
      refine hs.moves (congrArg (List.map Schedule.pc) hsch) hstops (fun k => ?_) (fun k => ?_)
      · rw [htesters]
        by_cases hkt : k = s.test
        · rw [hkt, Function.update_self]
        · rw [Function.update_of_ne hkt]
      · rw [htesters]
        by_cases hkt : k = s.test
        · rw [hkt, Function.update_self, hg.download]
        · rw [Function.update_of_ne hkt]
  | leaves hpcs hlen htesters =>
      exact hs.moves hpcs hstops (fun k => by rw [htesters]) (fun k => by rw [htesters])
  | rests htest hsch htesters =>
      exact hs.moves (congrArg (List.map Schedule.pc) hsch) hstops (fun k => by rw [htesters])
        (fun k => by rw [htesters])

end Counts

/-- A zero that is written in the middle of an update may be lost, but it makes
    the counter no larger. -/
theorem reset_heard {s s' : Watchdog} (hs : Counts AtMost (fun t => silence t.heard) s)
    (hstops : s'.stops = s.stops) (hpcs : s'.pcs = s.pcs)
    (htesters : s'.testers = Function.update s.testers s.test
      (s.testers s.test).restarted) :
    Counts AtMost (fun t => silence t.heard) s' := by
  have hheard : ∀ k, (s'.testers k).heard = (s.testers k).heard := by
    intro k
    rw [htesters]
    by_cases hkt : k = s.test
    · rw [hkt, Function.update_self]
      rfl
    · rw [Function.update_of_ne hkt]
  have hcount : ∀ k, (s'.testers k).rxkpsZeroCount = 0
      ∨ (s'.testers k).rxkpsZeroCount = (s.testers k).rxkpsZeroCount := by
    intro k
    rw [htesters]
    by_cases hkt : k = s.test
    · rw [hkt, Function.update_self]
      exact .inl rfl
    · rw [Function.update_of_ne hkt]
      exact .inr rfl
  have hzero : ∀ n : Nat, AtMost 0 n := fun n => Int.natCast_nonneg n
  refine ⟨fun k hk => ?_, fun pc hmem => ?_, fun c hc => hs.stops c (hstops ▸ hc)⟩
  · rw [hheard]
    rcases hcount k with heq | heq
    · exact heq ▸ hzero _
    · exact heq ▸ hs.idle k (hpcs ▸ hk)
  · rw [hpcs] at hmem
    have hwithin := hs.within pc hmem
    cases pc with
    | quiet k rest =>
        simp only [Within, hheard] at hwithin ⊢
        rcases hcount k with heq | heq
        -- The zero is one behind the rate that has just been told.
        · rw [heq]
          exact ⟨Int.ofNat_le.mpr hwithin.2, hwithin.2⟩
        · exact heq ▸ hwithin
    | counting k read rest =>
        simp only [Within, hheard] at hwithin ⊢
        exact hwithin
    | counted k rest =>
        simp only [Within, hheard] at hwithin ⊢
        rcases hcount k with heq | heq
        · exact heq ▸ hzero _
        · exact heq ▸ hwithin
    | stopping k rest =>
        simp only [Within, hheard] at hwithin ⊢
        rcases hcount k with heq | heq
        · exact ⟨heq ▸ hzero _, hwithin.2⟩
        · exact heq ▸ hwithin
    | waiting | measured | notifying observers => trivial

/-- A zero that is written between two updates is kept. -/
theorem reset_own {s s' : Watchdog} (hs : Counts Equals (fun t => silence t.own) s)
    (hapart : ∀ pc ∈ s.pcs, pc.updates ≠ some s.test) (hstops : s'.stops = s.stops)
    (hpcs : s'.pcs = s.pcs)
    (htesters : s'.testers = Function.update s.testers s.test
      (s.testers s.test).restarted) :
    Counts Equals (fun t => silence t.own) s' := by
  have hother : ∀ k, k ≠ s.test → s'.testers k = s.testers k := fun k hk => by
    rw [htesters, Function.update_of_ne hk]
  refine ⟨fun k hk => ?_, fun pc hmem => ?_, fun c hc => hs.stops c (hstops ▸ hc)⟩
  · by_cases hkt : k = s.test
    · rw [htesters, hkt, Function.update_self]
      rfl
    · rw [hother k hkt]
      exact hs.idle k (hpcs ▸ hk)
  · rw [hpcs] at hmem
    have hwithin := hs.within pc hmem
    have hne := hapart pc hmem
    cases pc with
    | quiet k rest | counting k read rest | counted k rest | stopping k rest =>
        simp only [Within, hother k (fun heq => hne (congrArg some heq))] at hwithin ⊢
        exact hwithin
    | waiting | measured | notifying observers => trivial

/-- With the rates the test has been told by now, the task has stopped the download
    the test holds. -/
def JustStopped (s : Watchdog) : Prop :=
  ∃ c ∈ s.stops, c.test = s.test ∧ (s.testers s.test).httpDownload = some c.download
    ∧ c.tester.SameAs (s.testers s.test)

/-- A silence that the run under way is done with has been answered by a stop. -/
def Recorded (s : Watchdog) : Prop :=
  ∀ pc, s.schedules[s.test]? = some ⟨true, pc⟩ → pc.updates = none →
    30 < counterOf (silence (s.testers s.test).own) → s.JustStopped

theorem taskStep_recorded {s t : Watchdog} {schedule schedule' : Schedule} {bytes : Int}
    {throws : Bool} (ht : s.taskStep schedule bytes throws = some (t, schedule'))
    (htests : ∀ k ∈ schedule.pc.tests, k = s.test)
    (hwithin : Within Equals (fun t => silence t.own) s.testers schedule.pc)
    (hs : schedule.alive = true → schedule.pc.updates = none →
      30 < counterOf (silence (s.testers s.test).own) → s.JustStopped)
    (halive : schedule'.alive = true) (hupdates : schedule'.pc.updates = none)
    (hlt : 30 < counterOf (silence (t.testers s.test).own)) :
    ∃ c ∈ t.stops, c.test = s.test ∧ (t.testers s.test).httpDownload = some c.download
      ∧ c.tester.SameAs (t.testers s.test) := by
  obtain ⟨alive, pc⟩ := schedule
  cases pc with
  | waiting =>
      simp only [taskStep] at ht
      split at ht
      · obtain ⟨rfl, rfl⟩ := Prod.mk.inj (Option.some.inj ht)
        exact hs halive rfl hlt
      · exact absurd ht (by simp only [reduceCtorEq, not_false_eq_true])
  | measured =>
      simp only [taskStep] at ht
      split at ht
      · obtain ⟨rfl, rfl⟩ := Prod.mk.inj (Option.some.inj ht)
        exact hs halive rfl hlt
      · obtain ⟨rfl, rfl⟩ := Prod.mk.inj (Option.some.inj ht)
        exact hs halive rfl hlt
  | notifying observers =>
      cases observers with
      | nil =>
          obtain ⟨rfl, rfl⟩ := Prod.mk.inj (Option.some.inj ht)
          exact hs halive rfl hlt
      | cons k rest =>
          simp only [taskStep] at ht
          split at ht
          · obtain ⟨rfl, rfl⟩ := Prod.mk.inj (Option.some.inj ht)
            exact absurd hupdates (Option.some_ne_none k)
          · rename_i hloud
            obtain ⟨rfl, rfl⟩ := Prod.mk.inj (Option.some.inj ht)
            -- The rate has ended the silence.
            rw [htests k List.mem_cons_self, tell_self] at hlt
            have hzero : silence ((s.testers s.test).own ++ [s.uidRxkps]) = 0 := silence_loud hloud
            rw [show silence (s.told s.test).own = 0 from hzero] at hlt
            exact absurd hlt (by decide)
  | quiet k rest =>
      obtain ⟨rfl, rfl⟩ := Prod.mk.inj (Option.some.inj ht)
      exact absurd hupdates (Option.some_ne_none k)
  | counting k read rest =>
      obtain ⟨rfl, rfl⟩ := Prod.mk.inj (Option.some.inj ht)
      exact absurd hupdates (Option.some_ne_none k)
  | counted k rest =>
      obtain ⟨rfl, rfl⟩ := Prod.mk.inj (Option.some.inj ht)
      obtain rfl := htests k List.mem_cons_self
      have hcount : (s.testers s.test).rxkpsZeroCount
          = BitVec.ofNat 32 (silence (s.testers s.test).own) := hwithin
      split at hupdates
      · exact absurd hupdates (Option.some_ne_none _)
      · rename_i hle
        rw [hcount] at hle
        exact absurd hlt hle
  | stopping k rest =>
      obtain rfl := htests k List.mem_cons_self
      simp only [taskStep] at ht
      split at ht
      · obtain ⟨rfl, rfl⟩ := Prod.mk.inj (Option.some.inj ht)
        exact absurd halive Bool.false_ne_true
      · rename_i d hdownload
        obtain ⟨rfl, rfl⟩ := Prod.mk.inj (Option.some.inj ht)
        exact ⟨_, List.mem_append_right _ (List.mem_singleton_self _), rfl, hdownload, rfl, rfl⟩

theorem runStep_recorded {s s' : Watchdog} {i : Nat} {bytes : Int} {throws : Bool}
    (hsingle : s.Single) (hcounts : Counts Equals (fun t => silence t.own) s) (hs : s.Recorded)
    (h : s.runStep i bytes throws = some s') : s'.Recorded := by
  obtain ⟨schedule, t, schedule', hi, ht, rfl⟩ := runStep_eq_some.mp h
  have hframe := taskStep_framed ht
  have hpc : s.pcs[i]? = some schedule.pc := List.getElem?_map.trans (congrArg (Option.map _) hi)
  intro pc hsch hupdates hlt
  have hsch' : (s.schedules.set i schedule')[s.test]? = some ⟨true, pc⟩ := hframe.test ▸ hsch
  have hlt' : 30 < counterOf (silence (t.testers s.test).own) := hframe.test ▸ hlt
  show ∃ c ∈ t.stops, c.test = t.test ∧ (t.testers t.test).httpDownload = some c.download
    ∧ c.tester.SameAs (t.testers t.test)
  rw [hframe.test]
  rcases getElem?_set_cases hsch' with ⟨htest, rfl⟩ | ⟨hne, hold⟩
  · refine taskStep_recorded ht (fun k hk => ?_) (hcounts.within _ (List.mem_of_getElem? hpc))
      (fun halive => ?_) rfl hupdates hlt'
    · exact (hsingle.tests i _ hpc k hk).trans htest.symm
    · exact hs schedule.pc (by rw [htest, hi, ← halive])
  · -- The run tells another test.
    have hsame := hframe.testers s.test fun hmem => hne (hsingle.tests i _ hpc _ hmem)
    rw [hsame] at hlt' ⊢
    obtain ⟨c, hc, hrecord⟩ := hs pc hold hupdates hlt'
    exact ⟨c, hframe.stops c hc, hrecord⟩

theorem called_recorded {s s' : Watchdog} (hheld : s.Held) (hsingle : s.Single) (hs : s.Recorded)
    (h : Called s s') (hstops : s'.stops = s.stops)
    (hsoon : s.pc = .create → (s.testers s.test).own.length ≤ 30) : s'.Recorded := by
  intro pc hsch hupdates hlt
  cases h with
  | registers hpc htest hpcs htesters =>
      -- The test has been told nothing yet.
      have hlen := hheld.length
      rw [scheduled, if_pos hpc, ← length_pcs] at hlen
      rw [htesters, htest, hsingle.later s.test (Nat.le_of_eq hlen)] at hlt
      exact absurd hlt (by decide)
  | resets hpc htest hsch' htesters =>
      rw [htesters, htest, Function.update_self] at hlt
      exact absurd hlt (show ¬ 30 < counterOf (silence []) by decide)
  | creates hpc htest hsch' d htesters =>
      -- There has been no time for such a silence.
      have hown : (s'.testers s.test).own = (s.testers s.test).own := by
        rw [htesters, Function.update_self]
      rw [htest, hown] at hlt
      have hle := counterOf_le (silence (s.testers s.test).own)
      have hlen := silence_le_length (s.testers s.test).own
      have hthirty := hsoon hpc
      omega
  | leaves hpcs hlen htesters =>
      have hbound := (List.getElem?_eq_some_iff.mp hsch).1
      rw [length_pcs] at hlen
      exact absurd hbound (Nat.not_lt_of_le hlen)
  | rests htest hsch' htesters =>
      rw [hsch', htest] at hsch
      rw [htesters, htest] at hlt
      unfold JustStopped
      rw [hstops, htest, htesters]
      exact hs pc hsch hupdates hlt

/-! ### Whole runs -/

/-- What holds in a run in which the tests register in time. -/
structure Early (s : Watchdog) : Prop where
  held : s.Held
  single : s.Single
  counts : Counts AtMost (fun t => silence t.heard) s

/-- What holds if no zero is written in the middle of an update either, and the
    downloads are made soon after. -/
structure Exact (s : Watchdog) : Prop where
  held : s.Held
  single : s.Single
  counts : Counts Equals (fun t => silence t.own) s
  recorded : s.Recorded

theorem step_early {tests : List HttpDownloadTest} {s s' : Watchdog} {a : Label} (hs : s.Early)
    (hprompt : s.Prompt a) (h : step tests s a = some s') : s'.Early := by
  refine ⟨step_held hs.held h, step_single hs.held hs.single hprompt h, ?_⟩
  cases a with
  | call bytes =>
      obtain ⟨hstops, hcalled⟩ := callStep_called hs.held h
      exact called_counts gauge_heard hs.counts hcalled hstops
        (fun _ hpcs htesters => reset_heard hs.counts hstops hpcs htesters)
  | throw =>
      obtain ⟨hstops, hcalled⟩ := throwStep_called h
      exact called_counts gauge_heard hs.counts hcalled hstops
        (fun _ hpcs htesters => reset_heard hs.counts hstops hpcs htesters)
  | run i bytes throws => exact runStep_counts gauge_heard hs.held hs.single hs.counts h

theorem Apart.prompt {s : Watchdog} {a : Label} (h : s.Apart a) : s.Prompt a := by
  cases a with
  | call bytes => exact h.1
  | throw | run i bytes throws => trivial

theorem step_exact {tests : List HttpDownloadTest} {s s' : Watchdog} {a : Label} (hs : s.Exact)
    (hapart : s.Apart a) (h : step tests s a = some s') : s'.Exact := by
  have hheld := step_held hs.held h
  have hsingle := step_single hs.held hs.single hapart.prompt h
  cases a with
  | call bytes =>
      obtain ⟨hstops, hcalled⟩ := callStep_called hs.held h
      exact ⟨hheld, hsingle, called_counts gauge_own hs.counts hcalled hstops
        (fun hpc hpcs htesters => reset_own hs.counts (hapart.2.1 hpc) hstops hpcs htesters),
        called_recorded hs.held hs.single hs.recorded hcalled hstops hapart.2.2⟩
  | throw =>
      obtain ⟨hstops, hcalled⟩ := throwStep_called h
      obtain ⟨-, hloop, hcreate⟩ := throwStep_pc_ne h
      exact ⟨hheld, hsingle, called_counts gauge_own hs.counts hcalled hstops
        (fun hpc => absurd hpc hloop),
        called_recorded hs.held hs.single hs.recorded hcalled hstops
        (fun hpc => absurd hpc hcreate)⟩
  | run i bytes throws =>
      exact ⟨hheld, hsingle, runStep_counts gauge_own hs.held hs.single hs.counts h,
        runStep_recorded hs.single hs.counts hs.recorded h⟩

theorem fresh_single : fresh.Single :=
  ⟨fun i pc hi _ => absurd hi (by
    simp only [fresh, pcs, List.map_nil, List.getElem?_nil, reduceCtorEq, not_false_eq_true]),
    fun i pc hi _ _ => absurd hi (by
      simp only [fresh, pcs, List.map_nil, List.getElem?_nil, reduceCtorEq, not_false_eq_true]),
    fun _ _ => rfl⟩

theorem fresh_early : fresh.Early :=
  ⟨fresh_held, fresh_single, fun _ _ => Int.le_refl 0, fun _ hpc => absurd hpc List.not_mem_nil,
    fun _ hc => absurd hc List.not_mem_nil⟩

theorem fresh_exact : fresh.Exact :=
  ⟨fresh_held, fresh_single, ⟨fun _ _ => rfl, fun _ hpc => absurd hpc List.not_mem_nil,
    fun _ hc => absurd hc List.not_mem_nil⟩, fun pc hsch => absurd hsch (by
      simp only [fresh, List.getElem?_nil, reduceCtorEq, not_false_eq_true])⟩

/-- If the tests register in time, the task stops a download only after more
    than thirty rates in a row below the limit. -/
theorem stops_need_silence (tests : List HttpDownloadTest) (run : List Label) (s : Watchdog)
    (h : exec (step tests) fresh run = some s) (hprompt : Along (step tests) Prompt fresh run) :
    ∀ c ∈ s.stops, ∃ last, last <:+ c.tester.heard ∧ 30 < last.length
      ∧ ∀ rate ∈ last, rate < 1 / 10 := by
  have hearly := exec_keeps (step tests) Prompt Early (fun _ _ _ => step_early) run fresh s
    fresh_early hprompt h
  exact fun c hc => exists_last_of_lt_silence (hearly.counts.stops c hc).lt

/-- A test of one download. -/
def oneDownload : HttpDownloadTest := ⟨[⟨"u".toList, 1, 1⟩], 5⟩

/-- The download begins, and nothing is received for thirty-one seconds: each
    second takes the run seven steps, and the last one stops the download. -/
def stalled : List Label :=
  List.replicate 5 (.call 500) ++ List.replicate 218 (.run 0 500 false)

theorem stops_need_silence_stalled :
    ∃ s ∈ exec (step [oneDownload]) fresh stalled, s.stops.length = 1
      ∧ ∀ c ∈ s.stops, ∃ last, last <:+ c.tester.heard ∧ 30 < last.length
        ∧ ∀ rate ∈ last, rate < 1 / 10 := by
  have hone : (exec (step [oneDownload]) fresh stalled).map (fun s => s.stops.length) = some 1 := by
    decide +kernel
  obtain ⟨s, hs, hlen⟩ := Option.map_eq_some_iff.mp hone
  exact ⟨s, hs, hlen, stops_need_silence [oneDownload] stalled s hs (by decide +kernel)⟩

/-- If also no zero is written in the middle of an update, and no download is made
    more than thirty rates after its zero, then whenever the run of the live
    schedule is not within an update, the task has stopped the download that the
    test holds exactly if the silence since the zero, as an `int`, is above
    thirty. For less than `2 ^ 31` silent rates that is the silence itself. -/
theorem stopped_exactly (tests : List HttpDownloadTest) (run : List Label) (s : Watchdog)
    (pc : TickPc) (h : exec (step tests) fresh run = some s)
    (hapart : Along (step tests) Apart fresh run)
    (hsch : s.schedules[s.test]? = some ⟨true, pc⟩) (hpc : pc.updates = none) :
    (s.JustStopped ↔ 30 < counterOf (silence (s.testers s.test).own))
      ∧ (silence (s.testers s.test).own < 2 ^ 31 →
        (s.JustStopped ↔ 30 < silence (s.testers s.test).own)) := by
  have hexact := exec_keeps (step tests) Apart Exact (fun _ _ _ => step_exact) run fresh s
    fresh_exact hapart h
  have hiff : s.JustStopped ↔ 30 < counterOf (silence (s.testers s.test).own) := by
    constructor
    · rintro ⟨c, hc, -, -, -, hown⟩
      exact hown ▸ (hexact.counts.stops c hc).counterOf
    · exact hexact.recorded pc hsch hpc
  refine ⟨hiff, fun hshort => ?_⟩
  rw [hiff, counterOf_of_lt hshort]
  exact Int.ofNat_lt

theorem stopped_exactly_stalled :
    ∃ s ∈ exec (step [oneDownload]) fresh stalled,
      s.stops.length = 1 ∧ (s.JustStopped ↔ 30 < counterOf (silence (s.testers s.test).own)) := by
  have hend : (exec (step [oneDownload]) fresh stalled).map
      (fun s => (s.stops.length, s.schedules[s.test]?)) = some (1, some ⟨true, .waiting⟩) := by
    decide +kernel
  obtain ⟨s, hs, heq⟩ := Option.map_eq_some_iff.mp hend
  obtain ⟨hlen, hsch⟩ := Prod.mk.inj heq
  exact ⟨s, hs, hlen, (stopped_exactly [oneDownload] stalled s .waiting hs (by decide +kernel) hsch
    rfl).1⟩

/-- The download is interrupted while a run of the task is under way, and the test
    ends before that run. -/
def interrupted : List Label :=
  List.replicate 5 (.call 500) ++ [.run 0 500 false, .throw, .call 0, .call 0, .call 0]

end Watchdog

end NetProbe
