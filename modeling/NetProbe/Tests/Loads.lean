import NetProbe.Lib.Machine

/-!
# Page and Video Loads

The browse test and the video test load one URL after the other. For each the
test thread posts a message to the UI thread, which starts the load, and then
waits on its own monitor until a callback of the load notifies it. The message
is posted before the monitor is entered, the callbacks leave no note that they
have run, and a notification reaches only a thread that is waiting: a load that
ends early is missed, and a callback that comes late ends the wait of another
load.

The machine has the test thread, the UI thread with its queue of messages, and
the callbacks of every load that has been started, at any time and any number of
times. Loads are numbered in the order of the loop. Two histories are kept on
the side: the loads of which a terminating callback has run, and for each wait
that a callback ended the load waited for and the load of the callback.

Waiting for a page has a time limit, waiting for a video has none. A media
callback counts as the end of a video only above a megabyte of traffic, less is
taken for an advertisement.

## Main definitions

* `TestPc`, `LoadMessage`, `LoadCallback`, `LoadTest`: The state of the machine.
* `stopWait`, `callback`: What a callback does.
* `step`: One step of the test thread, of the UI thread or of a callback.
* `OwnCompletion`: Each load is ended by its own completion.
* `InTime`: A callback that comes during the wait for its load or, if later, not
  during another wait.
* `Entered`: The invariant: terminating callbacks have run only for loads whose
  wait has been entered.

## Theorems

* `step_entered`: A step in time keeps the invariant and `OwnCompletion`.
* `ownCompletion_of_inTime`: Throughout a run whose callbacks are all in time,
  each load is ended by its own completion.
-/

namespace NetProbe

open Machine

inductive LoadKind where
  | webBrowse
  | httpVideo
  deriving DecidableEq, Repr

/-- Where the test thread is: in front of load `n`, behind its message, in its
    wait, behind the wait, in the pause after it, or at the end. -/
inductive TestPc where
  | sending (n : Nat)
  | sent (n : Nat)
  | waiting (n : Nat)
  | woken (n : Nat)
  | sleeping (n : Nat)
  | ended
  deriving DecidableEq, Repr

/-- The messages of the tests to the UI handler. -/
inductive LoadMessage where
  | loadUrl (n : Nat)
  | stopLoading
  | playVideo
  | endTest
  deriving DecidableEq, Repr

/-- The callbacks of a load. The media callbacks come with the traffic counter
    read in them. -/
inductive LoadCallback where
  | pageFinished
  | receivedError
  | mediaPlayerStarted (uidRxBytes : Int)
  | mediaCompleted (uidRxBytes : Int)
  | mediaError
  deriving DecidableEq, Repr

/-- `count` rounds over `urls` URLs. `started` are the loads the UI thread has
    begun, `destroyed` says that the view is gone, `entered` counts the waits
    begun, and `ran` and `wakes` are the histories. -/
structure LoadTest where
  kind : LoadKind
  count : Nat
  urls : Nat
  pc : TestPc
  mUidRxBytes : Int
  queue : List LoadMessage
  started : List Nat
  destroyed : Bool
  entered : Nat
  ran : List Nat
  wakes : List (Nat × Nat)
  deriving DecidableEq, Repr

namespace LoadTest

def data1MB : Int := 1024 * 1024

def fresh (kind : LoadKind) (count urls : Nat) : LoadTest where
  kind := kind
  count := count
  urls := urls
  pc := .sending 0
  mUidRxBytes := 0
  queue := []
  started := []
  destroyed := false
  entered := 0
  ran := []
  wakes := []

def sendMessage (s : LoadTest) (msg : LoadMessage) : LoadTest :=
  { s with queue := s.queue ++ [msg] }

/-- `notifyAll()` in a callback of load `m`: only a thread that is waiting is
    woken. -/
def stopWait (s : LoadTest) (m : Nat) : LoadTest :=
  match s.pc with
  | .waiting n => { s with pc := .woken n, ran := s.ran ++ [m], wakes := s.wakes ++ [(n, m)] }
  | _ => { s with ran := s.ran ++ [m] }

/-- Whether a callback calls `stopWait()`. -/
def terminates (s : LoadTest) (c : LoadCallback) : Bool :=
  match s.kind, c with
  | .webBrowse, .pageFinished => true
  | .webBrowse, .receivedError => true
  | .httpVideo, .receivedError => true
  | .httpVideo, .mediaCompleted uidRxBytes => !decide (uidRxBytes - s.mUidRxBytes < data1MB)
  | .httpVideo, .mediaError => true
  | _, _ => false

/-- What a callback does besides: a finished page of the video test is clicked
    at, and the start of the player notes the traffic. -/
def besides (s : LoadTest) (c : LoadCallback) : LoadTest :=
  match s.kind, c with
  | .httpVideo, .pageFinished => s.sendMessage .playVideo
  | .httpVideo, .mediaPlayerStarted uidRxBytes => { s with mUidRxBytes := uidRxBytes }
  | _, _ => s

/-- Whether a callback of the load can come: page callbacks while the view is
    there, media callbacks in the video test. -/
def canCome (s : LoadTest) (m : Nat) (c : LoadCallback) : Bool :=
  decide (m ∈ s.started) &&
    match c with
    | .pageFinished => !s.destroyed
    | .receivedError => !s.destroyed
    | _ => decide (s.kind = .httpVideo)

def callback (s : LoadTest) (m : Nat) (c : LoadCallback) : LoadTest :=
  if s.terminates c then s.stopWait m else s.besides c

/-- The test thread moves on by itself. -/
def advance (s : LoadTest) : Option LoadTest :=
  match s.pc with
  | .sending n =>
      if n < s.count * s.urls then some { s.sendMessage (.loadUrl n) with pc := .sent n }
      else some { s.sendMessage .endTest with pc := .ended }
  -- The monitor is entered and given up again in one step.
  | .sent n => some { s with pc := .waiting n, entered := n + 1 }
  | .waiting _ => none
  | .woken n => some { s.sendMessage .stopLoading with pc := .sleeping n }
  | .sleeping n => some { s with pc := .sending (n + 1) }
  | .ended => none

/-- `wait(120 * 1000)` runs out; the wait of the video test has no limit. -/
def timeout (s : LoadTest) : Option LoadTest :=
  match s.kind, s.pc with
  | .webBrowse, .waiting n => some { s with pc := .woken n }
  | _, _ => none

/-- An interrupt ends the test where it waits or sleeps. -/
def interrupt (s : LoadTest) : Option LoadTest :=
  match s.pc with
  | .sent _ | .waiting _ | .sleeping _ => some { s.sendMessage .endTest with pc := .ended }
  | _ => none

/-- `handleMessage` on the next message. -/
def handle (s : LoadTest) : Option LoadTest :=
  match s.queue with
  | [] => none
  | .loadUrl n :: rest => some { s with queue := rest, started := s.started ++ [n] }
  | .endTest :: rest => some { s with queue := rest, destroyed := true }
  | _ :: rest => some { s with queue := rest }

inductive Label where
  | advance
  | timeout
  | interrupt
  | handle
  | callback (m : Nat) (c : LoadCallback)
  deriving DecidableEq, Repr

def step (s : LoadTest) : Label → Option LoadTest
  | .advance => s.advance
  | .timeout => s.timeout
  | .interrupt => s.interrupt
  | .handle => s.handle
  | .callback m c => if s.canCome m c then some (s.callback m c) else none

/-- Each load is ended by its own completion: the thread does not wait for a
    load of which a terminating callback has run, and no wait has been ended by
    a callback of an earlier load. -/
structure OwnCompletion (s : LoadTest) : Prop where
  heard : ∀ n, s.pc = .waiting n → n ∉ s.ran
  own : ∀ w ∈ s.wakes, ¬ w.2 < w.1

/-- A terminating callback comes when the wait for its load has been entered,
    and not while the thread waits for another load. -/
def InTime (s : LoadTest) : Label → Prop
  | .callback m c => s.terminates c = true →
      m < s.entered ∧ ∀ n, s.pc = .waiting n → n = m
  | _ => True

/-- The load the thread waits for, if it waits. -/
def waitedFor : TestPc → Option Nat
  | .waiting n => some n
  | _ => none

theorem waitedFor_eq_some {pc : TestPc} {n : Nat} : waitedFor pc = some n ↔ pc = .waiting n := by
  cases pc <;> simp only [waitedFor, Option.some.injEq, TestPc.waiting.injEq, reduceCtorEq]

instance (s : LoadTest) : (a : Label) → Decidable (s.InTime a)
  | .callback m c => decidable_of_iff (s.terminates c = true →
      m < s.entered ∧ ∀ n ∈ waitedFor s.pc, n = m) (by
        simp only [InTime, Option.mem_def, waitedFor_eq_some])
  | .advance => isTrue trivial
  | .timeout => isTrue trivial
  | .interrupt => isTrue trivial
  | .handle => isTrue trivial

/-- The number of waits entered when the thread is at a place. -/
def waitsAt : TestPc → Option Nat
  | .sending n | .sent n => some n
  | .waiting n | .woken n | .sleeping n => some (n + 1)
  | .ended => none

/-- The terminating callbacks that have run belong to loads whose wait has been
    entered, and the loads are waited for in their order. -/
structure Entered (s : LoadTest) : Prop where
  ran : ∀ m ∈ s.ran, m < s.entered
  place : ∀ k, waitsAt s.pc = some k → s.entered = k
  completion : s.OwnCompletion

theorem fresh_entered (kind : LoadKind) (count urls : Nat) : (fresh kind count urls).Entered where
  ran := fun m hm => absurd hm List.not_mem_nil
  place := fun k hk => Option.some.inj hk
  completion :=
    { heard := fun n hn => absurd hn (by simp only [fresh, reduceCtorEq, not_false_eq_true])
      own := fun w hw => absurd hw List.not_mem_nil }

/-- A move of the thread to a place where it does not wait keeps the invariant
    if the number of waits stays right. -/
theorem Entered.move {s s' : LoadTest} (h : s.Entered) (hran : s'.ran = s.ran)
    (hwakes : s'.wakes = s.wakes) (hentered : s'.entered = s.entered)
    (hpc : ∀ n, s'.pc ≠ .waiting n) (hplace : ∀ k, waitsAt s'.pc = some k → s.entered = k) :
    s'.Entered where
  ran := by
    rw [hran, hentered]
    exact h.ran
  place := by
    rw [hentered]
    exact hplace
  completion :=
    { heard := fun n hn => absurd hn (hpc n)
      own := by
        rw [hwakes]
        exact h.completion.own }

/-- What leaves the thread and the histories alone keeps the invariant. -/
theorem Entered.frame {s s' : LoadTest} (h : s.Entered) (hran : s'.ran = s.ran)
    (hwakes : s'.wakes = s.wakes) (hentered : s'.entered = s.entered) (hpc : s'.pc = s.pc) :
    s'.Entered where
  ran := by
    rw [hran, hentered]
    exact h.ran
  place := by
    rw [hentered, hpc]
    exact h.place
  completion :=
    { heard := by
        rw [hpc, hran]
        exact h.completion.heard
      own := by
        rw [hwakes]
        exact h.completion.own }

theorem advance_entered {s s' : LoadTest} (h : s.Entered) (hstep : s.advance = some s') :
    s'.Entered := by
  rw [advance] at hstep
  cases hpc : s.pc with
  | sending n =>
      have hplace := h.place n (by rw [hpc, waitsAt])
      rw [hpc] at hstep
      dsimp only at hstep
      split at hstep
      · obtain rfl := Option.some.inj hstep
        exact h.move rfl rfl rfl (fun k => by simp only [ne_eq, reduceCtorEq, not_false_eq_true])
          (fun k hk => hplace.trans (Option.some.inj hk))
      · obtain rfl := Option.some.inj hstep
        exact h.move rfl rfl rfl (fun k => by simp only [ne_eq, reduceCtorEq, not_false_eq_true])
          (fun k hk => absurd hk (by simp only [waitsAt, reduceCtorEq, not_false_eq_true]))
  | sent n =>
      -- No callback of load `n` has run, since its wait has not been entered.
      have hplace := h.place n (by rw [hpc, waitsAt])
      rw [hpc] at hstep
      obtain rfl := Option.some.inj hstep
      refine ⟨fun m hm => ?_, fun k hk => Option.some.inj hk, ⟨fun k hk => ?_, h.completion.own⟩⟩
      · have hlt := h.ran m hm
        simp only
        omega
      · obtain rfl := TestPc.waiting.inj hk
        intro hmem
        have hlt := h.ran n hmem
        omega
  | waiting n =>
      rw [hpc] at hstep
      exact absurd hstep (by simp only [reduceCtorEq, not_false_eq_true])
  | woken n =>
      have hplace := h.place (n + 1) (by rw [hpc, waitsAt])
      rw [hpc] at hstep
      obtain rfl := Option.some.inj hstep
      exact h.move rfl rfl rfl (fun k => by simp only [ne_eq, reduceCtorEq, not_false_eq_true])
        (fun k hk => hplace.trans (Option.some.inj hk))
  | sleeping n =>
      have hplace := h.place (n + 1) (by rw [hpc, waitsAt])
      rw [hpc] at hstep
      obtain rfl := Option.some.inj hstep
      exact h.move rfl rfl rfl (fun k => by simp only [ne_eq, reduceCtorEq, not_false_eq_true])
        (fun k hk => hplace.trans (Option.some.inj hk))
  | ended =>
      rw [hpc] at hstep
      exact absurd hstep (by simp only [reduceCtorEq, not_false_eq_true])

theorem timeout_entered {s s' : LoadTest} (h : s.Entered) (hstep : s.timeout = some s') :
    s'.Entered := by
  rw [timeout] at hstep
  split at hstep
  case h_1 n _ hpc =>
      have hplace := h.place (n + 1) (by rw [hpc, waitsAt])
      obtain rfl := Option.some.inj hstep
      exact h.move rfl rfl rfl (fun k => by simp only [ne_eq, reduceCtorEq, not_false_eq_true])
        (fun k hk => hplace.trans (Option.some.inj hk))
  case h_2 => exact absurd hstep (by simp only [reduceCtorEq, not_false_eq_true])

theorem interrupt_entered {s s' : LoadTest} (h : s.Entered) (hstep : s.interrupt = some s') :
    s'.Entered := by
  have hend : s' = { s.sendMessage .endTest with pc := .ended } := by
    rw [interrupt] at hstep
    split at hstep
    · exact (Option.some.inj hstep).symm
    · exact (Option.some.inj hstep).symm
    · exact (Option.some.inj hstep).symm
    · exact absurd hstep (by simp only [reduceCtorEq, not_false_eq_true])
  rw [hend]
  exact h.move rfl rfl rfl (fun k => by simp only [ne_eq, reduceCtorEq, not_false_eq_true])
    (fun k hk => absurd hk (by simp only [waitsAt, reduceCtorEq, not_false_eq_true]))

theorem handle_entered {s s' : LoadTest} (h : s.Entered) (hstep : s.handle = some s') :
    s'.Entered := by
  rw [handle] at hstep
  split at hstep
  · exact absurd hstep (by simp only [reduceCtorEq, not_false_eq_true])
  · obtain rfl := Option.some.inj hstep
    exact h.frame rfl rfl rfl rfl
  · obtain rfl := Option.some.inj hstep
    exact h.frame rfl rfl rfl rfl
  · obtain rfl := Option.some.inj hstep
    exact h.frame rfl rfl rfl rfl

theorem besides_entered {s : LoadTest} (h : s.Entered) (c : LoadCallback) :
    (s.besides c).Entered := by
  unfold besides
  split
  · exact h.frame rfl rfl rfl rfl
  · exact h.frame rfl rfl rfl rfl
  · exact h

/-- A callback in time wakes its own wait or none. -/
theorem stopWait_entered {s : LoadTest} {m : Nat} (h : s.Entered) (hm : m < s.entered)
    (hown : ∀ n, s.pc = .waiting n → n = m) : (s.stopWait m).Entered := by
  have hran : ∀ k ∈ s.ran ++ [m], k < s.entered := by
    intro k hk
    rcases List.mem_append.mp hk with hold | hnew
    · exact h.ran k hold
    · rw [List.mem_singleton.mp hnew]
      exact hm
  rw [stopWait]
  split
  case h_1 n hpc =>
      have hplace := h.place (n + 1) (by rw [hpc, waitsAt])
      refine ⟨hran, fun k hk => hplace.trans (Option.some.inj hk), ⟨fun k hk => ?_, ?_⟩⟩
      · exact absurd hk (by simp only [reduceCtorEq, not_false_eq_true])
      · intro w hw
        rcases List.mem_append.mp hw with hold | hnew
        · exact h.completion.own w hold
        · rw [List.mem_singleton.mp hnew, hown n hpc]
          exact Nat.lt_irrefl m
  case h_2 hpc =>
      exact ⟨hran, h.place, ⟨fun k hk => absurd hk (hpc k), h.completion.own⟩⟩

/-- A step in time keeps the invariant. -/
theorem step_entered (s : LoadTest) (a : Label) (s' : LoadTest) (h : s.Entered)
    (htime : s.InTime a) (hstep : s.step a = some s') : s'.Entered := by
  cases a with
  | advance => exact advance_entered h hstep
  | timeout => exact timeout_entered h hstep
  | interrupt => exact interrupt_entered h hstep
  | handle => exact handle_entered h hstep
  | callback m c =>
      rw [step] at hstep
      split at hstep
      · obtain rfl := Option.some.inj hstep
        rw [callback]
        split
        · obtain ⟨hm, hown⟩ := htime ‹_›
          exact stopWait_entered h hm hown
        · exact besides_entered h c
      · exact absurd hstep (by simp only [reduceCtorEq, not_false_eq_true])

/-- Throughout every run whose terminating callbacks all come in time, whatever
    the interleaving, each load is ended by its own completion. -/
theorem ownCompletion_of_inTime (kind : LoadKind) (count urls : Nat) (labels : List Label)
    (htime : Along step InTime (fresh kind count urls) labels) :
    Throughout step OwnCompletion (fresh kind count urls) labels := by
  have hentered := throughout_of_along step InTime Entered
    (fun s a s' h hC hstep => step_entered s a s' h hC hstep) labels _
    (fresh_entered kind count urls) htime
  exact fun start hstart t ht => (hentered start hstart t ht).completion

/-- Two pages, each finished while it is waited for; the first reports once more
    in the pause. -/
def browsing : List Label :=
  [.advance, .handle, .advance, .callback 0 .pageFinished, .advance, .callback 0 .pageFinished,
    .advance, .advance, .handle, .handle, .advance, .callback 1 .receivedError]

theorem ownCompletion_of_inTime_browsing :
    Along step InTime (fresh .webBrowse 1 2) browsing
    ∧ ∃ t, exec step (fresh .webBrowse 1 2) browsing = some t ∧ t.wakes = [(0, 0), (1, 1)]
      ∧ t.OwnCompletion :=
  ⟨by decide, _, rfl, rfl, ownCompletion_of_inTime .webBrowse 1 2 browsing (by decide) browsing
    (List.prefix_refl _) _ rfl⟩

/-- A page that is finished before the thread waits for it is waited for all the
    same, and a second error of the first video ends the wait for the next. -/
theorem completion_missed_and_late :
    (∃ t, exec step (fresh .webBrowse 1 1)
        [.advance, .handle, .callback 0 .pageFinished, .advance] = some t
      ∧ t.pc = .waiting 0 ∧ 0 ∈ t.ran ∧ ¬t.OwnCompletion)
    ∧ ∃ t, exec step (fresh .httpVideo 1 2)
        [.advance, .handle, .advance, .callback 0 .mediaError, .advance, .advance, .advance,
          .advance, .callback 0 .mediaError] = some t
      ∧ (1, 0) ∈ t.wakes ∧ ¬t.OwnCompletion := by
  refine ⟨⟨_, rfl, rfl, by decide, fun h => ?_⟩, ⟨_, rfl, by decide, fun h => ?_⟩⟩
  · exact h.heard 0 rfl (by decide)
  · exact h.own (1, 0) (by decide) (by decide)

end LoadTest

end NetProbe
