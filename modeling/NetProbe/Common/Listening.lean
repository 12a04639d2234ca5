import NetProbe.Common.MediaPlayerListener
import NetProbe.Lib.Machine

/-!
# Starting and Stopping the Listener

`startListen` makes a thread that starts `logcat`, reads its lines and makes the
callbacks. `stopListener` sets a flag that the thread tests before each line, and
writes to the process if there is one. The thread sets the flag to false itself, after
it has started the process: a stop that comes before that is forgotten, and the thread
goes on.

The flag is tested before a line is read, and the thread may be waiting for one, so
another line is handled after a stop that is not forgotten. An exception out of a line
or out of a callback ends the thread too, through the same `finally`.

The two threads of one listener are here, step by step: the one that reads, with
anything the process may write, and the one that calls `stopListener`, any number of
times. The lines that were handled are kept on the side.

## Main definitions

* `ReaderPc`, `StopPc`, `Listening`: The state of the two threads.
* `readerStep`, `stopStep`, `step`: Their steps.
* `Begun`: The thread has set the flag to false.
* `Sound`: The invariant.

## Theorems

* `step_sound`: The invariant is kept.
* `listening_sound`: The callbacks are those of the lines, nothing is left of a thread
  that has ended, and `stopListener` throws only then.
* `stop_ends_iff`: After a stop at most one more line is handled, exactly if the thread
  has set the flag to false before.
-/

namespace NetProbe

namespace MediaPlayerListener

open Machine

/-- Where the thread of `startListen` is. -/
inductive ReaderPc where
  | exec
  | openReader
  | reset
  | test
  | read
  | line (line : Option Line)
  | close
  | destroy
  | clear
  | ended
  deriving DecidableEq, Repr

/-- Where the calls of `stopListener` are; `threw` is the end of a call that threw. -/
inductive StopPc where
  | idle
  | check
  | write
  | threw
  deriving DecidableEq, Repr

/-- The fields, with a process where `mLogcatProc` is not null, whether that process
    runs, and the two threads. `lines` are the lines handled, `calls` the callbacks
    made, and `failed` says that the last line threw. -/
structure Listening where
  mStopLogcat : Bool
  mLogcatProc : Bool
  running : Bool
  reader : ReaderPc
  stop : StopPc
  lines : List Line
  calls : List Callback
  failed : Bool
  deriving DecidableEq, Repr

namespace Listening

/-- After `startListen`. -/
def fresh : Listening where
  mStopLogcat := false
  mLogcatProc := false
  running := false
  reader := .exec
  stop := .idle
  lines := []
  calls := []
  failed := false

/-- What the process does when the thread asks it for something. -/
inductive Answer where
  | ioException
  | null
  | line (line : Line)
  deriving DecidableEq, Repr

/-- The next step of the thread. The listener is set before the thread is made. -/
def readerStep (s : Listening) (answer : Answer) : Option Listening :=
  match s.reader with
  | .exec =>
      match answer with
      -- There is no reader, so `finally` does nothing.
      | .ioException => some { s with reader := .ended }
      | .null | .line _ =>
          some { s with mLogcatProc := true, running := true, reader := .openReader }
  | .openReader => some { s with reader := .reset }
  | .reset => some { s with mStopLogcat := false, reader := .test }
  | .test => some { s with reader := if s.mStopLogcat then .close else .read }
  | .read =>
      match answer with
      | .ioException => some { s with reader := .close }
      | .null => some { s with reader := .line none }
      | .line line => some { s with reader := .line (some line) }
  | .line line =>
      match body true line s.calls with
      | .returned calls =>
          some { s with lines := s.lines ++ line.toList, calls := calls, reader := .test }
      | .threw _ calls => some { s with
          lines := s.lines ++ line.toList
          calls := calls
          failed := true
          reader := .close }
  | .close => some { s with reader := .destroy }
  | .destroy => some { s with running := false, reader := .clear }
  | .clear => some { s with mLogcatProc := false, reader := .ended }
  | .ended => none

/-- The next step of a call of `stopListener`, or the first one of the next call. -/
def stopStep (s : Listening) : Option Listening :=
  match s.stop with
  | .idle => some { s with mStopLogcat := true, stop := .check }
  | .check => some { s with stop := if s.mLogcatProc then .write else .idle }
  | .write => some { s with stop := if s.mLogcatProc then .idle else .threw }
  | .threw => none

inductive Label where
  | reader (answer : Answer)
  | stop
  deriving DecidableEq, Repr

def step (s : Listening) : Label → Option Listening
  | .reader answer => s.readerStep answer
  | .stop => s.stopStep

/-- The thread has set the flag to false. -/
def Begun : ReaderPc → Prop
  | .exec | .openReader | .reset => False
  | .test | .read | .line _ | .close | .destroy | .clear | .ended => True

instance : DecidablePred Begun
  | .exec | .openReader | .reset => isFalse not_false
  | .test | .read | .line _ | .close | .destroy | .clear | .ended => isTrue trivial

/-- A process runs while the thread reads from it. -/
def hasProcess : ReaderPc → Bool
  | .exec | .clear | .ended => false
  | .openReader | .reset | .test | .read | .line _ | .close | .destroy => true

/-- The field refers to a process a little longer. -/
def hasField : ReaderPc → Bool
  | .exec | .ended => false
  | .openReader | .reset | .test | .read | .line _ | .close | .destroy | .clear => true

/-- The thread is on its way out, or has ended. -/
def Leaving : ReaderPc → Prop
  | .close | .destroy | .clear | .ended => True
  | .exec | .openReader | .reset | .test | .read | .line _ => False

/-- The lines have led to the callbacks, and the last one has thrown if the thread says
    so. -/
def Told (s : Listening) : Prop :=
  if s.failed then Leaving s.reader ∧ ∃ e,
    Outcome.feed (fun calls line => handle line calls) [] s.lines = .threw e s.calls
  else Outcome.feed (fun calls line => handle line calls) [] s.lines = .returned s.calls

/-- What holds between any two steps. -/
structure Sound (s : Listening) : Prop where
  running : s.running = hasProcess s.reader
  field : s.mLogcatProc = hasField s.reader
  writes : s.stop = .write → s.reader ≠ .exec
  threw : s.stop = .threw → s.reader = .ended
  told : s.Told

theorem feed_concat {s : Listening} {calls : List Callback} (line : Line)
    (h : Outcome.feed (fun calls line => handle line calls) [] s.lines = .returned calls) :
    Outcome.feed (fun calls line => handle line calls) [] (s.lines ++ [line])
      = handle line calls := by
  rw [Outcome.feed_append, h]
  show (handle line calls).bind (fun calls => .returned calls) = handle line calls
  cases handle line calls <;> rfl

/-- A step of the thread that handles no line. -/
theorem Sound.moves {s : Listening} {pc : ReaderPc} (hs : s.Sound) (hpc : s.reader = pc)
    (hended : pc ≠ .ended) (flag : Bool) {process field : Bool} {pc' : ReaderPc}
    (hrunning : process = hasProcess pc') (hfield : field = hasField pc') (hexec : pc' ≠ .exec)
    (hleaving : Leaving pc → Leaving pc') :
    Sound { s with
      mStopLogcat := flag, mLogcatProc := field, running := process, reader := pc' } := by
  refine ⟨hrunning, hfield, fun _ => hexec, fun hthrew => ?_, ?_⟩
  · exact absurd (hpc.symm.trans (hs.threw hthrew)) hended
  · have htold := hs.told
    rw [Told] at htold ⊢
    split at htold
    · rename_i hf
      rw [if_pos hf]
      exact ⟨hleaving (hpc ▸ htold.1), htold.2⟩
    · rename_i hf
      rw [if_neg hf]
      exact htold

/-- The step that handles a line, or has none to handle. -/
theorem line_sound {s s' : Listening} {line : Option Line} {answer : Answer} (hs : s.Sound)
    (hpc : s.reader = .line line) (h : s.readerStep answer = some s') : s'.Sound := by
  have hfield := hs.field
  have hrunning := hs.running
  have htold := hs.told
  rw [hpc] at hfield hrunning
  have hstop : s.stop ≠ .threw := fun hthrew =>
    absurd (hpc.symm.trans (hs.threw hthrew)) ReaderPc.noConfusion
  have hfailed : ¬s.failed = true := by
    intro hf
    rw [Told, if_pos hf, hpc] at htold
    exact htold.1
  rw [Told, if_neg hfailed] at htold
  simp only [readerStep, hpc] at h
  cases line with
  | none =>
      obtain rfl := Option.some.inj h
      refine ⟨hrunning, hfield, fun _ => ReaderPc.noConfusion, fun ht => absurd ht hstop, ?_⟩
      rw [Told, if_neg hfailed]
      exact (congrArg _ (List.append_nil s.lines)).trans htold
  | some line =>
      have hfeed := feed_concat line htold
      cases hhandle : handle line s.calls with
      | returned calls =>
          simp only [body, hhandle] at h
          obtain rfl := Option.some.inj h
          refine ⟨hrunning, hfield, fun _ => ReaderPc.noConfusion, fun ht => absurd ht hstop, ?_⟩
          rw [Told, if_neg hfailed]
          exact hfeed.trans hhandle
      | threw e calls =>
          simp only [body, hhandle] at h
          obtain rfl := Option.some.inj h
          refine ⟨hrunning, hfield, fun _ => ReaderPc.noConfusion, fun ht => absurd ht hstop, ?_⟩
          rw [Told, if_pos rfl]
          exact ⟨trivial, e, hfeed.trans hhandle⟩

theorem readerStep_sound {s s' : Listening} {answer : Answer} (hs : s.Sound)
    (h : s.readerStep answer = some s') : s'.Sound := by
  have hfield := hs.field
  have hrunning := hs.running
  cases hpc : s.reader with
  | exec =>
      rw [hpc] at hfield hrunning
      simp only [readerStep, hpc] at h
      split at h
      · obtain rfl := Option.some.inj h
        exact hs.moves hpc ReaderPc.noConfusion _ hrunning hfield ReaderPc.noConfusion False.elim
      all_goals
        obtain rfl := Option.some.inj h
        exact hs.moves hpc ReaderPc.noConfusion _ rfl rfl ReaderPc.noConfusion False.elim
  | line line => exact line_sound hs hpc h
  | ended => exact absurd h (by simp only [readerStep, hpc, reduceCtorEq, not_false_eq_true])
  | openReader =>
      rw [hpc] at hfield hrunning
      simp only [readerStep, hpc] at h
      obtain rfl := Option.some.inj h
      exact hs.moves hpc ReaderPc.noConfusion _ hrunning hfield ReaderPc.noConfusion False.elim
  | reset =>
      rw [hpc] at hfield hrunning
      simp only [readerStep, hpc] at h
      obtain rfl := Option.some.inj h
      exact hs.moves hpc ReaderPc.noConfusion _ hrunning hfield ReaderPc.noConfusion False.elim
  | test =>
      rw [hpc] at hfield hrunning
      simp only [readerStep, hpc] at h
      obtain rfl := Option.some.inj h
      cases hflag : s.mStopLogcat
      · exact hs.moves hpc ReaderPc.noConfusion _ hrunning hfield ReaderPc.noConfusion False.elim
      · exact hs.moves hpc ReaderPc.noConfusion _ hrunning hfield ReaderPc.noConfusion False.elim
  | read =>
      rw [hpc] at hfield hrunning
      simp only [readerStep, hpc] at h
      split at h
      all_goals
        obtain rfl := Option.some.inj h
        exact hs.moves hpc ReaderPc.noConfusion _ hrunning hfield ReaderPc.noConfusion False.elim
  | close =>
      rw [hpc] at hfield hrunning
      simp only [readerStep, hpc] at h
      obtain rfl := Option.some.inj h
      exact hs.moves hpc ReaderPc.noConfusion _ hrunning hfield ReaderPc.noConfusion id
  | destroy =>
      rw [hpc] at hfield
      simp only [readerStep, hpc] at h
      obtain rfl := Option.some.inj h
      exact hs.moves hpc ReaderPc.noConfusion _ rfl hfield ReaderPc.noConfusion id
  | clear =>
      rw [hpc] at hrunning
      simp only [readerStep, hpc] at h
      obtain rfl := Option.some.inj h
      exact hs.moves hpc ReaderPc.noConfusion _ hrunning rfl ReaderPc.noConfusion id

theorem no_field {pc : ReaderPc} (h : hasField pc = false) : pc = .exec ∨ pc = .ended := by
  cases pc with
  | exec => exact .inl rfl
  | ended => exact .inr rfl
  | openReader | reset | test | read | line line | close | destroy | clear =>
      exact absurd h Bool.false_ne_true.symm

theorem stopStep_sound {s s' : Listening} (hs : s.Sound) (h : s.stopStep = some s') :
    s'.Sound := by
  have hfield := hs.field
  cases hpc : s.stop with
  | idle =>
      simp only [stopStep, hpc] at h
      obtain rfl := Option.some.inj h
      exact ⟨hs.running, hs.field, StopPc.noConfusion, StopPc.noConfusion, hs.told⟩
  | check =>
      simp only [stopStep, hpc] at h
      obtain rfl := Option.some.inj h
      cases hproc : s.mLogcatProc
      · exact ⟨hs.running, hproc ▸ hs.field, StopPc.noConfusion, StopPc.noConfusion, hs.told⟩
      · refine ⟨hs.running, hproc ▸ hs.field, fun _ hexec => ?_, StopPc.noConfusion, hs.told⟩
        rw [hproc, hexec] at hfield
        exact absurd hfield Bool.false_ne_true.symm
  | write =>
      simp only [stopStep, hpc] at h
      obtain rfl := Option.some.inj h
      cases hproc : s.mLogcatProc
      · refine ⟨hs.running, hproc ▸ hs.field, StopPc.noConfusion, fun _ => ?_, hs.told⟩
        -- Only a thread that has ended has taken the process away.
        rw [hproc] at hfield
        exact (no_field hfield.symm).resolve_left (hs.writes hpc)
      · exact ⟨hs.running, hproc ▸ hs.field, StopPc.noConfusion, StopPc.noConfusion, hs.told⟩
  | threw => exact absurd h (by simp only [stopStep, hpc, reduceCtorEq, not_false_eq_true])

theorem step_sound {s s' : Listening} {a : Label} (hs : s.Sound) (h : s.step a = some s') :
    s'.Sound := by
  cases a with
  | reader answer => exact readerStep_sound hs h
  | stop => exact stopStep_sound hs h

theorem fresh_sound : fresh.Sound :=
  ⟨rfl, rfl, StopPc.noConfusion, StopPc.noConfusion, rfl⟩

/-- In every run the callbacks are those of the lines, one line after the other and up
    to one that throws; a thread that has ended has left neither process nor reference;
    and a call of `stopListener` throws only then. -/
theorem listening_sound (run : List Label) (s : Listening) (h : exec step fresh run = some s) :
    (Outcome.feed (fun calls line => handle line calls) [] s.lines).state = s.calls
      ∧ (s.reader = .ended → s.running = false ∧ s.mLogcatProc = false)
      ∧ (s.stop = .threw → s.reader = .ended) := by
  have hs := exec_keeps step (fun _ _ => True) Sound (fun _ _ _ hs _ hstep => step_sound hs hstep)
    run fresh s fresh_sound (along_true _ _ _) h
  refine ⟨?_, fun hended => ⟨?_, ?_⟩, hs.threw⟩
  · have htold := hs.told
    rw [Told] at htold
    split at htold
    · obtain ⟨-, e, hfeed⟩ := htold
      rw [hfeed, Outcome.state_threw]
    · rw [htold, Outcome.state_returned]
  · rw [hs.running, hended]
    rfl
  · rw [hs.field, hended]
    rfl

/-- A player that pauses, and then an error that is cut off while `stopListener` is
    called. -/
def cutOff : List Label :=
  [.reader .null, .reader .null, .reader .null, .reader .null,
    .reader (.line (word "MEDIA_PAUSED")), .reader .null, .reader .null,
    .reader (.line (word "MEDIA_ERROR, ext1=")), .stop, .stop, .reader .null, .reader .null,
    .reader .null, .reader .null, .stop]

theorem listening_sound_cutOff :
    ∃ s ∈ exec step fresh cutOff,
      (Outcome.feed (fun calls line => handle line calls) [] s.lines).state = s.calls
        ∧ (s.reader = .ended → s.running = false ∧ s.mLogcatProc = false)
        ∧ (s.stop = .threw → s.reader = .ended) := by
  have hsome : (exec step fresh cutOff).isSome := by decide +kernel
  obtain ⟨s, hs⟩ := Option.isSome_iff_exists.mp hsome
  exact ⟨s, hs, listening_sound cutOff s hs⟩

/-! ### Stopping -/

/-- The thread that has seen the flag handles no other line: it has tested the flag
    before, and reads at most the line that it is waiting for. -/
def Flagged (n : Nat) (s : Listening) : Prop :=
  Begun s.reader ∧ s.mStopLogcat = true ∧
    match s.reader with
    | .read | .line _ => s.lines.length ≤ n
    | _ => s.lines.length ≤ n + 1

theorem step_flagged {n : Nat} {s s' : Listening} {a : Label} (hs : Flagged n s)
    (h : s.step a = some s') : Flagged n s' := by
  obtain ⟨hbegun, hflag, hlines⟩ := hs
  cases a with
  | stop =>
      simp only [step, stopStep] at h
      split at h
      · obtain rfl := Option.some.inj h
        exact ⟨hbegun, rfl, hlines⟩
      · obtain rfl := Option.some.inj h
        exact ⟨hbegun, hflag, hlines⟩
      · obtain rfl := Option.some.inj h
        exact ⟨hbegun, hflag, hlines⟩
      · exact absurd h (by simp only [reduceCtorEq, not_false_eq_true])
  | reader answer =>
      cases hpc : s.reader with
      | exec | openReader | reset =>
          rw [hpc] at hbegun
          exact absurd hbegun not_false
      | ended =>
          exact absurd h (by simp only [step, readerStep, hpc, reduceCtorEq, not_false_eq_true])
      | test =>
          rw [hpc] at hlines
          simp only [step, readerStep, hpc, hflag, ↓reduceIte] at h
          obtain rfl := Option.some.inj h
          exact ⟨trivial, rfl, hlines⟩
      | read =>
          rw [hpc] at hlines
          simp only [step, readerStep, hpc] at h
          split at h
          · obtain rfl := Option.some.inj h
            exact ⟨trivial, hflag, Nat.le_succ_of_le hlines⟩
          all_goals
            obtain rfl := Option.some.inj h
            exact ⟨trivial, hflag, hlines⟩
      | line line =>
          rw [hpc] at hlines
          have hone : (s.lines ++ line.toList).length ≤ n + 1 := by
            rw [List.length_append]
            have hle : line.toList.length ≤ 1 := by cases line <;> simp
            exact Nat.add_le_add hlines hle
          simp only [step, readerStep, hpc] at h
          split at h
          · obtain rfl := Option.some.inj h
            exact ⟨trivial, hflag, hone⟩
          · obtain rfl := Option.some.inj h
            exact ⟨trivial, hflag, hone⟩
      | close | destroy | clear =>
          rw [hpc] at hlines
          simp only [step, readerStep, hpc] at h
          obtain rfl := Option.some.inj h
          exact ⟨trivial, hflag, hlines⟩

/-- Two empty lines, read after the flag has been set to false. -/
def twoLines : List Label :=
  [.reader .null, .reader .null, .reader (.line []), .reader .null, .reader .null,
    .reader (.line []), .reader .null]

/-- A thread that has not set the flag to false yet can go on to read both. -/
theorem exists_two_lines {s : Listening} (h : ¬Begun s.reader) :
    ∃ more t, exec step s more = some t ∧ t.lines.length = s.lines.length + 2 := by
  obtain ⟨flag, field, running, reader, stop, lines, calls, failed⟩ := s
  have htwo : (lines ++ [[]] ++ [[]]).length = lines.length + 2 := by
    simp only [List.length_append, List.length_singleton]
  cases reader with
  | exec => exact ⟨.reader .null :: .reader .null :: twoLines, _, rfl, htwo⟩
  | openReader => exact ⟨.reader .null :: twoLines, _, rfl, htwo⟩
  | reset => exact ⟨twoLines, _, rfl, htwo⟩
  | test | read | line line | close | destroy | clear | ended => exact absurd trivial h

/-- A stop is forgotten if the thread has not set the flag to false yet, and otherwise
    at most one more line is handled, whatever the process writes and however often
    `stopListener` is called. -/
theorem stop_ends_iff (s s' : Listening) (hidle : s.stop = .idle) (hstop : s.step .stop = some s') :
    (∀ (more : List Label) (t : Listening), exec step s' more = some t →
      t.lines.length ≤ s.lines.length + 1) ↔ Begun s.reader := by
  simp only [step, stopStep, hidle] at hstop
  obtain rfl := Option.some.inj hstop
  constructor
  · intro hall
    by_contra hnot
    obtain ⟨more, t, ht, hlines⟩ :=
      exists_two_lines (s := { s with mStopLogcat := true, stop := .check }) hnot
    have hle := hall more t ht
    exact absurd hlines (by show t.lines.length ≠ s.lines.length + 2; omega)
  · intro hbegun more t ht
    have hflagged : Flagged s.lines.length { s with mStopLogcat := true, stop := .check } := by
      refine ⟨hbegun, rfl, ?_⟩
      show match s.reader with
        | .read | .line _ => s.lines.length ≤ s.lines.length
        | _ => s.lines.length ≤ s.lines.length + 1
      split <;> omega
    obtain ⟨-, -, hlines⟩ := exec_keeps step (fun _ _ => True) (Flagged s.lines.length)
      (fun _ _ _ hs _ hstep => step_flagged hs hstep) more _ t hflagged (along_true _ _ _) ht
    split at hlines <;> omega

/-- The thread waits for its first line. -/
def waiting : Listening := ⟨false, true, true, .read, .idle, [], [], false⟩

theorem stop_ends_iff_waiting :
    (∀ (more : List Label) (t : Listening),
      exec step { waiting with mStopLogcat := true, stop := .check } more = some t →
        t.lines.length ≤ waiting.lines.length + 1) ↔ Begun waiting.reader :=
  stop_ends_iff waiting _ rfl rfl

end Listening

end MediaPlayerListener

end NetProbe
