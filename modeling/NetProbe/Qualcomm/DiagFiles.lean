import NetProbe.Lib.Machine
import NetProbe.Lib.SegmentedLog
import NetProbe.Qualcomm.Hdlc

/-!
# Reading the Diag Files

The diag library writes its log into files of a directory, always into the
newest one, and starts a new file when one is full. The diag thread reads the
directory from the other side: `processDiagFiles` takes the first file of a
listing, and `readDiagFile` hands its bytes to the decoder until it meets the
end of the file, sees more than one file in a new listing, and meets the end of
the file again. Then it deletes the file.

The machine interleaves the two. A file is named by its number in the order of
creation, and the contents of a deleted file stay in `files`, so that `files`
is everything ever written. What the reader meets outside is part of its label:
the order of a listing, how many bytes a read delivers, a read that fails, a
`delete` that returns false. The decoder is the one of `Hdlc`; an exception it
throws ends the thread. `passed` records what it was handed, chunk by chunk, and
`fed` says that the decoder has been given just that.

Three properties are settled here. A read that fails after some bytes makes the
reader start the file over, and so does a file that is not deleted; this does no
harm if it happens only at the beginning of a file, or on the way out. Then no
byte is passed twice, and if listings come in the order of creation and reads do
not fail, everything is passed in order and exactly once. A listing in any other
order may let the reader delete the file that is being written; it does not if
no listing of several files starts with the newest one.

## Main definitions

* `ReaderPc`, `ReadAnswer`, `DiagFiles`: The state of the machine.
* `readerStep`: One step of the diag thread.
* `step`: One step of the writer, of the thread, or of a `stop`.
* `Reads`: The steps of the thread, one case each.
* `FailsEarly`: A read or a delete does not fail in the middle of a file.
* `InOrder`: The invariant of a reader that goes by the order of creation.
* `Sparing`, `Once`: The invariants of the other two properties.

## Theorems

* `readerStep_reads`: What a step of the thread can be.
* `fed`: The decoder has been given exactly what was passed.
* `passed_in_order`: The bytes passed are a prefix of the bytes written, and a
  deleted file is complete and has been passed.
* `live_not_deleted`: The newest file is never deleted.
* `positions_once`: No position of a file is passed twice.
-/

namespace NetProbe

open Machine

/-- Where the diag thread is. The file a `readDiagFile` call is reading comes
    with the position of its stream. -/
inductive ReaderPc where
  | loop
  | listFiles
  | openFile (file : Nat)
  | readLoop (file pos : Nat)
  | read (file pos : Nat)
  | relist (file pos : Nat)
  | reread (file pos : Nat)
  | delete (file pos : Nat)
  | ended
  deriving DecidableEq, Repr

/-- How much of the open file has been read, where a read or a delete is next. -/
def ReaderPc.offset : ReaderPc → Nat
  | .read _ pos => pos
  | .reread _ pos => pos
  | .delete _ pos => pos
  | _ => 0

/-- What the thread meets outside: a listing, or none for a directory that
    cannot be listed, a file that is there or not, bytes, the end of the file,
    an `IOException`, or a `delete` that returns false. -/
inductive ReadAnswer where
  | nothing
  | listing (files : Option (List Nat))
  | opened
  | notFound
  | chunk (len : Nat)
  | endOfFile
  | ioError
  | notDeleted
  deriving DecidableEq, Repr

/-- Bytes handed to `hdlc.decode`, and where they come from. -/
structure PassedChunk where
  file : Nat
  pos : Nat
  bytes : List Byte
  deriving DecidableEq, Repr

/-- The positions of the bytes of a chunk. -/
def PassedChunk.positions (c : PassedChunk) : List (Nat × Nat) :=
  (List.range c.bytes.length).map (fun i => (c.file, c.pos + i))

/-- `files` are the contents of all files ever created, the oldest first, and
    `present` the files in the directory, in the same order. -/
structure DiagFiles where
  files : List (List Byte)
  present : List Nat
  stopFlag : Bool
  pc : ReaderPc
  hdlc : Hdlc.Decoder
  passed : List PassedChunk

namespace DiagFiles

/-- The directory after `cleanTmpDir`, and the thread before its loop. -/
def fresh : DiagFiles where
  files := []
  present := []
  stopFlag := false
  pc := .loop
  hdlc := .fresh
  passed := []

/-- The bytes passed to the decoder so far. -/
def passedBytes (s : DiagFiles) : List Byte := s.passed.flatMap PassedChunk.bytes

/-- The positions passed to the decoder so far. -/
def positions (s : DiagFiles) : List (Nat × Nat) := s.passed.flatMap PassedChunk.positions

/-- The bytes one `read(mBuffer)` delivers. -/
def chunkAt (s : DiagFiles) (file pos len : Nat) : List Byte :=
  ((SegmentedLog.segment s.files file).drop pos).take len

/-- `hdlc.decode(mBuffer, len)`. An unchecked exception ends the thread. -/
def pass (s : DiagFiles) (file pos len : Nat) : DiagFiles :=
  let bytes := s.chunkAt file pos len
  let decoded := Hdlc.decode s.hdlc bytes bytes.length
  { s with
    hdlc := decoded.state
    passed := s.passed ++ [⟨file, pos, bytes⟩]
    pc := if decoded.isReturned then .readLoop file (pos + len) else .ended }

/-- `inputStream.read(mBuffer)` and what follows it: bytes are decoded, and the
    end of the file leads to `atEnd`. -/
def readStep (s : DiagFiles) (file pos : Nat) (atEnd : ReaderPc) : ReadAnswer → Option DiagFiles
  | .chunk len =>
      -- The buffer has room for 8192 bytes.
      if 0 < len ∧ len ≤ 8192 ∧ pos + len ≤ (SegmentedLog.segment s.files file).length then
        some (s.pass file pos len)
      else none
  | .endOfFile =>
      if (SegmentedLog.segment s.files file).length ≤ pos then some { s with pc := atEnd }
      else none
  -- The handler closes the stream, and the file is left in place.
  | .ioError => some { s with pc := .loop }
  | _ => none

/-- One step of the diag thread, from the loop of `start` on. -/
def readerStep (s : DiagFiles) (answer : ReadAnswer) : Option DiagFiles :=
  match s.pc, answer with
  | .loop, .nothing => some { s with pc := if s.stopFlag then .ended else .listFiles }
  -- The length of a missing listing: a `NullPointerException`.
  | .listFiles, .listing none => some { s with pc := .ended }
  | .listFiles, .listing (some []) => if s.present = [] then some { s with pc := .loop } else none
  | .listFiles, .listing (some (file :: rest)) =>
      if (file :: rest).Perm s.present then some { s with pc := .openFile file } else none
  | .openFile _, .notFound => some { s with pc := .loop }
  | .openFile file, .opened =>
      if file ∈ s.present then some { s with pc := .readLoop file 0 } else none
  | .readLoop file pos, .nothing =>
      some { s with pc := if s.stopFlag then .loop else .read file pos }
  | .read file pos, answer => s.readStep file pos (.relist file pos) answer
  -- Here a missing listing is caught.
  | .relist file pos, .listing none => some { s with pc := .readLoop file pos }
  | .relist file pos, .listing (some listing) =>
      if listing.Perm s.present then
        some { s with
          pc := if 1 < listing.length then .reread file pos else .readLoop file pos }
      else none
  | .reread file pos, answer => s.readStep file pos (.delete file pos) answer
  | .delete file _, .nothing =>
      some { s with present := s.present.erase file, pc := .loop }
  -- Nobody looks at what `delete` returns.
  | .delete _ _, .notDeleted => some { s with pc := .loop }
  | _, _ => none

/-- A step of the diag library, of `stop`, or of the diag thread. -/
inductive Label where
  | append (bytes : List Byte)
  | rotate
  | stop
  | reader (answer : ReadAnswer)
  deriving DecidableEq, Repr

def step (s : DiagFiles) : Label → Option DiagFiles
  | .append bytes =>
      if s.files = [] then none
      else some { s with files := SegmentedLog.append s.files bytes }
  | .rotate =>
      some { s with
        files := SegmentedLog.rotate s.files
        present := s.present ++ [s.files.length] }
  | .stop => some { s with stopFlag := true }
  | .reader answer => s.readerStep answer

/-- What a step of the diag thread can be. -/
inductive Reads (s : DiagFiles) : ReadAnswer → DiagFiles → Prop where
  | leaves (hpc : s.pc = .loop) (hstop : s.stopFlag = true) :
      Reads s .nothing { s with pc := .ended }
  | enters (hpc : s.pc = .loop) (hstop : s.stopFlag = false) :
      Reads s .nothing { s with pc := .listFiles }
  | dies (hpc : s.pc = .listFiles) : Reads s (.listing none) { s with pc := .ended }
  | findsNone (hpc : s.pc = .listFiles) (hnone : s.present = []) :
      Reads s (.listing (some [])) { s with pc := .loop }
  | chooses (file : Nat) (rest : List Nat) (hpc : s.pc = .listFiles)
      (hperm : (file :: rest).Perm s.present) :
      Reads s (.listing (some (file :: rest))) { s with pc := .openFile file }
  | misses (file : Nat) (hpc : s.pc = .openFile file) : Reads s .notFound { s with pc := .loop }
  | opens (file : Nat) (hpc : s.pc = .openFile file) (hmem : file ∈ s.present) :
      Reads s .opened { s with pc := .readLoop file 0 }
  | breaks (file pos : Nat) (hpc : s.pc = .readLoop file pos) (hstop : s.stopFlag = true) :
      Reads s .nothing { s with pc := .loop }
  | goesOn (file pos : Nat) (hpc : s.pc = .readLoop file pos) (hstop : s.stopFlag = false) :
      Reads s .nothing { s with pc := .read file pos }
  | passes (file pos len : Nat) (hpc : s.pc = .read file pos ∨ s.pc = .reread file pos)
      (hlen : pos + len ≤ (SegmentedLog.segment s.files file).length) :
      Reads s (.chunk len) (s.pass file pos len)
  | ends (file pos : Nat) (hpc : s.pc = .read file pos)
      (hend : (SegmentedLog.segment s.files file).length ≤ pos) :
      Reads s .endOfFile { s with pc := .relist file pos }
  | fails (file pos : Nat) (hpc : s.pc = .read file pos ∨ s.pc = .reread file pos) :
      Reads s .ioError { s with pc := .loop }
  | waits (file pos : Nat) (answer : ReadAnswer) (hpc : s.pc = .relist file pos) :
      Reads s answer { s with pc := .readLoop file pos }
  | seesNewer (file pos : Nat) (listing : List Nat) (hpc : s.pc = .relist file pos)
      (hperm : listing.Perm s.present) (hmore : 1 < listing.length) :
      Reads s (.listing (some listing)) { s with pc := .reread file pos }
  | confirms (file pos : Nat) (hpc : s.pc = .reread file pos)
      (hend : (SegmentedLog.segment s.files file).length ≤ pos) :
      Reads s .endOfFile { s with pc := .delete file pos }
  | deletes (file pos : Nat) (hpc : s.pc = .delete file pos) :
      Reads s .nothing { s with present := s.present.erase file, pc := .loop }
  | keeps (file pos : Nat) (hpc : s.pc = .delete file pos) :
      Reads s .notDeleted { s with pc := .loop }

/-- The two reads of `readDiagFile` differ in what the end of the file leads
    to. -/
theorem readStep_cases {s s' : DiagFiles} {file pos : Nat} {atEnd : ReaderPc} {answer : ReadAnswer}
    (h : s.readStep file pos atEnd answer = some s') :
    (∃ len, answer = .chunk len ∧ s' = s.pass file pos len ∧
      pos + len ≤ (SegmentedLog.segment s.files file).length) ∨
    (answer = .endOfFile ∧ s' = { s with pc := atEnd } ∧
      (SegmentedLog.segment s.files file).length ≤ pos) ∨
    (answer = .ioError ∧ s' = { s with pc := .loop }) := by
  unfold readStep at h
  split at h
  · rename_i len
    split at h
    · rename_i hlen
      exact .inl ⟨len, rfl, (Option.some.inj h).symm, hlen.2.2⟩
    · exact absurd h (by simp only [reduceCtorEq, not_false_eq_true])
  · split at h
    · rename_i hend
      exact .inr (.inl ⟨rfl, (Option.some.inj h).symm, hend⟩)
    · exact absurd h (by simp only [reduceCtorEq, not_false_eq_true])
  · exact .inr (.inr ⟨rfl, (Option.some.inj h).symm⟩)
  · exact absurd h (by simp only [reduceCtorEq, not_false_eq_true])

theorem readerStep_reads {s s' : DiagFiles} {answer : ReadAnswer}
    (h : s.readerStep answer = some s') : Reads s answer s' := by
  unfold readerStep at h
  split at h
  case h_1 hpc =>
      cases hstop : s.stopFlag with
      | false =>
          simp only [hstop, Bool.false_eq_true, if_false, Option.some.injEq] at h
          rw [← h, ← hstop]
          exact .enters hpc hstop
      | true =>
          simp only [hstop, if_true, Option.some.injEq] at h
          rw [← h, ← hstop]
          exact .leaves hpc hstop
  case h_2 hpc => exact Option.some.inj h ▸ .dies hpc
  case h_3 hpc =>
      split at h
      · exact Option.some.inj h ▸ .findsNone hpc ‹_›
      · exact absurd h (by simp only [reduceCtorEq, not_false_eq_true])
  case h_4 file rest hpc =>
      split at h
      · exact Option.some.inj h ▸ .chooses file rest hpc ‹_›
      · exact absurd h (by simp only [reduceCtorEq, not_false_eq_true])
  case h_5 file hpc => exact Option.some.inj h ▸ .misses file hpc
  case h_6 file hpc =>
      split at h
      · exact Option.some.inj h ▸ .opens file hpc ‹_›
      · exact absurd h (by simp only [reduceCtorEq, not_false_eq_true])
  case h_7 file pos hpc =>
      cases hstop : s.stopFlag with
      | false =>
          simp only [hstop, Bool.false_eq_true, if_false, Option.some.injEq] at h
          rw [← h, ← hstop]
          exact .goesOn file pos hpc hstop
      | true =>
          simp only [hstop, if_true, Option.some.injEq] at h
          rw [← h, ← hstop]
          exact .breaks file pos hpc hstop
  case h_8 file pos hpc =>
      rcases readStep_cases h with ⟨len, rfl, rfl, hlen⟩ | ⟨rfl, rfl, hend⟩ | ⟨rfl, rfl⟩
      · exact .passes file pos len (.inl hpc) hlen
      · exact .ends file pos hpc hend
      · exact .fails file pos (.inl hpc)
  case h_9 file pos hpc => exact Option.some.inj h ▸ .waits file pos _ hpc
  case h_10 file pos listing hpc =>
      split at h
      · rename_i hperm
        by_cases hmore : 1 < listing.length
        · simp only [hmore, if_true, Option.some.injEq] at h
          exact h ▸ .seesNewer file pos listing hpc hperm hmore
        · simp only [hmore, if_false, Option.some.injEq] at h
          exact h ▸ .waits file pos _ hpc
      · exact absurd h (by simp only [reduceCtorEq, not_false_eq_true])
  case h_11 file pos hpc =>
      rcases readStep_cases h with ⟨len, rfl, rfl, hlen⟩ | ⟨rfl, rfl, hend⟩ | ⟨rfl, rfl⟩
      · exact .passes file pos len (.inr hpc) hlen
      · exact .confirms file pos hpc hend
      · exact .fails file pos (.inr hpc)
  case h_12 file pos hpc => exact Option.some.inj h ▸ .deletes file pos hpc
  case h_13 file pos hpc => exact Option.some.inj h ▸ .keeps file pos hpc
  case h_14 => exact absurd h (by simp only [reduceCtorEq, not_false_eq_true])

/-- The pieces of a step that passes bytes. -/
theorem pass_spec (s : DiagFiles) (file pos len : Nat) :
    (s.pass file pos len).files = s.files ∧ (s.pass file pos len).present = s.present ∧
      (s.pass file pos len).stopFlag = s.stopFlag ∧
      (s.pass file pos len).passed = s.passed ++ [⟨file, pos, s.chunkAt file pos len⟩] ∧
      ((s.pass file pos len).pc = .readLoop file (pos + len) ∨
        (s.pass file pos len).pc = .ended) := by
  refine ⟨rfl, rfl, rfl, rfl, ?_⟩
  unfold pass
  dsimp only
  split
  · exact .inl rfl
  · exact .inr rfl

/-- Only a thread that is not over takes steps. -/
theorem Reads.not_ended {s s' : DiagFiles} {answer : ReadAnswer} (h : Reads s answer s') :
    s.pc ≠ .ended := by
  cases h
  case passes hpc _ => rcases hpc with hpc | hpc <;> rw [hpc] <;> simp
  case fails hpc => rcases hpc with hpc | hpc <;> rw [hpc] <;> simp
  all_goals
    rw [‹s.pc = _›]
    simp only [ne_eq, reduceCtorEq, not_false_eq_true]

/-- The decoder is where decoding the chunks passed so far leads, and the
    thread goes on only if that returned. -/
def Fed (s : DiagFiles) : Prop :=
  s.hdlc = (Hdlc.decodeChunks .fresh (s.passed.map PassedChunk.bytes)).state ∧
    (s.pc ≠ .ended → (Hdlc.decodeChunks .fresh (s.passed.map PassedChunk.bytes)).isReturned = true)

theorem pass_fed {s : DiagFiles} (hs : s.Fed) (hpc : s.pc ≠ .ended) (file pos len : Nat) :
    (s.pass file pos len).Fed := by
  have hreturned := Outcome.eq_returned _ (hs.2 hpc)
  rw [← hs.1] at hreturned
  -- One more chunk is one more call.
  have hdecode : Hdlc.decodeChunks .fresh ((s.pass file pos len).passed.map PassedChunk.bytes)
      = Hdlc.decode s.hdlc (s.chunkAt file pos len) (s.chunkAt file pos len).length := by
    unfold Hdlc.decodeChunks at hreturned ⊢
    rw [(pass_spec s file pos len).2.2.2.1, List.map_append, Outcome.feed_append, hreturned,
      Outcome.bind_returned, List.map_singleton, Outcome.feed_cons]
    cases Hdlc.decode s.hdlc (s.chunkAt file pos len) (s.chunkAt file pos len).length with
    | returned d => rfl
    | threw e d => rfl
  unfold Fed
  rw [hdecode]
  refine ⟨rfl, fun hgoes => ?_⟩
  by_contra hthrew
  exact hgoes (if_neg hthrew)

theorem step_fed {s s' : DiagFiles} {l : Label} (hs : s.Fed) (h : s.step l = some s') :
    s'.Fed := by
  cases l with
  | append bytes =>
      simp only [step] at h
      split at h
      · exact absurd h (by simp only [reduceCtorEq, not_false_eq_true])
      · exact Option.some.inj h ▸ hs
  | rotate => exact Option.some.inj h ▸ hs
  | stop => exact Option.some.inj h ▸ hs
  | reader answer =>
      have hreads := readerStep_reads h
      have hgoes := hs.2 hreads.not_ended
      have hpc := hreads.not_ended
      cases hreads
      case passes file pos len _ _ => exact pass_fed hs hpc file pos len
      all_goals exact ⟨hs.1, fun _ => hgoes⟩

/-- In every run the decoder has been given exactly the bytes recorded as
    passed. -/
theorem fed (labels : List Label) (s : DiagFiles) (h : exec step fresh labels = some s) : s.Fed :=
  exec_keeps step (fun _ _ => True) Fed (fun _ _ _ hs _ hstep => step_fed hs hstep) labels fresh s
    ⟨rfl, fun _ => rfl⟩ (along_true step fresh labels) h

/-- A read or a delete fails only when nothing of the opened file has been read,
    or when the thread has been told to stop. -/
def FailsEarly (s : DiagFiles) : Label → Prop
  | .reader .ioError => s.stopFlag = true ∨ s.pc.offset = 0
  | .reader .notDeleted => s.stopFlag = true ∨ s.pc.offset = 0
  | _ => True

instance (s : DiagFiles) : ∀ l, Decidable (s.FailsEarly l)
  | .reader .ioError => inferInstanceAs (Decidable (s.stopFlag = true ∨ s.pc.offset = 0))
  | .reader .notDeleted => inferInstanceAs (Decidable (s.stopFlag = true ∨ s.pc.offset = 0))
  | .append _ | .rotate | .stop | .reader .nothing | .reader (.listing _) | .reader .opened
  | .reader .notFound | .reader (.chunk _) | .reader .endOfFile => isTrue trivial

section Order

open SegmentedLog

/-- The assumptions about the file system: listings come in the order of
    creation, and reads do not fail. -/
def Assumed (s : DiagFiles) : Label → Prop
  | .reader (.listing (some listing)) => listing = s.present
  | .reader .ioError => False
  | _ => True

instance (s : DiagFiles) : ∀ l, Decidable (s.Assumed l)
  | .reader (.listing (some listing)) => inferInstanceAs (Decidable (listing = s.present))
  | .reader .ioError => isFalse id
  | .append _ | .rotate | .stop | .reader .nothing | .reader (.listing none) | .reader .opened
  | .reader .notFound | .reader (.chunk _) | .reader .endOfFile | .reader .notDeleted =>
      isTrue trivial

/-- The `d` oldest files are deleted, and of the next one `p` bytes have been
    passed. -/
structure Consumed (s : DiagFiles) (d p : Nat) : Prop where
  present : s.present = List.range' d (s.files.length - d)
  oldest : d ≤ s.files.length - 1
  passed : s.passedBytes = upTo s.files d p
  bound : p ≤ (segment s.files d).length

/-- What the place of the thread says about the file it is at. -/
def Placed (s : DiagFiles) (d p : Nat) : Prop :=
  match s.pc with
  | .loop => p = 0 ∨ s.stopFlag = true
  | .listFiles => p = 0
  | .openFile file => file = d ∧ p = 0
  | .readLoop file pos => file = d ∧ pos = p
  | .read file pos => file = d ∧ pos = p
  | .relist file pos => file = d ∧ pos = p
  -- A second file means that the first is closed.
  | .reread file pos => file = d ∧ pos = p ∧ d + 1 < s.files.length
  | .delete file pos =>
      file = d ∧ pos = p ∧ p = (segment s.files d).length ∧ d + 1 < s.files.length
  | .ended => True

/-- The thread has passed on everything up to one place, file after file. -/
def InOrder (s : DiagFiles) : Prop := ∃ d p, s.Consumed d p ∧ s.Placed d p

/-- The files do not change under a step of the thread that only moves it. -/
theorem Consumed.moves {s : DiagFiles} {d p : Nat} (h : s.Consumed d p) (pc : ReaderPc) :
    ({ s with pc := pc } : DiagFiles).Consumed d p :=
  ⟨h.present, h.oldest, h.passed, h.bound⟩

theorem append_inOrder {s : DiagFiles} (hs : s.InOrder) (bytes : List Byte) :
    ({ s with files := append s.files bytes } : DiagFiles).InOrder := by
  obtain ⟨d, p, hcons, hplaced⟩ := hs
  refine ⟨d, p, ⟨?_, ?_, ?_, ?_⟩, ?_⟩
  · simp only [length_append]
    exact hcons.present
  · simp only [length_append]
    exact hcons.oldest
  · exact hcons.passed.trans (upTo_append bytes hcons.oldest hcons.bound).symm
  · exact Nat.le_trans hcons.bound (segment_prefix_append s.files bytes d).length_le
  -- Where the place says more, the file is closed and stays as it is.
  · unfold Placed at hplaced ⊢
    dsimp only
    split
    case h_8 file pos hpc =>
        rw [hpc] at hplaced
        obtain ⟨hfile, hpos, hend, hclosed⟩ := hplaced
        refine ⟨hfile, hpos, ?_, by rw [length_append]; exact hclosed⟩
        rw [segment_append_closed bytes hclosed]
        exact hend
    case h_7 file pos hpc =>
        rw [hpc] at hplaced
        exact ⟨hplaced.1, hplaced.2.1, by rw [length_append]; exact hplaced.2.2⟩
    all_goals
      rename_i hpc
      rw [hpc] at hplaced
      exact hplaced

theorem rotate_inOrder {s : DiagFiles} (hs : s.InOrder) :
    ({ s with files := rotate s.files, present := s.present ++ [s.files.length] } :
      DiagFiles).InOrder := by
  obtain ⟨d, p, hcons, hplaced⟩ := hs
  have hd : d ≤ s.files.length := Nat.le_trans hcons.oldest (Nat.sub_le _ _)
  refine ⟨d, p, ⟨?_, ?_, ?_, ?_⟩, ?_⟩
  · simp only [length_rotate]
    rw [hcons.present, Nat.sub_add_comm hd, List.range'_concat, Nat.one_mul,
      Nat.add_sub_cancel' hd]
  · simp only [length_rotate]
    omega
  · exact hcons.passed.trans (upTo_rotate p hd).symm
  · rw [segment_rotate]
    exact hcons.bound
  · unfold Placed at hplaced ⊢
    dsimp only
    split
    case h_8 file pos hpc =>
        rw [hpc] at hplaced
        obtain ⟨hfile, hpos, hend, hclosed⟩ := hplaced
        rw [segment_rotate, length_rotate]
        exact ⟨hfile, hpos, hend, Nat.lt_succ_of_lt hclosed⟩
    case h_7 file pos hpc =>
        rw [hpc] at hplaced
        rw [length_rotate]
        exact ⟨hplaced.1, hplaced.2.1, by omega⟩
    all_goals
      rename_i hpc
      rw [hpc] at hplaced
      exact hplaced

/-- Passing bytes moves the place along by their number. -/
theorem pass_inOrder {s : DiagFiles} {d p len : Nat} (hcons : s.Consumed d p)
    (hlen : p + len ≤ (segment s.files d).length) : (s.pass d p len).InOrder := by
  obtain ⟨hfiles, hpresent, hstop, hpassed, hpc⟩ := pass_spec s d p len
  refine ⟨d, p + len, ⟨?_, ?_, ?_, ?_⟩, ?_⟩
  · rw [hfiles, hpresent]
    exact hcons.present
  · rw [hfiles]
    exact hcons.oldest
  · have hbytes := hcons.passed
    unfold passedBytes at hbytes ⊢
    rw [hfiles, hpassed, List.flatMap_append, hbytes, upTo_add, List.flatMap_singleton]
    rfl
  · rw [hfiles]
    exact hlen
  · unfold Placed
    rcases hpc with hpc | hpc
    · rw [hpc]
      exact ⟨rfl, rfl⟩
    · rw [hpc]
      trivial

/-- Deleting the oldest file makes the next one the oldest. -/
theorem delete_inOrder {s : DiagFiles} {d : Nat}
    (hcons : s.Consumed d (segment s.files d).length) (hclosed : d + 1 < s.files.length) :
    ({ s with present := s.present.erase d, pc := .loop } : DiagFiles).InOrder := by
  refine ⟨d + 1, 0, ⟨?_, by simp only; omega, ?_, Nat.zero_le _⟩, .inl rfl⟩
  · have hlen : s.files.length - d = s.files.length - (d + 1) + 1 := by omega
    simp only
    rw [hcons.present, hlen, List.range'_succ, List.erase_cons_head]
  · exact hcons.passed.trans (upTo_succ s.files d)

theorem step_inOrder {s s' : DiagFiles} {l : Label} (hs : s.InOrder) (hassumed : s.Assumed l)
    (hearly : s.FailsEarly l) (h : s.step l = some s') : s'.InOrder := by
  cases l with
  | append bytes =>
      simp only [step] at h
      split at h
      · exact absurd h (by simp only [reduceCtorEq, not_false_eq_true])
      · exact Option.some.inj h ▸ append_inOrder hs bytes
  | rotate => exact Option.some.inj h ▸ rotate_inOrder hs
  | stop =>
      obtain ⟨d, p, hcons, hplaced⟩ := hs
      rw [← Option.some.inj h]
      refine ⟨d, p, ⟨hcons.present, hcons.oldest, hcons.passed, hcons.bound⟩, ?_⟩
      unfold Placed at hplaced ⊢
      dsimp only
      split
      case h_1 => exact .inr rfl
      all_goals
        rename_i hpc
        rw [hpc] at hplaced
        exact hplaced
  | reader answer =>
      obtain ⟨d, p, hcons, hplaced⟩ := hs
      unfold Placed at hplaced
      cases readerStep_reads h
      case leaves => exact ⟨d, p, hcons.moves _, trivial⟩
      case enters hpc hstop =>
          rw [hpc] at hplaced
          rcases hplaced with hp | hflag
          · exact ⟨d, p, hcons.moves _, hp⟩
          · rw [hstop] at hflag
            exact absurd hflag Bool.false_ne_true
      case dies => exact ⟨d, p, hcons.moves _, trivial⟩
      case findsNone hpc _ =>
          rw [hpc] at hplaced
          exact ⟨d, p, hcons.moves _, .inl hplaced⟩
      -- The first file of the listing is the oldest one.
      case chooses file rest hpc _ =>
          rw [hpc] at hplaced
          have hlist : file :: rest = List.range' d (s.files.length - d) :=
            Eq.trans hassumed hcons.present
          rcases hlen : s.files.length - d with _ | k
          · rw [hlen] at hlist
            exact absurd hlist (List.cons_ne_nil file rest)
          · rw [hlen, List.range'_succ, List.cons.injEq] at hlist
            exact ⟨d, p, hcons.moves _, hlist.1, hplaced⟩
      case misses hpc =>
          rw [hpc] at hplaced
          exact ⟨d, p, hcons.moves _, .inl hplaced.2⟩
      case opens hpc _ =>
          rw [hpc] at hplaced
          exact ⟨d, p, hcons.moves _, hplaced.1, hplaced.2.symm⟩
      case breaks hpc hstop => exact ⟨d, p, hcons.moves _, .inr hstop⟩
      case goesOn hpc _ =>
          rw [hpc] at hplaced
          exact ⟨d, p, hcons.moves _, hplaced⟩
      case passes file pos len hpc hlen =>
          have hplace : file = d ∧ pos = p := by
            rcases hpc with hpc | hpc
            · rw [hpc] at hplaced
              exact hplaced
            · rw [hpc] at hplaced
              exact ⟨hplaced.1, hplaced.2.1⟩
          obtain ⟨rfl, rfl⟩ := hplace
          exact pass_inOrder hcons hlen
      case ends hpc _ =>
          rw [hpc] at hplaced
          exact ⟨d, p, hcons.moves _, hplaced⟩
      case fails => exact absurd hassumed id
      case waits hpc =>
          rw [hpc] at hplaced
          exact ⟨d, p, hcons.moves _, hplaced⟩
      case seesNewer file pos listing hpc hperm hmore =>
          rw [hpc] at hplaced
          rw [hperm.length_eq, hcons.present, List.length_range'] at hmore
          exact ⟨d, p, hcons.moves _, hplaced.1, hplaced.2, by simp only; omega⟩
      case confirms file pos hpc hend =>
          rw [hpc] at hplaced
          obtain ⟨rfl, rfl, hclosed⟩ := hplaced
          exact ⟨file, pos, hcons.moves _, rfl, rfl, Nat.le_antisymm hcons.bound hend, hclosed⟩
      case deletes file pos hpc =>
          rw [hpc] at hplaced
          obtain ⟨rfl, rfl, hend, hclosed⟩ := hplaced
          rw [hend] at hcons
          exact delete_inOrder hcons hclosed
      -- The file is read once more, and it is empty.
      case keeps file pos hpc =>
          rw [hpc] at hplaced
          refine ⟨d, p, hcons.moves _, ?_⟩
          rcases hearly with hstop | hzero
          · exact .inr hstop
          · rw [hpc, ReaderPc.offset, hplaced.2.1] at hzero
            exact .inl hzero

theorem fresh_inOrder : fresh.InOrder :=
  ⟨0, 0, ⟨rfl, Nat.le_refl _, rfl, Nat.le_refl _⟩, .inl rfl⟩

/-- A closed file, and the ones before it, are never touched again. -/
theorem step_closed {s s' : DiagFiles} {l : Label} {k : Nat} (hk : k + 1 < s.files.length)
    (h : s.step l = some s') :
    k + 1 < s'.files.length ∧ s'.files.take (k + 1) = s.files.take (k + 1) := by
  cases l with
  | append bytes =>
      simp only [step] at h
      split at h
      · exact absurd h (by simp only [reduceCtorEq, not_false_eq_true])
      · rw [← Option.some.inj h]
        exact ⟨by rw [length_append]; exact hk, take_append bytes (by omega)⟩
  | rotate =>
      rw [← Option.some.inj h]
      exact ⟨by rw [length_rotate]; omega, take_rotate (by omega)⟩
  | stop =>
      rw [← Option.some.inj h]
      exact ⟨hk, rfl⟩
  | reader answer =>
      have hfiles : s'.files = s.files := by
        cases readerStep_reads h
        all_goals rfl
      rw [hfiles]
      exact ⟨hk, rfl⟩

/-- The order is kept wherever a run leads whose steps all meet the two
    conditions. -/
theorem inOrder {labels : List Label} {s : DiagFiles}
    (hconditions : Along step (fun s l => s.Assumed l ∧ s.FailsEarly l) fresh labels)
    (h : exec step fresh labels = some s) : s.InOrder :=
  exec_keeps step (fun s l => s.Assumed l ∧ s.FailsEarly l) InOrder
    (fun _ _ _ hs hc hstep => step_inOrder hs hc.1 hc.2 hstep) labels fresh s fresh_inOrder
    hconditions h

theorem passedBytes_prefix {s : DiagFiles} (hs : s.InOrder) :
    s.passedBytes <+: s.files.flatten := by
  obtain ⟨d, p, hcons, -⟩ := hs
  rw [hcons.passed]
  exact upTo_le s.files d p

/-- If listings come in the order of creation and reads do not fail, and no
    delete fails in the middle, then in every interleaving the bytes given to the
    decoder are a prefix of the bytes written, and a deleted file will never hold
    a byte that has not been given to it. -/
theorem passed_in_order (labels : List Label) (s : DiagFiles)
    (hassumed : Along step Assumed fresh labels) (hearly : Along step FailsEarly fresh labels)
    (h : exec step fresh labels = some s) :
    s.hdlc = (Hdlc.decodeChunks .fresh (s.passed.map PassedChunk.bytes)).state ∧
      s.passedBytes <+: s.files.flatten ∧
      ∀ k < s.files.length, k ∉ s.present →
        ∀ (more : List Label) (t : DiagFiles), exec step s more = some t →
          (t.files.take (k + 1)).flatten <+: s.passedBytes := by
  have horder := inOrder (along_and hassumed hearly) h
  refine ⟨(fed labels s h).1, passedBytes_prefix horder, ?_⟩
  obtain ⟨d, p, hcons, -⟩ := horder
  rw [hcons.passed]
  intro k hk hgone more t hmore
  -- A file that is gone is older than the oldest one present.
  have hold : k < d := by
    by_contra hnot
    apply hgone
    rw [hcons.present, List.mem_range'_1]
    omega
  have hclosed : k + 1 < s.files.length := by
    have := hcons.oldest
    omega
  have hsame : k + 1 < t.files.length ∧ t.files.take (k + 1) = s.files.take (k + 1) :=
    exec_keeps step (fun _ _ => True)
      (fun t => k + 1 < t.files.length ∧ t.files.take (k + 1) = s.files.take (k + 1))
      (fun _ _ _ ht _ hstep =>
        ⟨(step_closed ht.1 hstep).1, (step_closed ht.1 hstep).2.trans ht.2⟩)
      more s t ⟨hclosed, rfl⟩ (along_true step s more) hmore
  rw [hsame.2]
  exact upTo_take_le p hold

/-- An empty file that is deleted at the second attempt, a file that is read to
    its end and deleted after the next one has been begun, and that one. -/
def threeFiles : List Label :=
  [.rotate, .reader .nothing, .reader (.listing (some [0])), .reader .opened, .reader .nothing,
    .rotate, .append [0x10, 0x11], .reader .endOfFile, .reader (.listing (some [0, 1])),
    .reader .endOfFile, .reader .notDeleted, .reader .nothing, .reader (.listing (some [0, 1])),
    .reader .opened, .reader .nothing, .reader .endOfFile, .reader (.listing (some [0, 1])),
    .reader .endOfFile, .reader .nothing, .reader .nothing, .reader (.listing (some [1])),
    .reader .opened, .reader .nothing, .reader (.chunk 2), .reader .nothing, .rotate,
    .append [0x12], .reader .endOfFile, .reader (.listing (some [1, 2])), .reader .endOfFile,
    .reader .nothing, .reader .nothing, .reader (.listing (some [2])), .reader .opened,
    .reader .nothing, .reader (.chunk 1)]

/-- The bytes of all files are passed in order, and the first two files are
    gone. -/
theorem passed_in_order_three_files :
    ∃ s, exec step fresh threeFiles = some s ∧ s.present = [2] ∧
      s.passedBytes = [0x10, 0x11, 0x12] ∧
      s.hdlc = (Hdlc.decodeChunks .fresh (s.passed.map PassedChunk.bytes)).state ∧
      s.passedBytes <+: s.files.flatten ∧ (s.files.take 2).flatten <+: s.passedBytes := by
  have hrun : ∃ s ∈ exec step fresh threeFiles, s.files.length = 3 ∧ s.present = [2] ∧
      s.passedBytes = [0x10, 0x11, 0x12] := by
    decide +kernel
  obtain ⟨s, hs, hlen, hpresent, hbytes⟩ := hrun
  obtain ⟨hdecoded, hpassed, hgone⟩ :=
    passed_in_order threeFiles s (by decide +kernel) (by decide +kernel) hs
  refine ⟨s, hs, hpresent, hbytes, hdecoded, hpassed, hgone 1 (by omega) ?_ [] s rfl⟩
  rw [hpresent]
  decide

/-- A file of one byte that is not deleted is read again, and its byte is passed
    a second time. -/
def notDeleted : List Label :=
  [.rotate, .append [0x41], .rotate, .reader .nothing, .reader (.listing (some [0, 1])),
    .reader .opened, .reader .nothing, .reader (.chunk 1), .reader .nothing, .reader .endOfFile,
    .reader (.listing (some [0, 1])), .reader .endOfFile, .reader .notDeleted, .reader .nothing,
    .reader (.listing (some [0, 1])), .reader .opened, .reader .nothing, .reader (.chunk 1)]

theorem passed_twice :
    ∃ s ∈ exec step fresh notDeleted, Along step Assumed fresh notDeleted ∧
      s.passedBytes = [0x41, 0x41] ∧ s.files.flatten = [0x41] ∧
      ¬ s.passedBytes <+: s.files.flatten := by
  decide +kernel

end Order

/-- The files of the directory are distinct and have been created. -/
structure Listed (s : DiagFiles) : Prop where
  nodup : s.present.Nodup
  created : ∀ j ∈ s.present, j < s.files.length

theorem rotate_listed {s : DiagFiles} (hs : s.Listed) :
    ({ s with
      files := SegmentedLog.rotate s.files
      present := s.present ++ [s.files.length] } : DiagFiles).Listed := by
  constructor
  · refine List.nodup_append.mpr ⟨hs.nodup, List.nodup_singleton _, ?_⟩
    intro j hj k hk
    have := hs.created j hj
    rw [List.mem_singleton.mp hk]
    omega
  · intro j hj
    simp only [SegmentedLog.length_rotate]
    rcases List.mem_append.mp hj with hj | hj
    · have := hs.created j hj
      omega
    · rw [List.mem_singleton.mp hj]
      omega

theorem step_listed {s s' : DiagFiles} {l : Label} (hs : s.Listed) (h : s.step l = some s') :
    s'.Listed := by
  cases l with
  | append bytes =>
      simp only [step] at h
      split at h
      · exact absurd h (by simp only [reduceCtorEq, not_false_eq_true])
      · rw [← Option.some.inj h]
        exact ⟨hs.nodup, fun j hj => by rw [SegmentedLog.length_append]; exact hs.created j hj⟩
  | rotate => exact Option.some.inj h ▸ rotate_listed hs
  | stop => exact Option.some.inj h ▸ ⟨hs.nodup, hs.created⟩
  | reader answer =>
      cases readerStep_reads h
      case deletes file pos _ =>
          exact ⟨hs.nodup.erase file, fun j hj => hs.created j (List.mem_of_mem_erase hj)⟩
      all_goals exact ⟨hs.nodup, hs.created⟩

/-- When `processDiagFiles` lists several files, the first is not the newest
    one. -/
def SparesNewest (s : DiagFiles) : Label → Prop
  | .reader (.listing (some (file :: _ :: _))) => s.pc = .listFiles → file + 1 < s.files.length
  | _ => True

instance (s : DiagFiles) : ∀ l, Decidable (s.SparesNewest l)
  | .reader (.listing (some (file :: _ :: _))) =>
      inferInstanceAs (Decidable (s.pc = .listFiles → file + 1 < s.files.length))
  | .reader (.listing (some [])) | .reader (.listing (some [_])) | .reader (.listing none)
  | .append _ | .rotate | .stop | .reader .nothing | .reader .opened | .reader .notFound
  | .reader (.chunk _) | .reader .endOfFile | .reader .ioError | .reader .notDeleted =>
      isTrue trivial

/-- The file is closed, or no older one is left. -/
def Eldest (s : DiagFiles) (file : Nat) : Prop :=
  file < s.files.length ∧ (file + 1 < s.files.length ∨ ∀ j ∈ s.present, file ≤ j)

/-- The file the thread is at, and whether a second one has been seen. -/
def Closing (s : DiagFiles) : Prop :=
  match s.pc with
  | .openFile file => s.Eldest file
  | .readLoop file _ => s.Eldest file
  | .read file _ => s.Eldest file
  | .relist file _ => s.Eldest file
  | .reread file _ => file + 1 < s.files.length
  | .delete file _ => file + 1 < s.files.length
  | _ => True

/-- The newest file is in the directory. -/
def LivePresent (s : DiagFiles) : Prop := ∀ n, s.files.length = n + 1 → n ∈ s.present

theorem Eldest.mono {s s' : DiagFiles} {file : Nat} (h : s.Eldest file)
    (hlen : s.files.length ≤ s'.files.length)
    (hpresent : ∀ j ∈ s'.present, j ∈ s.present ∨ s.files.length ≤ j) : s'.Eldest file := by
  refine ⟨Nat.lt_of_lt_of_le h.1 hlen, ?_⟩
  rcases h.2 with hclosed | hleast
  · exact .inl (Nat.lt_of_lt_of_le hclosed hlen)
  · refine .inr (fun j hj => ?_)
    rcases hpresent j hj with hj | hj
    · exact hleast j hj
    · exact Nat.le_trans (Nat.le_of_lt h.1) hj

theorem Closing.mono {s s' : DiagFiles} (h : s.Closing) (hpc : s'.pc = s.pc)
    (hlen : s.files.length ≤ s'.files.length)
    (hpresent : ∀ j ∈ s'.present, j ∈ s.present ∨ s.files.length ≤ j) : s'.Closing := by
  unfold Closing at h ⊢
  rw [hpc]
  split
  case h_7 => trivial
  case h_5 heq =>
      rw [heq] at h
      exact Nat.lt_of_lt_of_le h hlen
  case h_6 heq =>
      rw [heq] at h
      exact Nat.lt_of_lt_of_le h hlen
  all_goals
    rename_i heq
    rw [heq] at h
    exact h.mono hlen hpresent

/-- Of several files one is not the file at hand, and it is newer. -/
theorem closed_of_more {s : DiagFiles} {file : Nat} (hlisted : s.Listed) (h : s.Eldest file)
    (hmore : 1 < s.present.length) : file + 1 < s.files.length := by
  rcases h.2 with hclosed | hleast
  · exact hclosed
  obtain ⟨j, hj, hne⟩ : ∃ j ∈ s.present, j ≠ file := by
    by_contra hall
    simp only [not_exists, not_and, ne_eq, not_not] at hall
    have hsame : s.present = List.replicate s.present.length file :=
      List.eq_replicate_iff.mpr ⟨rfl, hall⟩
    have hnodup := hlisted.nodup
    rw [hsame, List.nodup_replicate] at hnodup
    omega
  have hle := hleast j hj
  have hlt := hlisted.created j hj
  omega

theorem reads_closing {s s' : DiagFiles} {answer : ReadAnswer} (hlisted : s.Listed)
    (hs : s.Closing) (hspares : s.SparesNewest (.reader answer)) (h : Reads s answer s') :
    s'.Closing := by
  unfold Closing at hs
  cases h
  -- The chosen file is the only one, or one that is not the newest.
  case chooses file rest hpc hperm =>
      have hmem : file ∈ s.present := hperm.mem_iff.mp List.mem_cons_self
      refine ⟨hlisted.created file hmem, ?_⟩
      rcases rest with _ | ⟨next, rest⟩
      · refine .inr (fun j hj => ?_)
        rw [List.mem_singleton.mp (hperm.mem_iff.mpr hj)]
      · exact .inl (hspares hpc)
  case opens hpc _ => rw [hpc] at hs; exact hs
  case goesOn hpc _ => rw [hpc] at hs; exact hs
  case ends hpc _ => rw [hpc] at hs; exact hs
  case waits hpc => rw [hpc] at hs; exact hs
  case seesNewer listing hpc hperm hmore =>
      rw [hpc] at hs
      exact closed_of_more (s := s) hlisted hs (hperm.length_eq ▸ hmore)
  case confirms hpc _ => rw [hpc] at hs; exact hs
  case passes file pos len hpc _ =>
      obtain ⟨hfiles, hpresent, -, -, hnext⟩ := pass_spec s file pos len
      have hold : s.Eldest file := by
        rcases hpc with hpc | hpc
        · rw [hpc] at hs
          exact hs
        · rw [hpc] at hs
          exact ⟨Nat.lt_of_succ_lt hs, .inl hs⟩
      have hold' : (s.pass file pos len).Eldest file := by
        unfold Eldest
        rw [hfiles, hpresent]
        exact hold
      unfold Closing
      rcases hnext with hnext | hnext
      · rw [hnext]
        exact hold'
      · rw [hnext]
        trivial
  all_goals trivial

/-- Everything the reader needs to spare the newest file. -/
structure Sparing (s : DiagFiles) : Prop where
  listed : s.Listed
  live : s.LivePresent
  closing : s.Closing

theorem step_sparing {s s' : DiagFiles} {l : Label} (hs : s.Sparing) (hspares : s.SparesNewest l)
    (h : s.step l = some s') : s'.Sparing := by
  have hlisted := step_listed hs.listed h
  cases l with
  | append bytes =>
      simp only [step] at h
      split at h
      · exact absurd h (by simp only [reduceCtorEq, not_false_eq_true])
      · rw [← Option.some.inj h] at hlisted ⊢
        refine ⟨hlisted, ?_, hs.closing.mono rfl ?_ (fun j hj => .inl hj)⟩
        · intro n hn
          rw [SegmentedLog.length_append] at hn
          exact hs.live n hn
        · rw [SegmentedLog.length_append]
  | rotate =>
      rw [← Option.some.inj h] at hlisted ⊢
      refine ⟨hlisted, ?_, hs.closing.mono rfl ?_ ?_⟩
      -- The new file is the newest one.
      · intro n hn
        rw [SegmentedLog.length_rotate] at hn
        have hn' : n = s.files.length := by omega
        exact List.mem_append_right _ (List.mem_singleton.mpr hn')
      · rw [SegmentedLog.length_rotate]
        exact Nat.le_succ _
      · intro j hj
        rcases List.mem_append.mp hj with hj | hj
        · exact .inl hj
        · exact .inr (Nat.le_of_eq (List.mem_singleton.mp hj).symm)
  | stop =>
      rw [← Option.some.inj h] at hlisted ⊢
      exact ⟨hlisted, hs.live, hs.closing⟩
  | reader answer =>
      have hreads := readerStep_reads h
      refine ⟨hlisted, ?_, reads_closing hs.listed hs.closing hspares hreads⟩
      cases hreads
      case deletes file pos hpc =>
          have hclosed := hs.closing
          simp only [Closing, hpc] at hclosed
          intro n hn
          simp only at hn
          exact (List.mem_erase_of_ne (by omega)).mpr (hs.live n hn)
      all_goals exact hs.live

/-- In every interleaving in which no listing of several files by
    `processDiagFiles` starts with the newest one, the file that is being
    written is never deleted. -/
theorem live_not_deleted (labels : List Label) (s : DiagFiles)
    (hspares : Along step SparesNewest fresh labels) (h : exec step fresh labels = some s) :
    ∀ n, s.files.length = n + 1 → n ∈ s.present := by
  have hfresh : fresh.Sparing :=
    ⟨⟨List.nodup_nil, fun _ hj => absurd hj List.not_mem_nil⟩,
      fun n hn => absurd hn (by simp [fresh]), trivial⟩
  exact (exec_keeps step SparesNewest Sparing
    (fun _ _ _ hs hc hstep => step_sparing hs hc hstep) labels fresh s hfresh hspares h).live

/-- Three files listed in no order: the one listed first is read and deleted, and
    the newest one is still there. -/
theorem live_not_deleted_unordered :
    ∃ s ∈ exec step fresh [.rotate, .rotate, .rotate, .reader .nothing,
        .reader (.listing (some [1, 2, 0])), .reader .opened, .reader .nothing,
        .reader .endOfFile, .reader (.listing (some [2, 0, 1])), .reader .endOfFile,
        .reader .nothing],
      s.present = [0, 2] ∧ s.files.length = 3 ∧ 2 ∈ s.present := by
  have hrun : ∃ s ∈ exec step fresh [.rotate, .rotate, .rotate, .reader .nothing,
        .reader (.listing (some [1, 2, 0])), .reader .opened, .reader .nothing,
        .reader .endOfFile, .reader (.listing (some [2, 0, 1])), .reader .endOfFile,
        .reader .nothing], s.present = [0, 2] ∧ s.files.length = 3 := by
    decide +kernel
  obtain ⟨s, hs, hpresent, hlen⟩ := hrun
  exact ⟨s, hs, hpresent, hlen, live_not_deleted _ s (by decide +kernel) hs 2 hlen⟩

/-- A listing that starts with the newest of two files makes the thread delete
    the file that is being written. -/
theorem live_deleted :
    ∃ s ∈ exec step fresh [.rotate, .rotate, .reader .nothing,
        .reader (.listing (some [1, 0])), .reader .opened, .reader .nothing,
        .reader .endOfFile, .reader (.listing (some [1, 0])), .reader .endOfFile,
        .reader .nothing],
      s.files.length = 2 ∧ 1 ∉ s.present := by
  decide +kernel

/-- A position that has been passed and whose file is still there is behind the
    thread, unless the thread is on its way out. -/
def Behind (s : DiagFiles) (q : Nat × Nat) : Prop :=
  match s.pc with
  | .loop => s.stopFlag = true
  | .listFiles => False
  | .openFile _ => False
  | .readLoop file pos => q.1 = file ∧ q.2 < pos
  | .read file pos => q.1 = file ∧ q.2 < pos
  | .relist file pos => q.1 = file ∧ q.2 < pos
  | .reread file pos => q.1 = file ∧ q.2 < pos
  | .delete file pos => q.1 = file ∧ q.2 < pos
  | .ended => True

/-- The file at hand is in the directory. -/
def Held (s : DiagFiles) : Prop :=
  match s.pc with
  | .readLoop file _ => file ∈ s.present
  | .read file _ => file ∈ s.present
  | .relist file _ => file ∈ s.present
  | .reread file _ => file ∈ s.present
  | .delete file _ => file ∈ s.present
  | _ => True

structure Once (s : DiagFiles) : Prop where
  listed : s.Listed
  held : s.Held
  nodup : s.positions.Nodup
  created : ∀ q ∈ s.positions, q.1 < s.files.length
  behind : ∀ q ∈ s.positions, q.1 ∈ s.present → s.Behind q

theorem mem_positions {c : PassedChunk} {q : Nat × Nat} :
    q ∈ c.positions ↔ q.1 = c.file ∧ c.pos ≤ q.2 ∧ q.2 < c.pos + c.bytes.length := by
  unfold PassedChunk.positions
  rw [List.mem_map]
  constructor
  · rintro ⟨i, hi, rfl⟩
    have := List.mem_range.mp hi
    exact ⟨rfl, Nat.le_add_right _ _, by simp only; omega⟩
  · rintro ⟨hfile, hlo, hhi⟩
    exact ⟨q.2 - c.pos, List.mem_range.mpr (by omega), Prod.ext hfile.symm (by simp only; omega)⟩

theorem nodup_positions (c : PassedChunk) : c.positions.Nodup := by
  unfold PassedChunk.positions
  refine List.nodup_range.map (fun i j hij => ?_)
  have := congrArg Prod.snd hij
  simp only at this
  omega

/-- The bytes of a chunk follow the ones already passed. -/
theorem pass_once {s : DiagFiles} {file pos len : Nat} (hs : s.Once) (hmem : file ∈ s.present)
    (hbehind : ∀ q ∈ s.positions, q.1 ∈ s.present → q.1 = file ∧ q.2 < pos)
    (hlen : pos + len ≤ (SegmentedLog.segment s.files file).length) :
    (s.pass file pos len).Once := by
  obtain ⟨hfiles, hpresent, -, hpassed, hpc⟩ := pass_spec s file pos len
  have hbytes : (s.chunkAt file pos len).length = len := by
    unfold chunkAt
    rw [List.length_take, List.length_drop]
    omega
  have hpositions : (s.pass file pos len).positions
      = s.positions ++ PassedChunk.positions ⟨file, pos, s.chunkAt file pos len⟩ := by
    unfold positions
    rw [hpassed, List.flatMap_append, List.flatMap_singleton]
  -- A position of the chunk is not behind the place it is read from.
  have hnew : ∀ q ∈ PassedChunk.positions ⟨file, pos, s.chunkAt file pos len⟩,
      q.1 = file ∧ pos ≤ q.2 ∧ q.2 < pos + len := by
    intro q hq
    have hq' := mem_positions.mp hq
    rw [hbytes] at hq'
    exact hq'
  refine ⟨⟨?_, ?_⟩, ?_, ?_, ?_, ?_⟩
  · rw [hpresent]
    exact hs.listed.nodup
  · rw [hfiles, hpresent]
    exact hs.listed.created
  · unfold Held
    rcases hpc with hpc | hpc
    · rw [hpc, hpresent]
      exact hmem
    · rw [hpc]
      trivial
  · rw [hpositions]
    refine List.nodup_append.mpr ⟨hs.nodup, nodup_positions _, ?_⟩
    rintro q hq _ hq' rfl
    have hfile := hnew q hq'
    have hold := hbehind q hq (hfile.1 ▸ hmem)
    omega
  · intro q hq
    rw [hpositions] at hq
    rw [hfiles]
    rcases List.mem_append.mp hq with hq | hq
    · exact hs.created q hq
    · rw [(hnew q hq).1]
      exact hs.listed.created file hmem
  · intro q hq hq'
    rw [hpositions] at hq
    rw [hpresent] at hq'
    unfold Behind
    rcases hpc with hpc | hpc
    · rw [hpc]
      rcases List.mem_append.mp hq with hq | hq
      · have := hbehind q hq hq'
        exact ⟨this.1, by omega⟩
      · exact ⟨(hnew q hq).1, (hnew q hq).2.2⟩
    · rw [hpc]
      trivial

/-- A step that only moves the thread. -/
theorem Once.moves {s : DiagFiles} (hs : s.Once) (pc : ReaderPc)
    (hheld : ({ s with pc := pc } : DiagFiles).Held)
    (hbehind : ∀ q, q ∈ s.positions → q.1 ∈ s.present → s.Behind q →
      ({ s with pc := pc } : DiagFiles).Behind q) :
    ({ s with pc := pc } : DiagFiles).Once :=
  ⟨⟨hs.listed.nodup, hs.listed.created⟩, hheld, hs.nodup, hs.created,
    fun q hq hq' => hbehind q hq hq' (hs.behind q hq hq')⟩

theorem reads_once {s s' : DiagFiles} {answer : ReadAnswer} (hs : s.Once)
    (hearly : s.FailsEarly (.reader answer)) (h : Reads s answer s') : s'.Once := by
  have hheld := hs.held
  unfold Held at hheld
  cases h
  case leaves => exact hs.moves _ trivial (fun _ _ _ _ => trivial)
  -- A thread that goes on has left no file half read.
  case enters hpc hstop =>
      refine hs.moves _ trivial (fun q _ _ hb => ?_)
      simp only [Behind, hpc, hstop] at hb
      exact absurd hb Bool.false_ne_true
  case dies => exact hs.moves _ trivial (fun _ _ _ _ => trivial)
  case findsNone hpc _ =>
      refine hs.moves _ trivial (fun q _ _ hb => ?_)
      simp only [Behind, hpc] at hb
  case chooses hpc _ =>
      refine hs.moves _ trivial (fun q _ _ hb => ?_)
      simp only [Behind, hpc] at hb
  case misses hpc =>
      refine hs.moves _ trivial (fun q _ _ hb => ?_)
      simp only [Behind, hpc] at hb
  case opens hpc hmem =>
      refine hs.moves _ hmem (fun q _ _ hb => ?_)
      simp only [Behind, hpc] at hb
  case breaks hstop => exact hs.moves _ trivial (fun _ _ _ _ => hstop)
  case goesOn hpc _ =>
      rw [hpc] at hheld
      refine hs.moves _ hheld (fun q _ _ hb => ?_)
      simp only [Behind, hpc] at hb
      exact hb
  case passes file pos len hpc hlen =>
      rcases hpc with hpc | hpc
      · rw [hpc] at hheld
        refine pass_once hs hheld (fun q hq hq' => ?_) hlen
        have hb := hs.behind q hq hq'
        simp only [Behind, hpc] at hb
        exact hb
      · rw [hpc] at hheld
        refine pass_once hs hheld (fun q hq hq' => ?_) hlen
        have hb := hs.behind q hq hq'
        simp only [Behind, hpc] at hb
        exact hb
  case ends hpc _ =>
      rw [hpc] at hheld
      refine hs.moves _ hheld (fun q _ _ hb => ?_)
      simp only [Behind, hpc] at hb
      exact hb
  -- The file is started over, and nothing of it has been passed.
  case fails file pos hpc =>
      refine hs.moves _ trivial (fun q _ _ hb => ?_)
      rcases hearly with hstop | hzero
      · exact hstop
      rcases hpc with hpc | hpc
      · simp only [Behind, hpc] at hb
        simp only [hpc, ReaderPc.offset] at hzero
        omega
      · simp only [Behind, hpc] at hb
        simp only [hpc, ReaderPc.offset] at hzero
        omega
  case waits hpc =>
      rw [hpc] at hheld
      refine hs.moves _ hheld (fun q _ _ hb => ?_)
      simp only [Behind, hpc] at hb
      exact hb
  case seesNewer hpc _ _ =>
      rw [hpc] at hheld
      refine hs.moves _ hheld (fun q _ _ hb => ?_)
      simp only [Behind, hpc] at hb
      exact hb
  case confirms hpc _ =>
      rw [hpc] at hheld
      refine hs.moves _ hheld (fun q _ _ hb => ?_)
      simp only [Behind, hpc] at hb
      exact hb
  -- What has been passed of a deleted file is no longer there.
  case deletes file pos hpc =>
      refine ⟨⟨hs.listed.nodup.erase file,
        fun j hj => hs.listed.created j (List.mem_of_mem_erase hj)⟩, trivial, hs.nodup,
        hs.created, fun q hq hq' => ?_⟩
      have hb := hs.behind q hq (List.mem_of_mem_erase hq')
      simp only [Behind, hpc] at hb
      rw [hb.1] at hq'
      exact absurd hq' (hs.listed.nodup.not_mem_erase)
  case keeps file pos hpc =>
      refine hs.moves _ trivial (fun q _ _ hb => ?_)
      rcases hearly with hstop | hzero
      · exact hstop
      · simp only [Behind, hpc] at hb
        simp only [hpc, ReaderPc.offset] at hzero
        omega

theorem step_once {s s' : DiagFiles} {l : Label} (hs : s.Once) (hearly : s.FailsEarly l)
    (h : s.step l = some s') : s'.Once := by
  have hlisted := step_listed hs.listed h
  cases l with
  | append bytes =>
      simp only [step] at h
      split at h
      · exact absurd h (by simp only [reduceCtorEq, not_false_eq_true])
      · rw [← Option.some.inj h] at hlisted ⊢
        refine ⟨hlisted, hs.held, hs.nodup, fun q hq => ?_, hs.behind⟩
        rw [SegmentedLog.length_append]
        exact hs.created q hq
  | rotate =>
      rw [← Option.some.inj h] at hlisted ⊢
      refine ⟨hlisted, ?_, hs.nodup, ?_, ?_⟩
      · have hheld := hs.held
        unfold Held at hheld ⊢
        dsimp only
        split
        case h_6 => trivial
        all_goals
          rename_i hpc
          rw [hpc] at hheld
          exact List.mem_append_left _ hheld
      · intro q hq
        rw [SegmentedLog.length_rotate]
        exact Nat.lt_succ_of_lt (hs.created q hq)
      -- Nothing of the new file has been passed.
      · intro q hq hq'
        rcases List.mem_append.mp hq' with hq' | hq'
        · exact hs.behind q hq hq'
        · have hlt := hs.created q hq
          rw [List.mem_singleton.mp hq'] at hlt
          exact absurd hlt (Nat.lt_irrefl _)
  | stop =>
      rw [← Option.some.inj h] at hlisted ⊢
      refine ⟨hlisted, hs.held, hs.nodup, hs.created, fun q hq hq' => ?_⟩
      have hb := hs.behind q hq hq'
      unfold Behind at hb ⊢
      dsimp only
      split
      case h_1 => rfl
      all_goals
        rename_i hpc
        rw [hpc] at hb
        exact hb
  | reader answer => exact reads_once hs hearly (readerStep_reads h)

/-- In every run in which a read or a delete fails only at the beginning of a
    file, or after a `stop`, no position of a file is passed to the decoder
    twice. -/
theorem positions_once (labels : List Label) (s : DiagFiles)
    (hearly : Along step FailsEarly fresh labels) (h : exec step fresh labels = some s) :
    s.positions.Nodup := by
  have hfresh : fresh.Once :=
    ⟨⟨List.nodup_nil, fun _ hj => absurd hj List.not_mem_nil⟩, trivial, List.nodup_nil,
      fun _ hq => absurd hq List.not_mem_nil, fun _ hq => absurd hq List.not_mem_nil⟩
  exact (exec_keeps step FailsEarly Once (fun _ _ _ hs hc hstep => step_once hs hc hstep)
    labels fresh s hfresh hearly h).nodup

/-- A file of one byte, up to its first read. -/
def upToRead : List Label :=
  [.rotate, .append [0x41], .reader .nothing, .reader (.listing (some [0])), .reader .opened,
    .reader .nothing]

/-- A read that fails at once is tried again, and the byte is passed once; the
    file is not deleted, but the thread has been told to stop. -/
def retried : List Label :=
  upToRead ++ [.reader .ioError, .reader .nothing, .reader (.listing (some [0])), .reader .opened,
    .reader .nothing, .reader (.chunk 1), .rotate, .reader .nothing, .reader .endOfFile,
    .reader (.listing (some [1, 0])), .reader .endOfFile, .stop, .reader .notDeleted,
    .reader .nothing]

theorem positions_once_retried :
    ∃ s ∈ exec step fresh retried, s.positions = [(0, 0)] ∧ s.positions.Nodup := by
  have hrun : ∃ s ∈ exec step fresh retried, s.positions = [(0, 0)] := by
    decide +kernel
  obtain ⟨s, hs, hpositions⟩ := hrun
  exact ⟨s, hs, hpositions, positions_once _ s (by decide +kernel) hs⟩

/-- A read that fails after the byte has been passed makes the thread pass it
    again. -/
theorem positions_twice :
    ∃ s ∈ exec step fresh (upToRead ++ [.reader (.chunk 1), .reader .nothing, .reader .ioError,
        .reader .nothing, .reader (.listing (some [0])), .reader .opened, .reader .nothing,
        .reader (.chunk 1)]),
      s.positions = [(0, 0), (0, 0)] ∧ ¬ s.positions.Nodup := by
  decide +kernel

end DiagFiles

end NetProbe
