import NetProbe.Lib.ByteBuffer
import NetProbe.Lib.Machine
import Mathlib.Logic.Function.Basic

/-!
# Installing the Default Configuration

When the application starts it copies three resources into the configuration
directory, one after the other. A file that exists is left alone. A file that
does not is made first and filled afterwards: it is created, opened for writing
and then written buffer by buffer, through a stream that keeps the last bytes
back until it is flushed.

Any of these steps can fail with an I/O error, which ends the copying of that file
without a word and goes on to the next, and the process can be killed at any
time. Both leave on disk what has got there, and the next start finds a file that
exists. So a file that is once left with a part of its content keeps it, and no
later start repairs it; `installed_iff` says that this is the only way to go
wrong.

The directories are made by `mkdirs`, which reports nothing; a missing one shows
as an I/O error of `createNewFile`.

## Main definitions

* `Target`: The three files.
* `bufferedWrite`: What one `write` makes of the file and the buffer.
* `Pc`, `State`, `Act`, `step`: The installation, statement by statement, over any
  number of starts.
* `leaves`: What a cut leaves of the file it strikes.
* `Harmless`: A cut that leaves no file with a part of its content.

## Theorems

* `step_cases`: What a step can be.
* `shape_step`: What holds of the file in work and of those dealt with.
* `kept_step`, `free_cases`: A finished file is not written again, and how a file
  comes to be finished.
* `whole_step`, `partial_step`, `partial_stays`: The files on disk after a step, a
  cut that leaves a part, and any step behind it.
* `installed_iff`: When an undisturbed last start leaves the whole configuration.
-/

namespace NetProbe

namespace AppEnvironment

open Machine

/-- The files of the configuration directory, in the order they are copied. -/
inductive Target where
  | testDefault
  | log4j
  | qcom
  deriving DecidableEq, Repr

/-- The buffer of a `BufferedOutputStream`. -/
def bufferSize : Nat := 8192

/-- `new byte[1024 * 512]`. -/
def buffLength : Nat := 1024 * 512

/-- `outFile.write(buff, 0, len)`: the bytes that are on disk afterwards and those
    kept back. A write as long as the buffer goes past it. -/
def bufferedWrite (written buf chunk : List Byte) : List Byte × List Byte :=
  if bufferSize ≤ chunk.length then (written ++ buf ++ chunk, [])
  else if bufferSize - buf.length < chunk.length then (written ++ buf, chunk)
  else (written, buf ++ chunk)

/-- Where the code stands. The copying of a file has written some bytes, keeps some
    back and has some left to read. -/
inductive Pc where
  | idle
  | root
  | check (t : Target)
  | create (t : Target)
  | openOut (t : Target)
  | copy (t : Target) (written buf rest : List Byte)
  | flush (t : Target) (written buf : List Byte)
  | close (t : Target) (written : List Byte)
  | done
  deriving DecidableEq, Repr

/-- The call of `copyFile` behind the one for `t`. -/
def Target.next : Target → Pc
  | .testDefault => .check .log4j
  | .log4j => .check .qcom
  | .qcom => .done

/-- The files on disk, where the code stands and whether the start has met an
    error. -/
structure State where
  pc : Pc
  disk : Target → Option (List Byte)
  met : Bool

/-- An empty directory before the first start. -/
def init : State := { pc := .idle, disk := fun _ => none, met := false }

/-- The statements, and the two ways they are cut off. A failing write has put
    `part` bytes on disk, and closing the stream then tries to write the buffer
    again and gets `again` bytes through. -/
inductive Act where
  | start
  | mkdirs
  | isExit
  | createNewFile
  | openOut
  | transfer (len : Nat)
  | endOfStream
  | flush
  | close
  | ioError (part again : Nat)
  | kill (part : Nat)
  deriving DecidableEq, Repr

/-- The file that exists and is not finished. -/
structure Working where
  target : Target
  written : List Byte
  buf : List Byte
  flight : List Byte

/-- The file in work, with the bytes on disk, the bytes kept back and those that
    the next statement may be writing. -/
def Pc.working : Pc → Option Working
  | .openOut t => some ⟨t, [], [], []⟩
  | .copy t written buf rest => some ⟨t, written, buf, buf ++ rest.take buffLength⟩
  | .flush t written buf => some ⟨t, written, buf, buf⟩
  | .close t written => some ⟨t, written, [], []⟩
  | _ => none

/-- What a cut leaves of the file it strikes. -/
def leaves (pc : Pc) : Act → Option (Target × List Byte)
  | .ioError part again =>
      pc.working.map fun w => (w.target, w.written ++ w.flight.take part ++ w.buf.take again)
  | .kill part => pc.working.map fun w => (w.target, w.written ++ w.flight.take part)
  | _ => none

/-- The disk after a cut. -/
def leave (disk : Target → Option (List Byte)) :
    Option (Target × List Byte) → Target → Option (List Byte)
  | some (t, content) => Function.update disk t (some content)
  | none => disk

section Installing

variable (resource : Target → List Byte)

/-- One statement, or one cut. -/
def step (s : State) : Act → Option State
  | .start =>
      if s.pc = .idle ∨ s.pc = .done then some { s with pc := .root, met := false } else none
  | .mkdirs =>
      match s.pc with
      | .root => some { s with pc := .check .testDefault }
      | _ => none
  | .isExit =>
      match s.pc with
      | .check t => some { s with pc := if (s.disk t).isSome then t.next else .create t }
      | _ => none
  | .createNewFile =>
      match s.pc with
      | .create t => some { s with pc := .openOut t, disk := Function.update s.disk t (some []) }
      | _ => none
  | .openOut =>
      match s.pc with
      | .openOut t => some { s with
          pc := .copy t [] [] (resource t)
          disk := Function.update s.disk t (some []) }
      | _ => none
  | .transfer len =>
      match s.pc with
      | .copy t written buf rest =>
          if 1 ≤ len ∧ len ≤ buffLength ∧ len ≤ rest.length then
            let out := bufferedWrite written buf (rest.take len)
            some { s with
              pc := .copy t out.1 out.2 (rest.drop len)
              disk := Function.update s.disk t (some out.1) }
          else none
      | _ => none
  | .endOfStream =>
      match s.pc with
      | .copy t written buf [] => some { s with pc := .flush t written buf }
      | _ => none
  | .flush =>
      match s.pc with
      | .flush t written buf => some { s with
          pc := .close t (written ++ buf)
          disk := Function.update s.disk t (some (written ++ buf)) }
      | _ => none
  | .close =>
      match s.pc with
      | .close t _ => some { s with pc := t.next }
      | _ => none
  | .ioError part again =>
      match s.pc, s.pc.working with
      -- the `catch` block is empty, and the next file is taken
      | .create t, _ => some { s with pc := t.next, met := true }
      | _, some w =>
          -- the buffer is there to be written again only if writing it has failed
          if part ≤ w.buf.length ∨ again = 0 then
            some {
              pc := w.target.next
              disk := leave s.disk (leaves s.pc (.ioError part again))
              met := true }
          else none
      | _, none => none
  | .kill part =>
      if s.pc = .idle ∨ s.pc = .done then none
      else some { pc := .idle, disk := leave s.disk (leaves s.pc (.kill part)), met := true }

/-- What a step can be. -/
inductive Step (s : State) : Act → State → Prop where
  | start (hpc : s.pc = .idle ∨ s.pc = .done) :
      Step s .start { s with pc := .root, met := false }
  | mkdirs (hpc : s.pc = .root) : Step s .mkdirs { s with pc := .check .testDefault }
  | exists (t : Target) (hpc : s.pc = .check t) (h : (s.disk t).isSome) :
      Step s .isExit { s with pc := t.next }
  | missing (t : Target) (hpc : s.pc = .check t) (h : s.disk t = none) :
      Step s .isExit { s with pc := .create t }
  | createNewFile (t : Target) (hpc : s.pc = .create t) :
      Step s .createNewFile
        { s with pc := .openOut t, disk := Function.update s.disk t (some []) }
  | openOut (t : Target) (hpc : s.pc = .openOut t) :
      Step s .openOut
        { s with pc := .copy t [] [] (resource t), disk := Function.update s.disk t (some []) }
  | transfer (t : Target) (written buf rest : List Byte) (len : Nat)
      (hpc : s.pc = .copy t written buf rest)
      (hlen : 1 ≤ len ∧ len ≤ buffLength ∧ len ≤ rest.length) :
      Step s (.transfer len) { s with
        pc := .copy t (bufferedWrite written buf (rest.take len)).1
          (bufferedWrite written buf (rest.take len)).2 (rest.drop len)
        disk := Function.update s.disk t
          (some (bufferedWrite written buf (rest.take len)).1) }
  | endOfStream (t : Target) (written buf : List Byte) (hpc : s.pc = .copy t written buf []) :
      Step s .endOfStream { s with pc := .flush t written buf }
  | flush (t : Target) (written buf : List Byte) (hpc : s.pc = .flush t written buf) :
      Step s .flush { s with
        pc := .close t (written ++ buf)
        disk := Function.update s.disk t (some (written ++ buf)) }
  | close (t : Target) (written : List Byte) (hpc : s.pc = .close t written) :
      Step s .close { s with pc := t.next }
  | notCreated (t : Target) (part again : Nat) (hpc : s.pc = .create t) :
      Step s (.ioError part again) { s with pc := t.next, met := true }
  | failed (w : Working) (part again : Nat) (hw : s.pc.working = some w)
      (hbuf : part ≤ w.buf.length ∨ again = 0) :
      Step s (.ioError part again)
        ⟨w.target.next, leave s.disk (leaves s.pc (.ioError part again)), true⟩
  | killed (part : Nat) (hpc : ¬(s.pc = .idle ∨ s.pc = .done)) :
      Step s (.kill part) ⟨.idle, leave s.disk (leaves s.pc (.kill part)), true⟩

theorem step_cases {s s' : State} {a : Act} (h : step resource s a = some s') :
    Step resource s a s' := by
  cases a with
  | start =>
      simp only [step] at h
      split at h
      · exact Option.some.inj h ▸ .start ‹_›
      · exact absurd h (by simp only [reduceCtorEq, not_false_eq_true])
  | mkdirs =>
      simp only [step] at h
      split at h
      · exact Option.some.inj h ▸ .mkdirs ‹_›
      · exact absurd h (by simp only [reduceCtorEq, not_false_eq_true])
  | isExit =>
      simp only [step] at h
      split at h
      · rename_i t hpc
        by_cases hex : (s.disk t).isSome
        · rw [if_pos hex] at h
          exact Option.some.inj h ▸ .exists t hpc hex
        · rw [if_neg hex] at h
          exact Option.some.inj h ▸ .missing t hpc (Option.not_isSome_iff_eq_none.mp hex)
      · exact absurd h (by simp only [reduceCtorEq, not_false_eq_true])
  | createNewFile =>
      simp only [step] at h
      split at h
      · exact Option.some.inj h ▸ .createNewFile _ ‹_›
      · exact absurd h (by simp only [reduceCtorEq, not_false_eq_true])
  | openOut =>
      simp only [step] at h
      split at h
      · exact Option.some.inj h ▸ .openOut _ ‹_›
      · exact absurd h (by simp only [reduceCtorEq, not_false_eq_true])
  | transfer len =>
      simp only [step] at h
      split at h
      · split at h
        · exact Option.some.inj h ▸ .transfer _ _ _ _ len ‹_› ‹_›
        · exact absurd h (by simp only [reduceCtorEq, not_false_eq_true])
      · exact absurd h (by simp only [reduceCtorEq, not_false_eq_true])
  | endOfStream =>
      simp only [step] at h
      split at h
      · exact Option.some.inj h ▸ .endOfStream _ _ _ ‹_›
      · exact absurd h (by simp only [reduceCtorEq, not_false_eq_true])
  | flush =>
      simp only [step] at h
      split at h
      · exact Option.some.inj h ▸ .flush _ _ _ ‹_›
      · exact absurd h (by simp only [reduceCtorEq, not_false_eq_true])
  | close =>
      simp only [step] at h
      split at h
      · exact Option.some.inj h ▸ .close _ _ ‹_›
      · exact absurd h (by simp only [reduceCtorEq, not_false_eq_true])
  | ioError part again =>
      simp only [step] at h
      split at h
      · exact Option.some.inj h ▸ .notCreated _ part again ‹_›
      · split at h
        · exact Option.some.inj h ▸ .failed _ part again ‹_› ‹_›
        · exact absurd h (by simp only [reduceCtorEq, not_false_eq_true])
      · exact absurd h (by simp only [reduceCtorEq, not_false_eq_true])
  | kill part =>
      simp only [step] at h
      split at h
      · exact absurd h (by simp only [reduceCtorEq, not_false_eq_true])
      · exact Option.some.inj h ▸ .killed part ‹_›

/-- A cut that strikes no file, or leaves it whole. -/
def Harmless (s : State) (a : Act) : Prop :=
  ∀ t content, leaves s.pc a = some (t, content) → content = resource t

instance (s : State) (a : Act) : Decidable (Harmless resource s a) :=
  match h : leaves s.pc a with
  | none => isTrue fun t content hc => nomatch h.symm.trans hc
  | some (t, content) => decidable_of_iff (content = resource t) (by
      unfold Harmless
      rw [h]
      exact ⟨fun heq u c hc => by cases hc; exact heq, fun hall => hall t content rfl⟩)

/-- The last start has gone through without an error. -/
def Undisturbed (s : State) : Prop := s.pc = .done ∧ s.met = false

/-- Every file holds the whole content of its resource. -/
def Installed (s : State) : Prop := ∀ t, s.disk t = some (resource t)

/-! ### The file in work -/

def Target.rank : Target → Nat
  | .testDefault => 0
  | .log4j => 1
  | .qcom => 2

/-- How many files the start has dealt with. -/
def Pc.rank : Pc → Nat
  | .idle | .root => 0
  | .check t | .create t | .openOut t => t.rank
  | .copy t _ _ _ | .flush t _ _ | .close t _ => t.rank
  | .done => 3

/-- What the file in work will hold in the end. -/
def Pc.total : Pc → Option (Target × List Byte)
  | .copy t written buf rest => some (t, written ++ buf ++ rest)
  | .flush t written buf => some (t, written ++ buf)
  | .close t written => some (t, written)
  | _ => none

@[simp] theorem working_next (t : Target) : t.next.working = none := by
  cases t <;> rfl

@[simp] theorem total_next (t : Target) : t.next.total = none := by
  cases t <;> rfl

@[simp] theorem rank_next (t : Target) : t.next.rank = t.rank + 1 := by
  cases t <;> rfl

theorem next_ne_create (t u : Target) : t.next ≠ .create u := by
  cases t <;> simp only [Target.next, ne_eq, reduceCtorEq, not_false_eq_true]

theorem rank_inj {t u : Target} (h : t.rank = u.rank) : t = u := by
  cases t <;> cases u <;> first | rfl | exact absurd h (by decide)

theorem bufferedWrite_append (written buf chunk : List Byte) :
    (bufferedWrite written buf chunk).1 ++ (bufferedWrite written buf chunk).2
      = written ++ buf ++ chunk := by
  unfold bufferedWrite
  split
  · exact List.append_nil _
  · split
    · rfl
    · exact (List.append_assoc _ _ _).symm

/-- What holds whatever has been cut: the file in work has on disk what has been
    written of it and will get its whole content, a file about to be made is not
    there, and a start that has met no error has left no file out. -/
structure Shape (s : State) : Prop where
  onDisk : ∀ w, s.pc.working = some w → s.disk w.target = some w.written
  total : ∀ t content, s.pc.total = some (t, content) → content = resource t
  absent : ∀ t, s.pc = .create t → s.disk t = none
  dealt : s.met = false → ∀ t, t.rank < s.pc.rank → s.disk t ≠ none

theorem shape_init : Shape resource init where
  onDisk w hw := absurd hw (by simp only [init, Pc.working, reduceCtorEq, not_false_eq_true])
  total t c hc := absurd hc (by simp only [init, Pc.total, reduceCtorEq, not_false_eq_true])
  absent t ht := rfl
  dealt _ t ht := absurd ht (Nat.not_lt_zero _)

/-- A file that is written stays there, so none that exists is lost. -/
theorem update_ne_none {disk : Target → Option (List Byte)} {t u : Target} {content : List Byte}
    (h : disk u ≠ none) : Function.update disk t (some content) u ≠ none := by
  by_cases hut : u = t
  · rw [hut, Function.update_self]
    exact Option.some_ne_none _
  · rw [Function.update_of_ne hut]
    exact h

variable {resource} {s s' : State} {a : Act}

/-- Going on to the next file, once the one at hand is there. -/
theorem Shape.next (h : Shape resource s) {t : Target} (hrank : s.pc.rank = t.rank)
    (hdisk : s.disk t ≠ none) : Shape resource { s with pc := t.next } where
  onDisk w hw := absurd hw (by simp only [working_next, reduceCtorEq, not_false_eq_true])
  total u c hc := absurd hc (by simp only [total_next, reduceCtorEq, not_false_eq_true])
  absent u hu := absurd hu (next_ne_create t u)
  dealt hmet u hu := by
    simp only [rank_next] at hu
    rcases Nat.lt_succ_iff_lt_or_eq.mp hu with hlt | heq
    · exact h.dealt hmet u (hrank ▸ hlt)
    · rw [rank_inj heq]
      exact hdisk

/-- A step that writes the file in work. -/
theorem Shape.write (h : Shape resource s) {pc : Pc} {t : Target} {written : List Byte}
    (hrank : s.pc.rank = pc.rank)
    (hworking : ∀ w, pc.working = some w → w.target = t ∧ w.written = written)
    (htotal : ∀ u content, pc.total = some (u, content) → content = resource u)
    (hcreate : ∀ u, pc ≠ .create u) :
    Shape resource { s with pc := pc, disk := Function.update s.disk t (some written) } where
  onDisk w hw := by
    obtain ⟨rfl, rfl⟩ := hworking w hw
    exact Function.update_self _ _ _
  total := htotal
  absent u hu := absurd hu (hcreate u)
  dealt hmet u hu := update_ne_none (h.dealt hmet u (hrank ▸ hu))

/-- After a cut no file is in work, and the start has met an error. -/
theorem shape_of_cut {pc : Pc} {disk : Target → Option (List Byte)} (hworking : pc.working = none)
    (htotal : pc.total = none) (hcreate : ∀ u, pc ≠ .create u) :
    Shape resource ⟨pc, disk, true⟩ where
  onDisk w hw := absurd (hworking.symm.trans hw) (by simp only [reduceCtorEq, not_false_eq_true])
  total u c hc := absurd (htotal.symm.trans hc) (by simp only [reduceCtorEq, not_false_eq_true])
  absent u hu := absurd hu (hcreate u)
  dealt hmet := absurd hmet Bool.noConfusion

theorem shape_step (h : Shape resource s) (ha : step resource s a = some s') :
    Shape resource s' := by
  have hdealt := h.dealt
  have htotal := h.total
  cases step_cases resource ha with
  | start hpc =>
      exact ⟨(fun w hw => nomatch hw), (fun t c hc => nomatch hc), (fun t ht => nomatch ht),
        fun _ t ht => absurd ht (Nat.not_lt_zero _)⟩
  | mkdirs hpc =>
      exact ⟨(fun w hw => nomatch hw), (fun t c hc => nomatch hc), (fun t ht => nomatch ht),
        fun _ t ht => absurd ht (Nat.not_lt_zero _)⟩
  | «exists» t hpc hex =>
      exact h.next (by rw [hpc]; rfl) fun hnone => by
        rw [hnone] at hex
        exact Bool.noConfusion hex
  | missing t hpc hnone =>
      rw [hpc] at hdealt
      refine ⟨(fun w hw => nomatch hw), (fun u c hc => nomatch hc), fun u hu => ?_, hdealt⟩
      obtain rfl : t = u := Pc.create.inj hu
      exact hnone
  | createNewFile t hpc =>
      exact h.write (by rw [hpc]; rfl) (fun w hw => by cases hw; exact ⟨rfl, rfl⟩)
        (fun u c hc => nomatch hc) (fun u => by simp only [ne_eq, reduceCtorEq, not_false_eq_true])
  | openOut t hpc =>
      exact h.write (by rw [hpc]; rfl) (fun w hw => by cases hw; exact ⟨rfl, rfl⟩)
        (fun u c hc => by cases hc; rfl)
        (fun u => by simp only [ne_eq, reduceCtorEq, not_false_eq_true])
  | transfer t written buf rest len hpc hlen =>
      refine h.write (by rw [hpc]; rfl) (fun w hw => by cases hw; exact ⟨rfl, rfl⟩)
        (fun u c hc => ?_) (fun u => by simp only [ne_eq, reduceCtorEq, not_false_eq_true])
      cases hc
      have hwhole := htotal t (written ++ buf ++ rest) (by rw [hpc]; rfl)
      rw [bufferedWrite_append, List.append_assoc _ (rest.take len), List.take_append_drop, hwhole]
  | endOfStream t written buf hpc =>
      rw [hpc] at hdealt
      refine ⟨fun w hw => ?_, fun u c hc => ?_, (fun u hu => nomatch hu), hdealt⟩
      · cases hw
        exact h.onDisk ⟨t, written, buf, buf ++ ([] : List Byte).take buffLength⟩ (by rw [hpc]; rfl)
      · cases hc
        exact htotal t (written ++ buf) (by rw [hpc, Pc.total, List.append_nil])
  | flush t written buf hpc =>
      refine h.write (by rw [hpc]; rfl) (fun w hw => by cases hw; exact ⟨rfl, rfl⟩)
        (fun u c hc => ?_) (fun u => by simp only [ne_eq, reduceCtorEq, not_false_eq_true])
      cases hc
      exact htotal t (written ++ buf) (by rw [hpc]; rfl)
  | close t written hpc =>
      refine h.next (by rw [hpc]; rfl) ?_
      rw [h.onDisk ⟨t, written, [], []⟩ (by rw [hpc]; rfl)]
      exact Option.some_ne_none _
  | notCreated t part again hpc =>
      exact shape_of_cut (working_next t) (total_next t) (next_ne_create t)
  | failed w part again hw hbuf =>
      exact shape_of_cut (working_next _) (total_next _) (next_ne_create _)
  | killed part hpc =>
      exact shape_of_cut rfl rfl (fun u => by simp only [ne_eq, reduceCtorEq, not_false_eq_true])

/-! ### The files on disk -/

/-- No step is writing the file. -/
def Free (s : State) (t : Target) : Prop := ∀ w, s.pc.working = some w → w.target ≠ t

/-- Every file that no step is writing is whole. -/
def Whole (resource : Target → List Byte) (s : State) : Prop :=
  ∀ t content, s.disk t = some content → Free s t → content = resource t

/-- Some file is left with something else than its content. -/
def Partial (resource : Target → List Byte) (s : State) : Prop :=
  ∃ t content, s.disk t = some content ∧ content ≠ resource t ∧ Free s t

theorem free_of_none {t : Target} (h : s.pc.working = none) : Free s t := by
  intro w hw
  exact absurd (h.symm.trans hw) (by simp only [reduceCtorEq, not_false_eq_true])

/-- Of the file in work only the target matters here. -/
theorem free_iff {u : Target} (h : s.pc.working.map Working.target = some u) (t : Target) :
    Free s t ↔ u ≠ t := by
  obtain ⟨w, hw, rfl⟩ := Option.map_eq_some_iff.mp h
  refine ⟨fun hfree => hfree w hw, fun hne w' hw' => ?_⟩
  obtain rfl : w = w' := Option.some.inj (hw.symm.trans hw')
  exact hne

theorem leave_of_ne {disk : Target → Option (List Byte)} {left : Option (Target × List Byte)}
    {t : Target} (h : ∀ u content, left = some (u, content) → u ≠ t) :
    leave disk left t = disk t := by
  cases left with
  | none => rfl
  | some l => exact Function.update_of_ne (h l.1 l.2 rfl).symm _ _

/-- A file that exists and that no step is writing is never written again: it is not
    made, because it is there, and only files that have been made are written. -/
theorem kept_step (h : Shape resource s) (ha : step resource s a = some s') {t : Target}
    {content : List Byte} (hdisk : s.disk t = some content) (hfree : Free s t) :
    s'.disk t = some content ∧ Free s' t := by
  have hkept : ∀ u, u ≠ t → ∀ c, Function.update s.disk u c t = some content :=
    fun u hu c => (Function.update_of_ne hu.symm _ _).trans hdisk
  cases step_cases resource ha with
  | start hpc => exact ⟨hdisk, free_of_none rfl⟩
  | mkdirs hpc => exact ⟨hdisk, free_of_none rfl⟩
  | «exists» u hpc hex => exact ⟨hdisk, free_of_none (working_next u)⟩
  | missing u hpc hnone => exact ⟨hdisk, free_of_none rfl⟩
  | createNewFile u hpc =>
      have hne : u ≠ t := by
        rintro rfl
        exact absurd ((h.absent u hpc).symm.trans hdisk) (by
          simp only [reduceCtorEq, not_false_eq_true])
      exact ⟨hkept u hne _, (free_iff rfl t).mpr hne⟩
  | openOut u hpc =>
      have hne : u ≠ t := (free_iff (by rw [hpc]; rfl) t).mp hfree
      exact ⟨hkept u hne _, (free_iff rfl t).mpr hne⟩
  | transfer u written buf rest len hpc hlen =>
      have hne : u ≠ t := (free_iff (by rw [hpc]; rfl) t).mp hfree
      exact ⟨hkept u hne _, (free_iff rfl t).mpr hne⟩
  | endOfStream u written buf hpc =>
      have hne : u ≠ t := (free_iff (by rw [hpc]; rfl) t).mp hfree
      exact ⟨hdisk, (free_iff rfl t).mpr hne⟩
  | flush u written buf hpc =>
      have hne : u ≠ t := (free_iff (by rw [hpc]; rfl) t).mp hfree
      exact ⟨hkept u hne _, (free_iff rfl t).mpr hne⟩
  | close u written hpc => exact ⟨hdisk, free_of_none (working_next u)⟩
  | notCreated u part again hpc => exact ⟨hdisk, free_of_none (working_next u)⟩
  | failed w part again hw hbuf =>
      refine ⟨(leave_of_ne fun u c hu => ?_).trans hdisk, free_of_none (working_next _)⟩
      rw [leaves, hw, Option.map_some, Option.some.injEq, Prod.mk.injEq] at hu
      exact hu.1 ▸ hfree w hw
  | killed part hpc =>
      refine ⟨(leave_of_ne fun u c hu => ?_).trans hdisk, free_of_none rfl⟩
      obtain ⟨w, hw, heq⟩ := Option.map_eq_some_iff.mp hu
      rw [Prod.mk.injEq] at heq
      exact heq.1 ▸ hfree w hw

/-- A cut puts on disk what it leaves. -/
theorem disk_of_cut (ha : step resource s a = some s') {t : Target} {content : List Byte}
    (hleft : leaves s.pc a = some (t, content)) : s'.disk t = some content ∧ Free s' t := by
  cases step_cases resource ha with
  | notCreated u part again hpc =>
      rw [leaves, hpc] at hleft
      exact absurd hleft (by simp only [Pc.working, Option.map_none, reduceCtorEq,
        not_false_eq_true])
  | failed w part again hw hbuf =>
      rw [hleft]
      exact ⟨Function.update_self _ _ _, free_of_none (working_next _)⟩
  | killed part hpc =>
      rw [hleft]
      exact ⟨Function.update_self _ _ _, free_of_none rfl⟩
  | _ => exact absurd hleft (by simp only [leaves, reduceCtorEq, not_false_eq_true])

/-- After a cut a file is what the cut has left, or it was there like that. -/
theorem cut_cases {w : Working} {left : List Byte} (hleaves : leaves s.pc a = some (w.target, left))
    (hw : s.pc.working = some w) {t : Target} {content : List Byte}
    (hdisk : leave s.disk (leaves s.pc a) t = some content) :
    (s.disk t = some content ∧ Free s t) ∨ content = resource t
      ∨ leaves s.pc a = some (t, content) := by
  rw [hleaves] at hdisk ⊢
  by_cases ht : w.target = t
  · subst ht
    rw [leave, Function.update_self, Option.some.injEq] at hdisk
    rw [hdisk]
    exact Or.inr (Or.inr rfl)
  · refine Or.inl ⟨?_, (free_iff (congrArg _ hw) t).mpr ht⟩
    rw [leave, Function.update_of_ne (Ne.symm ht)] at hdisk
    exact hdisk

/-- A file that no step is writing was there before like that, or it has just been
    closed with its whole content, or cut. -/
theorem free_cases (h : Shape resource s) (ha : step resource s a = some s') {t : Target}
    {content : List Byte} (hdisk : s'.disk t = some content) (hfree : Free s' t) :
    (s.disk t = some content ∧ Free s t) ∨ content = resource t
      ∨ leaves s.pc a = some (t, content) := by
  have hother : ∀ u, u ≠ t → ∀ c, Function.update s.disk u c t = some content →
      s.disk t = some content :=
    fun u hu c hc => (Function.update_of_ne hu.symm _ _).symm.trans hc
  have hidle : s.pc.working = none → s.disk t = some content →
      (s.disk t = some content ∧ Free s t) ∨ content = resource t
        ∨ leaves s.pc a = some (t, content) :=
    fun hnone hold => Or.inl ⟨hold, free_of_none hnone⟩
  cases step_cases resource ha with
  | start hpc => exact hidle (by rcases hpc with hpc | hpc <;> rw [hpc] <;> rfl) hdisk
  | mkdirs hpc => exact hidle (by rw [hpc]; rfl) hdisk
  | «exists» u hpc hex => exact hidle (by rw [hpc]; rfl) hdisk
  | missing u hpc hnone => exact hidle (by rw [hpc]; rfl) hdisk
  | createNewFile u hpc =>
      exact hidle (by rw [hpc]; rfl) (hother u ((free_iff rfl t).mp hfree) _ hdisk)
  | openOut u hpc =>
      have hne : u ≠ t := (free_iff rfl t).mp hfree
      exact Or.inl ⟨hother u hne _ hdisk, (free_iff (by rw [hpc]; rfl) t).mpr hne⟩
  | transfer u written buf rest len hpc hlen =>
      have hne : u ≠ t := (free_iff rfl t).mp hfree
      exact Or.inl ⟨hother u hne _ hdisk, (free_iff (by rw [hpc]; rfl) t).mpr hne⟩
  | endOfStream u written buf hpc =>
      have hne : u ≠ t := (free_iff rfl t).mp hfree
      exact Or.inl ⟨hdisk, (free_iff (by rw [hpc]; rfl) t).mpr hne⟩
  | flush u written buf hpc =>
      have hne : u ≠ t := (free_iff rfl t).mp hfree
      exact Or.inl ⟨hother u hne _ hdisk, (free_iff (by rw [hpc]; rfl) t).mpr hne⟩
  | close u written hpc =>
      have hworking : s.pc.working = some ⟨u, written, [], []⟩ := by
        rw [hpc]
        rfl
      by_cases hu : u = t
      · -- the file just closed holds all that was to be written
        subst hu
        have hwritten : s.disk u = some written := h.onDisk _ hworking
        obtain rfl : written = content := Option.some.inj (hwritten.symm.trans hdisk)
        exact Or.inr (Or.inl (h.total u written (by rw [hpc]; rfl)))
      · exact Or.inl ⟨hdisk, (free_iff (congrArg _ hworking) t).mpr hu⟩
  | notCreated u part again hpc => exact hidle (by rw [hpc]; rfl) hdisk
  | failed w part again hw hbuf =>
      have hleaves : leaves s.pc (.ioError part again)
          = some (w.target, w.written ++ w.flight.take part ++ w.buf.take again) := by
        rw [leaves, hw, Option.map_some]
      exact cut_cases hleaves hw hdisk
  | killed part hpc =>
      rcases hw : s.pc.working with _ | w
      · rw [leaves, hw, Option.map_none] at hdisk
        exact hidle hw hdisk
      · have hleaves : leaves s.pc (.kill part)
            = some (w.target, w.written ++ w.flight.take part) := by
          rw [leaves, hw, Option.map_some]
        exact cut_cases hleaves hw hdisk

theorem whole_step (h : Shape resource s) (hwhole : Whole resource s)
    (hharmless : Harmless resource s a) (ha : step resource s a = some s') :
    Whole resource s' := by
  intro t content hdisk hfree
  rcases free_cases h ha hdisk hfree with ⟨hold, hfree'⟩ | hcontent | hleft
  · exact hwhole t content hold hfree'
  · exact hcontent
  · exact hharmless t content hleft

theorem partial_step (hharmful : ¬Harmless resource s a) (ha : step resource s a = some s') :
    Partial resource s' := by
  unfold Harmless at hharmful
  push Not at hharmful
  obtain ⟨t, content, hleft, hne⟩ := hharmful
  obtain ⟨hdisk, hfree⟩ := disk_of_cut ha hleft
  exact ⟨t, content, hdisk, hne, hfree⟩

theorem partial_stays (h : Shape resource s) (hbroken : Partial resource s)
    (ha : step resource s a = some s') : Partial resource s' := by
  obtain ⟨t, content, hdisk, hne, hfree⟩ := hbroken
  obtain ⟨hdisk', hfree'⟩ := kept_step h ha hdisk hfree
  exact ⟨t, content, hdisk', hne, hfree'⟩

/-- A start that goes through without an error leaves the whole configuration exactly
    if no cut, in this start or an earlier one, has left a file with a part of its
    content. -/
theorem installed_iff (as : List Act) (s : State) (h : exec (step resource) init as = some s)
    (hlast : Undisturbed s) :
    Installed resource s ↔ Along (step resource) (Harmless resource) init as := by
  obtain ⟨hdone, hmet⟩ := hlast
  have hfree : ∀ t, Free s t := fun t => free_of_none (by rw [hdone]; rfl)
  constructor
  · intro hall
    by_contra halong
    obtain ⟨t, content, hdisk, hne, -⟩ := exec_trapped (step resource) (Harmless resource)
      (Shape resource) (Partial resource) (fun s a s' hs ha => shape_step hs ha)
      (fun s a s' _ hharmful ha => partial_step hharmful ha)
      (fun s a s' hs hbroken ha => partial_stays hs hbroken ha) as init s (shape_init resource)
      halong h
    exact hne (Option.some.inj (hdisk.symm.trans (hall t)))
  · intro halong t
    obtain ⟨hshape, hwhole⟩ := exec_keeps (step resource) (Harmless resource)
      (fun s => Shape resource s ∧ Whole resource s)
      (fun s a s' hs hharmless ha => ⟨shape_step hs.1 ha, whole_step hs.1 hs.2 hharmless ha⟩)
      as init s ⟨shape_init resource, (fun t content hdisk => nomatch hdisk)⟩ halong h
    have hthere : s.disk t ≠ none := by
      refine hshape.dealt hmet t ?_
      rw [hdone]
      cases t <;> decide
    obtain ⟨content, hdisk⟩ := Option.ne_none_iff_exists'.mp hthere
    rw [hdisk, hwhole t content hdisk (hfree t)]

end Installing

/-- The statements that copy a file of one buffer. -/
def copies (len : Nat) : List Act :=
  [.isExit, .createNewFile, .openOut, .transfer len, .endOfStream, .flush, .close]

/-- A start that is killed in front of the first file, and one that goes through. -/
theorem installed_iff_killed_early :
    ∃ s, exec (step fun _ => [1, 2, 3]) init ([.start, .mkdirs, .isExit, .kill 0]
        ++ [.start, .mkdirs] ++ copies 3 ++ copies 3 ++ copies 3) = some s
      ∧ Installed (fun _ => [1, 2, 3]) s := by
  refine ⟨_, rfl, (installed_iff ([.start, .mkdirs, .isExit, .kill 0]
    ++ [.start, .mkdirs] ++ copies 3 ++ copies 3 ++ copies 3) _ rfl ⟨rfl, rfl⟩).mpr ?_⟩
  decide

/-- A start that is killed right after it has made the first file. The next one goes
    through, finds that file and leaves it empty. -/
theorem not_installed_killed_late :
    ∃ s, exec (step fun _ => [1, 2, 3]) init ([.start, .mkdirs, .isExit, .createNewFile, .kill 0]
        ++ [.start, .mkdirs, .isExit] ++ copies 3 ++ copies 3) = some s
      ∧ Undisturbed s ∧ ¬Installed (fun _ => [1, 2, 3]) s := by
  refine ⟨_, rfl, ⟨rfl, rfl⟩, fun hall => ?_⟩
  exact absurd (hall .testDefault) (by decide)

end AppEnvironment

end NetProbe
