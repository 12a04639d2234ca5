import NetProbe.Download.Progress

/-!
# Complete Downloads

A download that reports success is complete, over any number of sessions, any
interleaving of their threads, and any cut by a stop or a crash, as long as
every session is given fewer than `2 ^ 29` threads. The invariant is
`WorldSound`: the config file and all sessions are sound, and only the latest
session is inside `download`.

With more threads the source's `4 * threadCount` wraps, the coordinator writes
counters to the slots of other tasks, and a later session takes them for
progress that nobody has made.

## Main definitions

* `Moderate`: Sessions with few enough threads.
* `WorldSound`: The invariant.

## Theorems

* `step_worldSound`: Every moderate step keeps the invariant.
* `download_complete`: In every run of moderate sessions, success means that
  the local file is the remote one.
-/

namespace NetProbe

open HttpDownload Machine

/-- A session with a thread count at which `4 * threadCount` does not wrap. -/
def Moderate (r : Remote) (_ : World) : Label → Prop
  | .newSession threadCount _ =>
      1 ≤ threadCount ∧ r.fileSize + threadCount < 2147483648 ∧ threadCount < 536870912
  | _ => True

instance (r : Remote) (w : World) : (l : Label) → Decidable (Moderate r w l)
  | .newSession threadCount _ => inferInstanceAs (Decidable (1 ≤ threadCount ∧
      r.fileSize + threadCount < 2147483648 ∧ threadCount < 536870912))
  | .crash | .move _ _ => isTrue trivial

/-- The config file and all sessions are sound, and the earlier ones are
    over. -/
structure WorldSound (r : Remote) (w : World) : Prop where
  cfg : CfgSound r w.disk
  sessions : ∀ s ∈ w.sessions, SessionSound r w.disk s
  earlier : ∀ s ∈ w.sessions.tail, s.ended = true

theorem WorldSound.all_ended {r : Remote} {w : World} (h : WorldSound r w) (hidle : w.idle = true) :
    ∀ s ∈ w.sessions, s.ended = true := by
  intro s hs
  unfold World.idle at hidle
  rcases hw : w.sessions with _ | ⟨head, rest⟩
  · rw [hw] at hs
    exact absurd hs List.not_mem_nil
  · rw [hw] at hs hidle
    rcases List.mem_cons.mp hs with rfl | hrest
    · exact hidle
    · refine h.earlier s ?_
      rw [hw]
      exact hrest

/-- A new session is sound. -/
theorem create_sound {r : Remote} {disk : Disk} {n : Int} (redownload : Bool) (hpos : 1 ≤ n)
    (hfits : r.fileSize + n < 2147483648) (hslots : n < 536870912) :
    SessionSound r disk (Session.create r n redownload) := by
  refine ⟨rfl, ⟨n.toNat, ?_, by omega, by omega, by omega⟩, rfl, rfl, fun _ => rfl⟩
  unfold Session.create HttpDownload.create
  simp only
  rw [if_neg (by omega)]
  omega

/-- A session taking a step aside keeps the world sound. -/
theorem WorldSound.aside {r : Remote} {w : World} {k : Nat} {s s' : Session} {disk' : Disk}
    (h : WorldSound r w) (hk : w.sessions[k]? = some s) (hs' : SessionSound r disk' s')
    (hended : s'.ended = s.ended) (hcfg : disk'.cfg = w.disk.cfg)
    (hkeeps : Keeps r w.disk.file disk'.file) : WorldSound r ⟨disk', w.sessions.set k s'⟩ := by
  refine ⟨h.cfg.keeps hcfg hkeeps, fun t ht => ?_, fun t ht => ?_⟩
  · rcases List.mem_or_eq_of_mem_set ht with ht | rfl
    · exact (h.sessions t ht).keeps hkeeps (Or.inl hcfg)
    · exact hs'
  · have hearlier := h.earlier
    rcases hw : w.sessions with _ | ⟨head, rest⟩
    · rw [hw] at hk
      exact absurd hk (by simp only [List.getElem?_nil, reduceCtorEq, not_false_eq_true])
    · rw [hw] at hk ht hearlier
      rcases k with _ | k
      · exact hearlier t ht
      · rcases List.mem_or_eq_of_mem_set (show t ∈ rest.set k s' from ht) with ht | rfl
        · exact hearlier t ht
        · rw [hended]
          exact hearlier s (List.mem_of_getElem? (show rest[k]? = some s from hk))

/-- Only the latest session can take a step of `download`. -/
theorem WorldSound.worked {r : Remote} {w : World} {k : Nat} {s s' : Session} {disk' : Disk}
    (h : WorldSound r w) (hk : w.sessions[k]? = some s)
    (hstep : Session.Worked r w.disk s disk' s') : WorldSound r ⟨disk', w.sessions.set k s'⟩ := by
  obtain ⟨hcfg', hs', hkeeps⟩ :=
    worked_sound h.cfg (h.sessions s (List.mem_of_getElem? hk)) hstep
  have hearlier := h.earlier
  have hsessions := h.sessions
  rcases hw : w.sessions with _ | ⟨head, rest⟩
  · rw [hw] at hk
    exact absurd hk (by simp only [List.getElem?_nil, reduceCtorEq, not_false_eq_true])
  · rw [hw] at hk hearlier hsessions
    rcases k with _ | k
    · refine ⟨hcfg', fun t ht => ?_, hearlier⟩
      rcases List.mem_cons.mp (show t ∈ s' :: rest from ht) with rfl | ht
      · exact hs'
      · exact (hsessions t (List.mem_cons_of_mem head ht)).keeps hkeeps (Or.inr (hearlier t ht))
    · have hover := hearlier s (List.mem_of_getElem? (show rest[k]? = some s from hk))
      exact absurd (hstep.not_ended.symm.trans hover) Bool.false_ne_true

/-- Every moderate step keeps the invariant. -/
theorem step_worldSound {r : Remote} {w w' : World} {l : Label} (h : WorldSound r w)
    (hl : Moderate r w l) (hstep : w.step r l = some w') : WorldSound r w' := by
  rcases World.step_cases hstep with ⟨n, redownload, rfl, hidle, rfl⟩ | ⟨rfl, rfl⟩ |
    ⟨k, m, s, disk', s', rfl, hk, hs, rfl⟩
  · refine ⟨h.cfg, fun s hs => ?_, h.all_ended hidle⟩
    rcases List.mem_cons.mp hs with rfl | hs
    · exact create_sound redownload hl.1 hl.2.1 hl.2.2
    · exact h.sessions s hs
  · exact ⟨h.cfg, fun s hs => absurd hs List.not_mem_nil, fun s hs => absurd hs List.not_mem_nil⟩
  · have hsound : SessionSound r w.disk s := h.sessions s (List.mem_of_getElem? hk)
    have hsame := Keeps.refl r w.disk.file
    cases Session.step_stepped hs
    case worked hworked => exact h.worked hk hworked
    case called i pool t hpool htask hrun hcalled =>
        obtain ⟨hs', hcfg, hkeeps⟩ := called_sessionSound hsound hpool htask hcalled
        refine h.aside hk hs' ?_ hcfg hkeeps
        cases hcalled <;> rfl
    case picked p p' hpool hpick =>
        refine h.aside hk (hsound.repool rfl rfl rfl rfl (fun hnone => ?_)) rfl rfl hsame
        rw [hpool] at hnone
        exact absurd hnone (Option.some_ne_none p)
    case flagged => exact h.aside hk (hsound.repool rfl rfl rfl rfl id) rfl rfl hsame
    case disconnected => exact h.aside hk (hsound.repool rfl rfl rfl rfl id) rfl rfl hsame
    case shutDown =>
        refine h.aside hk (hsound.repool rfl rfl rfl rfl (fun hnone => ?_)) rfl rfl hsame
        simp only [hnone, Option.map_none]

/-- In every run whose sessions have few enough threads, starting without a
    config file and with any local file, a call of `download` that has returned
    true has left the remote file, byte for byte. -/
theorem download_complete (r : Remote) (saveFile : Option (List Byte)) (labels : List Label)
    (w : World)
    (hmoderate : Along (World.step r) (Moderate r) (World.initial ⟨saveFile, none⟩) labels)
    (hrun : exec (World.step r) (World.initial ⟨saveFile, none⟩) labels = some w) :
    ∀ s ∈ w.sessions, s.pc = .returned true → w.disk.saveFile = some r.bytes := by
  have hsound : WorldSound r w :=
    exec_keeps (World.step r) (Moderate r) (WorldSound r)
      (fun v l v' hv hl hstep => step_worldSound hv hl hstep) labels _ w
      ⟨Or.inl rfl, fun s hs => absurd hs List.not_mem_nil,
        fun s hs => absurd hs List.not_mem_nil⟩ hmoderate hrun
  intro s hs hpc
  have hone := hsound.sessions s hs
  unfold SessionSound at hone
  rw [hpc] at hone
  have hfile := held_all (hone.2 rfl)
  unfold Disk.file at hfile
  rcases hsave : w.disk.saveFile with _ | file
  -- The remote file is not empty.
  · rw [hsave] at hfile
    have hpos := r.nonempty
    rw [← hfile, Option.getD_none, List.length_nil] at hpos
    omega
  · rw [hsave] at hfile
    rw [← hfile]
    rfl

/-- A session of two threads loses its connection after the first byte, records it
    and crashes. The next one, called with three, fetches the other bytes. -/
def resumedDownload : List Label :=
  let fetch (i readLen : Nat) : List Move := [.task i .request, .task i .opened,
    .task i (.read readLen), .task i .write, .task i .count, .task i .checkStop]
  let first : List Move := [.coord, .coord, .extend [0, 0, 0, 0], .coord, .coord, .writeCfg 52,
    .coord, .coord, .coord, .coord, .coord] ++ fetch 0 1 ++ [.task 0 .broken, .coord, .coord]
  let second : List Move := [.coord, .coord, .extend [], .coord, .coord, .coord, .coord, .coord] ++
    fetch 1 2 ++ [.task 1 .endOfStream] ++ fetch 0 1 ++ [.task 0 .endOfStream] ++
      List.replicate 12 .coord
  .newSession 2 false :: first.map (.move 0) ++ [.crash, .newSession 3 false] ++
    second.map (.move 0)

theorem download_complete_resumed :
    ∃ w ∈ exec (World.step fourBytes) (World.initial ⟨none, none⟩) resumedDownload,
      w.disk.saveFile = some fourBytes.bytes := by
  have hreturn : ∃ w ∈ exec (World.step fourBytes) (World.initial ⟨none, none⟩) resumedDownload,
      ∃ s ∈ w.sessions, s.pc = .returned true := by
    decide +kernel
  obtain ⟨w, hrun, s, hs, hpc⟩ := hreturn
  exact ⟨w, hrun,
    download_complete fourBytes none resumedDownload w (by decide +kernel) hrun s hs hpc⟩

end NetProbe
