import NetProbe.Download.Resume

/-!
# Progress on Disk and in Memory

What a download has achieved is recorded in three places that change at
different times: the bytes of the local file, the counters of the tasks, and
the counters in the config file. A counter, wherever it is kept, is a promise
about the bytes: `Fetched` says that they are there.

A step of a session changes the local file in two ways only, by setting its
length and by writing remote bytes at their own positions, and neither breaks
a promise made earlier (`Keeps`). So what has to be shown about every step is
that the promises it makes are good: a task counts after it has written, the
coordinator records what a task has counted, and a session that resumes takes
over what was recorded.

`CfgSound` and `SessionSound` say this of the config file and of a session at
each place of `download`. They need the counters of the config file to be
written to their own slots, which takes fewer than `2 ^ 29` of them.

## Main definitions

* `Held`, `Fetched`: Bytes of the remote file in the local one.
* `Keeps`: What was held is held after.
* `Tracked`, `CfgSound`: A config file whose counters are good.
* `Fetching`: A session whose tasks' counters are good.
* `SessionSound`: The invariant of a session.

## Theorems

* `keeps_write`, `keeps_extend`: The two changes of the local file.
* `held_all`: A file all of whose bytes are held is the remote file.
* `parse_tracked`: What a session can read from a sound config file.
* `called_fetching`: Tasks keep their promises.
* `worked_sound`, `called_sessionSound`: So does a session.
-/

namespace NetProbe

open HttpDownload Machine

/-- The local file, empty if it does not exist. -/
def Disk.file (disk : Disk) : List Byte := disk.saveFile.getD []

/-- The bytes from `pos` on are those of the remote file, and the local file
    has its length. -/
def Held (r : Remote) (file : List Byte) (pos len : Nat) : Prop :=
  0 < len → file.length = r.fileSize ∧
    ∀ j, pos ≤ j → j < pos + len → file[j]? = r.bytes[j]?

/-- A counter of block `i` of `n` and the bytes it stands for. -/
def Fetched (r : Remote) (file : List Byte) (n i : Nat) (c : Int) : Prop :=
  0 ≤ c ∧ c ≤ cap r.fileSize n i ∧ Held r file (i * share r.fileSize n) c.toNat

/-- What one file holds, the other does. -/
structure Keeps (r : Remote) (file file' : List Byte) : Prop where
  sized : file.length = r.fileSize → file'.length = r.fileSize
  held : ∀ pos len, Held r file pos len → Held r file' pos len

theorem Keeps.refl (r : Remote) (file : List Byte) : Keeps r file file := ⟨id, fun _ _ h => h⟩

theorem Held.zero (r : Remote) (file : List Byte) (pos : Nat) : Held r file pos 0 :=
  fun h => absurd h (Nat.lt_irrefl 0)

/-- Two stretches that meet are one. -/
theorem Held.append {r : Remote} {file : List Byte} {pos len len' : Nat} (h : Held r file pos len)
    (h' : Held r file (pos + len) len') : Held r file pos (len + len') := by
  intro hpos
  refine ⟨?_, fun j hlo hhi => ?_⟩
  · rcases Nat.eq_zero_or_pos len with hzero | hlen
    · exact (h' (by omega)).1
    · exact (h hlen).1
  · by_cases hj : j < pos + len
    · exact (h (by omega)).2 j hlo hj
    · exact (h' (by omega)).2 j (by omega) (by omega)

theorem getElem?_chunk (r : Remote) (pos len j : Nat) (hj : j < len) :
    (r.chunk pos len)[j]? = r.bytes[pos + j]? := by
  unfold Remote.chunk
  rw [List.getElem?_take_of_lt hj, List.getElem?_drop]

theorem length_chunk (r : Remote) {pos len : Nat} (h : pos + len ≤ r.fileSize) :
    (r.chunk pos len).length = len := by
  unfold Remote.fileSize at h
  unfold Remote.chunk
  rw [List.length_take, List.length_drop]
  omega

/-- Writing remote bytes at their own positions. -/
theorem keeps_write {r : Remote} {file : List Byte} {pos len : Nat}
    (hsize : file.length = r.fileSize) (hle : pos + len ≤ r.fileSize) :
    Keeps r file (writeAt file pos (r.chunk pos len)) ∧
      Held r (writeAt file pos (r.chunk pos len)) pos len := by
  have hlen := length_chunk r hle
  have hroom : pos + (r.chunk pos len).length ≤ file.length := by omega
  have hsize' : (writeAt file pos (r.chunk pos len)).length = r.fileSize := by
    rw [length_writeAt]
    omega
  -- Inside the stretch the new file has the remote bytes.
  have hwritten : ∀ j, pos ≤ j → j < pos + len →
      (writeAt file pos (r.chunk pos len))[j]? = r.bytes[j]? := by
    intro j hlo hhi
    rw [getElem?_writeAt file pos _ j hroom, if_pos (by omega),
      getElem?_chunk r pos len _ (by omega), Nat.add_sub_cancel' hlo]
  refine ⟨⟨fun _ => hsize', fun p l h hl => ⟨hsize', fun j hlo hhi => ?_⟩⟩,
    fun _ => ⟨hsize', hwritten⟩⟩
  -- A position held before is either written again or untouched.
  by_cases hj : pos ≤ j ∧ j < pos + len
  · exact hwritten j hj.1 hj.2
  · rw [getElem?_writeAt file pos _ j hroom, if_neg (by omega)]
    exact (h hl).2 j hlo hhi

/-- Setting the length keeps a file of the right length, and there is nothing
    to keep in another one. -/
theorem keeps_extend {r : Remote} {file fill : List Byte}
    (hfill : fill.length = r.fileSize - file.length) :
    Keeps r file (file.take r.fileSize ++ fill) ∧
      (file.take r.fileSize ++ fill).length = r.fileSize := by
  have hlen : (file.take r.fileSize ++ fill).length = r.fileSize := by
    rw [List.length_append, List.length_take]
    omega
  refine ⟨⟨fun _ => hlen, fun pos len h hpos => ?_⟩, hlen⟩
  -- Something is held only in a file of the right length, which gains
  -- nothing.
  have hsize := (h hpos).1
  have hnil : fill = [] := List.eq_nil_of_length_eq_zero (by omega)
  rw [hnil, List.append_nil, List.take_of_length_le (by omega)]
  exact h hpos

/-- A file all of whose bytes are held is the remote file. -/
theorem held_all {r : Remote} {file : List Byte} (h : Held r file 0 r.fileSize) :
    file = r.bytes := by
  obtain ⟨hsize, hbytes⟩ := h r.fileSize_pos
  apply List.ext_getElem?
  intro j
  by_cases hj : j < r.fileSize
  · exact hbytes j (Nat.zero_le j) (by omega)
  · rw [List.getElem?_eq_none (by omega), List.getElem?_eq_none (Nat.le_of_not_lt hj)]

/-- Full counters hold the whole file. -/
theorem held_of_full {r : Remote} {file : List Byte} {n : Nat} (hn : 1 ≤ n)
    (hsize : file.length = r.fileSize)
    (h : ∀ i < n, Held r file (i * share r.fileSize n) (cap r.fileSize n i)) :
    Held r file 0 r.fileSize := by
  intro _
  refine ⟨hsize, fun j _ hj => ?_⟩
  obtain ⟨i, hi, hlo, hhi⟩ := cap_covers hn (by omega : j < r.fileSize)
  exact (h i hi (by omega)).2 j hlo hhi

/-- A number of threads whose counters fit into their slots. -/
structure Admissible (r : Remote) (n : Nat) : Prop where
  pos : 1 ≤ n
  fits : r.fileSize + n < 2147483648
  slots : n < 536870912

/-- The config file is a whole one for `n` tasks, and its counters are good. -/
def Tracked (r : Remote) (disk : Disk) (n : Nat) : Prop :=
  ∃ cs : List Int, disk.cfg = some (cfgBytes (encodeUtf16 r.url) r.fileSize n cs) ∧
    cs.length = n ∧ ∀ i c, cs[i]? = some c → Fetched r disk.file n i c

/-- The config file was cut off while it was created. -/
def Torn (r : Remote) (disk : Disk) (n : Nat) : Prop :=
  ∃ p q : List Byte, disk.cfg = some p ∧ q ≠ [] ∧
    p ++ q = cfgBytes (encodeUtf16 r.url) r.fileSize n (List.replicate n 0)

/-- There is no config file, or it is whole and good, or it was cut off. -/
def CfgSound (r : Remote) (disk : Disk) : Prop :=
  disk.cfg = none ∨ ∃ n, Admissible r n ∧ (Tracked r disk n ∨ Torn r disk n)

/-- A session that has not read the config file. -/
structure Fresh (r : Remote) (s : Session) : Prop where
  url : s.object.url = r.url
  threads : ∃ n : Nat, s.object.threadCount = n ∧ Admissible r n
  no_tasks : s.object.downloadTasks = []
  no_pool : s.pool = none
  no_phase : ∀ i, s.phase i = .idle

/-- A session whose tasks' counters are good. -/
structure Fetching (r : Remote) (disk : Disk) (s : Session) : Prop where
  sized : disk.file.length = r.fileSize
  size : s.object.fileSize = r.fileSize
  threads : s.object.threadCount = s.object.downloadTasks.length
  admissible : Admissible r s.object.downloadTasks.length
  sound : TasksSound r s
  held : ∀ i t, s.object.downloadTasks[i]? = some t →
    Held r disk.file (i * share r.fileSize s.object.downloadTasks.length) t.download.toNat
  written : ∀ i pos limit readLen, s.phase i = .counting pos limit readLen →
    Held r disk.file pos readLen

/-- A session between the parse and the end. -/
def Running (r : Remote) (disk : Disk) (s : Session) : Prop :=
  Fetching r disk s ∧ Tracked r disk s.object.downloadTasks.length

/-- Where the counters of the config file begin. -/
def slots (r : Remote) : Int := ((encodeUtf16 r.url).length + 24 : Nat)

/-- The invariant of a session, at each place of `download`. -/
def SessionSound (r : Remote) (disk : Disk) (s : Session) : Prop :=
  match s.pc with
  | .init | .localFile => Fresh r s
  | .setLength => Fresh r s ∧ s.object.fileSize = r.fileSize
  | .createCfg | .newFile | .parse =>
      Fresh r s ∧ s.object.fileSize = r.fileSize ∧ disk.file.length = r.fileSize
  | .writeCfg rest =>
      Fresh r s ∧ s.object.fileSize = r.fileSize ∧ disk.file.length = r.fileSize ∧
        ∃ p, disk.cfg = some p ∧ p ++ rest = s.object.newCfg
  | .newPool | .submitAll | .openCfg | .await | .awaited | .saveOpen => Running r disk s
  | .loop | .record _ | .check _ | .save _ => Running r disk s ∧ s.offset = slots r
  | .judge i downloadSize =>
      Running r disk s ∧ i ≤ s.object.downloadTasks.length ∧ 0 ≤ downloadSize ∧
        downloadSize ≤ downloaded s.object.downloadTasks i
  | .returned success =>
      (s.pool = none ∨ Fetching r disk s) ∧ (success = true → Held r disk.file 0 r.fileSize)
  | .thrown => s.pool = none ∨ Fetching r disk s

section Keep

variable {r : Remote} {disk disk' : Disk} {s : Session}

theorem Fetched.keeps {n i : Nat} {c : Int} (h : Fetched r disk.file n i c)
    (hk : Keeps r disk.file disk'.file) : Fetched r disk'.file n i c :=
  ⟨h.1, h.2.1, hk.held _ _ h.2.2⟩

theorem Tracked.keeps {n : Nat} (h : Tracked r disk n) (hcfg : disk'.cfg = disk.cfg)
    (hk : Keeps r disk.file disk'.file) : Tracked r disk' n := by
  obtain ⟨cs, hbytes, hlen, hcs⟩ := h
  exact ⟨cs, by rw [hcfg, hbytes], hlen, fun i c hc => (hcs i c hc).keeps hk⟩

theorem CfgSound.keeps (h : CfgSound r disk) (hcfg : disk'.cfg = disk.cfg)
    (hk : Keeps r disk.file disk'.file) : CfgSound r disk' := by
  rcases h with hnone | ⟨n, hn, htracked | ⟨p, q, hp, hq, heq⟩⟩
  · exact Or.inl (by rw [hcfg, hnone])
  · exact Or.inr ⟨n, hn, Or.inl (htracked.keeps hcfg hk)⟩
  · exact Or.inr ⟨n, hn, Or.inr ⟨p, q, by rw [hcfg, hp], hq, heq⟩⟩

theorem Fetching.keeps (h : Fetching r disk s) (hk : Keeps r disk.file disk'.file) :
    Fetching r disk' s where
  sized := hk.sized h.sized
  size := h.size
  threads := h.threads
  admissible := h.admissible
  sound := h.sound
  held := fun i t ht => hk.held _ _ (h.held i t ht)
  written := fun i pos limit readLen hph => hk.held _ _ (h.written i pos limit readLen hph)

theorem Running.keeps (h : Running r disk s) (hcfg : disk'.cfg = disk.cfg)
    (hk : Keeps r disk.file disk'.file) : Running r disk' s :=
  ⟨h.1.keeps hk, h.2.keeps hcfg hk⟩

/-- Tasks that are submitted again lose nothing. -/
theorem Fetching.same {s' : Session} (h : Fetching r disk s) (hobject : s'.object = s.object)
    (hphase : ∀ i, s'.phase i = s.phase i ∨ s'.phase i = .ready) : Fetching r disk s' := by
  refine ⟨h.sized, by rw [hobject]; exact h.size, by rw [hobject]; exact h.threads,
    by rw [hobject]; exact h.admissible, h.sound.same hobject hphase,
    by rw [hobject]; exact h.held, ?_⟩
  intro i pos limit readLen hi
  rcases hphase i with hsame | hready
  · rw [hsame] at hi
    exact h.written i pos limit readLen hi
  · rw [hready] at hi
    exact absurd hi (by simp only [reduceCtorEq, not_false_eq_true])

theorem Running.same {s' : Session} (h : Running r disk s) (hobject : s'.object = s.object)
    (hphase : ∀ i, s'.phase i = s.phase i ∨ s'.phase i = .ready) : Running r disk s' :=
  ⟨h.1.same hobject hphase, by rw [hobject]; exact h.2⟩

/-- A step that is not one of the session's coordinator leaves its place and
    the config file alone. -/
theorem SessionSound.aside {s' : Session} (hs : SessionSound r disk s)
    (hf : Fetching r disk s → Fetching r disk' s')
    (hfresh : Fresh r s → Fresh r s' ∧ s'.object = s.object)
    (hpool : s.pool = none → s'.pool = none)
    (hk : Keeps r disk.file disk'.file) (hcfg : disk'.cfg = disk.cfg) (hpc : s'.pc = s.pc)
    (hoffset : s'.offset = s.offset)
    (hlength : s'.object.downloadTasks.length = s.object.downloadTasks.length)
    (hmore : ∀ k, downloaded s.object.downloadTasks k ≤ downloaded s'.object.downloadTasks k) :
    SessionSound r disk' s' := by
  have hrun : Running r disk s → Running r disk' s' := by
    intro h
    refine ⟨hf h.1, ?_⟩
    rw [hlength]
    exact h.2.keeps hcfg hk
  have hsized : Fresh r s → s.object.fileSize = r.fileSize →
      Fresh r s' ∧ s'.object.fileSize = r.fileSize := by
    intro h hsize
    refine ⟨(hfresh h).1, ?_⟩
    rw [(hfresh h).2]
    exact hsize
  unfold SessionSound at hs ⊢
  rw [hpc]
  -- The invariant is stated place by place, so the proof goes by places.
  rcases hplace : s.pc with _ | _ | _ | _ | _ | rest | _ | _ | _ | _ | _ | i | i | _ | _ |
    ⟨i, sum⟩ | _ | i | b | _
  all_goals
    rw [hplace] at hs
    simp only at hs ⊢
  · exact (hfresh hs).1
  · exact (hfresh hs).1
  · exact hsized hs.1 hs.2
  · exact ⟨(hsized hs.1 hs.2.1).1, (hsized hs.1 hs.2.1).2, hk.sized hs.2.2⟩
  · exact ⟨(hsized hs.1 hs.2.1).1, (hsized hs.1 hs.2.1).2, hk.sized hs.2.2⟩
  · rw [hcfg, (hfresh hs.1).2]
    exact ⟨(hfresh hs.1).1, hs.2.1, hk.sized hs.2.2.1, hs.2.2.2⟩
  · exact ⟨(hsized hs.1 hs.2.1).1, (hsized hs.1 hs.2.1).2, hk.sized hs.2.2⟩
  · exact hrun hs
  · exact hrun hs
  · exact hrun hs
  · exact ⟨hrun hs.1, hoffset.trans hs.2⟩
  · exact ⟨hrun hs.1, hoffset.trans hs.2⟩
  · exact ⟨hrun hs.1, hoffset.trans hs.2⟩
  · exact hrun hs
  · exact hrun hs
  · exact ⟨hrun hs.1, by rw [hlength]; exact hs.2.1, hs.2.2.1, Int.le_trans hs.2.2.2 (hmore i)⟩
  · exact hrun hs
  · exact ⟨hrun hs.1, hoffset.trans hs.2⟩
  · exact ⟨hs.1.imp hpool hf, fun hb => hk.held _ _ (hs.2 hb)⟩
  · exact hs.imp hpool hf

/-- What happens to the local file, and to the config file of a session that
    is over, does not concern the session. -/
theorem SessionSound.keeps (h : SessionSound r disk s) (hk : Keeps r disk.file disk'.file)
    (hcfg : disk'.cfg = disk.cfg ∨ s.ended = true) : SessionSound r disk' s := by
  have hf : Fetching r disk s → Fetching r disk' s := fun hf => hf.keeps hk
  rcases hcfg with hcfg | hended
  · exact h.aside hf (fun hfresh => ⟨hfresh, rfl⟩) id hk hcfg rfl rfl rfl (fun _ => Int.le_refl _)
  -- A session that is over looks at the local file only.
  · unfold Session.ended at hended
    unfold SessionSound at h ⊢
    split at hended
    · rename_i hpc
      rw [hpc] at h ⊢
      exact ⟨h.1.imp_right hf, fun hb => hk.held _ _ (h.2 hb)⟩
    · rename_i hpc
      rw [hpc] at h ⊢
      exact h.imp_right hf
    · exact absurd hended Bool.false_ne_true

/-- A session with a pool has good counters. -/
theorem SessionSound.settled (h : SessionSound r disk s) : s.pool = none ∨ Fetching r disk s := by
  unfold SessionSound at h
  rcases hpc : s.pc with _ | _ | _ | _ | _ | rest | _ | _ | _ | _ | _ | i | i | _ | _ | ⟨i, sum⟩ |
    _ | i | b | _
  all_goals
    rw [hpc] at h
    simp only at h
  · exact Or.inl h.no_pool
  · exact Or.inl h.no_pool
  · exact Or.inl h.1.no_pool
  · exact Or.inl h.1.no_pool
  · exact Or.inl h.1.no_pool
  · exact Or.inl h.1.no_pool
  · exact Or.inl h.1.no_pool
  · exact Or.inr h.1
  · exact Or.inr h.1
  · exact Or.inr h.1
  · exact Or.inr h.1.1
  · exact Or.inr h.1.1
  · exact Or.inr h.1.1
  · exact Or.inr h.1
  · exact Or.inr h.1
  · exact Or.inr h.1.1
  · exact Or.inr h.1
  · exact Or.inr h.1.1
  · exact h.1
  · exact h

end Keep

section Tasks

variable {r : Remote} {disk disk' : Disk} {s s' : Session}

theorem Fetched.range {n i : Nat} {c : Int} {file : List Byte} (h : Fetched r file n i c) :
    -2147483648 ≤ c ∧ c < 2147483648 := by
  have hcap := cap_le r.fileSize n i
  have hsize := r.fileSize_lt
  obtain ⟨hlo, hhi, -⟩ := h
  omega

theorem encodeUtf16_url_lt (r : Remote) : (encodeUtf16 r.url).length < 2147483648 := by
  rw [length_encodeUtf16]
  exact r.url_lt

/-- What a session can read from a sound config file: it leaves the file as it
    is, and if it succeeds its counters are those of a whole file. -/
theorem parse_tracked (hcfg : CfgSound r disk) (hs : Fresh r s)
    (hsize : s.object.fileSize = r.fileSize) {result : Except JavaException Bool}
    {o : HttpDownload} {cfg : Option (List Byte)}
    (h : s.object.parseDownloadCfg disk.cfg = (result, o, cfg)) :
    cfg = disk.cfg ∧ (result = .ok true → ∃ n cs, Admissible r n ∧ Tracked r disk n ∧
      cs.length = n ∧ (∀ i c, cs[i]? = some c → Fetched r disk.file n i c) ∧
      o = loaded r (encodeUtf16 r.url) n cs) := by
  have hlt := r.fileSize_lt
  have hu := encodeUtf16_url_lt r
  rcases hcfg with hnone | ⟨n, hn, ⟨cs, hbytes, hlen, hcs⟩ | ⟨p, q, hp, hq, heq⟩⟩
  · rw [hnone] at h ⊢
    simp only [parseDownloadCfg, Prod.mk.injEq] at h
    obtain ⟨rfl, -, rfl⟩ := h
    exact ⟨rfl, fun htrue => absurd (Except.ok.inj htrue) Bool.false_ne_true⟩
  -- A whole file gives back the counters it was written with.
  · have hcounters : Counters cs := by
      intro c hc
      obtain ⟨j, hj⟩ := List.mem_iff_getElem?.mp hc
      exact (hcs j c hj).range
    have hread := parseDownloadCfg_cfgBytes s.object (encodeUtf16 r.url) n cs hu (by omega)
      (by omega) hn.pos (by have := hn.slots; omega) hlen hcounters
    rw [hsize, hs.no_tasks, List.nil_append, ← hbytes, h] at hread
    simp only [Prod.mk.injEq] at hread
    obtain ⟨-, rfl, rfl⟩ := hread
    exact ⟨rfl, fun _ => ⟨n, cs, hn, ⟨cs, hbytes, hlen, hcs⟩, hlen, hcs, rfl⟩⟩
  -- A file cut off is rejected.
  · rw [← hsize] at heq
    obtain ⟨o', hcut⟩ := parseOnce_cut s.object (encodeUtf16 r.url) n (List.replicate n 0) p q hu
      (by omega) (by omega) hn.pos (by have := hn.slots; omega) List.length_replicate heq hq
    rw [hp, parseDownloadCfg_of_done hcut] at h
    simp only [Prod.mk.injEq] at h
    obtain ⟨rfl, -, rfl⟩ := h
    exact ⟨hp.symm, fun htrue => absurd (Except.ok.inj htrue) Bool.false_ne_true⟩

/-- The tasks made from a good config file are good. -/
theorem fetching_loaded {n : Nat} {cs : List Int} (hn : Admissible r n) (hlen : cs.length = n)
    (hcs : ∀ i c, cs[i]? = some c → Fetched r disk.file n i c)
    (hfile : disk.file.length = r.fileSize)
    (hobject : s.object = loaded r (encodeUtf16 r.url) n cs) (hidle : ∀ i, s.phase i = .idle) :
    Fetching r disk s ∧ s.object.downloadTasks.length = n := by
  have htasks : s.object.downloadTasks = tasksOf r.fileSize n cs := by rw [hobject]; rfl
  have hlength : s.object.downloadTasks.length = n := by rw [htasks, length_tasksOf, hlen]
  refine ⟨⟨hfile, by rw [hobject]; rfl, ?_, by rw [hlength]; exact hn, ?_, ?_, ?_⟩, hlength⟩
  · rw [hlength, hobject]
    rfl
  -- What a counter promises, its task starts from.
  · intro i t ht
    rw [htasks] at ht
    rw [hlength]
    exact tasksOf_sound r n cs s.phase hidle
      (fun j c hc => ⟨(hcs j c hc).1, (hcs j c hc).2.1⟩) i t ht
  · intro i t ht
    rw [htasks, getElem?_tasksOf, Option.map_eq_some_iff] at ht
    obtain ⟨c, hc, rfl⟩ := ht
    rw [hlength, download_taskAt]
    exact (hcs i c hc).2.2
  · intro i pos limit readLen hphase
    rw [hidle i] at hphase
    exact absurd hphase (by simp only [reduceCtorEq, not_false_eq_true])

/-- A new phase of one task, over a file that keeps what was held. -/
theorem Fetching.setPhase (h : Fetching r disk s) (hk : Keeps r disk.file disk'.file) {i : Nat}
    {ph : Phase} (hsound : TasksSound r (s.setPhase i ph))
    (hwritten : ∀ pos limit readLen, ph = .counting pos limit readLen →
      Held r disk'.file pos readLen) : Fetching r disk' (s.setPhase i ph) where
  sized := hk.sized h.sized
  size := h.size
  threads := h.threads
  admissible := h.admissible
  sound := hsound
  held := fun j t ht => hk.held _ _ (h.held j t ht)
  written := by
    intro j pos limit readLen hj
    simp only [Session.setPhase] at hj
    split at hj
    · exact hwritten pos limit readLen hj
    · exact hk.held _ _ (h.written j pos limit readLen hj)

/-- Tasks keep their promises, and write what they will count. -/
theorem called_fetching {pool : ThreadPool Nat} {i : Nat} {t : DownloadTask}
    (hf : Fetching r disk s) (ht : s.object.downloadTasks[i]? = some t)
    (h : Session.Called r disk s pool i t disk' s') :
    Fetching r disk' s' ∧ Keeps r disk.file disk'.file := by
  have hfit : r.fileSize + s.object.downloadTasks.length ≤ 2147483648 :=
    Nat.le_of_lt hf.admissible.fits
  obtain ⟨hsound', hlength⟩ := called_sound hf.sound hfit ht h
  have hone := hf.sound i t ht
  have hplace := hone.place
  have hsame := Keeps.refl r disk.file
  -- The file written to is the one of the right length.
  have hwrite : ∀ {file : List Byte} {pos len : Nat}, disk.saveFile = some file →
      pos + len ≤ r.fileSize →
      Keeps r disk.file (writeAt file pos (r.chunk pos len)) ∧
        Held r (writeAt file pos (r.chunk pos len)) pos len := by
    intro file pos len hfile hle
    have hsized := hf.sized
    unfold Disk.file at hsized ⊢
    rw [hfile] at hsized ⊢
    exact keeps_write hsized hle
  have hinside : 0 < cap r.fileSize s.object.downloadTasks.length i → _ := start_cap_le
  have hnonneg := hone.nonneg
  cases h
  case returns =>
      have hidle : Fetching r disk (s.setPhase i .idle) := hf.setPhase hsame hsound' nofun
      exact ⟨hidle.same rfl (fun _ => Or.inl rfl), hsame⟩
  case asks hphase =>
      have hmove : Fetching r disk (s.setPhase i (.requested _ _)) :=
        hf.setPhase hsame hsound' nofun
      exact ⟨hmove.same rfl (fun _ => Or.inl rfl), hsame⟩
  case opens => exact ⟨hf.setPhase hsame hsound' nofun, hsame⟩
  case reads => exact ⟨hf.setPhase hsame hsound' nofun, hsame⟩
  case continues => exact ⟨hf.setPhase hsame hsound' nofun, hsame⟩
  -- A write cut off has still written remote bytes to their own places.
  case writesPart pos limit readLen k file hphase hfile hk =>
      rw [hphase] at hplace
      obtain ⟨hpos, hlen, hlimit, hcap⟩ := hplace
      obtain ⟨hkeeps, -⟩ := hwrite hfile (show pos + k ≤ r.fileSize by omega)
      exact ⟨hf.keeps hkeeps, hkeeps⟩
  -- What is written now is what will be counted next.
  case writes pos limit readLen file hphase hfile =>
      rw [hphase] at hplace
      obtain ⟨hpos, hlen, hlimit, hcap⟩ := hplace
      obtain ⟨hkeeps, hheld⟩ := hwrite hfile (show pos + readLen ≤ r.fileSize by omega)
      have hfile' : Keeps r disk.file (Disk.file { disk with
          saveFile := some (writeAt file pos (r.chunk pos readLen)) }) := hkeeps
      refine ⟨hf.setPhase hfile' hsound' (fun p l k heq => ?_), hfile'⟩
      simp only [Phase.counting.injEq] at heq
      obtain ⟨rfl, -, rfl⟩ := heq
      exact hheld
  case counts pos limit readLen hphase =>
      have hheld := hf.written i pos limit readLen hphase
      rw [hphase] at hplace
      obtain ⟨hpos, hlen, hlimit, hcap⟩ := hplace
      have hcaps := cap_le r.fileSize s.object.downloadTasks.length i
      have hsize := r.fileSize_lt
      -- The counter stays within the block, so the addition does not wrap.
      have hsum : toInt32 (t.download + readLen) = t.download + readLen :=
        toInt32_eq _ (by omega) (by omega)
      refine ⟨⟨hf.sized, hf.size, ?_, ?_, hsound', ?_, ?_⟩, hsame⟩
      · rw [hlength]
        exact hf.threads
      · rw [hlength]
        exact hf.admissible
      · intro j u hj
        rw [hlength]
        simp only [Session.setPhase, Session.addDownload, List.getElem?_set] at hj
        by_cases hij : i = j
        -- What the task had counted and what it has just written meet.
        · subst hij
          rw [if_pos rfl, if_pos (List.getElem?_eq_some_iff.mp ht).1, Option.some.injEq, hsum] at hj
          subst hj
          have hnat : (t.download + (readLen : Int)).toNat = t.download.toNat + readLen := by omega
          simp only [hnat]
          refine (hf.held i t ht).append ?_
          have hstart : pos = i * share r.fileSize s.object.downloadTasks.length
              + t.download.toNat := by omega
          rw [← hstart]
          exact hheld
        · rw [if_neg hij] at hj
          exact hf.held j u hj
      · intro j p l k hj
        simp only [Session.setPhase, Session.addDownload] at hj
        split at hj
        · exact absurd hj (by simp only [reduceCtorEq, not_false_eq_true])
        · exact hf.written j p l k hj

end Tasks

section Coordinator

variable {r : Remote} {disk disk' : Disk} {s s' : Session}

theorem cfgFile_eq {bytes : List Byte} (h : disk.cfg = some bytes) :
    Session.cfgFile disk = bytes := by
  unfold Session.cfgFile
  rw [h, Option.getD_some]

theorem Running.cfgSound (h : Running r disk s) : CfgSound r disk :=
  Or.inr ⟨_, h.1.admissible, Or.inl h.2⟩

/-- The file is there, and its counters are where the source looks for them. -/
theorem Running.opened (h : Running r disk s) :
    { disk with cfg := some (Session.cfgFile disk) } = disk ∧
      counterOffset (Session.cfgFile disk) s.object.threadCount = slots r := by
  obtain ⟨hf, cs, hbytes, hlen, -⟩ := h
  rw [cfgFile_eq hbytes, ← hbytes]
  refine ⟨rfl, ?_⟩
  rw [hf.threads]
  exact counterOffset_cfgBytes _ _ _ cs hf.admissible.slots hlen

/-- Recording the counter of a task. -/
theorem Running.record (h : Running r disk s) (hoffset : s.offset = slots r) {i : Nat}
    {t : DownloadTask} {cfg : List Byte} (ht : s.object.downloadTasks[i]? = some t)
    (hwrite : writeCounter (Session.cfgFile disk) s.offset t.taskId t.download = some cfg) :
    Running r { disk with cfg := some cfg } s := by
  obtain ⟨hf, cs, hbytes, hlen, hcs⟩ := h
  have hi : i < s.object.downloadTasks.length := (List.getElem?_eq_some_iff.mp ht).1
  have hone := hf.sound i t ht
  -- A task carries its own index.
  have hid := (hone.shape hf.admissible.pos (Nat.le_of_lt hf.admissible.fits) hi).1
  rw [cfgFile_eq hbytes, hoffset, hid] at hwrite
  have hslot := writeCounter_cfgBytes (encodeUtf16 r.url) r.fileSize
    s.object.downloadTasks.length i cs t.download hf.admissible.slots hlen hi
  unfold slots at hwrite
  rw [hslot, Option.some.injEq] at hwrite
  refine ⟨hf.keeps (Keeps.refl r disk.file), cs.set i t.download, by rw [hwrite],
    by rw [List.length_set, hlen], fun j c hj => ?_⟩
  rw [List.getElem?_set] at hj
  -- The slot of the task holds its counter, the others what they held.
  split at hj
  · rename_i hij
    subst hij
    rw [if_pos (by omega), Option.some.injEq] at hj
    subst hj
    exact ⟨hone.nonneg, hone.le_cap, hf.held i t ht⟩
  · exact hcs j c hj

/-- Counters that add up to the file hold all of it. -/
theorem Fetching.full (h : Fetching r disk s)
    (hsum : (r.fileSize : Int) ≤ downloaded s.object.downloadTasks s.object.downloadTasks.length) :
    Held r disk.file 0 r.fileSize := by
  -- A sum that reaches the file leaves no counter room below its block.
  have hall := counters_full h.admissible.pos s.object.downloadTasks
    (fun i _ => h.sound.downloadAt_le i) hsum
  refine held_of_full h.admissible.pos h.sized (fun i hi => ?_)
  have ht : s.object.downloadTasks[i]? = some s.object.downloadTasks[i] :=
    List.getElem?_eq_getElem hi
  have hheld := h.held i _ ht
  rw [← downloadAt_of_getElem? ht, hall i hi, Int.toNat_natCast] at hheld
  exact hheld

theorem Fresh.same (h : Fresh r s) (hobject : s'.object = s.object) (hpool : s'.pool = s.pool)
    (hphase : s'.phase = s.phase) : Fresh r s' := by
  refine ⟨?_, ?_, ?_, ?_, ?_⟩
  · rw [hobject]
    exact h.url
  · rw [hobject]
    exact h.threads
  · rw [hobject]
    exact h.no_tasks
  · rw [hpool]
    exact h.no_pool
  · rw [hphase]
    exact h.no_phase

/-- The file a fresh session creates. -/
theorem Fresh.newCfg (h : Fresh r s) (hsize : s.object.fileSize = r.fileSize) :
    ∃ n, Admissible r n ∧ s.object.newCfg
      = cfgBytes (encodeUtf16 r.url) r.fileSize n (List.replicate n 0) := by
  obtain ⟨n, hthreads, hn⟩ := h.threads
  refine ⟨n, hn, ?_⟩
  unfold HttpDownload.newCfg
  rw [h.url, hsize, hthreads, Int.toNat_natCast]

/-- A config file under construction is cut off, or complete with counters that
    promise nothing. -/
theorem cfgSound_unfinished {n : Nat} {p q : List Byte} (hn : Admissible r n)
    (hcfg : disk.cfg = some p)
    (hpq : p ++ q = cfgBytes (encodeUtf16 r.url) r.fileSize n (List.replicate n 0)) :
    CfgSound r disk := by
  refine Or.inr ⟨n, hn, ?_⟩
  rcases q with _ | ⟨b, q⟩
  · refine Or.inl ⟨List.replicate n 0, by rw [hcfg, ← hpq, List.append_nil],
      List.length_replicate, fun i c hc => ?_⟩
    obtain rfl := (List.eq_of_mem_replicate (List.mem_of_getElem? hc))
    exact ⟨Int.le_refl 0, Int.natCast_nonneg _, Held.zero r _ _⟩
  · exact Or.inr ⟨p, b :: q, hcfg, List.cons_ne_nil b q, hpq⟩

/-- The steps before the parse. -/
theorem worked_sound_early (hcfg : CfgSound r disk) (hs : SessionSound r disk s)
    (hearly : s.pc.early = true) (h : Session.Worked r disk s disk' s') :
    CfgSound r disk' ∧ SessionSound r disk' s' ∧ Keeps r disk.file disk'.file := by
  have hsame := Keeps.refl r disk.file
  have hs₀ := hs
  unfold SessionSound at hs
  cases h
  case starts hpc =>
      rw [hpc] at hs
      exact ⟨hcfg, hs.same rfl rfl rfl, hsame⟩
  case connects hpc =>
      rw [hpc] at hs
      exact ⟨hcfg.keeps rfl hsame, ⟨⟨hs.url, hs.threads, hs.no_tasks, hs.no_pool, hs.no_phase⟩,
        rfl⟩, hsame⟩
  -- The local file gets its length before anything is promised about it.
  case setsLength fill file hpc hfile hfill =>
      rw [hpc] at hs
      obtain ⟨hfresh, hsize⟩ := hs
      rw [hsize, Int.toNat_natCast] at hfill
      obtain ⟨hkeeps, hlen⟩ := keeps_extend hfill
      have hkeeps' : Keeps r disk.file (Disk.file { disk with
          saveFile := some (file.take s.object.fileSize.toNat ++ fill) }) := by
        unfold Disk.file
        rw [hfile, hsize, Int.toNat_natCast]
        exact hkeeps
      refine ⟨hcfg.keeps rfl hkeeps', ⟨hfresh.same rfl rfl rfl, hsize, ?_⟩, hkeeps'⟩
      unfold Disk.file
      rw [hsize, Int.toNat_natCast]
      exact hlen
  case findsNoCfg hpc hnone =>
      rw [hpc] at hs
      exact ⟨hcfg, ⟨hs.1.same rfl rfl rfl, hs.2⟩, hsame⟩
  case dropsCfg hpc hredownload =>
      rw [hpc] at hs
      exact ⟨Or.inl rfl, ⟨hs.1.same rfl rfl rfl, hs.2⟩, hsame⟩
  case keepsCfg hpc =>
      rw [hpc] at hs
      exact ⟨hcfg, ⟨hs.1.same rfl rfl rfl, hs.2⟩, hsame⟩
  -- From here until it is closed the config file is a beginning of the new
  -- one.
  case createsCfg hpc =>
      rw [hpc] at hs
      obtain ⟨n, hn, hnew⟩ := hs.1.newCfg hs.2.1
      refine ⟨cfgSound_unfinished hn rfl hnew, ?_, hsame⟩
      exact ⟨hs.1.same rfl rfl rfl, hs.2.1, hs.2.2, [], rfl, rfl⟩
  case writesCfg rest k hpc =>
      rw [hpc] at hs
      obtain ⟨hfresh, hsize, hfile, p, hp, hpr⟩ := hs
      obtain ⟨n, hn, hnew⟩ := hfresh.newCfg hsize
      have hmore : (p ++ rest.take k) ++ rest.drop k = s.object.newCfg := by
        rw [List.append_assoc, List.take_append_drop, hpr]
      rw [cfgFile_eq hp]
      exact ⟨cfgSound_unfinished hn rfl (hmore.trans hnew),
        ⟨hfresh.same rfl rfl rfl, hsize, hfile, p ++ rest.take k, rfl, hmore⟩, hsame⟩
  case closesCfg hpc =>
      rw [hpc] at hs
      exact ⟨hcfg, ⟨hs.1.same rfl rfl rfl, hs.2.1, hs.2.2.1⟩, hsame⟩
  -- The tasks take over the promises of the config file.
  case parses o cfg hpc hparse =>
      rw [hpc] at hs
      obtain ⟨hfresh, hsize, hfile⟩ := hs
      obtain ⟨rfl, hread⟩ := parse_tracked hcfg hfresh hsize hparse
      obtain ⟨n, cs, hn, htracked, hlen, hcs, rfl⟩ := hread rfl
      have hloaded : Fetching r disk
          { s with object := loaded r (encodeUtf16 r.url) n cs, pc := .newPool } ∧ _ :=
        fetching_loaded hn hlen hcs hfile rfl hfresh.no_phase
      refine ⟨hcfg, ⟨hloaded.1, ?_⟩, hsame⟩
      rw [hloaded.2]
      exact htracked
  case parseEnds result o cfg pc hpc hresult hparse hend =>
      rw [hpc] at hs
      obtain ⟨hfresh, hsize, hfile⟩ := hs
      obtain ⟨rfl, -⟩ := parse_tracked hcfg hfresh hsize hparse
      rcases hend with rfl | rfl
      · exact ⟨hcfg, ⟨Or.inl hfresh.no_pool, nofun⟩, hsame⟩
      · exact ⟨hcfg, Or.inl hfresh.no_pool, hsame⟩
  case givesUp =>
      refine ⟨hcfg, ⟨?_, nofun⟩, hsame⟩
      exact hs₀.settled.imp_right (fun hf => hf.same rfl (fun _ => Or.inl rfl))
  -- The other steps belong to later places of `download`.
  case closesPool hpc _ =>
      rcases hpc with ⟨hpc, -⟩ | ⟨hpc, -⟩ <;> rw [hpc] at hearly <;> cases hearly
  case fails hpc => rcases hpc with hpc | ⟨i, hpc⟩ <;> rw [hpc] at hearly <;> cases hearly
  case throws hpc =>
      rcases hpc with hpc | hpc | hpc | hpc | ⟨i, hpc⟩ <;> rw [hpc] at hearly <;> cases hearly
  all_goals
    rw [‹s.pc = _›] at hearly
    cases hearly

/-- The steps after it. -/
theorem worked_sound_late (hcfg : CfgSound r disk) (hs : SessionSound r disk s)
    (hlate : s.pc.early = false) (h : Session.Worked r disk s disk' s') :
    CfgSound r disk' ∧ SessionSound r disk' s' ∧ Keeps r disk.file disk'.file := by
  have hsame := Keeps.refl r disk.file
  have hphase : ∀ i, s.phase i = s.phase i ∨ s.phase i = .ready := fun i => Or.inl rfl
  have hs₀ := hs
  unfold SessionSound at hs
  cases h
  case makesPool hpc hpos =>
      rw [hpc] at hs
      exact ⟨hcfg, hs.same rfl hphase, hsame⟩
  case submits p p' hpc hpool hsubmit =>
      rw [hpc] at hs
      exact ⟨hcfg, hs.same rfl (fun _ => Or.inr rfl), hsame⟩
  case opensCfg hpc =>
      rw [hpc] at hs
      obtain ⟨hopen, hoffset⟩ := Running.opened hs
      rw [hopen]
      exact ⟨hcfg, ⟨hs.same rfl hphase, hoffset⟩, hsame⟩
  case takes p p' i hpc hpool htake =>
      rw [hpc] at hs
      exact ⟨hcfg, ⟨hs.1.same rfl hphase, hs.2⟩, hsame⟩
  case leavesLoop hpc =>
      rw [hpc] at hs
      exact ⟨hcfg, hs.1.same rfl hphase, hsame⟩
  -- The counter that is recorded is one the task has made good.
  case records i t cfg hpc htask hwrite =>
      rw [hpc] at hs
      have hrun := hs.1.record hs.2 htask hwrite
      exact ⟨hrun.cfgSound, ⟨hrun.same rfl hphase, hs.2⟩, hsame⟩
  case resubmits i t p p' hpc htask hless hpool hsubmit =>
      rw [hpc] at hs
      refine ⟨hcfg, ⟨hs.1.same rfl (fun j => ?_), hs.2⟩, hsame⟩
      simp only [Session.setPhase]
      split
      · exact Or.inr rfl
      · exact Or.inl rfl
  case dismisses i hpc =>
      rw [hpc] at hs
      exact ⟨hcfg, ⟨hs.1.same rfl hphase, hs.2⟩, hsame⟩
  case closesPool pool pc hpc hsome =>
      rcases hpc with ⟨hpc, rfl⟩ | ⟨hpc, rfl⟩
      · rw [hpc] at hs
        exact ⟨hcfg, hs.same rfl hphase, hsame⟩
      · rw [hpc] at hs
        exact ⟨hcfg, ⟨hs.same rfl hphase, Nat.zero_le _, Int.le_refl 0, Int.le_refl 0⟩, hsame⟩
  case adds i downloadSize t hpc htask =>
      rw [hpc] at hs
      obtain ⟨hrun, hi, hlo, hhi⟩ := hs
      have hlt : i < s.object.downloadTasks.length := (List.getElem?_eq_some_iff.mp htask).1
      exact ⟨hcfg, ⟨hrun.same rfl hphase, hlt, hrun.1.sound.add_counter htask hlo hhi⟩, hsame⟩
  -- The sum has reached the file size, so every block is full.
  case succeeds i downloadSize hpc hend hsize =>
      rw [hpc] at hs
      obtain ⟨hrun, hi, hlo, hhi⟩ := hs
      have hall : i = s.object.downloadTasks.length :=
        Nat.le_antisymm hi (List.getElem?_eq_none_iff.mp hend)
      rw [hall, ← hsize, hrun.1.size] at hhi
      have hdropped : Fetching r { disk with cfg := none } s := hrun.1.keeps hsame
      exact ⟨Or.inl rfl, ⟨Or.inr (hdropped.same rfl hphase), fun _ => hrun.1.full hhi⟩, hsame⟩
  case fallsShort i downloadSize hpc =>
      rw [hpc] at hs
      exact ⟨hcfg, hs.1.same rfl hphase, hsame⟩
  case opensSave hpc =>
      rw [hpc] at hs
      obtain ⟨hopen, hoffset⟩ := Running.opened hs
      rw [hopen]
      exact ⟨hcfg, ⟨hs.same rfl hphase, hoffset⟩, hsame⟩
  case saves i t cfg hpc htask hwrite =>
      rw [hpc] at hs
      have hrun := hs.1.record hs.2 htask hwrite
      exact ⟨hrun.cfgSound, ⟨hrun.same rfl hphase, hs.2⟩, hsame⟩
  case fails hpc =>
      have hrun : Running r disk s := by
        rcases hpc with hpc | ⟨i, hpc⟩
        · rw [hpc] at hs
          exact hs
        · rw [hpc] at hs
          exact hs.1
      exact ⟨hcfg, ⟨hrun.same rfl hphase, Nat.zero_le _, Int.le_refl 0, Int.le_refl 0⟩, hsame⟩
  case givesUp =>
      refine ⟨hcfg, ⟨?_, fun h => absurd h Bool.false_ne_true⟩, hsame⟩
      exact hs₀.settled.imp_right (fun hf => hf.same rfl hphase)
  case throws =>
      exact ⟨hcfg, hs₀.settled.imp_right (fun hf => hf.same rfl hphase), hsame⟩
  -- The other steps belong to earlier places of `download`.
  all_goals
    rw [‹s.pc = _›] at hlate
    cases hlate

theorem worked_sound (hcfg : CfgSound r disk) (hs : SessionSound r disk s)
    (h : Session.Worked r disk s disk' s') :
    CfgSound r disk' ∧ SessionSound r disk' s' ∧ Keeps r disk.file disk'.file := by
  rcases hpc : s.pc.early with _ | _
  · exact worked_sound_late hcfg hs hpc h
  · exact worked_sound_early hcfg hs hpc h

theorem called_sessionSound {pool : ThreadPool Nat} {i : Nat} {t : DownloadTask}
    (hs : SessionSound r disk s) (hpool : s.pool = some pool)
    (ht : s.object.downloadTasks[i]? = some t) (h : Session.Called r disk s pool i t disk' s') :
    SessionSound r disk' s' ∧ disk'.cfg = disk.cfg ∧ Keeps r disk.file disk'.file := by
  have hsome : s.pool ≠ none := by
    rw [hpool]
    exact Option.some_ne_none pool
  have hf : Fetching r disk s := hs.settled.resolve_left hsome
  obtain ⟨hf', hk⟩ := called_fetching hf ht h
  obtain ⟨hcfg, -⟩ := called_disk hf.sound ht h
  obtain ⟨-, hlength⟩ := called_sound hf.sound (Nat.le_of_lt hf.admissible.fits) ht h
  refine ⟨?_, hcfg, hk⟩
  -- A task runs only in a pool, so the session is not fresh.
  have hnone : Fresh r s → Fresh r s' ∧ s'.object = s.object :=
    fun hfresh => absurd hfresh.no_pool hsome
  have hmore := called_downloaded_le hf.sound ht h
  have hplace : s'.pc = s.pc ∧ s'.offset = s.offset := by
    cases h <;> exact ⟨rfl, rfl⟩
  exact hs.aside (fun _ => hf') hnone (fun h => absurd h hsome) hk hcfg hplace.1 hplace.2 hlength
    hmore

/-- A worker picking a task and a part of `stop` touch neither counters nor
    files. -/
theorem SessionSound.repool (hs : SessionSound r disk s) (hobject : s'.object = s.object)
    (hphase : s'.phase = s.phase) (hpc : s'.pc = s.pc) (hoffset : s'.offset = s.offset)
    (hpool : s.pool = none → s'.pool = none) : SessionSound r disk s' := by
  refine hs.aside (fun hf => hf.same hobject (fun i => Or.inl (by rw [hphase])))
    (fun hfresh => ⟨hfresh.same hobject ?_ hphase, hobject⟩) hpool (Keeps.refl r disk.file) rfl hpc
    hoffset (by rw [hobject]) (fun k => by rw [hobject])
  rw [hpool hfresh.no_pool, hfresh.no_pool]

end Coordinator

end NetProbe
