import Mathlib.Data.List.Induction
import NetProbe.Download.Config

/-!
# Reading the Config File Back

The config file is read by a later session, or by none of this program's
making. Two questions are asked of the reading here.

The first is whether it gives back what was written. The file is written from
front to back, updated at places counted from its end, and read from front to
back, so the three have to agree on where the counters are, for every URL and
every number of counters. `config_round_trip` says that they do, whichever
updates are made and whatever thread count the reader was made with. The URL
goes through UTF-16, which keeps every sequence of characters and replaces
surrogates that are not part of one.

The second is whether a reading of any other file is harmless: whether it ends
without an exception, and with a full set of tasks or with the object as it
was. It does not always. The length of the URL and the thread count are used as
they are, the fields are set while the reading goes on, and the counters are
not looked at. `Handled` says by position which files are read safely, and
`parseDownloadCfg_safe_iff` that these are all.

## Main definitions

* `Utf16`: A sequence of characters.
* `writeAll`, `update`: Progress writes, in one opening of the file and in
  several.
* `lastWritten`: The value last written for a task.
* `Safe`: A reading that is safe and all or nothing.
* `Handled`, `TasksHandled`, `NewHandled`, `CountersHandled`: The files that are
  read safely.
* `storedSize`, `storedThreads`, `storedCounter`: What a reader finds in a file.

## Theorems

* `replaceUnpaired_of_utf16`, `utf16_replaceUnpaired`: What the coders keep.
* `decodeUtf16_encodeUtf16`: The URL is read back as written.
* `config_round_trip`: A file is read back with its updates.
* `readTasks_eq`, `parseTasks_eq`: The reading by position.
* `parseCounters_complete`: A whole list of counters makes the tasks of a file.
* `parseDownloadCfg_safe_iff`: Exactly the files handled are read safely.
* `parseOnce_reads`, `parseOnce_made`: A reading in terms of what is stored.
* `stored_cfgBytes`: What is stored in a whole file.
-/

namespace NetProbe

/-- A sequence of characters: code units that are no surrogates, and pairs of a
    high and a low surrogate. -/
inductive Utf16 : List CodeUnit → Prop where
  | nil : Utf16 []
  | unit (u : CodeUnit) (rest : List CodeUnit) (hhigh : isHighSurrogate u = false)
      (hlow : isLowSurrogate u = false) (hrest : Utf16 rest) : Utf16 (u :: rest)
  | pair (u v : CodeUnit) (rest : List CodeUnit) (hhigh : isHighSurrogate u = true)
      (hlow : isLowSurrogate v = true) (hrest : Utf16 rest) : Utf16 (u :: v :: rest)

/-- The coders keep every sequence of characters. -/
theorem replaceUnpaired_of_utf16 {url : List CodeUnit} (h : Utf16 url) :
    replaceUnpaired url = url := by
  induction h with
  | nil => rfl
  | unit u rest hhigh hlow _ ih =>
      rcases rest with _ | ⟨v, rest⟩
      · simp only [replaceUnpaired, hhigh, hlow, Bool.or_self, Bool.false_eq_true, if_false]
      · simp only [replaceUnpaired, hhigh, hlow, Bool.false_and, Bool.or_self, Bool.false_eq_true,
          if_false, ih]
  | pair u v rest hhigh hlow _ ih =>
      simp only [replaceUnpaired, hhigh, hlow, Bool.and_self, if_true, ih]

/-- What takes the place of a surrogate is none. -/
theorem replaced_unit (u : CodeUnit) (rest : List CodeUnit) (h : Utf16 rest) :
    Utf16 ((if isHighSurrogate u || isLowSurrogate u then 0xFFFD else u) :: rest) := by
  by_cases hsurrogate : (isHighSurrogate u || isLowSurrogate u) = true
  · rw [if_pos hsurrogate]
    exact .unit _ rest (by decide) (by decide) h
  · rw [if_neg hsurrogate]
    simp only [Bool.or_eq_true, not_or, Bool.not_eq_true] at hsurrogate
    exact .unit u rest hsurrogate.1 hsurrogate.2 h

/-- They make one of everything else. -/
theorem utf16_replaceUnpaired (url : List CodeUnit) : Utf16 (replaceUnpaired url) := by
  induction url using replaceUnpaired.induct with
  | case1 => exact .nil
  | case2 u => exact replaced_unit u [] .nil
  | case3 u v rest h ih =>
      simp only [replaceUnpaired, h, if_true]
      rw [Bool.and_eq_true] at h
      exact .pair u v _ h.1 h.2 ih
  | case4 u v rest h ih =>
      simp only [replaceUnpaired, h, Bool.false_eq_true, if_false]
      exact replaced_unit u _ ih

theorem codeUnits_flatMap (us : List CodeUnit) :
    codeUnits (us.flatMap (fun u => [BitVec.ofNat 8 (u.toNat / 256), BitVec.ofNat 8 u.toNat]))
      = us := by
  induction us with
  | nil => rfl
  | cons u us ih =>
      have hlt : u.toNat < 65536 := u.isLt
      have hunit : (BitVec.ofNat 8 (u.toNat / 256)).toNat * 256 + (BitVec.ofNat 8 u.toNat).toNat
          = u.toNat := by
        simp only [BitVec.toNat_ofNat]
        omega
      rw [List.flatMap_cons]
      simp only [List.cons_append, List.nil_append, codeUnits]
      rw [ih, hunit, BitVec.ofNat_toNat, BitVec.setWidth_eq]

/-- The URL is read back as the coders leave it. -/
theorem decodeUtf16_encodeUtf16 (url : List CodeUnit) :
    decodeUtf16 (encodeUtf16 url) = replaceUnpaired url := by
  unfold decodeUtf16 encodeUtf16
  rw [codeUnits_flatMap]
  exact replaceUnpaired_of_utf16 (utf16_replaceUnpaired url)

namespace HttpDownload

/-- Progress writes in one opening of the file, which fixes the place of the
    counters. -/
def writeAll (cfg : List Byte) (offset : Int) : List (Nat × Int) → Option (List Byte)
  | [] => some cfg
  | (id, download) :: writes =>
      (writeCounter cfg offset id download).bind (fun cfg' => writeAll cfg' offset writes)

/-- Progress writes in several openings. -/
def update (cfg : List Byte) (threadCount : Int) : List (List (Nat × Int)) → Option (List Byte)
  | [] => some cfg
  | writes :: openings =>
      (writeAll cfg (counterOffset cfg threadCount) writes).bind
        (fun cfg' => update cfg' threadCount openings)

/-- The value last written for a task, or zero. -/
def lastWritten (writes : List (Nat × Int)) (id : Nat) : Int :=
  ((writes.filter (fun w => w.1 == id)).getLast?.map Prod.snd).getD 0

/-- The counters after some writes. -/
def recorded (cs : List Int) (writes : List (Nat × Int)) : List Int :=
  writes.foldl (fun cs w => cs.set w.1 w.2) cs

theorem length_recorded (cs : List Int) (writes : List (Nat × Int)) :
    (recorded cs writes).length = cs.length := by
  unfold recorded
  induction writes generalizing cs with
  | nil => rfl
  | cons w writes ih => rw [List.foldl_cons, ih, List.length_set]

theorem counters_recorded {cs : List Int} {writes : List (Nat × Int)} (hcs : Counters cs)
    (hwrites : ∀ w ∈ writes, -2147483648 ≤ w.2 ∧ w.2 < 2147483648) :
    Counters (recorded cs writes) := by
  unfold recorded
  induction writes generalizing cs with
  | nil => exact hcs
  | cons w writes ih =>
      rw [List.foldl_cons]
      refine ih (fun c hc => ?_) (fun v hv => hwrites v (List.mem_cons_of_mem w hv))
      rcases List.mem_or_eq_of_mem_set hc with hold | rfl
      · exact hcs c hold
      · exact hwrites w List.mem_cons_self

/-- The last write of a counter is what it holds. -/
theorem getElem?_recorded (n : Nat) (writes : List (Nat × Int)) (id : Nat) (hid : id < n) :
    (recorded (List.replicate n 0) writes)[id]? = some (lastWritten writes id) := by
  -- Induction on the writes from the last one.
  induction writes using List.reverseRecOn with
  | nil =>
      rw [recorded, List.foldl_nil, List.getElem?_replicate, if_pos hid]
      rfl
  | append_singleton writes w ih =>
      have hsplit : recorded (List.replicate n 0) (writes ++ [w])
          = (recorded (List.replicate n 0) writes).set w.1 w.2 := by
        unfold recorded
        rw [List.foldl_append, List.foldl_cons, List.foldl_nil]
      rw [hsplit, List.getElem?_set, length_recorded, List.length_replicate]
      unfold lastWritten at ih ⊢
      rw [List.filter_append]
      by_cases hw : w.1 = id
      · rw [if_pos hw, if_pos (hw ▸ hid), List.filter_cons_of_pos (by rw [hw, beq_self_eq_true]),
          List.filter_nil, List.getLast?_concat]
        rfl
      · rw [if_neg hw, List.filter_cons_of_neg (by rw [beq_iff_eq]; exact hw), List.filter_nil,
          List.append_nil]
        exact ih

section Updates

variable (u : List Byte) (fileSize : Int) {n : Nat} (hn : n < 536870912)
include hn

theorem writeAll_cfgBytes {cs : List Int} (hlen : cs.length = n) (writes : List (Nat × Int))
    (hid : ∀ w ∈ writes, w.1 < n) :
    writeAll (cfgBytes u fileSize n cs) (u.length + 24 : Nat) writes
      = some (cfgBytes u fileSize n (recorded cs writes)) := by
  induction writes generalizing cs with
  | nil => rfl
  | cons w writes ih =>
      rw [writeAll, writeCounter_cfgBytes u fileSize n w.1 cs w.2 hn hlen
        (hid w List.mem_cons_self), Option.bind_some]
      exact ih (by rw [List.length_set, hlen]) (fun v hv => hid v (List.mem_cons_of_mem w hv))

/-- Every opening finds the counters where the last one left them. -/
theorem update_cfgBytes (cs : List Int) (hlen : cs.length = n)
    (openings : List (List (Nat × Int))) (hid : ∀ w ∈ openings.flatten, w.1 < n) :
    update (cfgBytes u fileSize n cs) n openings
      = some (cfgBytes u fileSize n (recorded cs openings.flatten)) := by
  induction openings generalizing cs with
  | nil => rfl
  | cons writes openings ih =>
      rw [List.flatten_cons] at hid ⊢
      rw [update, counterOffset_cfgBytes u fileSize n cs hn hlen,
        writeAll_cfgBytes u fileSize hn hlen writes (fun w hw => hid w (List.mem_append_left _ hw)),
        Option.bind_some, ih _ (by rw [length_recorded, hlen])
          (fun w hw => hid w (List.mem_append_right _ hw))]
      unfold recorded
      rw [List.foldl_append]

end Updates

/-- A new object, once it has got the size of the file from the server. -/
def createSized (url : List CodeUnit) (threadCount fileSize : Int) : HttpDownload :=
  { create url threadCount with fileSize := fileSize }

theorem newCfg_createSized (url : List CodeUnit) (fileSize : Int) {n : Nat} (hn : 1 ≤ n) :
    (createSized url n fileSize).newCfg
      = cfgBytes (encodeUtf16 url) fileSize n (List.replicate n 0) := by
  have hthreads : (createSized url n fileSize).threadCount = n := if_neg (by omega)
  unfold newCfg
  rw [hthreads, Int.toNat_natCast]
  rfl

theorem taskId_taskAt (fileSize : Int) {n i : Nat} (hi : i < n) (c : Int) :
    (taskAt fileSize n i c).taskId = i := by
  unfold taskAt
  split
  · rfl
  · simp only
    omega

/-- A config file is read back as it was written and updated: the URL, the
    number of threads it was written for, and for each of them the counter
    written last. -/
theorem config_round_trip (url own : List CodeUnit) (fileSize threadCount : Int) (n : Nat)
    (openings : List (List (Nat × Int))) (hurl : Utf16 url) (hsize : 1 ≤ fileSize)
    (hsize' : fileSize < 2147483648) (hn : 1 ≤ n) (hint : 8 + 4 * n < 2147483648)
    (hlength : (createSized url n fileSize).newCfg.length < 2147483648)
    (hwrites : ∀ w ∈ openings.flatten, w.1 < n ∧ -2147483648 ≤ w.2 ∧ w.2 < 2147483648) :
    ∃ cfg o',
      update (createSized url n fileSize).newCfg n openings = some cfg ∧
      (createSized own threadCount fileSize).parseDownloadCfg (some cfg)
        = (.ok true, o', some cfg) ∧
      o'.url = url ∧ o'.threadCount = n ∧ o'.downloadTasks.length = n ∧
      ∀ id < n, ∃ t, o'.downloadTasks[id]? = some t ∧ t.taskId = id ∧
        t.download = lastWritten openings.flatten id := by
  rw [newCfg_createSized url fileSize hn] at hlength ⊢
  have hbytes : (encodeUtf16 url).length < 2147483648 := by
    unfold cfgBytes at hlength
    rw [List.length_append, length_cfgHeader] at hlength
    omega
  have hzero : Counters (List.replicate n 0) := by
    intro c hc
    rw [List.eq_of_mem_replicate hc]
    omega
  have hlen : (recorded (List.replicate n 0) openings.flatten).length = n := by
    rw [length_recorded, List.length_replicate]
  have hupdate := update_cfgBytes (encodeUtf16 url) fileSize (by omega : n < 536870912)
    (List.replicate n 0) List.length_replicate openings (fun w hw => (hwrites w hw).1)
  have hparse := parseDownloadCfg_cfgBytes (createSized own threadCount fileSize)
    (encodeUtf16 url) n _ hbytes (by omega : 0 ≤ fileSize) hsize' hn (by omega) hlen
    (counters_recorded hzero (fun w hw => (hwrites w hw).2))
  refine ⟨_, _, hupdate, hparse, ?_, rfl, ?_, fun id hid => ?_⟩
  · simp only
    rw [decodeUtf16_encodeUtf16, replaceUnpaired_of_utf16 hurl]
  · simp only [createSized, create, List.nil_append, length_tasksOf, hlen]
  · refine ⟨taskAt fileSize n id (lastWritten openings.flatten id), ?_,
      taskId_taskAt fileSize hid _, download_taskAt _ _ _ _⟩
    simp only [createSized, create, List.nil_append, getElem?_tasksOf,
      getElem?_recorded n openings.flatten id hid, Option.map_some]

/-- A URL with a surrogate pair, three counters updated in two openings, and a
    reader made for seven threads. -/
theorem config_round_trip_three :
    ∃ cfg o',
      update (createSized [0x68, 0xD83D, 0xDE00] 3 10).newCfg 3 [[(0, 4), (2, 1)], [(0, 7)]]
        = some cfg ∧
      (createSized [] 7 10).parseDownloadCfg (some cfg) = (.ok true, o', some cfg) ∧
      o'.url = [0x68, 0xD83D, 0xDE00] ∧ o'.downloadTasks.map DownloadTask.download = [7, 0, 1] := by
  obtain ⟨cfg, o', hupdate, hparse, hurl, -, hlength, htasks⟩ :=
    config_round_trip [0x68, 0xD83D, 0xDE00] [] 10 7 3 [[(0, 4), (2, 1)], [(0, 7)]]
      (.unit _ _ (by decide) (by decide) (.pair _ _ _ (by decide) (by decide) .nil)) (by decide)
      (by decide) (by decide) (by decide) (by decide) (by decide)
  refine ⟨cfg, o', hupdate, hparse, hurl, ?_⟩
  obtain ⟨t₀, ht₀, -, h₀⟩ := htasks 0 (by decide)
  obtain ⟨t₁, ht₁, -, h₁⟩ := htasks 1 (by decide)
  obtain ⟨t₂, ht₂, -, h₂⟩ := htasks 2 (by decide)
  apply List.ext_getElem?
  intro id
  rw [List.getElem?_map]
  rcases id with _ | _ | _ | id
  · rw [ht₀, Option.map_some, h₀]
    rfl
  · rw [ht₁, Option.map_some, h₁]
    rfl
  · rw [ht₂, Option.map_some, h₂]
    rfl
  · rw [List.getElem?_eq_none (by omega)]
    rfl

/-- The reading is safe and all or nothing: it makes one task per thread, with
    counters inside the blocks, or it changes nothing. -/
def Safe (o : HttpDownload) :
    Except JavaException Bool × HttpDownload × Option (List Byte) → Prop
  | (.ok true, o', _) =>
      1 ≤ o'.threadCount ∧
        ∃ new, o'.downloadTasks = o.downloadTasks ++ new ∧ (new.length : Int) = o'.threadCount ∧
          ∀ t ∈ new, 0 ≤ t.download ∧ t.download ≤ t.block
  | (.ok false, o', _) =>
      o'.url = o.url ∧ o'.threadCount = o.threadCount ∧ o'.downloadTasks = o.downloadTasks
  | (.error _, _, _) => False

/-- The counters of a file, after its thread count: one for each thread, inside
    its block; or not even one, in a file that says what the object knows. -/
def CountersHandled (o : HttpDownload) (url : List CodeUnit) (threadCount : Int)
    (s : List Byte) : Prop :=
  if 1 ≤ threadCount ∧ 4 * threadCount ≤ s.length then
    ∀ i < threadCount.toNat, ∃ c, intAt s (4 * i) = some c ∧ 0 ≤ c ∧
      c ≤ (taskAt o.fileSize threadCount.toNat i c).block
  else threadCount ≠ 0 ∧ url = o.url ∧ threadCount = o.threadCount ∧ s.length < 4

/-- A file that is made anew for the object: its own thread count gives blocks
    that are not negative, or is negative itself and the URL is the object's. -/
def NewHandled (o : HttpDownload) (url : List CodeUnit) : Prop :=
  2 * url.length < 2147483648 ∧
    (1 ≤ o.threadCount ∧
        (∀ i < o.threadCount.toNat, 0 ≤ (taskAt o.fileSize o.threadCount.toNat i 0).block) ∨
      o.threadCount < 0 ∧ url = o.url)

/-- A file from its second tag on. A reading that ends before the size leaves
    the object alone only if the URL was the object's. -/
def TasksHandled (o : HttpDownload) (url : List CodeUnit) (s : List Byte) : Prop :=
  if intAt s 0 ≠ some 2 then url = o.url
  else match intAt s 8 with
    | none => url = o.url
    | some fileSize =>
        if fileSize ≠ o.fileSize then o.NewHandled url
        else match intAt s 12 with
          | none => url = o.url
          | some threadCount => o.CountersHandled url threadCount (s.drop 16)

/-- The files that are read safely. A file without the first tag, or too short
    for the length of the URL, is; otherwise that length must not be
    negative. -/
def Handled (o : HttpDownload) (bytes : List Byte) : Prop :=
  intAt bytes 0 = some 1 → ∀ urlLen, intAt bytes 4 = some urlLen →
    0 ≤ urlLen ∧
      o.TasksHandled (decodeUtf16 (readFully urlLen.toNat (bytes.drop 8)).1)
        (bytes.drop (8 + urlLen.toNat))

/-- The counter loop reads the positions of the counters as far as the file
    goes. -/
theorem readTasks_eq (mk : Nat → Int → DownloadTask) (k i : Nat) (s : List Byte) :
    readTasks mk k i s
      = ((List.range (min k (s.length / 4))).map
          (fun j => mk (i + j) ((intAt s (4 * j)).getD 0)),
        if 4 * k ≤ s.length then some (s.drop (4 * k)) else none) := by
  induction k generalizing i s with
  | zero =>
      rw [readTasks, Nat.zero_min, if_pos (by omega)]
      rfl
  | succ k ih =>
      rw [readTasks, readInt_eq]
      rcases hc : intAt s 0 with _ | c
      -- The file ends before this counter.
      · have hshort := (intAt_eq_none_iff s 0).mp hc
        have hmin : min (k + 1) (s.length / 4) = 0 := by omega
        rw [hmin, if_neg (by omega)]
        rfl
      · have hlong : 4 ≤ s.length := by
          by_contra hshort
          rw [(intAt_eq_none_iff s 0).mpr (by omega)] at hc
          exact absurd hc (by simp only [reduceCtorEq, not_false_eq_true])
        have hmin : min (k + 1) (s.length / 4) = min k ((s.drop 4).length / 4) + 1 := by
          rw [List.length_drop]
          omega
        simp only [Option.map_some, ih, hmin, List.range_succ_eq_map, List.map_cons, List.map_map,
          Nat.mul_zero, Nat.add_zero, hc, Option.getD_some]
        congr 1
        · congr 1
          apply List.map_congr_left
          intro j _
          rw [intAt_drop, Function.comp_apply, Nat.succ_eq_add_one, Nat.add_assoc, Nat.add_comm 1 j,
            Nat.mul_add, Nat.add_comm 4]
        · rw [List.length_drop, List.drop_drop]
          by_cases hall : 4 * (k + 1) ≤ s.length
          · rw [if_pos hall, if_pos (by omega), Nat.mul_add, Nat.add_comm 4]
          · rw [if_neg hall, if_neg (by omega)]

/-- The tasks the counter loop makes from `k` counters. -/
def loopTasks (o : HttpDownload) (s : List Byte) (k : Nat) : List DownloadTask :=
  (List.range k).map (fun i : Nat =>
    ⟨i, toInt32 (i * blockSize o.fileSize o.threadCount), blockSize o.fileSize o.threadCount,
      (intAt s (4 * i)).getD 0⟩)

section Counters

variable {o : HttpDownload} {s : List Byte} {k : Nat} (hzero : o.threadCount ≠ 0)
  (hk : (toInt32 (o.threadCount - 1)).toNat = k)
include hzero hk

/-- A file that ends among the counters leaves the tasks made so far. -/
theorem parseCounters_short (hshort : s.length < 4 * k + 4) :
    parseCounters o s = .done (.ok false)
      { o with downloadTasks := o.downloadTasks ++ loopTasks o s (min k (s.length / 4)) } := by
  unfold parseCounters
  rw [if_neg hzero]
  simp only [hk, readTasks_eq, Nat.zero_add]
  by_cases hloop : 4 * k ≤ s.length
  -- The loop is done, and the last counter is not there.
  · rw [if_pos hloop]
    simp only [readInt_drop, (intAt_eq_none_iff s (4 * k)).mpr hshort, Option.map_none]
    rfl
  · rw [if_neg hloop]
    rfl

theorem parseCounters_long (hlong : 4 * k + 4 ≤ s.length) :
    ∃ c, intAt s (4 * k) = some c ∧
      parseCounters o s = .done (.ok true)
        { o with
          downloadTasks := o.downloadTasks ++ (loopTasks o s k ++
            [⟨toInt32 (o.threadCount - 1),
              toInt32 (toInt32 (o.threadCount - 1) * blockSize o.fileSize o.threadCount),
              toInt32 (o.fileSize
                - toInt32 (toInt32 (o.threadCount - 1) * blockSize o.fileSize o.threadCount)),
              c⟩]) } := by
  rcases hc : intAt s (4 * k) with _ | c
  · exact absurd ((intAt_eq_none_iff s (4 * k)).mp hc) (by omega)
  refine ⟨c, rfl, ?_⟩
  have hmin : min k (s.length / 4) = k := by omega
  unfold parseCounters
  rw [if_neg hzero]
  simp only [hk, readTasks_eq, Nat.zero_add, hmin]
  rw [if_pos (by omega)]
  simp only [readInt_drop, hc, Option.map_some]
  rfl

end Counters

/-- A whole list of counters makes the tasks of a file. -/
theorem parseCounters_complete {o : HttpDownload} {s : List Byte} {n : Nat} (hn : 1 ≤ n)
    (hn' : n < 2147483648) (htc : o.threadCount = n) (hlong : 4 * n ≤ s.length) :
    parseCounters o s = .done (.ok true)
      { o with
        downloadTasks := o.downloadTasks ++
          (List.range n).map (fun i => taskAt o.fileSize n i ((intAt s (4 * i)).getD 0)) } := by
  obtain ⟨k, rfl⟩ : ∃ k, n = k + 1 := ⟨n - 1, by omega⟩
  have hlast : toInt32 (o.threadCount - 1) = k := by
    rw [htc, toInt32_eq _ (by omega) (by omega)]
    omega
  obtain ⟨c, hc, hparse⟩ := parseCounters_long (by omega : o.threadCount ≠ 0)
    (by rw [hlast, Int.toNat_natCast]) (by omega : 4 * k + 4 ≤ s.length)
  rw [hparse]
  congr 3
  rw [List.range_succ, List.map_append, List.map_singleton]
  congr 1
  · unfold loopTasks
    apply List.map_congr_left
    intro i hi
    unfold taskAt
    rw [if_pos (by have := List.mem_range.mp hi; omega), htc]
  · have hk : ((k + 1 : Nat) : Int) - 1 = k := by omega
    unfold taskAt
    rw [if_neg (by omega), hlast, htc, hc, hk, Option.getD_some]

theorem loopTasks_eq_nil_iff (o : HttpDownload) (s : List Byte) (k : Nat) :
    loopTasks o s k = [] ↔ k = 0 := by
  unfold loopTasks
  rw [List.map_eq_nil_iff, List.range_eq_nil]

/-- The reading of the counters is safe exactly if they are handled. -/
theorem parseCounters_safe_iff (o : HttpDownload) (url : List CodeUnit) (tc : Int) (s : List Byte)
    (cfg : Option (List Byte)) (hrange : -2147483648 ≤ tc ∧ tc < 2147483648) :
    ∃ result o', parseCounters { o with url := url, threadCount := tc } s = .done result o' ∧
      (o.Safe (result, o', cfg) ↔ o.CountersHandled url tc s) := by
  by_cases hzero : tc = 0
  -- The block size divides by the thread count.
  · refine ⟨.error .arithmetic, { o with url := url, threadCount := tc }, ?_, ?_⟩
    · unfold parseCounters
      exact if_pos hzero
    · unfold CountersHandled
      rw [if_neg (by omega)]
      exact ⟨False.elim, fun h => h.1 hzero⟩
  obtain ⟨k, hk⟩ : ∃ k, (toInt32 (tc - 1)).toNat = k := ⟨_, rfl⟩
  by_cases hshort : s.length < 4 * k + 4
  · refine ⟨_, _, parseCounters_short (o := { o with url := url, threadCount := tc }) hzero hk
      hshort, ?_⟩
    have hnot : ¬ (1 ≤ tc ∧ 4 * tc ≤ s.length) := by
      rintro ⟨hpos, hlong⟩
      rw [toInt32_eq _ (by omega) (by omega)] at hk
      omega
    unfold CountersHandled Safe
    rw [if_neg hnot]
    simp only [List.append_right_eq_self, loopTasks_eq_nil_iff]
    constructor
    · rintro ⟨hurl, hthreads, hnone⟩
      exact ⟨hzero, hurl, hthreads, by omega⟩
    · rintro ⟨-, hurl, hthreads, hlen⟩
      exact ⟨hurl, hthreads, by omega⟩
  by_cases hpos : 1 ≤ tc
  · obtain ⟨n, rfl⟩ : ∃ n : Nat, tc = n := ⟨tc.toNat, by omega⟩
    rw [toInt32_eq _ (by omega) (by omega)] at hk
    have hlong : 4 * n ≤ s.length := by omega
    refine ⟨_, _, parseCounters_complete (o := { o with url := url, threadCount := n })
      (by omega) (by omega) rfl hlong, ?_⟩
    unfold CountersHandled Safe
    rw [if_pos ⟨hpos, by omega⟩]
    simp only [List.append_cancel_left_eq, Int.toNat_natCast]
    constructor
    · rintro ⟨-, new, rfl, -, hnew⟩ i hi
      rcases hc : intAt s (4 * i) with _ | c
      · exact absurd ((intAt_eq_none_iff s (4 * i)).mp hc) (by omega)
      · have ht := hnew (taskAt o.fileSize n i c)
          (List.mem_map.mpr ⟨i, List.mem_range.mpr hi, by rw [hc, Option.getD_some]⟩)
        rw [download_taskAt] at ht
        exact ⟨c, rfl, ht⟩
    · intro hcounters
      refine ⟨hpos, _, rfl, by rw [List.length_map, List.length_range], fun t ht => ?_⟩
      obtain ⟨i, hi, rfl⟩ := List.mem_map.mp ht
      obtain ⟨c, hc, hinside⟩ := hcounters i (List.mem_range.mp hi)
      rw [hc, Option.getD_some, download_taskAt]
      exact hinside
  -- A negative number of threads is accepted with whatever follows.
  · obtain ⟨c, -, hparse⟩ := parseCounters_long (s := s)
      (o := { o with url := url, threadCount := tc }) hzero hk (by omega)
    refine ⟨_, _, hparse, ?_⟩
    unfold CountersHandled Safe
    rw [if_neg (by omega)]
    constructor
    · rintro ⟨hthreads, -⟩
      exact absurd hthreads hpos
    · rintro ⟨-, -, -, hlen⟩
      omega

theorem intAt_flatMap_intBytes (cs : List Int) (i : Nat) :
    intAt (cs.flatMap intBytes) (4 * i) = cs[i]?.map toInt32 := by
  induction cs generalizing i with
  | nil =>
      rw [List.getElem?_nil, Option.map_none, List.flatMap_nil, intAt_eq_none_iff, List.length_nil]
      omega
  | cons c cs ih =>
      rw [List.flatMap_cons]
      rcases i with _ | i
      · unfold intAt
        rw [Nat.mul_zero, List.drop_zero, readInt_intBytes]
        rfl
      · have hdrop : (intBytes c ++ cs.flatMap intBytes).drop 4 = cs.flatMap intBytes :=
          List.drop_left' (length_intBytes c)
        rw [List.getElem?_cons_succ, ← ih i, Nat.mul_add, Nat.mul_one, Nat.add_comm, ← intAt_drop,
          hdrop]

theorem countersHandled_new_iff (o : HttpDownload) (url : List CodeUnit)
    (hlen : 2 * url.length < 2147483648) :
    o.CountersHandled url o.threadCount
        ((List.replicate o.threadCount.toNat (0 : Int)).flatMap intBytes) ↔ o.NewHandled url := by
  have hlength : ((List.replicate o.threadCount.toNat (0 : Int)).flatMap intBytes).length
      = 4 * o.threadCount.toNat := by
    rw [length_flatMap_intBytes, List.length_replicate]
  have hcounter : ∀ i < o.threadCount.toNat,
      intAt ((List.replicate o.threadCount.toNat (0 : Int)).flatMap intBytes) (4 * i) = some 0 := by
    intro i hi
    rw [intAt_flatMap_intBytes, List.getElem?_replicate, if_pos hi]
    rfl
  unfold CountersHandled NewHandled
  by_cases hpos : 1 ≤ o.threadCount
  · rw [if_pos ⟨hpos, by omega⟩]
    constructor
    · intro hall
      refine ⟨hlen, .inl ⟨hpos, fun i hi => ?_⟩⟩
      obtain ⟨c, hc, -, hblock⟩ := hall i hi
      rw [hcounter i hi, Option.some.injEq] at hc
      rw [← hc] at hblock
      exact hblock
    · rintro ⟨-, ⟨-, hblocks⟩ | ⟨hneg, -⟩⟩ i hi
      · exact ⟨0, hcounter i hi, Int.le_refl 0, hblocks i hi⟩
      · omega
  · rw [if_neg (by omega)]
    constructor
    · rintro ⟨hzero, hurl, -, -⟩
      exact ⟨hlen, .inr ⟨by omega, hurl⟩⟩
    · rintro ⟨-, ⟨hpos', -⟩ | ⟨hneg, hurl⟩⟩
      · exact absurd hpos' hpos
      · exact ⟨by omega, hurl, rfl, by omega⟩

theorem parseFresh_of_done {o o' : HttpDownload} {bytes : List Byte}
    {result : Except JavaException Bool} (h : parseOnce o bytes = .done result o') :
    parseFresh o bytes = (result, o', some bytes) := by
  unfold parseFresh
  simp only [h]

/-- The length of a URL that does not fit an `int` comes out negative. -/
theorem parseOnce_newCfg_tooLong (o : HttpDownload) (h : 2 * o.url.length = 2147483648) :
    parseOnce o o.newCfg = .done (.error .negativeArraySize) o := by
  have hwrap : toInt32 (encodeUtf16 o.url).length = -2147483648 := by
    rw [length_encodeUtf16, h]
    decide
  have hneg : (-2147483648 : Int) < 0 := by omega
  unfold newCfg cfgBytes cfgHeader parseOnce
  simp only [List.append_assoc, readInt_intBytes_eq 1 _ (by omega) (by omega), ne_eq,
    not_true_eq_false, if_false, readInt_intBytes (encodeUtf16 o.url).length, hwrap, hneg,
    if_true]

/-- The file made for an object is read by it safely exactly if its thread count
    allows it. -/
theorem parseFresh_safe_iff (o o₁ : HttpDownload) (url : List CodeUnit)
    (ho₁ : o₁ = { o with url := url }) (hurl : Utf16 url) (hlen : 2 * url.length ≤ 2147483648)
    (hsize : 1 ≤ o.fileSize) (hsize' : o.fileSize < 2147483648)
    (hrange : -2147483648 ≤ o.threadCount ∧ o.threadCount < 2147483648) :
    o.Safe (parseFresh o₁ o₁.newCfg) ↔ o.NewHandled url := by
  subst ho₁
  by_cases hfits : 2 * url.length < 2147483648
  · rw [← countersHandled_new_iff o url hfits]
    obtain ⟨result, o', hparse, hsafe⟩ := parseCounters_safe_iff o url o.threadCount
      ((List.replicate o.threadCount.toNat (0 : Int)).flatMap intBytes) _ hrange
    have honce := parseOnce_cfgHeader { o with url := url } (encodeUtf16 url)
      ((List.replicate o.threadCount.toNat (0 : Int)).flatMap intBytes) o.threadCount
      (by rw [length_encodeUtf16]; exact hfits) (by simp only; omega) hsize' hrange.1 hrange.2
    rw [decodeUtf16_encodeUtf16, replaceUnpaired_of_utf16 hurl, hparse] at honce
    unfold newCfg cfgBytes
    rw [parseFresh_of_done honce]
    exact hsafe
  · have honce := parseOnce_newCfg_tooLong { o with url := url }
      (by omega : 2 * url.length = 2147483648)
    rw [parseFresh_of_done honce]
    exact ⟨False.elim, fun h => absurd h.1 hfits⟩

theorem length_decodeUtf16 (bytes : List Byte) :
    (decodeUtf16 bytes).length = (bytes.length + 1) / 2 := by
  unfold decodeUtf16
  rw [length_replaceUnpaired]
  induction bytes using codeUnits.induct with
  | case1 => rfl
  | case2 b => simp only [codeUnits, List.length_singleton]
  | case3 hi lo rest ih =>
      rw [codeUnits, List.length_cons, ih, List.length_cons, List.length_cons]
      omega

theorem length_readFully (n : Nat) (stream : List Byte) : (readFully n stream).1.length = n := by
  unfold readFully
  rw [List.length_append, List.length_take, List.length_replicate]
  omega

/-- The reading from the second tag on, by position. -/
theorem parseTasks_eq (o : HttpDownload) (s : List Byte) :
    parseTasks o s =
      if intAt s 0 ≠ some 2 then .done (.ok false) o
      else match intAt s 8 with
        | none => .done (.ok false) o
        | some fileSize =>
            if fileSize ≠ o.fileSize then .sizeChanged o
            else match intAt s 12 with
              | none => .done (.ok false) o
              | some threadCount =>
                  parseCounters { o with threadCount := threadCount } (s.drop 16) := by
  unfold parseTasks
  rw [readInt_eq]
  rcases htag : intAt s 0 with _ | tag
  · rfl
  by_cases htwo : tag = 2
  · subst htwo
    simp only [Option.map_some, ne_eq, not_true_eq_false, if_false, readInt_drop]
    rcases hsize : intAt s 8 with _ | fileSize
    -- The size may be missing together with the length before it.
    · rcases intAt s 4 with _ | tasksLen
      · rfl
      · simp only [Option.map_some, readInt_drop, hsize, Option.map_none]
    · rcases hlength : intAt s 4 with _ | tasksLen
      · have hshort := (intAt_eq_none_iff s 4).mp hlength
        rw [(intAt_eq_none_iff s 8).mpr (by omega)] at hsize
        exact absurd hsize (by simp only [reduceCtorEq, not_false_eq_true])
      simp only [Option.map_some, readInt_drop, hsize]
      rcases intAt s 12 with _ | threadCount
      · rfl
      · rfl
  · have hother : some tag ≠ some 2 := fun heq => htwo (Option.some.inj heq)
    simp only [Option.map_some, ne_eq, htwo, not_false_eq_true, if_true, hother]

/-- A reading, by position. -/
theorem parseOnce_eq (o : HttpDownload) (bytes : List Byte) :
    parseOnce o bytes =
      if intAt bytes 0 ≠ some 1 then .done (.ok false) o
      else match intAt bytes 4 with
        | none => .done (.ok false) o
        | some urlLen =>
            if urlLen < 0 then .done (.error .negativeArraySize) o
            else parseTasks
              { o with url := decodeUtf16 (readFully urlLen.toNat (bytes.drop 8)).1 }
              (bytes.drop (8 + urlLen.toNat)) := by
  unfold parseOnce
  rw [readInt_eq]
  rcases intAt bytes 0 with _ | tag
  · rfl
  by_cases hone : tag = 1
  · subst hone
    simp only [Option.map_some, ne_eq, not_true_eq_false, if_false, readInt_drop]
    rcases intAt bytes 4 with _ | urlLen
    · rfl
    · have hbody : (readFully urlLen.toNat (bytes.drop 8)).2 = bytes.drop (8 + urlLen.toNat) :=
        List.drop_drop
      simp only [Option.map_some, hbody]
  · have hother : some tag ≠ some 1 := fun heq => hone (Option.some.inj heq)
    simp only [Option.map_some, ne_eq, hone, not_false_eq_true, if_true, hother]

/-- What a reading of a file comes to, with the second one if there is one. -/
def ParseStep.ended (bytes : List Byte) :
    ParseStep → Except JavaException Bool × HttpDownload × Option (List Byte)
  | .done result o => (result, o, some bytes)
  | .sizeChanged o => parseFresh o o.newCfg

theorem parseDownloadCfg_ended (o : HttpDownload) (bytes : List Byte) :
    o.parseDownloadCfg (some bytes) = (parseOnce o bytes).ended bytes := by
  unfold parseDownloadCfg
  rcases hparse : parseOnce o bytes with ⟨result, o'⟩ | o'
  · simp only [hparse, ParseStep.ended]
  · simp only [hparse, ParseStep.ended]

section Handled

variable (o : HttpDownload) (hsize : 1 ≤ o.fileSize) (hsize' : o.fileSize < 2147483648)
  (hrange : -2147483648 ≤ o.threadCount ∧ o.threadCount < 2147483648)
include hsize hsize' hrange

/-- A reading that stops early has set the URL. -/
theorem parseTasks_safe_iff (o₁ : HttpDownload) (url : List CodeUnit) (bytes s : List Byte)
    (ho₁ : o₁ = { o with url := url }) (hurl : Utf16 url) (hlen : 2 * url.length ≤ 2147483648) :
    o.Safe ((parseTasks o₁ s).ended bytes) ↔ o.TasksHandled url s := by
  have hstop : o.Safe (.ok false, o₁, some bytes) ↔ url = o.url := by
    unfold Safe
    simp only [ho₁, and_self, and_true]
  have hfileSize : o₁.fileSize = o.fileSize := by rw [ho₁]
  rw [parseTasks_eq, hfileSize]
  unfold TasksHandled
  by_cases htag : intAt s 0 ≠ some 2
  · rw [if_pos htag, if_pos htag]
    exact hstop
  rw [if_neg htag, if_neg htag]
  rcases intAt s 8 with _ | fileSize
  · exact hstop
  by_cases hother : fileSize ≠ o.fileSize
  · simp only [hother, ne_eq, not_false_eq_true, if_true, ParseStep.ended]
    exact parseFresh_safe_iff o o₁ url ho₁ hurl hlen hsize hsize' hrange
  simp only [hother, if_false]
  rcases hthreads : intAt s 12 with _ | tc
  · exact hstop
  · obtain ⟨result, o', hparse, hsafe⟩ := parseCounters_safe_iff o url tc (s.drop 16) (some bytes)
      (intAt_range hthreads)
    have hcounters : parseCounters { o₁ with threadCount := tc, fileSize := o.fileSize } (s.drop 16)
        = .done result o' := by
      rw [ho₁]
      exact hparse
    simp only [hcounters, ParseStep.ended]
    exact hsafe

theorem parseOnce_safe_iff (bytes : List Byte) :
    o.Safe ((parseOnce o bytes).ended bytes) ↔ o.Handled bytes := by
  have hsame : o.Safe (.ok false, o, some bytes) := ⟨rfl, rfl, rfl⟩
  unfold Handled
  rw [parseOnce_eq]
  by_cases htag : intAt bytes 0 ≠ some 1
  · rw [if_pos htag]
    exact ⟨fun _ hone => absurd hone htag, fun _ => hsame⟩
  rw [if_neg htag]
  have htag' : intAt bytes 0 = some 1 := not_not.mp htag
  rcases hlength : intAt bytes 4 with _ | urlLen
  · exact ⟨fun _ _ _ heq => absurd heq (by simp only [reduceCtorEq, not_false_eq_true]),
      fun _ => hsame⟩
  have hlt := (intAt_range hlength).2
  by_cases hneg : urlLen < 0
  · simp only [hneg, if_true]
    refine ⟨False.elim, fun h => ?_⟩
    have hnonneg := (h htag' urlLen rfl).1
    omega
  · simp only [hneg, if_false]
    have hurl : Utf16 (decodeUtf16 (readFully urlLen.toNat (bytes.drop 8)).1) :=
      utf16_replaceUnpaired _
    rw [parseTasks_safe_iff o hsize hsize' hrange _ _ bytes (bytes.drop (8 + urlLen.toNat)) rfl hurl
      (by rw [length_decodeUtf16, length_readFully]; omega)]
    constructor
    · intro h _ n hn
      rw [Option.some.injEq] at hn
      subst hn
      exact ⟨by omega, h⟩
    · intro h
      exact (h htag' urlLen rfl).2

/-- For every object that knows the size of its file, the reading of a config
    file is safe and all or nothing exactly if the file is missing or one of
    those handled. -/
theorem parseDownloadCfg_safe_iff (cfg : Option (List Byte)) :
    o.Safe (o.parseDownloadCfg cfg) ↔ ∀ bytes ∈ cfg, o.Handled bytes := by
  rcases cfg with _ | bytes
  · constructor
    · intro _ bytes hbytes
      exact absurd hbytes (by simp only [Option.mem_def, reduceCtorEq, not_false_eq_true])
    · intro _
      exact ⟨rfl, rfl, rfl⟩
  · rw [parseDownloadCfg_ended, parseOnce_safe_iff o hsize hsize' hrange]
    constructor
    · intro h b hb
      rw [Option.mem_some_iff] at hb
      exact hb ▸ h
    · intro h
      exact h bytes rfl

end Handled

/-- The config file of two threads, with a counter of 3 for the first. -/
def threeOfTen : List Byte := cfgBytes [] 10 2 [3, 0]

theorem parseDownloadCfg_safe_two :
    (createSized [] 2 10).Safe ((createSized [] 2 10).parseDownloadCfg (some threeOfTen)) ∧
      (createSized [] 2 10).Handled threeOfTen := by
  have hsafe : (createSized [] 2 10).Safe
      ((createSized [] 2 10).parseDownloadCfg (some threeOfTen)) := by
    have hparse : (createSized [] 2 10).parseDownloadCfg (some threeOfTen)
        = (.ok true, { createSized [] 2 10 with downloadTasks := [⟨0, 0, 5, 3⟩, ⟨1, 5, 5, 0⟩] },
          some threeOfTen) := by
      decide +kernel
    rw [hparse]
    exact ⟨by decide, _, rfl, by decide, by decide⟩
  exact ⟨hsafe, (parseDownloadCfg_safe_iff _ (by decide) (by decide) (by decide) _).mp hsafe _ rfl⟩

/-- A negative length of the URL throws, and a file that ends after the URL
    leaves it behind in the object. -/
theorem parseDownloadCfg_unsafe :
    ¬ (createSized [] 1 1).Safe
        ((createSized [] 1 1).parseDownloadCfg (some (intBytes 1 ++ intBytes (-1)))) ∧
      ¬ (createSized [] 1 1).Safe
        ((createSized [] 1 1).parseDownloadCfg (some (intBytes 1 ++ intBytes 2 ++ [0, 0x41]))) := by
  have hthrows : (createSized [] 1 1).parseDownloadCfg (some (intBytes 1 ++ intBytes (-1)))
      = (.error .negativeArraySize, createSized [] 1 1, some (intBytes 1 ++ intBytes (-1))) := by
    decide +kernel
  have hkeeps : (createSized [] 1 1).parseDownloadCfg
        (some (intBytes 1 ++ intBytes 2 ++ [0, 0x41]))
      = (.ok false, createSized [0x41] 1 1, some (intBytes 1 ++ intBytes 2 ++ [0, 0x41])) := by
    decide +kernel
  rw [hthrows, hkeeps]
  refine ⟨id, fun h => ?_⟩
  exact absurd h.1 (by decide)

/-- Where the counters of a file begin for a reader: after the URL. -/
def counterStart (cfg : List Byte) : Nat := 24 + ((intAt cfg 4).getD 0).toNat

/-- The counter a reader of the file finds for a task. -/
def storedCounter (cfg : List Byte) (id : Nat) : Option Int :=
  intAt cfg (counterStart cfg + 4 * id)

theorem counterStart_congr {cfg cfg' : List Byte} (h : intAt cfg' 4 = intAt cfg 4) :
    counterStart cfg' = counterStart cfg := by
  unfold counterStart
  rw [h]

/-- The file size a reader of the file finds. -/
def storedSize (cfg : List Byte) : Option Int := intAt cfg (counterStart cfg - 8)

/-- The number of threads a reader of the file finds. -/
def storedThreads (cfg : List Byte) : Option Int := intAt cfg (counterStart cfg - 4)

/-- What a reading can come to, with what is stored in the file: it fails before
    the sizes are compared, finds another size, or goes on to the counters. -/
theorem parseOnce_reads (o : HttpDownload) (bytes : List Byte) :
    (∃ result o', parseOnce o bytes = .done result o' ∧ result ≠ .ok true) ∨
      (∃ url size, storedSize bytes = some size ∧ size ≠ o.fileSize ∧
        2 * url.length ≤ 2147483648 ∧ parseOnce o bytes = .sizeChanged { o with url := url }) ∨
      ∃ url threadCount, storedSize bytes = some o.fileSize ∧
        storedThreads bytes = some threadCount ∧
        parseOnce o bytes = parseCounters { o with url := url, threadCount := threadCount }
          (bytes.drop (counterStart bytes)) := by
  have hstop : (.ok false : Except JavaException Bool) ≠ .ok true := by
    intro h
    exact Bool.false_ne_true (Except.ok.inj h)
  rw [parseOnce_eq]
  split
  · exact Or.inl ⟨_, _, rfl, hstop⟩
  rcases hlength : intAt bytes 4 with _ | urlLen
  · exact Or.inl ⟨_, _, rfl, hstop⟩
  by_cases hneg : urlLen < 0
  · simp only [hneg, if_true]
    exact Or.inl ⟨_, _, rfl, by simp only [ne_eq, reduceCtorEq, not_false_eq_true]⟩
  simp only [hneg, if_false]
  -- Size, thread count and counters follow the URL.
  have hstart : counterStart bytes = 8 + urlLen.toNat + 16 := by
    unfold counterStart
    rw [hlength, Option.getD_some]
    omega
  have hat : ∀ k, intAt (bytes.drop (8 + urlLen.toNat)) k
      = intAt bytes (counterStart bytes - 16 + k) := by
    intro k
    rw [intAt_drop, hstart]
    congr 1
  have hsize : intAt (bytes.drop (8 + urlLen.toNat)) 8 = storedSize bytes := by
    rw [hat, storedSize, hstart]
    congr 1
  have hthreads : intAt (bytes.drop (8 + urlLen.toNat)) 12 = storedThreads bytes := by
    rw [hat, storedThreads, hstart]
    congr 1
  rw [parseTasks_eq, hsize, hthreads, List.drop_drop, ← hstart]
  split
  · exact Or.inl ⟨_, _, rfl, hstop⟩
  rcases storedSize bytes with _ | size
  · exact Or.inl ⟨_, _, rfl, hstop⟩
  by_cases hother : size ≠ o.fileSize
  · refine Or.inr (Or.inl ⟨_, size, rfl, hother, ?_, if_pos hother⟩)
    have hrange := intAt_range hlength
    rw [length_decodeUtf16, length_readFully]
    omega
  · simp only [hother, if_false]
    rcases storedThreads bytes with _ | threadCount
    · exact Or.inl ⟨_, _, rfl, hstop⟩
    · refine Or.inr (Or.inr ⟨_, threadCount, ?_, rfl, rfl⟩)
      rw [not_ne_iff.mp hother]

/-- Reading the counters sets nothing but the tasks. -/
theorem parseCounters_keeps {o o' : HttpDownload} {s : List Byte}
    {result : Except JavaException Bool} (h : parseCounters o s = .done result o') :
    o'.threadCount = o.threadCount ∧ o'.fileSize = o.fileSize := by
  unfold parseCounters at h
  dsimp only at h
  repeat' split at h
  all_goals
    simp only [ParseStep.done.injEq] at h
    obtain ⟨-, rfl⟩ := h
    exact ⟨rfl, rfl⟩

/-- A reading that succeeds comes to the counters. -/
theorem parseOnce_ok {o o' : HttpDownload} {bytes : List Byte}
    (h : parseOnce o bytes = .done (.ok true) o') :
    storedSize bytes = some o.fileSize ∧ storedThreads bytes = some o'.threadCount ∧
      o'.fileSize = o.fileSize ∧ ∃ url,
        parseCounters { o with url := url, threadCount := o'.threadCount }
          (bytes.drop (counterStart bytes)) = .done (.ok true) o' := by
  rcases parseOnce_reads o bytes with ⟨result, o₁, hread, hresult⟩ | ⟨url, size, -, -, -, hread⟩ |
    ⟨url, threadCount, hsize, hthreads, hread⟩
  · rw [hread, ParseStep.done.injEq] at h
    exact absurd h.1 hresult
  · rw [hread] at h
    exact absurd h (by simp only [reduceCtorEq, not_false_eq_true])
  · rw [hread] at h
    obtain ⟨hsame, hsize'⟩ := parseCounters_keeps h
    simp only at hsame hsize'
    rw [hsame]
    exact ⟨hsize, hthreads, hsize', url, h⟩

/-- The tasks of a successful reading are those a file describes, and have the
    counters stored for them. -/
theorem parseOnce_made {o o' : HttpDownload} {bytes : List Byte}
    (h : parseOnce o bytes = .done (.ok true) o') (hempty : o.downloadTasks = [])
    {n : Nat} (hn : 1 ≤ n) (hthreads : o'.threadCount = n) :
    ∀ (i : Nat) (t : DownloadTask), o'.downloadTasks[i]? = some t →
      i < n ∧ t = taskAt o.fileSize n i t.download ∧ storedCounter bytes i = some t.download := by
  obtain ⟨-, hstored, -, url, hcounters⟩ := parseOnce_ok h
  have hrange := intAt_range hstored
  rw [hthreads] at hcounters hrange
  -- A file that is too short is not accepted.
  have hlong : 4 * n ≤ (bytes.drop (counterStart bytes)).length := by
    by_contra hshort
    have hk : (toInt32 ((n : Int) - 1)).toNat = n - 1 := by
      rw [toInt32_eq _ (by omega) (by omega)]
      omega
    rw [parseCounters_short (o := { o with url := url, threadCount := n })
      (by simp only; omega) hk (by omega), ParseStep.done.injEq] at hcounters
    exact Bool.false_ne_true (Except.ok.inj hcounters.1)
  rw [parseCounters_complete (by omega) (by omega) rfl hlong, ParseStep.done.injEq] at hcounters
  intro i t ht
  rw [← hcounters.2, hempty, List.nil_append, List.getElem?_map, Option.map_eq_some_iff] at ht
  obtain ⟨j, hj, rfl⟩ := ht
  obtain ⟨hi, rfl⟩ := List.getElem?_eq_some_iff.mp hj
  rw [List.length_range] at hi
  rw [List.getElem_range]
  refine ⟨hi, by rw [download_taskAt], ?_⟩
  unfold storedCounter
  rw [download_taskAt, intAt_drop]
  rcases hc : intAt bytes (counterStart bytes + 4 * i) with _ | c
  · rw [intAt_eq_none_iff] at hc
    rw [List.length_drop] at hlong
    omega
  · rfl

/-- The tasks of a successful reading are numbered, and have the counters stored
    for them. -/
theorem parseOnce_stored {o o' : HttpDownload} {bytes : List Byte}
    (h : parseOnce o bytes = .done (.ok true) o') (hempty : o.downloadTasks = [])
    (hpos : 1 ≤ o'.threadCount) :
    ∀ (i : Nat) (t : DownloadTask), o'.downloadTasks[i]? = some t →
      t.taskId = i ∧ storedCounter bytes i = some t.download := by
  intro i t ht
  have hthreads : o'.threadCount = o'.threadCount.toNat := by omega
  obtain ⟨hi, hmade, hstored⟩ := parseOnce_made h hempty (by omega) hthreads i t ht
  refine ⟨?_, hstored⟩
  rw [hmade]
  exact taskId_taskAt _ hi _

/-- What is stored in a whole file is what a reader makes of it. -/
theorem stored_cfgBytes (u : List Byte) (fileSize : Int) (n : Nat) (cs : List Int)
    (hu : u.length < 2147483648) (hfs : -2147483648 ≤ fileSize) (hfs' : fileSize < 2147483648)
    (hn : 1 ≤ n) (hn' : n < 2147483648) (hlen : cs.length = n) (hcs : Counters cs) :
    storedSize (cfgBytes u fileSize n cs) = some fileSize ∧
      storedThreads (cfgBytes u fileSize n cs) = some (n : Int) ∧
      ∀ i < n, storedCounter (cfgBytes u fileSize n cs) i = cs[i]? := by
  have hparse := parseOnce_cfgBytes ⟨[], 1, fileSize, []⟩ u n cs hu hfs hfs' hn hn' hlen hcs
  obtain ⟨hsize, hthreads, -⟩ := parseOnce_ok hparse
  refine ⟨hsize, hthreads, fun i hi => ?_⟩
  obtain ⟨c, hc⟩ : ∃ c, cs[i]? = some c :=
    ⟨_, List.getElem?_eq_getElem (show i < cs.length by omega)⟩
  have htask : ([] ++ tasksOf fileSize n cs)[i]? = some (taskAt fileSize n i c) := by
    rw [List.nil_append, getElem?_tasksOf, hc, Option.map_some]
  obtain ⟨-, -, hcounter⟩ := parseOnce_made hparse rfl hn rfl i _ htask
  rw [hcounter, hc, download_taskAt]

/-- A successful parse ends with a successful reading of the file it leaves. -/
theorem parseDownloadCfg_ok {o o' : HttpDownload} {cfg cfg' : Option (List Byte)}
    (h : o.parseDownloadCfg cfg = (.ok true, o', cfg')) :
    ∃ o₁ bytes, cfg' = some bytes ∧ o₁.downloadTasks = o.downloadTasks ∧
      parseOnce o₁ bytes = .done (.ok true) o' := by
  rcases cfg with _ | bytes
  · unfold parseDownloadCfg at h
    simp only [Prod.mk.injEq, Except.ok.injEq, Bool.false_eq_true, false_and] at h
  rw [parseDownloadCfg_ended] at h
  rcases hp : parseOnce o bytes with ⟨result, o₁⟩ | o₁
  · rw [hp] at h
    simp only [ParseStep.ended, Prod.mk.injEq] at h
    obtain ⟨rfl, rfl, rfl⟩ := h
    exact ⟨o, bytes, rfl, rfl, hp⟩
  · rw [hp] at h
    simp only [ParseStep.ended] at h
    obtain ⟨hcfg, hfresh⟩ := parseFresh_ok h
    exact ⟨o₁, o₁.newCfg, hcfg, parseOnce_sizeChanged hp, hfresh⟩

/-- An update in place changes the counter stored for one task. -/
theorem storedCounter_writeCounter {cfg cfg' : List Byte} {n id : Nat} {download : Int}
    (hn : n < 536870912) (hlength : cfg.length = counterStart cfg + 4 * n) (hid : id < n)
    (hdownload : -2147483648 ≤ download ∧ download < 2147483648)
    (hwrite : writeCounter cfg (counterStart cfg) id download = some cfg') :
    counterStart cfg' = counterStart cfg ∧ cfg'.length = cfg.length ∧
      storedCounter cfg' id = some download ∧
      ∀ j, j ≠ id → storedCounter cfg' j = storedCounter cfg j := by
  have hpos : (counterStart cfg : Int) + toInt32 (4 * (id : Int))
      = (counterStart cfg + 4 * id : Nat) := by
    rw [toInt32_eq _ (by omega) (by omega)]
    omega
  unfold writeCounter at hwrite
  simp only [hpos] at hwrite
  rw [if_neg (by omega), Int.toNat_natCast, Option.some.injEq] at hwrite
  subst hwrite
  have hinside : counterStart cfg + 4 * id + (intBytes download).length ≤ cfg.length := by
    rw [length_intBytes]
    omega
  -- The length of the URL lies before the counters.
  have hstart : counterStart (writeAt cfg (counterStart cfg + 4 * id) (intBytes download))
      = counterStart cfg := by
    have hbefore : 24 ≤ counterStart cfg := Nat.le_add_right _ _
    exact counterStart_congr (intAt_writeAt_other _ _ _ 4 hinside (by omega))
  refine ⟨hstart, ?_, ?_, fun j hj => ?_⟩
  · rw [length_writeAt]
    omega
  · unfold storedCounter
    rw [hstart, intAt_writeAt_self _ _ _ (by omega), toInt32_eq _ hdownload.1 hdownload.2]
  · unfold storedCounter
    rw [hstart, intAt_writeAt_other _ _ _ _ hinside (by rw [length_intBytes]; omega)]

end HttpDownload

end NetProbe
