import NetProbe.Lib.RandomAccess

/-!
# The Download Config File

`HttpDownload` keeps its progress in a `.download` file beside the download:
the URL, the file size, the number of tasks, and one counter per task. The
file is written from front to back once, updated in place at its end while
the tasks run, and read from front to back by the next session.

The embedding keeps the bytes. `parseOnce` reads them in the order the source
does and assigns the object's fields as it goes, so a reading that fails half
way leaves the fields it had already set. When the recorded file size differs
from the current one the source rewrites the file and starts over;
`parseDownloadCfg` does that, and the second reading finds the size it has
just written.

`cfgBytes` is the layout. `parseOnce_cfgBytes` reads it back,
`writeCounter_cfgBytes` says that an in-place update changes one counter, and
`parseOnce_cut` says that a file cut off anywhere, as a crash leaves it, is
rejected. Positions are computed from the end of the file by the source, in
`int` arithmetic, so the update lemma needs the counters to take fewer than
`2 ^ 31` bytes.

## Main definitions

* `DownloadTask`, `HttpDownload`: The fields of the two classes.
* `newCfg`: What `createDownloadCfg` writes.
* `parseOnce`, `parseDownloadCfg`: Reading the file.
* `counterOffset`, `writeCounter`: Updating a counter in place.
* `cfgBytes`: The layout of the file.
* `taskAt`, `tasksOf`: The tasks a file describes.

## Theorems

* `readTasks_counters`, `readTasks_cut`: Reading the counters, whole or cut.
* `parseOnce_cfgBytes`, `parseOnce_newCfg_own`, `parseDownloadCfg_cfgBytes`: A
  file is read back as written.
* `parseOnce_cut`: A file cut off is rejected.
* `parseOnce_cases`: How a reading can end, and what it may have changed.
* `parseOnce_tasks`, `parseDownloadCfg_tasks`: A successful reading adds one
  task per counter.
* `writeCounter_cfgBytes`: An update in place changes one counter.
-/

namespace NetProbe

/-- One `char` of a URL. -/
abbrev CodeUnit := BitVec 16

/-- A URL of ASCII characters. -/
def ascii (chars : List Char) : List CodeUnit := chars.map (fun c => BitVec.ofNat 16 c.toNat)

def isHighSurrogate (u : CodeUnit) : Bool := decide (0xD800 ≤ u.toNat ∧ u.toNat < 0xDC00)

def isLowSurrogate (u : CodeUnit) : Bool := decide (0xDC00 ≤ u.toNat ∧ u.toNat < 0xE000)

/-- The charset coders replace a surrogate that has no partner. -/
def replaceUnpaired : List CodeUnit → List CodeUnit
  | [] => []
  | [u] => [if isHighSurrogate u || isLowSurrogate u then 0xFFFD else u]
  | u :: v :: rest =>
      if isHighSurrogate u && isLowSurrogate v then u :: v :: replaceUnpaired rest
      else (if isHighSurrogate u || isLowSurrogate u then 0xFFFD else u) ::
        replaceUnpaired (v :: rest)

/-- `url.getBytes("UTF-16BE")`. -/
def encodeUtf16 (url : List CodeUnit) : List Byte :=
  (replaceUnpaired url).flatMap
    (fun u => [BitVec.ofNat 8 (u.toNat / 256), BitVec.ofNat 8 u.toNat])

/-- Pairs of bytes, high byte first; an odd byte at the end is malformed. -/
def codeUnits : List Byte → List CodeUnit
  | [] => []
  | [_] => [0xFFFD]
  | hi :: lo :: rest => BitVec.ofNat 16 (hi.toNat * 256 + lo.toNat) :: codeUnits rest

/-- `new String(bytes, "UTF-16BE")`. -/
def decodeUtf16 (bytes : List Byte) : List CodeUnit := replaceUnpaired (codeUnits bytes)

/-- The fields of a `DownloadTask`. -/
structure DownloadTask where
  taskId : Int
  start : Int
  block : Int
  download : Int
  deriving DecidableEq, Repr

/-- The fields of an `HttpDownload` that the config file is about. -/
structure HttpDownload where
  url : List CodeUnit
  threadCount : Int
  fileSize : Int
  downloadTasks : List DownloadTask
  deriving DecidableEq, Repr

namespace HttpDownload

/-- `new HttpDownload(url, localPath, threadCount)`. -/
def create (url : List CodeUnit) (threadCount : Int) : HttpDownload where
  url := url
  threadCount := if threadCount < 1 then 1 else threadCount
  fileSize := 0
  downloadTasks := []

/-- The bytes in front of the counters. -/
def cfgHeader (urlBytes : List Byte) (fileSize threadCount : Int) : List Byte :=
  intBytes 1 ++ (intBytes urlBytes.length ++ (urlBytes ++ (intBytes 2 ++
    (intBytes (8 + 4 * threadCount) ++ (intBytes fileSize ++ intBytes threadCount)))))

/-- The layout of a config file. -/
def cfgBytes (urlBytes : List Byte) (fileSize threadCount : Int) (counters : List Int) :
    List Byte :=
  cfgHeader urlBytes fileSize threadCount ++ counters.flatMap intBytes

/-- What `createDownloadCfg` writes into a new file. -/
def newCfg (o : HttpDownload) : List Byte :=
  cfgBytes (encodeUtf16 o.url) o.fileSize o.threadCount (List.replicate o.threadCount.toNat 0)

/-- How one reading of the file ends: with the value returned or the exception
    thrown, or at a file size that is not the current one. -/
inductive ParseStep where
  | done (result : Except JavaException Bool) (o : HttpDownload)
  | sizeChanged (o : HttpDownload)

/-- A loop of `readInt` calls, each making a task; the tasks made before the
    end of the file are there even if it comes too early. -/
def readTasks (mk : Nat → Int → DownloadTask) :
    Nat → Nat → List Byte → List DownloadTask × Option (List Byte)
  | 0, _, s => ([], some s)
  | k + 1, i, s =>
      match readInt s with
      | none => ([], none)
      | some (c, rest) =>
          (mk i c :: (readTasks mk k (i + 1) rest).1, (readTasks mk k (i + 1) rest).2)

/-- `(fileSize + threadCount - 1) / threadCount`. -/
def blockSize (fileSize threadCount : Int) : Int :=
  toInt32 ((toInt32 (fileSize + threadCount - 1)).tdiv threadCount)

/-- The reading from the counters on. -/
def parseCounters (o : HttpDownload) (s : List Byte) : ParseStep :=
  -- The block size divides by the number of threads read from the file.
  if o.threadCount = 0 then .done (.error .arithmetic) o
  else
    let block := blockSize o.fileSize o.threadCount
    let last := toInt32 (o.threadCount - 1)
    match readTasks (fun i c => ⟨i, toInt32 (i * block), block, c⟩) last.toNat 0 s with
    | (tasks, none) => .done (.ok false) { o with downloadTasks := o.downloadTasks ++ tasks }
    | (tasks, some rest) =>
        let start := toInt32 (last * block)
        -- The last task is made outside the loop, with what the others leave.
        match readInt rest with
        | none => .done (.ok false) { o with downloadTasks := o.downloadTasks ++ tasks }
        | some (c, _) => .done (.ok true) { o with
            downloadTasks := o.downloadTasks ++
              (tasks ++ [⟨last, start, toInt32 (o.fileSize - start), c⟩]) }

/-- The reading from the second tag on. -/
def parseTasks (o : HttpDownload) (s : List Byte) : ParseStep :=
  match readInt s with
  | none => .done (.ok false) o
  | some (tagTasks, s₁) =>
      if tagTasks ≠ 2 then .done (.ok false) o
      else match readInt s₁ with
        | none => .done (.ok false) o
        -- The length of the task list is read and not used.
        | some (_, s₂) =>
            match readInt s₂ with
            | none => .done (.ok false) o
            | some (fileSize, s₃) =>
                -- The fields set so far stay set, whichever way this goes.
                if fileSize ≠ o.fileSize then .sizeChanged o
                else match readInt s₃ with
                  | none => .done (.ok false) o
                  | some (threadCount, s₄) =>
                      parseCounters { o with threadCount := threadCount } s₄

/-- One reading of the file. -/
def parseOnce (o : HttpDownload) (bytes : List Byte) : ParseStep :=
  match readInt bytes with
  | none => .done (.ok false) o
  | some (tagUrl, s₁) =>
      if tagUrl ≠ 1 then .done (.ok false) o
      else match readInt s₁ with
        | none => .done (.ok false) o
        | some (urlLen, s₂) =>
            if urlLen < 0 then .done (.error .negativeArraySize) o
            else parseTasks { o with url := decodeUtf16 (readFully urlLen.toNat s₂).1 }
              (readFully urlLen.toNat s₂).2

/-- The reading of a file just made, which carries the current size. -/
def parseFresh (o : HttpDownload) (bytes : List Byte) :
    Except JavaException Bool × HttpDownload × Option (List Byte) :=
  match parseOnce o bytes with
  | .done result o' => (result, o', some bytes)
  | .sizeChanged o' => (.ok false, o', some bytes)

/-- `parseDownloadCfg()`, with the file it leaves behind. A file made for
    another size is replaced and read again. -/
def parseDownloadCfg (o : HttpDownload) (cfg : Option (List Byte)) :
    Except JavaException Bool × HttpDownload × Option (List Byte) :=
  match cfg with
  | none => (.ok false, o, none)
  | some bytes =>
      match parseOnce o bytes with
      | .done result o' => (result, o', some bytes)
      | .sizeChanged o' => parseFresh o' o'.newCfg

/-- `cfg.length() - 4 * threadCount`. -/
def counterOffset (cfg : List Byte) (threadCount : Int) : Int :=
  cfg.length - toInt32 (4 * threadCount)

/-- `cfg.seek(offset + 4 * taskId); cfg.writeInt(download)`: seeking to a
    negative position fails. -/
def writeCounter (cfg : List Byte) (offset taskId download : Int) : Option (List Byte) :=
  let pos := offset + toInt32 (4 * taskId)
  if pos < 0 then none else some (writeAt cfg pos.toNat (intBytes download))

/-- The task with index `i` of `n` that a file describes: the last one gets the
    rest of the file. -/
def taskAt (fileSize : Int) (n i : Nat) (c : Int) : DownloadTask :=
  if i + 1 < n then ⟨i, toInt32 (i * blockSize fileSize n), blockSize fileSize n, c⟩
  else ⟨(n : Int) - 1, toInt32 (((n : Int) - 1) * blockSize fileSize n),
    toInt32 (fileSize - toInt32 (((n : Int) - 1) * blockSize fileSize n)), c⟩

/-- The tasks a file describes. -/
def tasksOf (fileSize : Int) (n : Nat) (counters : List Int) : List DownloadTask :=
  counters.mapIdx (fun i c => taskAt fileSize n i c)

/-- Counters as `int` values. -/
def Counters (cs : List Int) : Prop := ∀ c ∈ cs, -2147483648 ≤ c ∧ c < 2147483648

theorem getElem?_tasksOf (fileSize : Int) (n : Nat) (cs : List Int) (i : Nat) :
    (tasksOf fileSize n cs)[i]? = cs[i]?.map (taskAt fileSize n i) := by
  unfold tasksOf
  rw [List.getElem?_mapIdx]

theorem length_tasksOf (fileSize : Int) (n : Nat) (cs : List Int) :
    (tasksOf fileSize n cs).length = cs.length := by
  unfold tasksOf
  rw [List.length_mapIdx]

@[simp] theorem download_taskAt (fileSize : Int) (n i : Nat) (c : Int) :
    (taskAt fileSize n i c).download = c := by
  unfold taskAt
  split
  · rfl
  · rfl

theorem map_download_tasksOf (fileSize : Int) (n : Nat) (cs : List Int) :
    (tasksOf fileSize n cs).map DownloadTask.download = cs := by
  apply List.ext_getElem?
  intro i
  rw [List.getElem?_map, getElem?_tasksOf, Option.map_map]
  rcases cs[i]? with _ | c
  · rfl
  · simp only [Option.map_some, Function.comp_apply, download_taskAt]

theorem block_taskAt (fileSize : Int) (n i : Nat) (c d : Int) :
    (taskAt fileSize n i c).block = (taskAt fileSize n i d).block := by
  unfold taskAt
  split
  · rfl
  · rfl

/-- A task with another counter is the task made from that counter. -/
theorem taskAt_withDownload (fileSize : Int) (n i : Nat) (c d : Int) :
    { taskAt fileSize n i c with download := d } = taskAt fileSize n i d := by
  unfold taskAt
  split
  · rfl
  · rfl

/-- Replacing a surrogate keeps the number of code units. -/
theorem length_replaceUnpaired (us : List CodeUnit) : (replaceUnpaired us).length = us.length := by
  induction us using replaceUnpaired.induct with
  | case1 => rfl
  | case2 u => rfl
  | case3 u v rest h ih => simp only [replaceUnpaired, h, if_true, List.length_cons, ih]
  | case4 u v rest h ih =>
      simp only [replaceUnpaired, h, Bool.false_eq_true, if_false, List.length_cons] at ih ⊢
      omega

theorem length_encodeUtf16 (url : List CodeUnit) : (encodeUtf16 url).length = 2 * url.length := by
  unfold encodeUtf16
  rw [← length_replaceUnpaired url]
  induction replaceUnpaired url with
  | nil => rfl
  | cons u us ih =>
      rw [List.flatMap_cons, List.length_append, ih]
      simp only [List.length_cons, List.length_nil]
      omega

theorem length_flatMap_intBytes (cs : List Int) : (cs.flatMap intBytes).length = 4 * cs.length := by
  induction cs with
  | nil => rfl
  | cons c cs ih =>
      rw [List.flatMap_cons, List.length_append, ih, length_intBytes, List.length_cons]
      omega

theorem readTasks_counters (mk : Nat → Int → DownloadTask) (cs : List Int) (i : Nat)
    (rest : List Byte) (h : Counters cs) :
    readTasks mk cs.length i (cs.flatMap intBytes ++ rest)
      = (cs.mapIdx (fun j c => mk (i + j) c), some rest) := by
  -- Induction on the counters; the index moves along with them.
  induction cs generalizing i with
  | nil => rfl
  | cons c cs ih =>
      have hc := h c List.mem_cons_self
      have hrest : Counters cs := fun d hd => h d (List.mem_cons_of_mem c hd)
      rw [List.flatMap_cons, List.append_assoc, List.length_cons, readTasks,
        readInt_intBytes_eq c _ hc.1 hc.2]
      simp only [ih (i + 1) hrest, List.mapIdx_cons, Nat.add_zero]
      congr 3
      funext j d
      rw [Nat.add_assoc, Nat.add_comm 1 j]

/-- A cut of a list either falls into its first part or leaves a cut of the
    second. -/
theorem append_cut (p q d rest : List Byte) (h : p ++ q = d ++ rest) :
    p.length < d.length ∨ ∃ p', p = d ++ p' ∧ p' ++ q = rest := by
  rcases List.append_eq_append_iff.mp h with ⟨d', hd, hq⟩ | ⟨p', hp, hrest⟩
  · rcases d' with _ | ⟨b, d'⟩
    · exact Or.inr ⟨[], by rw [hd, List.append_nil, List.append_nil], hq⟩
    · refine Or.inl ?_
      rw [hd, List.length_append, List.length_cons]
      omega
  · exact Or.inr ⟨p', hp, hrest.symm⟩

/-- A stream cut inside an `int` has no next `int`; cut later, it reads the
    `int` as the whole stream does. -/
theorem readInt_cut (p q rest : List Byte) (v : Int) (h : p ++ q = intBytes v ++ rest) :
    readInt p = none ∨ ∃ p', p = intBytes v ++ p' ∧ p' ++ q = rest := by
  rcases append_cut p q _ rest h with hshort | hcut
  · exact Or.inl (readInt_short p hshort)
  · exact Or.inr hcut

theorem readTasks_cut (mk : Nat → Int → DownloadTask) (cs : List Int) (i : Nat)
    (p q rest : List Byte) (h : p ++ q = cs.flatMap intBytes ++ rest) :
    (readTasks mk cs.length i p).2 = none ∨
      ∃ p', (readTasks mk cs.length i p).2 = some p' ∧ p' ++ q = rest := by
  induction cs generalizing i p with
  | nil => exact Or.inr ⟨p, rfl, h⟩
  | cons c cs ih =>
      rw [List.flatMap_cons, List.append_assoc] at h
      rw [List.length_cons, readTasks]
      -- The cut falls into this counter or into the rest.
      rcases readInt_cut p q _ c h with hnone | ⟨p', hp', hq⟩
      · rw [hnone]
        exact Or.inl rfl
      · rw [hp', readInt_intBytes]
        exact ih (i + 1) p' hq

/-- A successful run of the counter loop makes one task per counter. -/
theorem readTasks_length (mk : Nat → Int → DownloadTask) (k i : Nat) (s rest : List Byte)
    (h : (readTasks mk k i s).2 = some rest) : (readTasks mk k i s).1.length = k := by
  induction k generalizing i s with
  | zero => rfl
  | succ k ih =>
      rw [readTasks] at h ⊢
      rcases hr : readInt s with _ | ⟨c, s'⟩
      · rw [hr] at h
        exact absurd h (by simp only [reduceCtorEq, not_false_eq_true])
      · rw [hr] at h
        simp only [List.length_cons]
        rw [ih (i + 1) s' h]

/-- The source reads the last counter on its own, after the loop. -/
theorem counters_last {n : Nat} {cs : List Int} (hn : 1 ≤ n) (hn' : n < 2147483648)
    (hlen : cs.length = n) :
    ∃ init c, cs = init ++ [c] ∧ toInt32 ((n : Int) - 1) = init.length := by
  have hne : cs ≠ [] := by
    rintro rfl
    rw [List.length_nil] at hlen
    omega
  refine ⟨cs.dropLast, cs.getLast hne, (List.dropLast_append_getLast hne).symm, ?_⟩
  rw [toInt32_eq _ (by omega) (by omega), List.length_dropLast]
  omega

theorem parseCounters_flatMap (o : HttpDownload) (n : Nat) (cs : List Int) (hn : 1 ≤ n)
    (hn' : n < 2147483648) (htc : o.threadCount = n) (hlen : cs.length = n) (hcs : Counters cs) :
    parseCounters o (cs.flatMap intBytes) = .done (.ok true)
      { o with downloadTasks := o.downloadTasks ++ tasksOf o.fileSize n cs } := by
  obtain ⟨init, c, rfl, hlast⟩ := counters_last hn hn' hlen
  rw [List.length_append, List.length_singleton] at hlen
  have hinit : Counters init := fun d hd => hcs d (List.mem_append_left _ hd)
  have hc := hcs c (List.mem_append_right _ List.mem_cons_self)
  unfold parseCounters
  rw [if_neg (by omega), htc]
  dsimp only
  rw [hlast, Int.toNat_natCast, List.flatMap_append, List.flatMap_singleton]
  simp only [readTasks_counters _ init 0 _ hinit]
  -- The last counter is followed by nothing.
  rw [← List.append_nil (intBytes c)]
  simp only [readInt_intBytes_eq c [] hc.1 hc.2]
  congr 3
  unfold tasksOf
  rw [List.mapIdx_append, List.mapIdx_cons, List.mapIdx_nil]
  congr 1
  -- Indices before the last take the regular branch of `taskAt`.
  · apply List.mapIdx_eq_mapIdx_iff.mpr
    intro i hi
    unfold taskAt
    rw [if_pos (by omega), Nat.zero_add]
  · have hn1 : (n : Int) - 1 = init.length := by omega
    unfold taskAt
    rw [if_neg (by omega), hn1]

/-- The reading of the header: the URL is taken over before the sizes are
    compared. -/
theorem parseOnce_cfgHeader_size (o : HttpDownload) (u rest : List Byte) (fileSize n : Int)
    (hu : u.length < 2147483648) (hfs : -2147483648 ≤ fileSize) (hfs' : fileSize < 2147483648)
    (hn : -2147483648 ≤ n) (hn' : n < 2147483648) :
    parseOnce o (cfgHeader u fileSize n ++ rest)
      = if fileSize ≠ o.fileSize then .sizeChanged { o with url := decodeUtf16 u }
        else parseCounters { o with url := decodeUtf16 u, threadCount := n } rest := by
  -- All bytes of the URL are there.
  have hfull : readFully u.length (u ++ (intBytes 2 ++ (intBytes (8 + 4 * n) ++
      (intBytes fileSize ++ (intBytes n ++ rest)))))
        = (u, intBytes 2 ++ (intBytes (8 + 4 * n) ++
          (intBytes fileSize ++ (intBytes n ++ rest)))) :=
    readFully_append u.length u _ rfl
  unfold cfgHeader parseOnce
  simp only [List.append_assoc]
  simp only [readInt_intBytes_eq 1 _ (by omega) (by omega), ne_eq, not_true_eq_false, if_false]
  simp only [readInt_intBytes_eq u.length _ (by omega) (by omega)]
  rw [if_neg (by omega), Int.toNat_natCast]
  simp only [hfull]
  unfold parseTasks
  simp only [readInt_intBytes_eq 2 _ (by omega) (by omega), ne_eq, not_true_eq_false, if_false,
    readInt_intBytes (8 + 4 * n), readInt_intBytes_eq fileSize _ hfs hfs',
    readInt_intBytes_eq n _ hn hn']

/-- The reading of the header, when the sizes agree. -/
theorem parseOnce_cfgHeader (o : HttpDownload) (u rest : List Byte) (n : Int)
    (hu : u.length < 2147483648) (hfs : -2147483648 ≤ o.fileSize) (hfs' : o.fileSize < 2147483648)
    (hn : -2147483648 ≤ n) (hn' : n < 2147483648) :
    parseOnce o (cfgHeader u o.fileSize n ++ rest)
      = parseCounters { o with url := decodeUtf16 u, threadCount := n } rest := by
  rw [parseOnce_cfgHeader_size o u rest o.fileSize n hu hfs hfs' hn hn',
    if_neg (not_not_intro rfl)]

/-- A file is read back as written. -/
theorem parseOnce_cfgBytes (o : HttpDownload) (u : List Byte) (n : Nat) (cs : List Int)
    (hu : u.length < 2147483648) (hfs : -2147483648 ≤ o.fileSize) (hfs' : o.fileSize < 2147483648)
    (hn : 1 ≤ n) (hn' : n < 2147483648) (hlen : cs.length = n) (hcs : Counters cs) :
    parseOnce o (cfgBytes u o.fileSize n cs) = .done (.ok true)
      { o with
        url := decodeUtf16 u
        threadCount := n
        downloadTasks := o.downloadTasks ++ tasksOf o.fileSize n cs } := by
  unfold cfgBytes
  rw [parseOnce_cfgHeader o u _ n hu hfs hfs' (by omega) (by omega),
    parseCounters_flatMap _ n cs hn hn' rfl hlen hcs]

/-- A file written for the object is read back by it, with counters that are
    all zero. -/
theorem parseOnce_newCfg_own (o : HttpDownload) (n : Nat)
    (hu : (encodeUtf16 o.url).length < 2147483648) (hfs : -2147483648 ≤ o.fileSize)
    (hfs' : o.fileSize < 2147483648) (hn : 1 ≤ n) (hn' : n < 2147483648)
    (hthreads : o.threadCount = n) :
    parseOnce o o.newCfg = .done (.ok true)
      { o with
        url := decodeUtf16 (encodeUtf16 o.url)
        threadCount := n
        downloadTasks := o.downloadTasks ++ tasksOf o.fileSize n (List.replicate n 0) } := by
  have hzero : Counters (List.replicate n 0) := by
    intro c hc
    rw [List.eq_of_mem_replicate hc]
    omega
  rw [newCfg, hthreads, Int.toNat_natCast]
  exact parseOnce_cfgBytes o _ n _ hu hfs hfs' hn hn' List.length_replicate hzero

/-- A file that is read in one go is left as it is. -/
theorem parseDownloadCfg_of_done {o o' : HttpDownload} {bytes : List Byte}
    {result : Except JavaException Bool} (h : parseOnce o bytes = .done result o') :
    o.parseDownloadCfg (some bytes) = (result, o', some bytes) := by
  unfold parseDownloadCfg
  simp only [h]

theorem parseDownloadCfg_cfgBytes (o : HttpDownload) (urlBytes : List Byte) (n : Nat)
    (counters : List Int) (hu : urlBytes.length < 2147483648)
    (hfs : 0 ≤ o.fileSize) (hfs' : o.fileSize < 2147483648) (hn : 1 ≤ n) (hn' : n < 2147483648)
    (hlen : counters.length = n) (hcs : Counters counters) :
    o.parseDownloadCfg (some (cfgBytes urlBytes o.fileSize n counters))
      = (.ok true,
        { o with
          url := decodeUtf16 urlBytes
          threadCount := n
          downloadTasks := o.downloadTasks ++ tasksOf o.fileSize n counters },
        some (cfgBytes urlBytes o.fileSize n counters)) :=
  parseDownloadCfg_of_done
    (parseOnce_cfgBytes o urlBytes n counters hu (by omega) hfs' hn hn' hlen hcs)

theorem parseCounters_cut (o : HttpDownload) (n : Nat) (cs : List Int) (p q : List Byte)
    (hn : 1 ≤ n) (hn' : n < 2147483648) (htc : o.threadCount = n) (hlen : cs.length = n)
    (h : p ++ q = cs.flatMap intBytes) (hq : q ≠ []) :
    ∃ o', parseCounters o p = .done (.ok false) o' := by
  obtain ⟨init, c, rfl, hlast⟩ := counters_last hn hn' hlen
  unfold parseCounters
  rw [if_neg (by omega), htc]
  dsimp only
  rw [hlast, Int.toNat_natCast]
  rw [List.flatMap_append, List.flatMap_singleton, ← List.append_nil (intBytes c)] at h
  rcases readTasks_cut (fun i c => ⟨i, toInt32 (i * blockSize o.fileSize n),
    blockSize o.fileSize n, c⟩) init 0 p q _ h with hnone | ⟨p', hp', hq'⟩
  -- Cut inside the loop.
  · rcases hr : readTasks _ init.length 0 p with ⟨tasks, _ | rest⟩
    · exact ⟨_, rfl⟩
    · rw [hr] at hnone
      exact absurd hnone (by simp only [reduceCtorEq, not_false_eq_true])
  · rcases hr : readTasks _ init.length 0 p with ⟨tasks, _ | rest⟩
    · exact ⟨_, rfl⟩
    · rw [hr] at hp'
      simp only [Option.some.injEq] at hp'
      subst hp'
      -- Nothing is left to cut once the last counter has been read.
      rcases readInt_cut rest q [] c hq' with hnone | ⟨p'', _, hnil⟩
      · simp only [hnone]
        exact ⟨_, rfl⟩
      · exact absurd (List.append_eq_nil_iff.mp hnil).2 hq

/-- A file cut off anywhere is rejected. -/
theorem parseOnce_cut (o : HttpDownload) (u : List Byte) (n : Nat) (cs : List Int)
    (p q : List Byte) (hu : u.length < 2147483648) (hfs : -2147483648 ≤ o.fileSize)
    (hfs' : o.fileSize < 2147483648) (hn : 1 ≤ n) (hn' : n < 2147483648) (hlen : cs.length = n)
    (h : p ++ q = cfgBytes u o.fileSize n cs) (hq : q ≠ []) :
    ∃ o', parseOnce o p = .done (.ok false) o' := by
  unfold cfgBytes cfgHeader at h
  simp only [List.append_assoc] at h
  unfold parseOnce
  -- Each read either runs into the cut or leaves a shorter file cut the same way.
  rcases readInt_cut p q _ 1 h with hnone | ⟨p₁, rfl, h₁⟩
  · exact ⟨_, by rw [hnone]⟩
  simp only [readInt_intBytes_eq 1 _ (by omega) (by omega), ne_eq, not_true_eq_false, if_false]
  rcases readInt_cut p₁ q _ _ h₁ with hnone | ⟨p₂, rfl, h₂⟩
  · exact ⟨_, by rw [hnone]⟩
  simp only [readInt_intBytes_eq u.length _ (by omega) (by omega)]
  rw [if_neg (by omega), Int.toNat_natCast]
  -- A cut inside the URL leaves nothing for the second tag.
  rcases append_cut p₂ q u _ h₂ with hshort | ⟨p₃, rfl, h₃⟩
  · unfold parseTasks readFully
    rw [List.drop_eq_nil_of_le (by omega), readInt_short [] (by simp)]
    exact ⟨_, rfl⟩
  rw [readFully_append u.length u p₃ rfl]
  unfold parseTasks
  rcases readInt_cut p₃ q _ 2 h₃ with hnone | ⟨p₄, rfl, h₄⟩
  · exact ⟨_, by rw [hnone]⟩
  simp only [readInt_intBytes_eq 2 _ (by omega) (by omega), ne_eq, not_true_eq_false, if_false]
  rcases readInt_cut p₄ q _ _ h₄ with hnone | ⟨p₅, rfl, h₅⟩
  · exact ⟨_, by rw [hnone]⟩
  simp only [readInt_intBytes (8 + 4 * (n : Int))]
  rcases readInt_cut p₅ q _ _ h₅ with hnone | ⟨p₆, rfl, h₆⟩
  · exact ⟨_, by rw [hnone]⟩
  simp only [readInt_intBytes_eq o.fileSize _ hfs hfs', not_true_eq_false, if_false]
  rcases readInt_cut p₆ q _ _ h₆ with hnone | ⟨p₇, rfl, h₇⟩
  · exact ⟨_, by rw [hnone]⟩
  simp only [readInt_intBytes_eq (n : Int) _ (by omega) (by omega)]
  exact parseCounters_cut _ n cs p₇ q hn hn' rfl hlen h₇ hq

theorem parseTasks_cases (o : HttpDownload) (s : List Byte) :
    parseTasks o s = .done (.ok false) o ∨ parseTasks o s = .sizeChanged o ∨
      ∃ (tc : Int) (rest : List Byte), (-2147483648 ≤ tc ∧ tc < 2147483648) ∧
        parseTasks o s = parseCounters { o with threadCount := tc } rest := by
  unfold parseTasks
  rcases readInt s with _ | ⟨tagTasks, s₁⟩
  · exact Or.inl rfl
  by_cases htag : tagTasks ≠ 2
  · exact Or.inl (by simp only [htag, ne_eq, not_false_eq_true, if_true])
  simp only [htag, if_false]
  rcases readInt s₁ with _ | ⟨tasksLen, s₂⟩
  · exact Or.inl rfl
  rcases hfs : readInt s₂ with _ | ⟨fileSize, s₃⟩
  · exact Or.inl (by simp only [hfs])
  by_cases hsize : fileSize ≠ o.fileSize
  · exact Or.inr (Or.inl (by simp only [hfs, hsize, ne_eq, not_false_eq_true, if_true]))
  simp only [hfs, hsize, if_false]
  rcases htc : readInt s₃ with _ | ⟨tc, s₄⟩
  · exact Or.inl rfl
  · exact Or.inr (Or.inr ⟨tc, s₄, readInt_range s₃ s₄ tc htc, rfl⟩)

/-- What one reading can come to: it stops before the counters, finds another
    size, or goes on to the counters. -/
theorem parseOnce_cases (o : HttpDownload) (bytes : List Byte) :
    (∃ result o', parseOnce o bytes = .done result o' ∧ result ≠ .ok true) ∨
      (∃ url, parseOnce o bytes = .sizeChanged { o with url := url }) ∨
      ∃ (url : List CodeUnit) (tc : Int) (rest : List Byte),
        (-2147483648 ≤ tc ∧ tc < 2147483648) ∧
        parseOnce o bytes = parseCounters { o with url := url, threadCount := tc } rest := by
  have hstop : (.ok false : Except JavaException Bool) ≠ .ok true := by
    intro h
    exact Bool.false_ne_true (Except.ok.inj h)
  unfold parseOnce
  rcases readInt bytes with _ | ⟨tagUrl, s₁⟩
  · exact Or.inl ⟨_, _, rfl, hstop⟩
  by_cases htag : tagUrl ≠ 1
  · refine Or.inl ⟨.ok false, o, ?_, hstop⟩
    simp only [htag, ne_eq, not_false_eq_true, if_true]
  simp only [htag, if_false]
  rcases readInt s₁ with _ | ⟨urlLen, s₂⟩
  · exact Or.inl ⟨_, _, rfl, hstop⟩
  -- A negative length throws from the allocation.
  by_cases hneg : urlLen < 0
  · refine Or.inl ⟨.error .negativeArraySize, o, ?_, ?_⟩
    · simp only [hneg, if_true]
    · simp only [ne_eq, reduceCtorEq, not_false_eq_true]
  simp only [hneg, if_false]
  rcases parseTasks_cases { o with url := decodeUtf16 (readFully urlLen.toNat s₂).1 }
    (readFully urlLen.toNat s₂).2 with h | h | ⟨tc, rest, hrange, h⟩
  · exact Or.inl ⟨_, _, h, hstop⟩
  · exact Or.inr (Or.inl ⟨_, h⟩)
  · exact Or.inr (Or.inr ⟨_, tc, rest, hrange, h⟩)

/-- A successful reading of the counters makes one task per counter. -/
theorem parseCounters_tasks (o o' : HttpDownload) (s : List Byte)
    (hrange : -2147483648 ≤ o.threadCount ∧ o.threadCount < 2147483648)
    (h : parseCounters o s = .done (.ok true) o') (hpos : 1 ≤ o'.threadCount) :
    o'.threadCount = o.threadCount ∧
      o'.downloadTasks.length = o.downloadTasks.length + o'.threadCount.toNat := by
  unfold parseCounters at h
  split at h
  · exact absurd h (by simp only [ParseStep.done.injEq, reduceCtorEq, false_and, not_false_eq_true])
  dsimp only at h
  rcases hr : readTasks _ _ 0 s with ⟨tasks, _ | rest⟩
  · rw [hr] at h
    exact absurd h (by
      simp only [ParseStep.done.injEq, Except.ok.injEq, Bool.false_eq_true, false_and,
        not_false_eq_true])
  rw [hr] at h
  -- The loop has made one task per turn, the last one is extra.
  have hlen := readTasks_length _ _ 0 s rest (congrArg Prod.snd hr)
  rw [hr] at hlen
  rcases hc : readInt rest with _ | ⟨c, s'⟩
  · simp only [hc] at h
    exact absurd h (by
      simp only [ParseStep.done.injEq, Except.ok.injEq, Bool.false_eq_true, false_and,
        not_false_eq_true])
  simp only [hc, ParseStep.done.injEq, true_and] at h
  subst h
  simp only at hpos hlen ⊢
  rw [toInt32_eq _ (by omega) (by omega)] at hlen
  refine ⟨trivial, ?_⟩
  rw [List.length_append, List.length_append, List.length_singleton, hlen]
  omega

/-- From the counters on the size is settled. -/
theorem parseCounters_done (o : HttpDownload) (s : List Byte) (o' : HttpDownload) :
    parseCounters o s ≠ .sizeChanged o' := by
  unfold parseCounters
  split
  · simp only [ne_eq, reduceCtorEq, not_false_eq_true]
  · dsimp only
    split
    · simp only [ne_eq, reduceCtorEq, not_false_eq_true]
    · split
      · simp only [ne_eq, reduceCtorEq, not_false_eq_true]
      · simp only [ne_eq, reduceCtorEq, not_false_eq_true]

theorem parseOnce_tasks (o o' : HttpDownload) (bytes : List Byte)
    (h : parseOnce o bytes = .done (.ok true) o') (hpos : 1 ≤ o'.threadCount) :
    o'.downloadTasks.length = o.downloadTasks.length + o'.threadCount.toNat := by
  rcases parseOnce_cases o bytes with ⟨result, o₁, h₁, hne⟩ | ⟨url, h₁⟩ | ⟨url, tc, rest, hr, h₁⟩
  · rw [h₁, ParseStep.done.injEq] at h
    exact absurd h.1 hne
  · rw [h₁] at h
    exact absurd h (by simp only [reduceCtorEq, not_false_eq_true])
  · rw [h₁] at h
    exact (parseCounters_tasks _ o' rest hr h hpos).2

/-- A reading that finds another size has made no task yet. -/
theorem parseOnce_sizeChanged {o o' : HttpDownload} {bytes : List Byte}
    (h : parseOnce o bytes = .sizeChanged o') : o'.downloadTasks = o.downloadTasks := by
  rcases parseOnce_cases o bytes with ⟨result, o₁, h₁, -⟩ | ⟨url, h₁⟩ | ⟨url, tc, rest, -, h₁⟩
  · rw [h] at h₁
    exact absurd h₁ (by simp only [reduceCtorEq, not_false_eq_true])
  · rw [h, ParseStep.sizeChanged.injEq] at h₁
    rw [h₁]
  · exact absurd (h₁.symm.trans h) (parseCounters_done _ rest o')

theorem parseFresh_ok {o o' : HttpDownload} {bytes : List Byte} {cfg' : Option (List Byte)}
    (h : parseFresh o bytes = (.ok true, o', cfg')) :
    cfg' = some bytes ∧ parseOnce o bytes = .done (.ok true) o' := by
  unfold parseFresh at h
  rcases hp : parseOnce o bytes with ⟨result, o₁⟩ | o₁
  · simp only [hp, Prod.mk.injEq] at h
    obtain ⟨rfl, rfl, rfl⟩ := h
    exact ⟨rfl, rfl⟩
  · simp only [hp, Prod.mk.injEq, Except.ok.injEq, Bool.false_eq_true, false_and] at h

theorem parseFresh_tasks (o o' : HttpDownload) (bytes : List Byte) (cfg' : Option (List Byte))
    (h : parseFresh o bytes = (.ok true, o', cfg')) (hpos : 1 ≤ o'.threadCount) :
    o'.downloadTasks.length = o.downloadTasks.length + o'.threadCount.toNat :=
  parseOnce_tasks o o' bytes (parseFresh_ok h).2 hpos

/-- A successful parse makes one task per counter, also when the file had to
    be replaced. -/
theorem parseDownloadCfg_tasks (o o' : HttpDownload) (cfg cfg' : Option (List Byte))
    (h : parseDownloadCfg o cfg = (.ok true, o', cfg')) (hpos : 1 ≤ o'.threadCount) :
    o'.downloadTasks.length = o.downloadTasks.length + o'.threadCount.toNat := by
  unfold parseDownloadCfg at h
  rcases cfg with _ | bytes
  · simp only [Prod.mk.injEq, Except.ok.injEq, Bool.false_eq_true, false_and] at h
  simp only at h
  rcases hp : parseOnce o bytes with ⟨result, o₁⟩ | o₁
  · simp only [hp, Prod.mk.injEq] at h
    obtain ⟨rfl, rfl, -⟩ := h
    exact parseOnce_tasks o o₁ bytes hp hpos
  · simp only [hp] at h
    rw [← parseOnce_sizeChanged hp]
    exact parseFresh_tasks o₁ o' _ cfg' h hpos

theorem length_cfgHeader (u : List Byte) (fileSize n : Int) :
    (cfgHeader u fileSize n).length = u.length + 24 := by
  unfold cfgHeader
  simp only [List.length_append, length_intBytes]
  omega

/-- The source counts the counters' place from the end of the file. -/
theorem counterOffset_cfgBytes (u : List Byte) (fileSize : Int) (n : Nat) (cs : List Int)
    (hn : n < 536870912) (hlen : cs.length = n) :
    counterOffset (cfgBytes u fileSize n cs) n = (u.length + 24 : Nat) := by
  unfold counterOffset cfgBytes
  rw [toInt32_eq _ (by omega) (by omega), List.length_append, length_cfgHeader,
    length_flatMap_intBytes, hlen]
  omega

/-- An update in place changes one counter, as long as the counters take fewer
    than `2 ^ 31` bytes. -/
theorem writeCounter_cfgBytes (u : List Byte) (fileSize : Int) (n id : Nat) (cs : List Int)
    (v : Int) (hn : n < 536870912) (hlen : cs.length = n) (hid : id < n) :
    writeCounter (cfgBytes u fileSize n cs) (u.length + 24 : Nat) id v
      = some (cfgBytes u fileSize n (cs.set id v)) := by
  have hpos : ((u.length + 24 : Nat) : Int) + toInt32 (4 * (id : Int))
      = (u.length + 24 + 4 * id : Nat) := by
    rw [toInt32_eq _ (by omega) (by omega)]
    omega
  unfold writeCounter
  simp only [hpos]
  rw [if_neg (by omega), Int.toNat_natCast, Option.some.injEq]
  -- The file splits around the slot of the counter.
  have hsplit : cs.set id v = cs.take id ++ v :: cs.drop (id + 1) := by
    rw [List.set_eq_take_append_cons_drop, if_pos (by omega)]
  have hcs : cs = cs.take id ++ cs[id] :: cs.drop (id + 1) := by
    rw [List.getElem_cons_drop, List.take_append_drop]
  have hbefore : (cfgHeader u fileSize n ++ (cs.take id).flatMap intBytes).length
      = u.length + 24 + 4 * id := by
    rw [List.length_append, length_cfgHeader, length_flatMap_intBytes, List.length_take]
    omega
  have hslot := writeAt_slot (cfgHeader u fileSize n ++ (cs.take id).flatMap intBytes)
    (intBytes cs[id]) ((cs.drop (id + 1)).flatMap intBytes) (intBytes v) rfl
  unfold cfgBytes
  have hfile : cfgHeader u fileSize n ++ cs.flatMap intBytes
      = cfgHeader u fileSize n ++ (cs.take id).flatMap intBytes ++ intBytes cs[id]
        ++ (cs.drop (id + 1)).flatMap intBytes := by
    conv_lhs => rw [hcs, List.flatMap_append, List.flatMap_cons]
    simp only [List.append_assoc]
  rw [hfile, hsplit, ← hbefore, hslot, List.flatMap_append, List.flatMap_cons]
  simp only [List.append_assoc]

end HttpDownload

end NetProbe
