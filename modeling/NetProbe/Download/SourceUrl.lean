import NetProbe.Download.Parsing

/-!
# Which URL Is Fetched

A download is asked for by URL, but its config file is found by the last
segment of the URL alone. Two URLs that end alike share the file, so a session
may find a file that another URL has left.

The reading takes the URL over from the file and never compares it with the
one asked for; every task then connects to the URL of its download object. A
file made for another size is discarded, but the URL has been taken over by
then, and the new file is written with it. Only a new download, or one that
finds no file, keeps its own URL, up to what the charset makes of it.

## Main definitions

* `lastSegment`: The part of a URL that names the config file.
* `createDownloadCfg`, `prepare`: The two steps in front of the tasks, with every
  config file they write.
* `connectsTo`: The URL a task connects to.
* `storedUrl`: The URL a config file stores.
* `LeftCfg`: A config file that a URL with the same last segment has left.
* `FetchesUrl`: Every task and every file written has the given URL.
* `sourceUrl`: The URL of the file about to be read.

## Theorems

* `storedUrl_cfgBytes`: The URL of a file by its layout.
* `parseOnce_newCfg`, `parseOnce_left`, `parseOnce_left_otherSize`: What a file
  does to the URL of the object that reads it.
* `fetchesUrl_new_iff`, `fetchesUrl_left_iff`: The two ways a session starts.
* `fetchesUrl_iff`: When the URL asked for is the URL fetched.
-/

namespace NetProbe

namespace HttpDownload

/-- `url.substring(url.lastIndexOf('/') + 1)`. -/
def lastSegment (url : List CodeUnit) : List CodeUnit :=
  (url.reverse.takeWhile (fun u => decide (u ≠ 0x2F))).reverse

/-- `createDownloadCfg(redownload)` when no I/O fails: the file afterwards, and
    what was written for it. -/
def createDownloadCfg (o : HttpDownload) (cfg : Option (List Byte)) (redownload : Bool) :
    List Byte × List (List Byte) :=
  match cfg, redownload with
  | some bytes, false => (bytes, [])
  | _, _ => (o.newCfg, [o.newCfg])

/-- The file that the reading of another one writes in its place. -/
def rewritten (o : HttpDownload) (bytes : List Byte) : List (List Byte) :=
  match parseOnce o bytes with
  | .done _ _ => []
  | .sizeChanged o' => [o'.newCfg]

/-- What the steps in front of the tasks leave behind. -/
structure Prepared where
  result : Except JavaException Bool
  object : HttpDownload
  written : List (List Byte)

/-- `createDownloadCfg(redownload)`, then `parseDownloadCfg()`. -/
def prepare (o : HttpDownload) (cfg : Option (List Byte)) (redownload : Bool) : Prepared :=
  let created := o.createDownloadCfg cfg redownload
  let parsed := o.parseDownloadCfg (some created.1)
  { result := parsed.1
    object := parsed.2.1
    written := created.2 ++ o.rewritten created.1 }

/-- `httpConnect(HttpDownload.this.url, "GET")` in the `call` of a task. -/
def connectsTo (o : HttpDownload) (_ : DownloadTask) : List CodeUnit := o.url

/-- The URL a config file stores, as a reader decodes it. -/
def storedUrl (bytes : List Byte) : Option (List CodeUnit) :=
  match readInt bytes with
  | none => none
  | some (_, s₁) =>
      match readInt s₁ with
      | none => none
      | some (urlLen, s₂) =>
          if urlLen < 0 then none else some (decodeUtf16 (readFully urlLen.toNat s₂).1)

/-- A config file left by a download of a URL that ends like `u`: a URL whose
    bytes fit an array, a size, and at least one counter. -/
structure LeftCfg (u : List CodeUnit) where
  url : List CodeUnit
  fileSize : Int
  counters : List Int
  sameSegment : lastSegment url = lastSegment u
  url_fits : 2 * url.length < 2147483648
  size_ge : -2147483648 ≤ fileSize
  size_lt : fileSize < 2147483648
  counters_pos : 1 ≤ counters.length
  counters_lt : counters.length < 2147483648
  counters_int : Counters counters

/-- The bytes of the file. -/
def LeftCfg.bytes {u : List CodeUnit} (left : LeftCfg u) : List Byte :=
  cfgBytes (encodeUtf16 left.url) left.fileSize left.counters.length left.counters

/-- If the steps succeed, every task connects to `u`, and every config file
    written on the way stores `u`. -/
def FetchesUrl (u : List CodeUnit) (prepared : Prepared) : Prop :=
  prepared.result = .ok true →
    (∀ task ∈ prepared.object.downloadTasks, prepared.object.connectsTo task = u)
    ∧ ∀ cfg ∈ prepared.written, storedUrl cfg = some u

theorem storedUrl_cfgBytes (urlBytes : List Byte) (fileSize n : Int) (counters : List Int)
    (hu : urlBytes.length < 2147483648) :
    storedUrl (cfgBytes urlBytes fileSize n counters) = some (decodeUtf16 urlBytes) := by
  have hfull : ∀ rest, readFully urlBytes.length (urlBytes ++ rest) = (urlBytes, rest) :=
    fun rest => readFully_append urlBytes.length urlBytes rest rfl
  unfold cfgBytes cfgHeader storedUrl
  simp only [List.append_assoc, readInt_intBytes_eq 1 _ (by omega) (by omega),
    readInt_intBytes_eq urlBytes.length _ (by omega) (by omega)]
  rw [if_neg (by omega), Int.toNat_natCast, hfull]

/-- The coders change nothing that they have been through. -/
theorem replaceUnpaired_idem (url : List CodeUnit) :
    replaceUnpaired (replaceUnpaired url) = replaceUnpaired url :=
  replaceUnpaired_of_utf16 (utf16_replaceUnpaired url)

/-- All tasks share the object's URL, so it decides alone once there is a task
    and the files written store it. -/
theorem fetchesUrl_iff_url (u : List CodeUnit) (o : HttpDownload) (written : List (List Byte))
    (htasks : o.downloadTasks ≠ []) (hwritten : ∀ cfg ∈ written, storedUrl cfg = some o.url) :
    FetchesUrl u ⟨.ok true, o, written⟩ ↔ o.url = u := by
  constructor
  · intro h
    obtain ⟨task, htask⟩ := List.exists_mem_of_ne_nil _ htasks
    exact (h rfl).1 task htask
  · intro h _
    exact ⟨fun _ _ => h, fun cfg hcfg => h ▸ hwritten cfg hcfg⟩

theorem tasksOf_ne_nil (fileSize : Int) (n : Nat) (cs : List Int) (h : 1 ≤ cs.length) :
    tasksOf fileSize n cs ≠ [] := by
  intro hnil
  have hlen := congrArg List.length hnil
  rw [length_tasksOf, List.length_nil] at hlen
  omega

section Start

variable (o : HttpDownload) (hurl : 2 * o.url.length < 2147483648) (hsize : 0 < o.fileSize)
  (hsize' : o.fileSize < 2147483648) (hthreads : 1 ≤ o.threadCount)
  (hthreads' : o.threadCount < 2147483648)

include hurl

/-- A file written for the object stores its URL as the coders leave it. -/
theorem storedUrl_newCfg : storedUrl o.newCfg = some (replaceUnpaired o.url) := by
  rw [newCfg, storedUrl_cfgBytes _ _ _ _ (by rw [length_encodeUtf16]; exact hurl),
    decodeUtf16_encodeUtf16]

include hsize hsize' hthreads hthreads'

/-- A file written for the object is read, and gives it that URL back. -/
theorem parseOnce_newCfg :
    ∃ tasks, tasks ≠ [] ∧ parseOnce o o.newCfg = .done (.ok true)
      { o with url := replaceUnpaired o.url, downloadTasks := o.downloadTasks ++ tasks } := by
  obtain ⟨n, hn⟩ := Int.eq_ofNat_of_zero_le (by omega : 0 ≤ o.threadCount)
  have hbytes : (encodeUtf16 o.url).length < 2147483648 := by
    rw [length_encodeUtf16]
    exact hurl
  have hlen : 1 ≤ (List.replicate n (0 : Int)).length := by
    rw [List.length_replicate]
    omega
  refine ⟨tasksOf o.fileSize n (List.replicate n 0), tasksOf_ne_nil _ _ _ hlen, ?_⟩
  rw [parseOnce_newCfg_own o n hbytes (by omega) hsize' (by omega) (by omega) hn,
    decodeUtf16_encodeUtf16, hn]

/-- A session that starts with a file of its own fetches its own URL, as the
    coders leave it. -/
theorem fetchesUrl_new_iff (u : List CodeUnit) (cfg : Option (List Byte)) (redownload : Bool)
    (hnew : o.createDownloadCfg cfg redownload = (o.newCfg, [o.newCfg])) :
    FetchesUrl u (o.prepare cfg redownload) ↔ replaceUnpaired o.url = u := by
  obtain ⟨tasks, hne, hparse⟩ := parseOnce_newCfg o hurl hsize hsize' hthreads hthreads'
  have hrewritten : o.rewritten o.newCfg = [] := by
    rw [rewritten, hparse]
  rw [prepare, hnew]
  simp only [parseDownloadCfg_of_done hparse, hrewritten, List.append_nil]
  refine fetchesUrl_iff_url u _ _ (List.append_ne_nil_of_right_ne_nil _ hne) ?_
  intro cfg hcfg
  rw [List.mem_singleton.mp hcfg]
  exact storedUrl_newCfg o hurl

end Start

section Left

variable (o : HttpDownload) (u : List CodeUnit) (left : LeftCfg u)

theorem length_encodeUtf16_left : (encodeUtf16 left.url).length < 2147483648 := by
  rw [length_encodeUtf16]
  exact left.url_fits

/-- A file for the size at hand is taken as it is, with the URL stored there. -/
theorem parseOnce_left (hsize : 0 < o.fileSize) (hsize' : o.fileSize < 2147483648)
    (hsame : left.fileSize = o.fileSize) :
    parseOnce o left.bytes = .done (.ok true)
      { o with
        url := replaceUnpaired left.url
        threadCount := left.counters.length
        downloadTasks := o.downloadTasks
          ++ tasksOf o.fileSize left.counters.length left.counters } := by
  rw [LeftCfg.bytes, hsame, parseOnce_cfgBytes o _ _ _ (length_encodeUtf16_left u left) (by omega)
    hsize' left.counters_pos left.counters_lt rfl left.counters_int, decodeUtf16_encodeUtf16]

/-- A file for another size is given up when its URL has been taken over. -/
theorem parseOnce_left_otherSize (hother : left.fileSize ≠ o.fileSize) :
    parseOnce o left.bytes = .sizeChanged { o with url := replaceUnpaired left.url } := by
  have hlt := left.counters_lt
  rw [LeftCfg.bytes, cfgBytes, parseOnce_cfgHeader_size o _ _ _ _ (length_encodeUtf16_left u left)
    left.size_ge left.size_lt (by omega) (by omega), if_pos hother, decodeUtf16_encodeUtf16]

/-- A session that finds a file fetches the URL stored there, whether the sizes
    agree or a new file is made. -/
theorem fetchesUrl_left_iff (hsize : 0 < o.fileSize) (hsize' : o.fileSize < 2147483648)
    (hthreads : 1 ≤ o.threadCount) (hthreads' : o.threadCount < 2147483648) :
    FetchesUrl u (o.prepare (some left.bytes) false) ↔ replaceUnpaired left.url = u := by
  by_cases hsame : left.fileSize = o.fileSize
  · have hparse := parseOnce_left o u left hsize hsize' hsame
    have hrewritten : o.rewritten left.bytes = [] := by
      rw [rewritten, hparse]
    rw [prepare, createDownloadCfg]
    simp only [parseDownloadCfg_of_done hparse, hrewritten, List.append_nil]
    refine fetchesUrl_iff_url u _ _ (List.append_ne_nil_of_right_ne_nil _
      (tasksOf_ne_nil _ _ _ left.counters_pos)) ?_
    exact fun cfg hcfg => absurd hcfg List.not_mem_nil
  · -- The sizes differ: the file is replaced, by one that carries the URL read.
    obtain ⟨o', ho'⟩ : ∃ o', o' = ({ o with url := replaceUnpaired left.url } : HttpDownload) :=
      ⟨_, rfl⟩
    have hparse : parseOnce o left.bytes = .sizeChanged o' := by
      rw [ho']
      exact parseOnce_left_otherSize o u left hsame
    have hurl' : o'.url = replaceUnpaired left.url := by rw [ho']
    have hlen : 2 * o'.url.length < 2147483648 := by
      rw [hurl', length_replaceUnpaired]
      exact left.url_fits
    have hstored := storedUrl_newCfg o' hlen
    obtain ⟨tasks, hne, hfresh⟩ := parseOnce_newCfg o' hlen (by rw [ho']; exact hsize)
      (by rw [ho']; exact hsize') (by rw [ho']; exact hthreads) (by rw [ho']; exact hthreads')
    rw [hurl', replaceUnpaired_idem] at hstored hfresh
    have hend : o.parseDownloadCfg (some left.bytes) = parseFresh o' o'.newCfg := by
      rw [parseDownloadCfg, hparse]
    have hrewritten : o.rewritten left.bytes = [o'.newCfg] := by
      rw [rewritten, hparse]
    rw [prepare, createDownloadCfg]
    simp only [hend, parseFresh_of_done hfresh, hrewritten, List.nil_append]
    refine fetchesUrl_iff_url u _ _ (List.append_ne_nil_of_right_ne_nil _ hne) ?_
    intro cfg hcfg
    rw [List.mem_singleton.mp hcfg]
    exact hstored

end Left

/-- The URL that the file about to be read was written for: that of a file
    found, unless the download is to start anew. -/
def sourceUrl (u : List CodeUnit) (left : Option (LeftCfg u)) (redownload : Bool) :
    List CodeUnit :=
  match left, redownload with
  | some l, false => l.url
  | _, _ => u

/-- The URL asked for is the URL fetched exactly if the file about to be read
    was written for it and the coders keep it. -/
theorem fetchesUrl_iff (u : List CodeUnit) (threadCount fileSize : Int)
    (left : Option (LeftCfg u)) (redownload : Bool) (hurl : 2 * u.length < 2147483648)
    (hthreads : threadCount < 2147483648) (hsize : 0 < fileSize) (hsize' : fileSize < 2147483648) :
    FetchesUrl u ((createSized u threadCount fileSize).prepare (left.map LeftCfg.bytes) redownload)
      ↔ replaceUnpaired (sourceUrl u left redownload) = u := by
  have hcount : 1 ≤ (createSized u threadCount fileSize).threadCount
      ∧ (createSized u threadCount fileSize).threadCount < 2147483648 := by
    simp only [createSized, create]
    split <;> omega
  cases left with
  | none =>
      exact fetchesUrl_new_iff (createSized u threadCount fileSize) hurl hsize hsize' hcount.1
        hcount.2 u none redownload rfl
  | some l =>
      cases redownload with
      | true =>
          exact fetchesUrl_new_iff (createSized u threadCount fileSize) hurl hsize hsize' hcount.1
            hcount.2 u (some l.bytes) true rfl
      | false =>
          exact fetchesUrl_left_iff (createSized u threadCount fileSize) u l hsize hsize' hcount.1
            hcount.2

/-- Two URLs with the same last segment. -/
def urlA : List CodeUnit := ascii "http://a/x".toList

def urlB : List CodeUnit := ascii "http://b/x".toList

/-- A file of five bytes that the second URL has left, looked for by the first. -/
def leftByOther : LeftCfg urlA where
  url := urlB
  fileSize := 5
  counters := [0]
  sameSegment := by decide
  url_fits := by decide
  size_ge := by decide
  size_lt := by decide
  counters_pos := by decide
  counters_lt := by decide
  counters_int := by
    intro c hc
    rw [List.mem_singleton.mp hc]
    decide

/-- A download started anew keeps its URL, whatever file it finds. -/
theorem fetchesUrl_iff_redownload :
    FetchesUrl urlA ((createSized urlA 1 5).prepare
      (some leftByOther.bytes) true) :=
  (fetchesUrl_iff urlA 1 5 (some leftByOther) true (by decide) (by decide)
    (by decide) (by decide)).mpr (by decide)

/-- A file that another URL has left is followed: with its size the tasks
    connect to the other URL, and with another size the new file stores it too. -/
theorem other_url_fetched :
    ¬FetchesUrl urlA ((createSized urlA 1 5).prepare
      (some leftByOther.bytes) false)
    ∧ ¬FetchesUrl urlA ((createSized urlA 1 6).prepare
      (some leftByOther.bytes) false) := by
  have hother : replaceUnpaired leftByOther.url ≠ urlA := by decide
  refine ⟨fun h => hother ?_, fun h => hother ?_⟩
  · exact (fetchesUrl_left_iff (createSized urlA 1 5) _ leftByOther (by decide)
      (by decide) (by decide) (by decide)).mp h
  · exact (fetchesUrl_left_iff (createSized urlA 1 6) _ leftByOther (by decide)
      (by decide) (by decide) (by decide)).mp h

end HttpDownload

end NetProbe
