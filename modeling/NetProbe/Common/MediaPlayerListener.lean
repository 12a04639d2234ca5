import NetProbe.Lib.Decimal
import NetProbe.Lib.Text

/-!
# The Listener for Media Player Lines

The state of the media player is read off the lines it writes to the log. A line is
searched for one keyword after the other and the first that is found names the
callback. Two kinds of lines carry numbers, and a number is what stands between
its key and the next comma.

The search for the key and the search for the comma can both come back with minus
one, and neither result is looked at: a line without the key is read from its fifth
character on, and a line without the comma throws. So does a number that is not one.
`handled_iff` says which lines these are. The number that stands last in a line has
no comma behind it, so a printed error comes back as printed only if something
follows it that starts with one.

A line holds UTF-16 code units. `mListener` is read once in a pass here, although
another thread can take it away between two reads of the source.

## Main definitions

* `Callback`: The calls the listener receives.
* `number`: The number behind a key.
* `report`, `handle`, `body`: One call, one line, and one pass of the loop.
* `Behind`, `HasNumber`: What is read for a number, and whether it is one.
* `ReachesError`, `Handled`: A line that no earlier branch takes, and a line whose
  numbers are there.
* `Plain`, `errorLine`: A text without the words that matter, and a printed error.

## Theorems

* `exists_behind`, `number_of_behind`: The number is read from what stands behind.
* `number_ok_iff`: When reading a number returns.
* `handle_cases`: What a line can lead to.
* `handle_isReturned_iff`: When a line is handled.
* `handle_calls`: A line makes at most one call.
* `not_infix_errorLine`, `behind_ext1`, `behind_ext2`: What is found in a printed error.
* `handled_iff`: The lines that are handled, and the errors that come back as printed.
-/

namespace NetProbe

namespace MediaPlayerListener

open Text

/-- A `String` in its code units. -/
abbrev Line := List (BitVec 16)

/-- The code units of an ASCII text. -/
def units (text : List Char) : Line := text.map (fun c => BitVec.ofNat 16 c.toNat)

/-- The code units of a literal. -/
def word (literal : String) : Line := units literal.toList

/-- The character of a code unit. Half of a pair becomes a character that is no digit
    either. -/
def unitChar (u : BitVec 16) : Char := Char.ofNat u.toNat

/-- The characters `parseInt` looks at. -/
def chars (line : Line) : List Char := line.map unitChar

/-- `","`. -/
def comma : BitVec 16 := 0x2C

/-- The calls of a `Listener`. -/
inductive Callback where
  | onSetDataSource (src : Line)
  | onMediaPlayerStarted
  | onMediaPaused
  | onMediaStopped
  | onMediaCompleted
  | onMediaError (ext1 ext2 : Int)
  | onMediaBufferingUpdate (process : Int)
  | onMediaSkipped
  deriving DecidableEq, Repr

/-- The number behind a key: `begin` is five past its first occurrence, or four where
    there is none. -/
def number (key line : Line) : Except JavaException Int := do
  let first := indexOf line key 0 + 5
  let last := indexOf line [comma] first.toNat
  let text ← substring line first last
  Decimal.parseInt (chars text)

/-- The callback, if nothing has thrown on the way to it. -/
def report (callback : Except JavaException Callback) (calls : List Callback) :
    Outcome (List Callback) :=
  match callback with
  | .ok c => .returned (calls ++ [c])
  | .error e => .threw e calls

/-- The part of the loop body behind the check for a line. -/
def handle (line : Line) (calls : List Callback) : Outcome (List Callback) :=
  if contains line (word "MEDIA_BUFFERING_UPDATE") then
    report (do
      let process ← number (word "ext1=") line
      return .onMediaBufferingUpdate process) calls
  else if 0 < indexOf line (word "setDataSource") 0 then
    report (do
      let url ← substring line (indexOf line (word "setDataSource") 0) line.length
      return .onSetDataSource url) calls
  else if contains line (word "MEDIA_PLAYER_STARTED") then report (.ok .onMediaPlayerStarted) calls
  else if contains line (word "MEDIA_PAUSED") then report (.ok .onMediaPaused) calls
  else if contains line (word "MEDIA_STOPPED") then report (.ok .onMediaStopped) calls
  else if contains line (word "MEDIA_SKIPPED") then report (.ok .onMediaSkipped) calls
  else if contains line (word "MEDIA_PLAYBACK_COMPLETE") then
    report (.ok .onMediaCompleted) calls
  else if contains line (word "MEDIA_ERROR") then
    report (do
      let ext1 ← number (word "ext1=") line
      let ext2 ← number (word "ext2=") line
      return .onMediaError ext1 ext2) calls
  else .returned calls

/-- One pass of the loop with what `readLine` has returned. Without a listener or a
    line it sleeps. -/
def body (mListener : Bool) (line : Option Line) (calls : List Callback) :
    Outcome (List Callback) :=
  match mListener, line with
  | true, some line => handle line calls
  | _, _ => .returned calls

/-! ### What the code reads -/

/-- What a number is read from: what stands behind the first occurrence of its key, or
    behind the first four characters where the key is missing. -/
inductive Behind (key : Line) : Line → Line → Prop where
  | found (front rest : Line) (h : ¬key <:+: front ++ key.dropLast) :
      Behind key (front ++ (key ++ rest)) rest
  | missing (line : Line) (h : ¬key <:+: line) : Behind key line (line.drop 4)

/-- An `int` and a comma stand behind the key. -/
def HasNumber (key line : Line) : Prop :=
  ∃ rest, Behind key line rest
    ∧ ∃ text tail, rest = text ++ comma :: tail ∧ comma ∉ text ∧ Decimal.IsInt (chars text)

/-- The keywords of the branches in front of the last one. `setDataSource` does not
    count at the start of a line. -/
structure ReachesError (line : Line) : Prop where
  buffering : ¬word "MEDIA_BUFFERING_UPDATE" <:+: line
  source : word "setDataSource" <:+: line → word "setDataSource" <+: line
  started : ¬word "MEDIA_PLAYER_STARTED" <:+: line
  paused : ¬word "MEDIA_PAUSED" <:+: line
  stopped : ¬word "MEDIA_STOPPED" <:+: line
  skipped : ¬word "MEDIA_SKIPPED" <:+: line
  complete : ¬word "MEDIA_PLAYBACK_COMPLETE" <:+: line
  error : word "MEDIA_ERROR" <:+: line

/-- The numbers that the line is read for are there. -/
structure Handled (line : Line) : Prop where
  buffering : word "MEDIA_BUFFERING_UPDATE" <:+: line → HasNumber (word "ext1=") line
  error : ReachesError line → HasNumber (word "ext1=") line ∧ HasNumber (word "ext2=") line

/-- The keywords of the branches in front of the one for errors. -/
def keywords : List Line :=
  [word "MEDIA_BUFFERING_UPDATE", word "setDataSource", word "MEDIA_PLAYER_STARTED",
    word "MEDIA_PAUSED", word "MEDIA_STOPPED", word "MEDIA_SKIPPED",
    word "MEDIA_PLAYBACK_COMPLETE"]

/-- A text without a key or an earlier keyword. -/
def Plain (text : Line) : Prop :=
  ∀ k ∈ word "ext1=" :: word "ext2=" :: keywords, ¬k <:+: text

/-- The line that reports the error `a`, `b`. -/
def errorLine (front : Line) (a b : Int) (suffix : Line) : Line :=
  front ++ (word "MEDIA_ERROR ext1=" ++ (units (Decimal.decimal a) ++ (word ", ext2=" ++
    (units (Decimal.decimal b) ++ suffix))))

/-! ### Reading a number -/

theorem length_ext1 : (word "ext1=").length = 5 := by decide +kernel

theorem length_ext2 : (word "ext2=").length = 5 := by decide +kernel

theorem exists_behind {key : Line} (hkey : key ≠ []) (line : Line) :
    ∃ rest, Behind key line rest := by
  rcases hindex : indexOf? key line with _ | i
  · refine ⟨_, .missing line fun hin => ?_⟩
    rw [← contains_iff, contains, hindex] at hin
    exact Bool.noConfusion hin
  · obtain ⟨hsplit, hnot⟩ := indexOf?_some hkey hindex
    have hbehind := Behind.found (line.take i) (line.drop (i + key.length)) hnot
    rw [← hsplit] at hbehind
    exact ⟨_, hbehind⟩

/-- Where the reading of a number begins. -/
theorem first_of_behind {key line rest : Line} (hkey : key.length = 5)
    (h : Behind key line rest) :
    ∃ first : Nat, 0 < first ∧ indexOf line key 0 + 5 = first ∧ line.drop first = rest := by
  cases h with
  | found front rest hnot =>
      refine ⟨front.length + 5, by omega, ?_, ?_⟩
      · rw [indexOf, List.drop_zero,
          indexOf?_append rest (List.length_pos_iff.mp (by omega)) hnot]
        dsimp only
        omega
      · rw [← hkey, ← List.drop_drop, List.drop_left, List.drop_left]
  | missing _ hnot =>
      refine ⟨4, by omega, ?_, rfl⟩
      rw [indexOf, List.drop_zero, indexOf?_eq_none line key hnot]
      rfl

theorem number_of_behind {key line rest : Line} (hkey : key.length = 5)
    (h : Behind key line rest) :
    number key line = match indexOf? [comma] rest with
      | some i => Decimal.parseInt (chars (rest.take i))
      | none => .error .indexOutOfBounds := by
  obtain ⟨first, hpos, hfirst, rfl⟩ := first_of_behind hkey h
  -- Both searches are replaced by what they find.
  rw [number, hfirst, Int.toNat_natCast, indexOf]
  rcases hindex : indexOf? [comma] (line.drop first) with _ | i
  · -- Without a comma the text would end before it begins.
    dsimp only
    rw [substring, if_neg (by omega)]
    rfl
  · dsimp only
    have hsplit := congrArg List.length (indexOf?_singleton hindex).1
    rw [List.length_append, List.length_cons, List.length_take, List.length_drop,
      List.length_drop] at hsplit
    rw [substring_drop line first i (by omega)]
    rfl

theorem number_ok_iff {key : Line} (hkey : key.length = 5) (line : Line) :
    (∃ n, number key line = .ok n) ↔ HasNumber key line := by
  constructor
  · rintro ⟨n, hn⟩
    obtain ⟨rest, hrest⟩ := exists_behind (List.length_pos_iff.mp (by omega : 0 < key.length)) line
    rw [number_of_behind hkey hrest] at hn
    rcases hindex : indexOf? [comma] rest with _ | i
    · rw [hindex] at hn
      exact absurd hn (by simp only [reduceCtorEq, not_false_eq_true])
    · rw [hindex] at hn
      obtain ⟨hsplit, hnot⟩ := indexOf?_singleton hindex
      exact ⟨rest, hrest, rest.take i, _, hsplit, hnot, (Decimal.parseInt_ok_iff _).mp ⟨n, hn⟩⟩
  · rintro ⟨rest, hrest, text, tail, rfl, hnot, hint⟩
    rw [number_of_behind hkey hrest, indexOf?_letter tail hnot]
    dsimp only
    rw [List.take_left]
    exact (Decimal.parseInt_ok_iff _).mpr hint

/-! ### One line -/

/-- What a line can lead to: the branch that reads one number, the one that reads two,
    or a branch that does not throw. -/
theorem handle_cases (line : Line) (calls : List Callback) :
    (word "MEDIA_BUFFERING_UPDATE" <:+: line
      ∧ handle line calls = report (do
          let process ← number (word "ext1=") line
          return .onMediaBufferingUpdate process) calls)
    ∨ (ReachesError line
      ∧ handle line calls = report (do
          let ext1 ← number (word "ext1=") line
          let ext2 ← number (word "ext2=") line
          return .onMediaError ext1 ext2) calls)
    ∨ (¬word "MEDIA_BUFFERING_UPDATE" <:+: line ∧ ¬ReachesError line
      ∧ (handle line calls = .returned calls
        ∨ ∃ c, handle line calls = .returned (calls ++ [c]))) := by
  unfold handle
  simp only [contains_iff]
  -- The branches in their order; each leaves behind that its keyword is not there.
  by_cases hbuffering : word "MEDIA_BUFFERING_UPDATE" <:+: line
  · rw [if_pos hbuffering]
    exact Or.inl ⟨hbuffering, rfl⟩
  refine Or.inr ?_
  rw [if_neg hbuffering]
  by_cases hsource : 0 < indexOf line (word "setDataSource") 0
  · rw [if_pos hsource]
    obtain ⟨url, hurl⟩ := substring_indexOf (by decide +kernel) hsource
    obtain ⟨hin, hstart⟩ := (indexOf_pos_iff (by decide +kernel)).mp hsource
    rw [hurl]
    exact Or.inr ⟨hbuffering, fun h => hstart (h.source hin), Or.inr ⟨_, rfl⟩⟩
  rw [if_neg hsource]
  rw [indexOf_pos_iff (by decide +kernel), not_and, not_not] at hsource
  by_cases hstarted : word "MEDIA_PLAYER_STARTED" <:+: line
  · rw [if_pos hstarted]
    exact Or.inr ⟨hbuffering, fun h => h.started hstarted, Or.inr ⟨_, rfl⟩⟩
  rw [if_neg hstarted]
  by_cases hpaused : word "MEDIA_PAUSED" <:+: line
  · rw [if_pos hpaused]
    exact Or.inr ⟨hbuffering, fun h => h.paused hpaused, Or.inr ⟨_, rfl⟩⟩
  rw [if_neg hpaused]
  by_cases hstopped : word "MEDIA_STOPPED" <:+: line
  · rw [if_pos hstopped]
    exact Or.inr ⟨hbuffering, fun h => h.stopped hstopped, Or.inr ⟨_, rfl⟩⟩
  rw [if_neg hstopped]
  by_cases hskipped : word "MEDIA_SKIPPED" <:+: line
  · rw [if_pos hskipped]
    exact Or.inr ⟨hbuffering, fun h => h.skipped hskipped, Or.inr ⟨_, rfl⟩⟩
  rw [if_neg hskipped]
  by_cases hcomplete : word "MEDIA_PLAYBACK_COMPLETE" <:+: line
  · rw [if_pos hcomplete]
    exact Or.inr ⟨hbuffering, fun h => h.complete hcomplete, Or.inr ⟨_, rfl⟩⟩
  rw [if_neg hcomplete]
  by_cases herror : word "MEDIA_ERROR" <:+: line
  · rw [if_pos herror]
    exact Or.inl ⟨⟨hbuffering, hsource, hstarted, hpaused, hstopped, hskipped, hcomplete, herror⟩,
      rfl⟩
  · rw [if_neg herror]
    exact Or.inr ⟨hbuffering, fun h => herror h.error, Or.inl rfl⟩

theorem report_isReturned_iff (callback : Except JavaException Callback)
    (calls : List Callback) :
    (report callback calls).isReturned = true ↔ ∃ c, callback = .ok c := by
  cases callback with
  | ok c => simp [report]
  | error e => simp [report]

theorem report_state (callback : Except JavaException Callback) (calls : List Callback) :
    (report callback calls).state = calls
      ∨ ∃ c, (report callback calls).state = calls ++ [c] := by
  cases callback with
  | ok c => exact Or.inr ⟨c, rfl⟩
  | error e => exact Or.inl rfl

theorem handle_isReturned_iff (line : Line) (calls : List Callback) :
    (handle line calls).isReturned = true ↔ Handled line := by
  have h1 := number_ok_iff length_ext1 line
  have h2 := number_ok_iff length_ext2 line
  rcases handle_cases line calls with ⟨hbuffering, heq⟩ | ⟨hreach, heq⟩ | ⟨hno, hnot, hreturned⟩
  · rw [heq, report_isReturned_iff, bind_ok_iff _ _ True fun n => pure_ok _, and_true, h1]
    exact ⟨fun h => ⟨fun _ => h, fun hreach => absurd hbuffering hreach.buffering⟩,
      fun h => h.buffering hbuffering⟩
  · rw [heq, report_isReturned_iff, bind_ok_iff _ _ (HasNumber (word "ext2=") line) fun n => by
      rw [bind_ok_iff _ _ True fun n => pure_ok _, and_true, h2], h1]
    exact ⟨fun h => ⟨fun hin => absurd hin hreach.buffering, fun _ => h⟩, fun h => h.error hreach⟩
  · refine iff_of_true ?_ ⟨fun hin => absurd hin hno, fun hreach => absurd hreach hnot⟩
    rcases hreturned with heq | ⟨c, heq⟩
    · rw [heq, Outcome.isReturned_returned]
    · rw [heq, Outcome.isReturned_returned]

theorem handle_calls (line : Line) (calls : List Callback) :
    (handle line calls).state = calls ∨ ∃ c, (handle line calls).state = calls ++ [c] := by
  rcases handle_cases line calls with ⟨-, heq⟩ | ⟨-, heq⟩ | ⟨-, -, heq | ⟨c, heq⟩⟩
  · rw [heq]
    exact report_state _ _
  · rw [heq]
    exact report_state _ _
  · exact Or.inl (by rw [heq, Outcome.state_returned])
  · exact Or.inr ⟨c, by rw [heq, Outcome.state_returned]⟩

/-! ### A printed error -/

theorem unitChar_ofNat {c : Char} (h : c.toNat < 2 ^ 16) :
    unitChar (BitVec.ofNat 16 c.toNat) = c := by
  rw [unitChar, BitVec.toNat_ofNat, Nat.mod_eq_of_lt h, Char.ofNat_toNat]

theorem toNat_of_mem_decimal {n : Int} {c : Char} (h : c ∈ Decimal.decimal n) :
    c.toNat < 2 ^ 16 := by
  rcases Decimal.mem_decimal h with rfl | hdigit
  · decide
  · have hdigits := Decimal.toNat_of_isDigit hdigit
    omega

theorem chars_decimal (n : Int) : chars (units (Decimal.decimal n)) = Decimal.decimal n := by
  rw [chars, units, List.map_map]
  exact (List.map_congr_left fun c hc => unitChar_ofNat (toNat_of_mem_decimal hc)).trans
    (List.map_id _)

/-- The units of a printed number lie between the sign and the digit nine. -/
theorem range_of_mem_decimal {n : Int} {u : BitVec 16} (h : u ∈ units (Decimal.decimal n)) :
    45 ≤ u.toNat ∧ u.toNat ≤ 57 := by
  obtain ⟨c, hc, rfl⟩ := List.mem_map.mp h
  have hrange : 45 ≤ c.toNat ∧ c.toNat ≤ 57 := by
    rcases Decimal.mem_decimal hc with rfl | hdigit
    · decide
    · have hdigits := Decimal.toNat_of_isDigit hdigit
      omega
  rw [BitVec.toNat_ofNat, Nat.mod_eq_of_lt (by omega)]
  exact hrange

theorem comma_notMem_decimal (n : Int) : comma ∉ units (Decimal.decimal n) := fun hmem =>
  absurd (range_of_mem_decimal hmem) (by decide)

variable {front suffix : Line} (a b : Int)

/-- A keyword is not in a printed error. Its first letter is only the first of the line's
    own text, and there and before it the keyword is another one. -/
theorem not_infix_errorLine {k : Line} (hk : k ∈ keywords) (hfront : ¬k <:+: front)
    (hsuffix : ¬k <:+: suffix) : ¬k <:+: errorLine front a b suffix := by
  have hne : ∀ k ∈ keywords, k ≠ [] := by decide +kernel
  have hheads : ∀ k ∈ keywords, (k.take 1).all (fun u => decide (57 < u.toNat
      ∧ u ∉ word "EDIA_ERROR ext1=" ∧ u ∉ word ", ext2=")) = true := by decide +kernel
  have hhead : ∀ u ∈ k.take 1, 57 < u.toNat
      ∧ u ∉ word "EDIA_ERROR ext1=" ∧ u ∉ word ", ext2=" :=
    fun u hu => of_decide_eq_true (List.all_eq_true.mp (hheads k hk) u hu)
  have hother : ∀ k ∈ keywords, ∀ i < k.length,
      ¬(k.drop i).take (word "MEDIA_ERROR ext1=").length <+: word "MEDIA_ERROR ext1=" := by
    decide +kernel
  have hrest : ¬k <:+: word "EDIA_ERROR ext1=" ++ (units (Decimal.decimal a) ++ (word ", ext2=" ++
      (units (Decimal.decimal b) ++ suffix))) := by
    have hdecimal : ∀ n, ∀ u ∈ k.take 1, u ∉ units (Decimal.decimal n) := fun n u hu hmem =>
      absurd (range_of_mem_decimal hmem).2 (Nat.not_le.mpr (hhead u hu).1)
    refine not_infix_of_head (hne k hk) (fun u hu => (hhead u hu).2.1) ?_
    refine not_infix_of_head (hne k hk) (hdecimal a) ?_
    refine not_infix_of_head (hne k hk) (fun u hu => (hhead u hu).2.2) ?_
    exact not_infix_of_head (hne k hk) (hdecimal b) hsuffix
  have hsplit : word "MEDIA_ERROR ext1=" = 0x4D :: word "EDIA_ERROR ext1=" := by decide +kernel
  refine not_infix_in_front hfront ?_ fun i hi _ => hother k hk i hi
  intro hin
  rw [hsplit, List.cons_append, List.infix_cons_iff, ← List.cons_append, ← hsplit] at hin
  refine hin.elim (fun hpre => ?_) hrest
  have htake := hpre.take (word "MEDIA_ERROR ext1=").length
  rw [List.take_left] at htake
  exact hother k hk 0 (List.length_pos_iff.mpr (hne k hk)) htake

theorem reachesError_errorLine (hfront : Plain front) (hsuffix : Plain suffix) :
    ReachesError (errorLine front a b suffix) := by
  have hnot : ∀ k ∈ keywords, ¬k <:+: errorLine front a b suffix := by
    intro k hk
    have hmem := List.mem_cons_of_mem (word "ext1=") (List.mem_cons_of_mem (word "ext2=") hk)
    exact not_infix_errorLine a b hk (hfront k hmem) (hsuffix k hmem)
  refine ⟨hnot _ ?_, fun hin => absurd hin (hnot _ ?_), hnot _ ?_, hnot _ ?_, hnot _ ?_,
    hnot _ ?_, hnot _ ?_, ⟨front, word " ext1=" ++ (units (Decimal.decimal a) ++
      (word ", ext2=" ++ (units (Decimal.decimal b) ++ suffix))), ?_⟩⟩
  case refine_8 =>
    rw [errorLine, show word "MEDIA_ERROR ext1=" = word "MEDIA_ERROR" ++ word " ext1=" by
      decide +kernel]
    simp only [List.append_assoc]
  all_goals simp only [keywords, List.mem_cons, true_or, or_true]

theorem behind_ext1 (hfront : Plain front) :
    Behind (word "ext1=") (errorLine front a b suffix) (units (Decimal.decimal a) ++
      (word ", ext2=" ++ (units (Decimal.decimal b) ++ suffix))) := by
  have hnot : ¬word "ext1=" <:+: front ++ (word "MEDIA_ERROR ext1" ++ []) :=
    not_infix_in_front (hfront _ List.mem_cons_self) (by decide +kernel) (by decide +kernel)
  have hkey : word "MEDIA_ERROR ext1" ++ [] = word "MEDIA_ERROR " ++ (word "ext1=").dropLast := by
    decide +kernel
  have hliteral : word "MEDIA_ERROR ext1=" = word "MEDIA_ERROR " ++ word "ext1=" := by
    decide +kernel
  rw [hkey, ← List.append_assoc] at hnot
  rw [errorLine, hliteral, List.append_assoc, ← List.append_assoc front]
  exact .found _ _ hnot

theorem behind_ext2 (hfront : Plain front) :
    Behind (word "ext2=") (errorLine front a b suffix) (units (Decimal.decimal b) ++ suffix) := by
  have hdecimal : ∀ u ∈ (word "ext2=").take 1, u ∉ units (Decimal.decimal a) := by
    intro u hu hmem
    rw [show (word "ext2=").take 1 = [0x65] by decide +kernel, List.mem_singleton] at hu
    subst hu
    exact absurd (range_of_mem_decimal hmem).2 (by decide)
  have hrest : ¬word "ext2=" <:+: units (Decimal.decimal a) ++ word ", ext2" :=
    not_infix_of_head (by decide +kernel) hdecimal (by decide +kernel)
  have hnot : ¬word "ext2=" <:+: front ++ (word "MEDIA_ERROR ext1=" ++
      (units (Decimal.decimal a) ++ word ", ext2")) := by
    have hends : ∀ i < (word "ext2=").length, 0 < i →
        ¬(word "ext2=").take i <:+ word "MEDIA_ERROR ext1=" := by decide +kernel
    refine not_infix_in_front (hfront _ (List.mem_cons_of_mem _ List.mem_cons_self)) ?_
      (by decide +kernel)
    exact not_infix_append (by decide +kernel) hrest
      fun i hi hlen hsuffix => absurd hsuffix (hends i hlen hi)
  have hkey : word ", ext2" = word ", " ++ (word "ext2=").dropLast := by decide +kernel
  have hliteral : word ", ext2=" = word ", " ++ word "ext2=" := by decide +kernel
  have hbehind := Behind.found (front ++ (word "MEDIA_ERROR ext1=" ++
    (units (Decimal.decimal a) ++ word ", "))) (units (Decimal.decimal b) ++ suffix)
    (by simpa only [hkey, List.append_assoc] using hnot)
  simpa only [errorLine, hliteral, List.append_assoc] using hbehind

variable {a b}

theorem number_ext1_errorLine (hmin : -2147483648 ≤ a) (hmax : a ≤ 2147483647)
    (hfront : Plain front) : number (word "ext1=") (errorLine front a b suffix) = .ok a := by
  have hcomma : word ", ext2=" = comma :: word " ext2=" := by decide +kernel
  rw [number_of_behind length_ext1 (behind_ext1 a b hfront), hcomma, List.cons_append,
    indexOf?_letter _ (comma_notMem_decimal a)]
  dsimp only
  rw [List.take_left, chars_decimal, Decimal.parseInt_decimal hmin hmax]

theorem number_ext2_comma (tail : Line) (hmin : -2147483648 ≤ b) (hmax : b ≤ 2147483647)
    (hfront : Plain front) :
    number (word "ext2=") (errorLine front a b (comma :: tail)) = .ok b := by
  rw [number_of_behind length_ext2 (behind_ext2 a b hfront),
    indexOf?_letter _ (comma_notMem_decimal b)]
  dsimp only
  rw [List.take_left, chars_decimal, Decimal.parseInt_decimal hmin hmax]

/-- The last number of a line is not read if no comma stands behind it, even if one
    comes later. -/
theorem number_ext2_other (hfront : Plain front)
    (hdigit : ∀ u ∈ suffix.head?, Decimal.digit (unitChar u) = none)
    (hcomma : suffix.head? ≠ some comma) (n : Int) :
    number (word "ext2=") (errorLine front a b suffix) ≠ .ok n := by
  rw [number_of_behind length_ext2 (behind_ext2 a b hfront)]
  rcases hindex : indexOf? [comma] (units (Decimal.decimal b) ++ suffix) with _ | i
  · exact fun h => absurd h (by simp only [reduceCtorEq, not_false_eq_true])
  dsimp only
  -- The comma is found past the number and what stands behind it.
  have hat := getElem?_of_indexOf? hindex
  have hpast : (units (Decimal.decimal b)).length < i := by
    by_contra hle
    rcases Nat.lt_or_eq_of_le (Nat.le_of_not_lt hle) with hlt | heq
    · rw [List.getElem?_append_left hlt] at hat
      exact comma_notMem_decimal b (List.mem_of_getElem? hat)
    · rw [heq, List.getElem?_append_right (Nat.le_refl _), Nat.sub_self,
        ← List.head?_eq_getElem?] at hat
      exact hcomma hat
  cases suffix with
  | nil =>
      rw [List.append_nil, List.getElem?_eq_none (Nat.le_of_lt hpast)] at hat
      exact absurd hat (by simp only [reduceCtorEq, not_false_eq_true])
  | cons u tail =>
      obtain ⟨j, rfl⟩ := Nat.exists_eq_add_of_lt hpast
      have htake : (units (Decimal.decimal b) ++ u :: tail).take
          ((units (Decimal.decimal b)).length + j + 1)
          = units (Decimal.decimal b) ++ u :: tail.take j := by
        rw [Nat.add_assoc, List.take_length_add_append, List.take_succ_cons]
      rw [htake, chars, List.map_append, List.map_cons, ← chars, chars_decimal,
        Decimal.parseInt_decimal_append b _ (hdigit u rfl)]
      exact fun h => absurd h (by simp only [reduceCtorEq, not_false_eq_true])

theorem handle_errorLine (hfront : Plain front) (hsuffix : Plain suffix)
    (calls : List Callback) :
    handle (errorLine front a b suffix) calls = report (do
      let ext1 ← number (word "ext1=") (errorLine front a b suffix)
      let ext2 ← number (word "ext2=") (errorLine front a b suffix)
      return .onMediaError ext1 ext2) calls := by
  have hreach := reachesError_errorLine a b hfront hsuffix
  rcases handle_cases (errorLine front a b suffix) calls with ⟨hin, -⟩ | ⟨-, heq⟩ | ⟨-, hnot, -⟩
  · exact absurd hin hreach.buffering
  · exact heq
  · exact absurd hreach hnot

theorem handle_errorLine_iff (hfront : Plain front) (hsuffix : Plain suffix)
    (hmina : -2147483648 ≤ a) (hmaxa : a ≤ 2147483647)
    (hminb : -2147483648 ≤ b) (hmaxb : b ≤ 2147483647)
    (hdigit : ∀ u ∈ suffix.head?, Decimal.digit (unitChar u) = none) (calls : List Callback) :
    handle (errorLine front a b suffix) calls = .returned (calls ++ [.onMediaError a b])
      ↔ suffix.head? = some comma := by
  rw [handle_errorLine hfront hsuffix, number_ext1_errorLine hmina hmaxa hfront]
  constructor
  · intro hreturned
    by_contra hcomma
    have hother := @number_ext2_other front suffix a b hfront hdigit hcomma
    rcases hnumber : number (word "ext2=") (errorLine front a b suffix) with e | n
    · rw [hnumber] at hreturned
      exact absurd hreturned (by simp [report, Bind.bind, Except.bind])
    · exact hother n hnumber
  · intro hcomma
    obtain ⟨tail, rfl⟩ := List.head?_eq_some_iff.mp hcomma
    rw [number_ext2_comma tail hminb hmaxb hfront]
    rfl

/-- A pass throws exactly on a line without a number it is read for, it makes at most
    one call, and an error comes back as printed exactly if a comma stands behind it. -/
theorem handled_iff (mListener : Bool) (line : Line) (calls : List Callback) (a b : Int)
    (front suffix : Line) :
    ((body mListener (some line) calls).isReturned = true ↔ (mListener = true → Handled line))
    ∧ ((body mListener (some line) calls).state = calls
      ∨ ∃ c, (body mListener (some line) calls).state = calls ++ [c])
    ∧ (-2147483648 ≤ a → a ≤ 2147483647 → -2147483648 ≤ b → b ≤ 2147483647 →
      Plain front → Plain suffix →
      (∀ u ∈ suffix.head?, Decimal.digit (unitChar u) = none) →
      (body true (some (errorLine front a b suffix)) calls
          = .returned (calls ++ [.onMediaError a b])
        ↔ suffix.head? = some comma)) := by
  refine ⟨?_, ?_, fun hmina hmaxa hminb hmaxb hfront hsuffix hdigit =>
    handle_errorLine_iff hfront hsuffix hmina hmaxa hminb hmaxb hdigit calls⟩
  · cases mListener with
    | true => exact (handle_isReturned_iff line calls).trans ⟨fun h _ => h, fun h => h rfl⟩
    | false => exact iff_of_true rfl Bool.noConfusion
  · cases mListener with
    | true => exact handle_calls line calls
    | false => exact Or.inl rfl

/-- A comma behind the last number. -/
theorem handled_iff_comma :
    body true (some (errorLine (word "E/MediaPlayer: ") (-38) 0 (word ", pid=1"))) []
      = .returned [.onMediaError (-38) 0] :=
  ((handled_iff true [] [] (-38) 0 (word "E/MediaPlayer: ") (word ", pid=1")).2.2 (by decide)
    (by decide) (by decide) (by decide) (by unfold Plain; decide +kernel)
    (by unfold Plain; decide +kernel)
    (fun u hu => by
      rw [show (word ", pid=1").head? = some comma by decide +kernel, Option.mem_some_iff] at hu
      subst hu
      decide +kernel)).mpr (by decide +kernel)

/-- The line ends with the last number, and a buffering update without its key. -/
theorem not_handled :
    Plain [] ∧ errorLine [] 1 2 [] = word "MEDIA_ERROR ext1=1, ext2=2"
    ∧ body true (some (errorLine [] 1 2 [])) [] = .threw .indexOutOfBounds []
    ∧ body true (some (word "MEDIA_BUFFERING_UPDATE")) [] = .threw .indexOutOfBounds [] := by
  unfold Plain
  decide +kernel

end MediaPlayerListener

end NetProbe
