import NetProbe.Lib.Simulation
import NetProbe.Qualcomm.DiagFiles
import NetProbe.Qualcomm.Registration

/-!
# From the Diag Files to the Listeners

The diag thread reads the files of the diag library and its decoder puts the
packets into a queue; the dispatch task takes them out and hands each to the
dispatcher, which goes through the listeners of its code. The screens register
and unregister themselves on a third thread, also while the task is inside such
a list.

The machine puts the two threads and the registrations together. The diag side
is the machine of `DiagFiles`, whose decoder holds the queue. The task goes
through a list as its iterator does, element by element, and the iterator
compares the list's count of changes with the one it started from: after a
change it makes no further call. It then ends the loop or throws, which of the
two depends on the library's version and is left to the label. A listener is
called with the packet object of the code, and `calls` records what the object
holds at that moment. A registered listener only sends itself a message, so its
call returns.

`taken` is what the task took from the queue. With it put back, the diag side
is a run of `DiagFiles` of its own, and so what is known of that machine holds
here.

## Main definitions

* `DispatchPc`, `Pipeline`: The state of the machine.
* `taskStep`, `change`, `step`: One step of the task, of a screen, or of the
  diag side.
* `Dispatches`: The steps of the task, one case each.
* `received`: The packets one listener was called with for one code.
* `Undisturbed`: A list is not changed while the task goes through it.
* `Once`, `Delivering`: The invariants.

## Theorems

* `taskStep_dispatches`: What a step of the task can be.
* `pipeline_follows`: The diag side, with the taken packets put back, is a run
  of `DiagFiles`.
* `taken_decoded`: What was taken and what is queued is what was decoded.
* `received_at_most_once`: In every run a listener is called at most once for
  each packet of its code, in the order of the packets.
* `received_exactly`: A listener that stays registered gets every packet, if
  its list is not changed under the loop.
* `frames_delivered`: The packets of the frames the library wrote reach that
  listener in order, none lost and none twice.
-/

namespace NetProbe

open Machine

namespace Hdlc

open ByteStuffing

/-- The decoder before the first packets of its queue were taken. -/
def Decoder.unread (d : Decoder) (taken : List (List Byte)) : Decoder :=
  { d with mPacketQueue := taken ++ d.mPacketQueue }

theorem decodeByte_unread (taken : List (List Byte)) (s : Bool × Decoder) (b : Byte) :
    decodeByte (s.1, s.2.unread taken) b
      = (decodeByte s b).map (fun s => (s.1, s.2.unread taken)) := by
  unfold decodeByte Decoder.store Decoder.enqueue Decoder.unread
  dsimp only
  split_ifs
  all_goals simp only [Outcome.map_returned, Outcome.map_threw, List.append_assoc]

theorem feed_unread (taken : List (List Byte)) (bs : List Byte) (s : Bool × Decoder) :
    Outcome.feed decodeByte (s.1, s.2.unread taken) bs
      = (Outcome.feed decodeByte s bs).map (fun s => (s.1, s.2.unread taken)) := by
  induction bs generalizing s with
  | nil => rfl
  | cons b bs ih =>
      rw [Outcome.feed_cons, Outcome.feed_cons, decodeByte_unread]
      cases decodeByte s b with
      | returned s' => exact ih s'
      | threw e s' => rfl

/-- The decoder never looks at the packets it has queued. -/
theorem decode_unread (taken : List (List Byte)) (d : Decoder) (srcData : List Byte) (len : Nat) :
    decode (d.unread taken) srcData len = (decode d srcData len).map (Decoder.unread · taken) := by
  unfold decode
  rw [feed_unread taken (srcData.take len) (false, d)]
  cases Outcome.feed decodeByte (false, d) (srcData.take len) with
  | returned s =>
      simp only [Outcome.map_returned, Outcome.bind_returned]
      split
      · rfl
      · rfl
  | threw e s => rfl

/-- Absorbing tokens only adds packets. -/
theorem feed_collect_packets (ts : List (Token Byte)) (s : Deframer Byte) :
    s.packets <+: (Outcome.feed collect s ts).state.packets := by
  refine Outcome.feed_keeps collect (fun t => s.packets <+: t.packets) ?_ ts s
    (List.prefix_refl _)
  intro t tok ht
  unfold collect absorb
  split
  · split
    · exact ht
    · exact ht
  · split
    · exact ht
    · exact ht.trans (List.prefix_append _ _)

/-- Whatever part of a stream of frames has come in, cut outside the escapes, its
    packets are the first packets of the stream, and no token of it offends. -/
theorem decodeChunks_frames (fs : List SentFrame) (chunks : List (List Byte))
    (hfit : ∀ f ∈ fs, f.packet.length + 2 ≤ readBufferMaxSize) (hcuts : cutsCleanly chunks)
    (hpart : chunks.flatten <+: fs.flatMap frame) :
    (decodeChunks .fresh chunks).isReturned = true ∧
      (decodeChunks .fresh chunks).state.mPacketQueue <+: fs.map SentFrame.packet ∧
      (chunks.flatten = fs.flatMap frame →
        (decodeChunks .fresh chunks).state.mPacketQueue = fs.map SentFrame.packet) := by
  have hopen : Decoder.fresh.abs.pending = [] := congrArg Deframer.pending pending_fresh
  have hall := collect_frames fs Decoder.fresh.abs hopen hfit
  have habs := decodeChunks_abs chunks Decoder.fresh
  rw [chunkTokens_eq chunks hcuts] at habs
  have hqueue : (decodeChunks .fresh chunks).state.mPacketQueue
      = (Outcome.feed collect Decoder.fresh.abs (byteTokens chunks.flatten)).state.packets := by
    rw [← habs, Outcome.state_map]
    rfl
  have hreturned : (decodeChunks .fresh chunks).isReturned
      = (Outcome.feed collect Decoder.fresh.abs (byteTokens chunks.flatten)).isReturned := by
    rw [← habs, Outcome.isReturned_map]
  have hnone : Decoder.fresh.abs.packets = [] := rfl
  -- The rest of the stream is read on from where the part left the deframer.
  obtain ⟨rest, hrest⟩ := hpart
  rw [← hrest, byteTokens, tokens_append, Outcome.feed_append] at hall
  rw [hqueue, hreturned]
  obtain ⟨s, hs, hlast⟩ := (Outcome.bind_eq_returned _ _ _).mp hall
  rw [← byteTokens] at hs
  rw [hs]
  have hmore := feed_collect_packets (tokens escChar controlChar (· ^^^ escMask)
    (endsEscaping escChar false chunks.flatten) rest) s
  rw [hlast, hnone, List.nil_append] at hmore
  refine ⟨rfl, hmore, fun hwhole => ?_⟩
  rw [hwhole, List.append_right_eq_self] at hrest
  rw [hrest] at hlast
  simp only [tokens, Outcome.feed_nil, Outcome.returned.injEq] at hlast
  rw [Outcome.state_returned, hlast, hnone, List.nil_append]

end Hdlc

namespace DiagFiles

/-- The diag side before the first packets of the queue were taken. -/
def unread (s : DiagFiles) (taken : List (List Byte)) : DiagFiles :=
  { s with hdlc := s.hdlc.unread taken }

theorem pass_unread (s : DiagFiles) (taken : List (List Byte)) (file pos len : Nat) :
    (s.unread taken).pass file pos len = (s.pass file pos len).unread taken := by
  unfold pass unread chunkAt
  dsimp only
  rw [Hdlc.decode_unread, Outcome.state_map, Outcome.isReturned_map]

theorem readStep_unread (s : DiagFiles) (taken : List (List Byte)) (file pos : Nat)
    (atEnd : ReaderPc) (answer : ReadAnswer) :
    (s.unread taken).readStep file pos atEnd answer
      = (s.readStep file pos atEnd answer).map (DiagFiles.unread · taken) := by
  cases answer with
  | chunk len =>
      simp only [readStep]
      rw [pass_unread]
      unfold unread
      split
      · rfl
      · rfl
  | endOfFile =>
      simp only [readStep]
      unfold unread
      split
      · rfl
      · rfl
  | _ => rfl

/-- The diag side takes the same steps whatever has been taken from its
    queue. -/
theorem step_unread (s : DiagFiles) (taken : List (List Byte)) (l : Label) :
    (s.unread taken).step l = (s.step l).map (DiagFiles.unread · taken) := by
  cases l with
  | append bytes =>
      simp only [step]
      unfold unread
      split
      · rfl
      · rfl
  | rotate => rfl
  | stop => rfl
  | reader answer =>
      simp only [step]
      unfold readerStep
      rw [show (s.unread taken).pc = s.pc from rfl]
      split
      case h_8 => exact readStep_unread s taken _ _ _ _
      case h_11 => exact readStep_unread s taken _ _ _ _
      -- The other branches test nothing the decoder holds.
      all_goals
        first
          | rfl
          | rw [apply_ite (Option.map _)]
            rfl

end DiagFiles

/-- Where the dispatch task is: at the test of its loop, in `take()`, before the
    call of `update`, or inside the dispatcher's loop over the listeners of a
    code, with the packet object and the iterator's position and change
    count. -/
inductive DispatchPc where
  | test
  | take
  | update (packetData : List Byte)
  | notify (packetData : List Byte) (logcode : Int) (packet : PacketRef) (cursor expected : Nat)
  | ended (threw : Bool)
  deriving DecidableEq, Repr

/-- The call of a listener's `update`: the code whose list it stands in, and what
    the packet object holds. -/
structure ListenerCall (L : Type) where
  packetData : List Byte
  logcode : Int
  listener : L
  deriving DecidableEq, Repr

/-- One `Qualcomm` object after one `start`, with the dispatcher it has
    registered. `modCounts` counts the changes of each list of listeners. -/
structure Pipeline (L : Type) where
  diag : DiagFiles
  dispatcher : Dispatcher L
  modCounts : Int → Nat
  task : DispatchPc
  taken : List (List Byte)
  calls : List (ListenerCall L)

namespace Pipeline

variable {L : Type} [DecidableEq L]

/-- The threads before their loops, around a dispatcher that exists already. -/
def begun (d : Dispatcher L) : Pipeline L where
  diag := .fresh
  dispatcher := d
  modCounts := fun _ => 0
  task := .test
  taken := []
  calls := []

/-- The queue the decoder and the task share. -/
def mPacketQueue (s : Pipeline L) : List (List Byte) := s.diag.hdlc.mPacketQueue

/-- `mPacketQueue.take()`, which blocks on an empty queue. -/
def takeStep (s : Pipeline L) : Option (Pipeline L) :=
  match s.mPacketQueue with
  | [] => none
  | p :: rest =>
      some { s with
        diag := { s.diag with hdlc := { s.diag.hdlc with mPacketQueue := rest } }
        task := .update p
        taken := s.taken ++ [p] }

/-- `PacketDispatcher.update` up to its loop. -/
def updateStep (s : Pipeline L) (p : List Byte) : Pipeline L :=
  let d := { s.dispatcher with packetBase := s.dispatcher.packetBase.setPacketData p }
  let s' := { s with dispatcher := d }
  match d.packetBase.isValid with
  | .error _ => { s' with task := .ended true }
  | .ok false => { s' with task := .test }
  | .ok true =>
      match d.packetBase.getLogCode with
      | .error _ => { s' with task := .ended true }
      | .ok logcode =>
          match d.mListeners logcode with
          | none => { s' with task := .test }
          | some _ =>
              match d.factory.getPacket d.objects logcode p with
              | (none, objects) =>
                  { s' with dispatcher := { d with objects := objects }, task := .test }
              | (some r, objects) =>
                  { s' with
                    dispatcher := { d with objects := objects }
                    task := .notify p logcode r 0 (s.modCounts logcode) }

/-- One turn of the dispatcher's loop. An iterator whose list has changed ends
    the loop or throws a `ConcurrentModificationException`. -/
def notifyStep (s : Pipeline L) (p : List Byte) (logcode : Int) (r : PacketRef)
    (cursor expected : Nat) (throws : Bool) : Pipeline L :=
  if s.modCounts logcode ≠ expected then
    { s with task := if throws then .ended true else .test }
  else
    match (s.dispatcher.listenersOf logcode)[cursor]? with
    | none => { s with task := .test }
    | some l =>
        { s with
          task := .notify p logcode r (cursor + 1) expected
          calls := s.calls ++ [⟨(s.dispatcher.objects r).mPacketData, logcode, l⟩] }

/-- The next step of the dispatch task. -/
def taskStep (s : Pipeline L) (throws : Bool) : Option (Pipeline L) :=
  match s.task with
  | .test => some { s with task := if s.diag.stopFlag then .ended false else .take }
  | .take => s.takeStep
  | .update p => some (s.updateStep p)
  | .notify p logcode r cursor expected => some (s.notifyStep p logcode r cursor expected throws)
  | .ended _ => none

/-- The dispatcher after a registration. A list that is not what it was has
    counted a change. -/
def change (s : Pipeline L) (logcode : Int) (d : Dispatcher L) : Pipeline L :=
  { s with
    dispatcher := d
    modCounts := fun k =>
      if k = logcode ∧ d.listenersOf logcode ≠ s.dispatcher.listenersOf logcode then
        s.modCounts k + 1
      else s.modCounts k }

/-- A step of the diag side, of the dispatch task, or a registration by a
    screen. -/
inductive Label (L : Type) where
  | diag (l : DiagFiles.Label)
  | task (throws : Bool)
  | register (logcode : Int) (listener : L)
  | unregister (logcode : Int) (listener : L)
  deriving DecidableEq, Repr

def step (s : Pipeline L) : Label L → Option (Pipeline L)
  | .diag l => (s.diag.step l).map (fun d => { s with diag := d })
  | .task throws => s.taskStep throws
  | .register logcode l =>
      some (s.change logcode (s.dispatcher.registerPacketListener logcode (some l)))
  | .unregister logcode l =>
      some (s.change logcode (s.dispatcher.unregisterPacketListener logcode (some l)))

/-- What a step of the dispatch task can be. -/
inductive Dispatches (s : Pipeline L) : Pipeline L → Prop where
  | stops (hpc : s.task = .test) (hstop : s.diag.stopFlag = true) :
      Dispatches s { s with task := .ended false }
  | goesOn (hpc : s.task = .test) : Dispatches s { s with task := .take }
  | takes (p : List Byte) (rest : List (List Byte)) (hpc : s.task = .take)
      (hqueue : s.mPacketQueue = p :: rest) :
      Dispatches s { s with
        diag := { s.diag with hdlc := { s.diag.hdlc with mPacketQueue := rest } }
        task := .update p
        taken := s.taken ++ [p] }
  | refuses (p : List Byte) (pc : DispatchPc) (hpc : s.task = .update p)
      (hends : pc = .test ∨ pc = .ended true) (hcode : Dispatcher.lookedUp p = none) :
      Dispatches s { s with dispatcher := s.dispatcher.inspect p, task := pc }
  | passesOver (p : List Byte) (logcode : Int) (hpc : s.task = .update p)
      (hcode : Dispatcher.lookedUp p = some logcode)
      (hnobody : s.dispatcher.mListeners logcode = none ∨
        s.dispatcher.factory.packetMap logcode = none) :
      Dispatches s { s with dispatcher := s.dispatcher.inspect p, task := .test }
  | enters (p : List Byte) (logcode : Int) (r : PacketRef) (hpc : s.task = .update p)
      (hcode : Dispatcher.lookedUp p = some logcode)
      (hpacket : s.dispatcher.factory.packetMap logcode = some r) :
      Dispatches s { s with
        dispatcher := s.dispatcher.fill r p
        task := .notify p logcode r 0 (s.modCounts logcode) }
  | disturbed (p : List Byte) (logcode : Int) (r : PacketRef) (cursor expected : Nat)
      (pc : DispatchPc) (hpc : s.task = .notify p logcode r cursor expected)
      (hmod : s.modCounts logcode ≠ expected) (hends : pc = .test ∨ pc = .ended true) :
      Dispatches s { s with task := pc }
  | leaves (p : List Byte) (logcode : Int) (r : PacketRef) (cursor expected : Nat)
      (hpc : s.task = .notify p logcode r cursor expected)
      (hmod : s.modCounts logcode = expected)
      (hend : (s.dispatcher.listenersOf logcode)[cursor]? = none) :
      Dispatches s { s with task := .test }
  | calls (p : List Byte) (logcode : Int) (r : PacketRef) (cursor expected : Nat) (l : L)
      (hpc : s.task = .notify p logcode r cursor expected)
      (hmod : s.modCounts logcode = expected)
      (hnext : (s.dispatcher.listenersOf logcode)[cursor]? = some l) :
      Dispatches s { s with
        task := .notify p logcode r (cursor + 1) expected
        calls := s.calls ++ [⟨(s.dispatcher.objects r).mPacketData, logcode, l⟩] }

omit [DecidableEq L] in
theorem updateStep_dispatches (s : Pipeline L) (p : List Byte) (hpc : s.task = .update p) :
    Dispatches s (s.updateStep p) := by
  unfold updateStep
  simp only [setPacketData_eq]
  rcases hvalid : (wrap p).isValid with e | valid
  · exact .refuses p _ hpc (.inr rfl) (by simp only [Dispatcher.lookedUp, hvalid])
  cases valid with
  | false => exact .refuses p _ hpc (.inl rfl) (by simp only [Dispatcher.lookedUp, hvalid])
  | true =>
      rcases hread : (wrap p).getLogCode with e | logcode
      · exact .refuses p _ hpc (.inr rfl) (by simp only [Dispatcher.lookedUp, hvalid, hread])
      have hcode : Dispatcher.lookedUp p = some logcode := by
        simp only [Dispatcher.lookedUp, hvalid, hread]
      rcases hls : s.dispatcher.mListeners logcode with _ | ls
      · simp only [hls]
        exact .passesOver p logcode hpc hcode (.inl hls)
      · simp only [hls, PacketFactory.getPacket]
        rcases hr : s.dispatcher.factory.packetMap logcode with _ | r
        · exact .passesOver p logcode hpc hcode (.inr hr)
        · exact .enters p logcode r hpc hcode hr

omit [DecidableEq L] in
theorem notifyStep_dispatches (s : Pipeline L) {p : List Byte} {logcode : Int} {r : PacketRef}
    {cursor expected : Nat} (throws : Bool)
    (hpc : s.task = .notify p logcode r cursor expected) :
    Dispatches s (s.notifyStep p logcode r cursor expected throws) := by
  unfold notifyStep
  split
  · rename_i hmod
    refine .disturbed p logcode r cursor expected _ hpc hmod ?_
    cases throws with
    | false => exact .inl rfl
    | true => exact .inr rfl
  · rename_i hmod
    have hsame := Decidable.not_not.mp hmod
    split
    · rename_i hend
      exact .leaves p logcode r cursor expected hpc hsame hend
    · rename_i l hnext
      exact .calls p logcode r cursor expected l hpc hsame hnext

omit [DecidableEq L] in
theorem taskStep_dispatches {s s' : Pipeline L} {throws : Bool}
    (h : s.taskStep throws = some s') : Dispatches s s' := by
  unfold taskStep at h
  split at h
  case h_1 hpc =>
      rw [← Option.some.inj h]
      split
      · rename_i hstop
        exact .stops hpc hstop
      · exact .goesOn hpc
  case h_2 hpc =>
      unfold takeStep at h
      split at h
      · exact absurd h (by simp only [reduceCtorEq, not_false_eq_true])
      · rename_i p rest hqueue
        exact Option.some.inj h ▸ .takes p rest hpc hqueue
  case h_3 p hpc => exact Option.some.inj h ▸ updateStep_dispatches s p hpc
  case h_4 p logcode r cursor expected hpc =>
      exact Option.some.inj h ▸ notifyStep_dispatches s throws hpc
  case h_5 => exact absurd h (by simp only [reduceCtorEq, not_false_eq_true])

/-- The label of the diag side inside a label. -/
def Label.onDiag : Label L → Option DiagFiles.Label
  | .diag l => some l
  | _ => none

omit [DecidableEq L] in
theorem onDiag_eq_some {a : Label L} {l : DiagFiles.Label} (h : a.onDiag = some l) :
    a = .diag l := by
  cases a
  case diag l' => rw [Option.some.inj h]
  all_goals exact absurd h (by simp only [Label.onDiag, reduceCtorEq, not_false_eq_true])

/-- The diag side, with the taken packets put back, takes the steps of
    `DiagFiles` and no others. -/
theorem pipeline_follows : Follows step DiagFiles.step (fun _ : Pipeline L => True)
    (fun s => s.diag.unread s.taken) Label.onDiag := by
  refine ⟨fun _ _ => trivial, ?_, ?_⟩
  · intro s s' a b _ hstep hecho
    obtain rfl := onDiag_eq_some hecho
    obtain ⟨d, hd, rfl⟩ := Option.map_eq_some_iff.mp hstep
    rw [DiagFiles.step_unread, hd, Option.map_some]
  · intro s s' a _ hstep hecho
    cases a with
    | diag l => exact absurd hecho (by simp only [Label.onDiag, reduceCtorEq, not_false_eq_true])
    | register c l => exact Option.some.inj hstep ▸ rfl
    | unregister c l => exact Option.some.inj hstep ▸ rfl
    | task throws =>
        cases taskStep_dispatches hstep
        case takes p rest _ hqueue =>
            -- The packet moves from the head of the queue to the end of what was taken.
            simp only [DiagFiles.unread, Hdlc.Decoder.unread, List.append_assoc,
              List.singleton_append]
            rw [← hqueue]
            rfl
        all_goals rfl

/-- The diag side of a run is a run of its own. -/
theorem diag_runs {d : Dispatcher L} {labels : List (Label L)} {s : Pipeline L}
    (h : exec step (begun d) labels = some s) :
    exec DiagFiles.step .fresh (labels.filterMap Label.onDiag) = some (s.diag.unread s.taken) :=
  exec_follows pipeline_follows labels (begun d) s trivial h

/-- What the task has taken and what is still queued, in this order, is what the
    decoder made of the bytes it was passed. -/
theorem taken_decoded {d : Dispatcher L} {labels : List (Label L)} {s : Pipeline L}
    (h : exec step (begun d) labels = some s) :
    s.taken ++ s.mPacketQueue =
      (Hdlc.decodeChunks .fresh (s.diag.passed.map PassedChunk.bytes)).state.mPacketQueue :=
  congrArg Hdlc.Decoder.mPacketQueue (DiagFiles.fed _ _ (diag_runs h)).1

/-- The packets of a code among some packets. -/
def ofCode (logcode : Int) (ps : List (List Byte)) : List (List Byte) :=
  ps.filter (fun p => Dispatcher.lookedUp p = some logcode)

/-- What a listener was called with for a code. -/
def received (s : Pipeline L) (logcode : Int) (l : L) : List (List Byte) :=
  s.calls.filterMap (fun k =>
    if k.logcode = logcode ∧ k.listener = l then some k.packetData else none)

theorem ofCode_append_self {logcode : Int} {p : List Byte} (ps : List (List Byte))
    (h : Dispatcher.lookedUp p = some logcode) :
    ofCode logcode (ps ++ [p]) = ofCode logcode ps ++ [p] := by
  simp only [ofCode, List.filter_append, List.filter_cons, h, decide_true, if_true,
    List.filter_nil]

theorem ofCode_append_other {logcode : Int} {p : List Byte} (ps : List (List Byte))
    (h : Dispatcher.lookedUp p ≠ some logcode) :
    ofCode logcode (ps ++ [p]) = ofCode logcode ps := by
  simp only [ofCode, List.filter_append, List.filter_cons, h, decide_false, Bool.false_eq_true,
    if_false, List.filter_nil, List.append_nil]

theorem received_call (s : Pipeline L) (k : ListenerCall L) (task : DispatchPc) (logcode : Int)
    (l : L) :
    received { s with task := task, calls := s.calls ++ [k] } logcode l =
      if k.logcode = logcode ∧ k.listener = l then s.received logcode l ++ [k.packetData]
      else s.received logcode l := by
  unfold received
  rw [List.filterMap_append]
  split
  · rename_i hk
    rw [List.filterMap_cons, List.filterMap_nil, if_pos hk]
  · rename_i hk
    rw [List.filterMap_cons, List.filterMap_nil, if_neg hk, List.append_nil]

/-- A registration touches neither the factory nor the objects, and no list but
    that of its code. -/
structure Relisted (d d' : Dispatcher L) (logcode : Int) : Prop where
  factory : d'.factory = d.factory
  objects : d'.objects = d.objects
  others : ∀ k, k ≠ logcode → d'.listenersOf k = d.listenersOf k
  nodup : (d.listenersOf logcode).Nodup → (d'.listenersOf logcode).Nodup

theorem register_relisted (d : Dispatcher L) (logcode : Int) (l : L) :
    Relisted d (d.registerPacketListener logcode (some l)) logcode := by
  refine ⟨?_, ?_, fun k hk => ?_, fun hnodup => ?_⟩
  · unfold Dispatcher.registerPacketListener
    dsimp only
    split
    · rfl
    · split
      · rfl
      · rfl
  · unfold Dispatcher.registerPacketListener
    dsimp only
    split
    · rfl
    · split
      · rfl
      · rfl
  · rw [Dispatcher.listenersOf_register, if_neg (fun h => hk h.1)]
  · rw [Dispatcher.listenersOf_register]
    split
    · rename_i hnew
      exact List.nodup_append.mpr ⟨hnodup, List.nodup_singleton l,
        fun a ha b hb hab => hnew.2 (List.mem_singleton.mp hb ▸ hab ▸ ha)⟩
    · exact hnodup

theorem unregister_relisted (d : Dispatcher L) (logcode : Int) (l : L) :
    Relisted d (d.unregisterPacketListener logcode (some l)) logcode := by
  refine ⟨?_, ?_, fun k hk => ?_, fun hnodup => ?_⟩
  · unfold Dispatcher.unregisterPacketListener
    split
    · rfl
    · rfl
  · unfold Dispatcher.unregisterPacketListener
    split
    · rfl
    · rfl
  · rw [Dispatcher.listenersOf_unregister, if_neg hk]
  · rw [Dispatcher.listenersOf_unregister, if_pos rfl]
    exact hnodup.erase l

/-- A list that a registration left as it was has counted no change, and any
    other has counted one. -/
theorem change_spec (s : Pipeline L) {logcode : Int} {d : Dispatcher L}
    (hd : Relisted s.dispatcher d logcode) (k : Int) :
    ((s.change logcode d).dispatcher.listenersOf k = s.dispatcher.listenersOf k ∧
        (s.change logcode d).modCounts k = s.modCounts k) ∨
      k = logcode ∧ d.listenersOf logcode ≠ s.dispatcher.listenersOf logcode ∧
        (s.change logcode d).modCounts k = s.modCounts k + 1 := by
  unfold change
  dsimp only
  by_cases hk : k = logcode
  · by_cases hsame : d.listenersOf logcode = s.dispatcher.listenersOf logcode
    · exact .inl ⟨by rw [hk, hsame], if_neg (fun h => h.2 hsame)⟩
    · exact .inr ⟨hk, hsame, if_pos ⟨hk, hsame⟩⟩
  · exact .inl ⟨hd.others k hk, if_neg (fun h => hk h.1)⟩

/-- What the place of the task says about the packet in hand: it is the last one
    taken, and a listener the loop has not come to has not been called with
    it. -/
def Holding (s : Pipeline L) : Prop :=
  match s.task with
  | .update p =>
      ∃ before, s.taken = before ++ [p] ∧ ∀ k l, (s.received k l).Sublist (ofCode k before)
  | .notify p logcode r cursor expected =>
      (s.dispatcher.objects r).mPacketData = p ∧ expected ≤ s.modCounts logcode ∧
        Dispatcher.lookedUp p = some logcode ∧
        ∃ before, s.taken = before ++ [p] ∧ (s.modCounts logcode = expected →
          ∀ l, l ∉ (s.dispatcher.listenersOf logcode).take cursor →
            (s.received logcode l).Sublist (ofCode logcode before))
  | _ => True

/-- No listener has been called twice for one packet. -/
structure Once (s : Pipeline L) : Prop where
  nodup : ∀ k, (s.dispatcher.listenersOf k).Nodup
  once : ∀ k l, (s.received k l).Sublist (ofCode k s.taken)
  holding : s.Holding

omit [DecidableEq L] in
/-- The element at the cursor is not among those before it. -/
theorem not_mem_take_of_nodup {ls : List L} {i : Nat} {l : L} (hnodup : ls.Nodup)
    (h : ls[i]? = some l) : l ∉ ls.take i ∧ ls.take (i + 1) = ls.take i ++ [l] := by
  have htake : ls.take (i + 1) = ls.take i ++ [l] := by
    rw [List.take_add_one, h, Option.toList_some]
  refine ⟨fun hmem => ?_, htake⟩
  have hsub := hnodup.sublist (List.take_sublist (i + 1) ls)
  rw [htake] at hsub
  exact (List.nodup_append.mp hsub).2.2 l hmem l (List.mem_singleton_self l) rfl

theorem dispatches_once {s s' : Pipeline L} (hs : s.Once) (h : Dispatches s s') : s'.Once := by
  have hholding := hs.holding
  unfold Holding at hholding
  cases h
  case stops => exact ⟨hs.nodup, hs.once, trivial⟩
  case goesOn => exact ⟨hs.nodup, hs.once, trivial⟩
  case takes p rest _ _ =>
      refine ⟨hs.nodup, fun k l => ?_, s.taken, rfl, hs.once⟩
      exact (hs.once k l).trans ((List.sublist_append_left s.taken [p]).filter _)
  case refuses p pc _ hends _ =>
      refine ⟨hs.nodup, hs.once, ?_⟩
      rcases hends with rfl | rfl
      · trivial
      · trivial
  case passesOver => exact ⟨hs.nodup, hs.once, trivial⟩
  case enters p logcode r hpc hcode _ =>
      rw [hpc] at hholding
      obtain ⟨before, htaken, hbefore⟩ := hholding
      refine ⟨hs.nodup, hs.once, ?_, Nat.le_refl _, hcode, before, htaken,
        fun _ l _ => hbefore logcode l⟩
      simp only [Dispatcher.fill, if_true, wrap_mPacketData]
  case disturbed pc _ _ hends =>
      refine ⟨hs.nodup, hs.once, ?_⟩
      rcases hends with rfl | rfl
      · trivial
      · trivial
  case leaves => exact ⟨hs.nodup, hs.once, trivial⟩
  case calls p logcode r cursor expected l hpc hmod hnext =>
      rw [hpc] at hholding
      obtain ⟨hobject, hle, hcode, before, htaken, hbefore⟩ := hholding
      obtain ⟨hnew, htake⟩ := not_mem_take_of_nodup (hs.nodup logcode) hnext
      refine ⟨hs.nodup, fun k m => ?_, hobject, hle, hcode, before, htaken, fun _ m hm => ?_⟩
      · rw [received_call]
        split
        -- The listener at the cursor gets the packet in hand.
        · rename_i hk
          obtain ⟨rfl, rfl⟩ := hk
          dsimp only
          rw [hobject, htaken, ofCode_append_self before hcode]
          exact (hbefore hmod _ hnew).append (List.Sublist.refl _)
        · exact hs.once k m
      · rw [htake, List.mem_append, List.mem_singleton, not_or] at hm
        rw [received_call, if_neg (fun hk => hm.2 hk.2.symm)]
        exact hbefore hmod m hm.1

theorem change_once {s : Pipeline L} (hs : s.Once) {logcode : Int} {d : Dispatcher L}
    (hd : Relisted s.dispatcher d logcode) : (s.change logcode d).Once := by
  have hholding := hs.holding
  unfold Holding at hholding
  refine ⟨fun k => ?_, hs.once, ?_⟩
  · by_cases hk : k = logcode
    · rw [hk]
      exact hd.nodup (hs.nodup logcode)
    · exact (hd.others k hk).symm ▸ hs.nodup k
  · unfold Holding
    rw [show (s.change logcode d).task = s.task from rfl]
    split
    case h_1 p hpc =>
        rw [hpc] at hholding
        exact hholding
    case h_2 p code r cursor expected hpc =>
        rw [hpc] at hholding
        obtain ⟨hobject, hle, hcode, before, htaken, hbefore⟩ := hholding
        have hobject' : ((s.change logcode d).dispatcher.objects r).mPacketData = p := by
          rw [show (s.change logcode d).dispatcher.objects = s.dispatcher.objects from hd.objects]
          exact hobject
        rcases change_spec s hd code with ⟨hlist, hmod⟩ | ⟨-, -, hmod⟩
        · rw [hlist, hmod]
          exact ⟨hobject', hle, hcode, before, htaken, hbefore⟩
        -- A changed list makes no more calls for this packet.
        · rw [hmod]
          exact ⟨hobject', by omega, hcode, before, htaken, fun h => absurd h (by omega)⟩
    case h_3 => trivial

theorem step_once {s s' : Pipeline L} {a : Label L} (hs : s.Once) (h : s.step a = some s') :
    s'.Once := by
  cases a with
  | diag l =>
      obtain ⟨d, -, rfl⟩ := Option.map_eq_some_iff.mp h
      exact ⟨hs.nodup, hs.once, hs.holding⟩
  | task throws => exact dispatches_once hs (taskStep_dispatches h)
  | register logcode l =>
      exact Option.some.inj h ▸ change_once hs (register_relisted s.dispatcher logcode l)
  | unregister logcode l =>
      exact Option.some.inj h ▸ change_once hs (unregister_relisted s.dispatcher logcode l)

/-- In every run, however the registrations and the reads fall, a listener is
    called for a code with packets of that code only, in the order in which the
    decoder made them and at most once with each. -/
theorem received_at_most_once (d : Dispatcher L) (hd : ∀ k, (d.listenersOf k).Nodup)
    (labels : List (Label L)) (s : Pipeline L) (h : exec step (begun d) labels = some s)
    (logcode : Int) (l : L) :
    (s.received logcode l).Sublist (ofCode logcode
      (Hdlc.decodeChunks .fresh (s.diag.passed.map PassedChunk.bytes)).state.mPacketQueue) := by
  have hs : s.Once :=
    exec_keeps step (fun _ _ => True) Once (fun _ _ _ hs _ hstep => step_once hs hstep) labels
      (begun d) s ⟨hd, fun _ _ => List.nil_sublist _, trivial⟩ (along_true step (begun d) labels) h
  rw [← taken_decoded h, ofCode, List.filter_append]
  exact (hs.once logcode l).trans (List.sublist_append_left _ _)

/-- The task is inside the list of the code. -/
def notifies (s : Pipeline L) (logcode : Int) : Bool :=
  match s.task with
  | .notify _ k _ _ _ => k = logcode
  | _ => false

/-- The packet taken and not yet dealt with. -/
def inHand (s : Pipeline L) : Option (List Byte) :=
  match s.task with
  | .update p => some p
  | .notify p _ _ _ _ => some p
  | _ => none

/-- The listener is not unregistered, and its list is not changed while the task
    goes through it. -/
def Undisturbed (logcode : Int) (l : L) (s : Pipeline L) : Label L → Prop
  | .register k m =>
      k = logcode → s.notifies logcode = true → m ∈ s.dispatcher.listenersOf logcode
  | .unregister k m =>
      k = logcode → m ≠ l ∧
        (s.notifies logcode = true → m ∉ s.dispatcher.listenersOf logcode)
  | _ => True

instance (logcode : Int) (l : L) (s : Pipeline L) : ∀ a, Decidable (s.Undisturbed logcode l a)
  | .register k _ =>
      inferInstanceAs (Decidable (k = logcode → s.notifies logcode = true → _ ∈ _))
  | .unregister k m =>
      inferInstanceAs (Decidable (k = logcode → m ≠ l ∧ (s.notifies logcode = true → _ ∉ _)))
  | .diag _ | .task _ => isTrue trivial

/-- What the place of the task says about the packets of one listener: it has been
    called with all of them, but for the packet in hand while the loop has not
    come to it. -/
def UpToDate (s : Pipeline L) (logcode : Int) (l : L) : Prop :=
  match s.task with
  | .update p => ∃ before, s.taken = before ++ [p] ∧ s.received logcode l = ofCode logcode before
  | .notify p k r cursor expected =>
      (s.dispatcher.objects r).mPacketData = p ∧ Dispatcher.lookedUp p = some k ∧
        ∃ before, s.taken = before ++ [p] ∧
          (k ≠ logcode → s.received logcode l = ofCode logcode before) ∧
          (k = logcode → s.modCounts logcode = expected ∧
            s.received logcode l =
              if l ∈ (s.dispatcher.listenersOf logcode).take cursor then
                ofCode logcode before ++ [p]
              else ofCode logcode before)
  | _ => s.received logcode l = ofCode logcode s.taken

/-- The listener stands in its list, the factory knows the code, and the packets
    have reached the listener. -/
structure Delivering (logcode : Int) (l : L) (s : Pipeline L) : Prop where
  stays : l ∈ s.dispatcher.listenersOf logcode
  known : s.dispatcher.factory.packetMap logcode ≠ none
  upToDate : s.UpToDate logcode l

theorem dispatches_delivering {logcode : Int} {l : L} {s s' : Pipeline L} (hs : s.Once)
    (hdel : s.Delivering logcode l) (h : Dispatches s s') : s'.Delivering logcode l := by
  have hplace := hdel.upToDate
  unfold UpToDate at hplace
  cases h
  case stops hpc _ =>
      rw [hpc] at hplace
      exact ⟨hdel.stays, hdel.known, hplace⟩
  case goesOn hpc =>
      rw [hpc] at hplace
      exact ⟨hdel.stays, hdel.known, hplace⟩
  case takes p rest hpc _ =>
      rw [hpc] at hplace
      exact ⟨hdel.stays, hdel.known, s.taken, rfl, hplace⟩
  case refuses p pc hpc hends hcode =>
      rw [hpc] at hplace
      obtain ⟨before, htaken, hreceived⟩ := hplace
      have hall : s.received logcode l = ofCode logcode s.taken := by
        rw [htaken, ofCode_append_other before (by rw [hcode]; exact Option.some_ne_none _ |>.symm)]
        exact hreceived
      rcases hends with rfl | rfl
      · exact ⟨hdel.stays, hdel.known, hall⟩
      · exact ⟨hdel.stays, hdel.known, hall⟩
  case passesOver p k hpc hcode hnobody =>
      rw [hpc] at hplace
      obtain ⟨before, htaken, hreceived⟩ := hplace
      refine ⟨hdel.stays, hdel.known, ?_⟩
      -- The code has a list and a packet object, so the packet is of another one.
      have hother : k ≠ logcode := by
        rintro rfl
        rcases hnobody with hnone | hnone
        · have hstays := hdel.stays
          unfold Dispatcher.listenersOf at hstays
          rw [hnone] at hstays
          exact absurd hstays List.not_mem_nil
        · exact hdel.known hnone
      show s.received logcode l = ofCode logcode s.taken
      rw [htaken, ofCode_append_other before (by
        rw [hcode]
        exact fun heq => hother (Option.some.inj heq))]
      exact hreceived
  case enters p k r hpc hcode _ =>
      rw [hpc] at hplace
      obtain ⟨before, htaken, hreceived⟩ := hplace
      refine ⟨hdel.stays, hdel.known, ?_, hcode, before, htaken, fun _ => hreceived, ?_⟩
      · simp only [Dispatcher.fill, if_true, wrap_mPacketData]
      · rintro rfl
        refine ⟨rfl, ?_⟩
        rw [List.take_zero, if_neg List.not_mem_nil]
        exact hreceived
  case disturbed p k r cursor expected pc hpc hmod hends =>
      rw [hpc] at hplace
      obtain ⟨-, hcode, before, htaken, hother, hself⟩ := hplace
      have hk : k ≠ logcode := by
        rintro rfl
        exact hmod (hself rfl).1
      have hall : s.received logcode l = ofCode logcode s.taken := by
        rw [htaken, ofCode_append_other before (by
          rw [hcode]
          exact fun heq => hk (Option.some.inj heq))]
        exact hother hk
      rcases hends with rfl | rfl
      · exact ⟨hdel.stays, hdel.known, hall⟩
      · exact ⟨hdel.stays, hdel.known, hall⟩
  case leaves p k r cursor expected hpc _ hend =>
      rw [hpc] at hplace
      obtain ⟨-, hcode, before, htaken, hother, hself⟩ := hplace
      refine ⟨hdel.stays, hdel.known, ?_⟩
      show s.received logcode l = ofCode logcode s.taken
      by_cases hk : k = logcode
      -- The loop has come past the whole list.
      · obtain ⟨-, hreceived⟩ := hself hk
        subst hk
        rw [List.take_of_length_le (List.getElem?_eq_none_iff.mp hend), if_pos hdel.stays]
          at hreceived
        rw [htaken, ofCode_append_self before hcode]
        exact hreceived
      · rw [htaken, ofCode_append_other before (by
          rw [hcode]
          exact fun heq => hk (Option.some.inj heq))]
        exact hother hk
  case calls p k r cursor expected m hpc hmod hnext =>
      rw [hpc] at hplace
      obtain ⟨hobject, hcode, before, htaken, hother, hself⟩ := hplace
      obtain ⟨hnew, htake⟩ := not_mem_take_of_nodup (hs.nodup k) hnext
      refine ⟨hdel.stays, hdel.known, hobject, hcode, before, htaken, fun hk => ?_, fun hk => ?_⟩
      · rw [received_call, if_neg (fun heq => hk heq.1)]
        exact hother hk
      · obtain ⟨hsame, hreceived⟩ := hself hk
        subst hk
        refine ⟨hsame, ?_⟩
        rw [received_call]
        dsimp only
        rw [htake]
        by_cases hm : m = l
        · subst hm
          rw [if_pos ⟨rfl, rfl⟩, if_pos (List.mem_append_right _ (List.mem_singleton_self m)),
            hreceived, if_neg hnew, hobject]
        · have hmem : l ∈ (s.dispatcher.listenersOf k).take cursor ++ [m] ↔
              l ∈ (s.dispatcher.listenersOf k).take cursor := by
            rw [List.mem_append, List.mem_singleton, or_iff_left (fun heq => hm heq.symm)]
          rw [if_neg (fun heq => hm heq.2), hreceived]
          simp only [hmem]

theorem change_delivering {logcode : Int} {l : L} {s : Pipeline L}
    (hdel : s.Delivering logcode l) {k : Int} {d : Dispatcher L}
    (hd : Relisted s.dispatcher d k) (hstays : l ∈ d.listenersOf logcode)
    (hsame : k = logcode → s.notifies logcode = true →
      d.listenersOf logcode = s.dispatcher.listenersOf logcode) :
    (s.change k d).Delivering logcode l := by
  have hplace := hdel.upToDate
  unfold UpToDate at hplace
  refine ⟨hstays, ?_, ?_⟩
  · rw [show (s.change k d).dispatcher.factory = s.dispatcher.factory from hd.factory]
    exact hdel.known
  · unfold UpToDate
    rw [show (s.change k d).task = s.task from rfl]
    split
    case h_1 p hpc =>
        rw [hpc] at hplace
        exact hplace
    case h_2 p code r cursor expected hpc =>
        rw [hpc] at hplace
        obtain ⟨hobject, hcode, before, htaken, hother, hself⟩ := hplace
        refine ⟨?_, hcode, before, htaken, hother, fun hk => ?_⟩
        · rw [show (s.change k d).dispatcher.objects = s.dispatcher.objects from hd.objects]
          exact hobject
        · have hnotifies : s.notifies logcode = true := by
            unfold notifies
            rw [hpc]
            exact decide_eq_true hk
          rcases change_spec s hd logcode with ⟨hlist, hmod⟩ | ⟨hk', hchanged, -⟩
          · rw [hlist, hmod]
            exact hself hk
          · exact absurd (hk' ▸ hsame hk'.symm hnotifies) hchanged
    case h_3 hupdate hnotify =>
        split at hplace
        · exact absurd ‹_› (hupdate _)
        · exact absurd ‹_› (hnotify _ _ _ _ _)
        · exact hplace

theorem step_delivering {logcode : Int} {l : L} {s s' : Pipeline L} {a : Label L}
    (hs : s.Once) (hdel : s.Delivering logcode l) (ha : s.Undisturbed logcode l a)
    (h : s.step a = some s') : s'.Delivering logcode l := by
  cases a with
  | diag b =>
      obtain ⟨d, -, rfl⟩ := Option.map_eq_some_iff.mp h
      exact ⟨hdel.stays, hdel.known, hdel.upToDate⟩
  | task throws => exact dispatches_delivering hs hdel (taskStep_dispatches h)
  | register k m =>
      refine Option.some.inj h ▸
        change_delivering hdel (register_relisted s.dispatcher k m) ?_ (fun hk hin => ?_)
      · rw [Dispatcher.listenersOf_register]
        split
        · exact List.mem_append_left _ hdel.stays
        · exact hdel.stays
      · rw [Dispatcher.listenersOf_register, if_neg (fun hnew => hnew.2 (ha hk hin))]
  | unregister k m =>
      refine Option.some.inj h ▸
        change_delivering hdel (unregister_relisted s.dispatcher k m) ?_ (fun hk hin => ?_)
      · rw [Dispatcher.listenersOf_unregister]
        split
        · rename_i hk
          exact (List.mem_erase_of_ne (ha hk.symm).1.symm).mpr hdel.stays
        · exact hdel.stays
      · rw [Dispatcher.listenersOf_unregister, if_pos hk.symm,
          List.erase_of_not_mem ((ha hk).2 hin)]

/-- What is left for the listener is the packet in hand, if it is of the code. -/
theorem Delivering.rest {logcode : Int} {l : L} {s : Pipeline L}
    (h : s.Delivering logcode l) : ∃ rest, ofCode logcode s.taken = s.received logcode l ++ rest ∧
      (rest = [] ∨ ∃ p, s.inHand = some p ∧ rest = [p]) := by
  have hplace := h.upToDate
  unfold UpToDate at hplace
  unfold inHand
  split at hplace
  case h_1 p hpc =>
      obtain ⟨before, htaken, hreceived⟩ := hplace
      rw [htaken, hreceived]
      by_cases hcode : Dispatcher.lookedUp p = some logcode
      · exact ⟨[p], ofCode_append_self before hcode, .inr ⟨p, rfl, rfl⟩⟩
      · exact ⟨[], by rw [ofCode_append_other before hcode, List.append_nil], .inl rfl⟩
  case h_2 p k r cursor expected hpc =>
      obtain ⟨-, hcode, before, htaken, hother, hself⟩ := hplace
      rw [htaken]
      by_cases hk : k = logcode
      · rw [hk] at hcode
        rw [(hself hk).2, ofCode_append_self before hcode]
        split
        · exact ⟨[], (List.append_nil _).symm, .inl rfl⟩
        · exact ⟨[p], rfl, .inr ⟨p, rfl, rfl⟩⟩
      · refine ⟨[], ?_, .inl rfl⟩
        rw [hother hk, List.append_nil, ofCode_append_other before (by
          rw [hcode]
          exact fun heq => hk (Option.some.inj heq))]
  case h_3 => exact ⟨[], by rw [hplace, List.append_nil], .inl rfl⟩

/-- A listener that stands in the list of its code from the start, and whose list
    is not changed under the loop, has been called with every packet of the
    code that was taken, in order and once, but for the packet in hand. -/
theorem received_exactly (d : Dispatcher L) (hd : ∀ k, (d.listenersOf k).Nodup)
    {logcode : Int} {l : L} (hl : l ∈ d.listenersOf logcode)
    (hknown : d.factory.packetMap logcode ≠ none) (labels : List (Label L)) (s : Pipeline L)
    (hquiet : Along step (Undisturbed logcode l) (begun d) labels)
    (h : exec step (begun d) labels = some s) :
    ∃ rest, ofCode logcode s.taken = s.received logcode l ++ rest ∧
      (rest = [] ∨ ∃ p, s.inHand = some p ∧ rest = [p]) := by
  have hs : s.Once ∧ s.Delivering logcode l :=
    exec_keeps step (Undisturbed logcode l) (fun s => s.Once ∧ s.Delivering logcode l)
      (fun _ _ _ hs ha hstep => ⟨step_once hs.1 hstep, step_delivering hs.1 hs.2 ha hstep⟩) labels
      (begun d) s ⟨⟨hd, fun _ _ => List.nil_sublist _, trivial⟩, hl, hknown, rfl⟩ hquiet h
  exact hs.2.rest

/-- The assumptions about the file system, on the diag side. -/
def Assumed (s : Pipeline L) : Label L → Prop
  | .diag l => s.diag.Assumed l ∧ s.diag.FailsEarly l
  | _ => True

instance (s : Pipeline L) : ∀ a, Decidable (s.Assumed a)
  | .diag l => inferInstanceAs (Decidable (s.diag.Assumed l ∧ s.diag.FailsEarly l))
  | .task _ | .register _ _ | .unregister _ _ => isTrue trivial

omit [DecidableEq L] in
theorem assumed_onDiag {s : Pipeline L} {a : Label L} {b : DiagFiles.Label} (ha : s.Assumed a)
    (hecho : a.onDiag = some b) :
    (s.diag.unread s.taken).Assumed b ∧ (s.diag.unread s.taken).FailsEarly b := by
  obtain rfl := onDiag_eq_some hecho
  unfold Assumed at ha
  unfold DiagFiles.Assumed DiagFiles.FailsEarly at ha ⊢
  exact ha

/-- The diag side of such a run passes its bytes on in order. -/
theorem diag_inOrder {d : Dispatcher L} {labels : List (Label L)} {s : Pipeline L}
    (h : exec step (begun d) labels = some s) (hassumed : Along step Assumed (begun d) labels) :
    (s.diag.unread s.taken).InOrder :=
  DiagFiles.inOrder
    (along_follows pipeline_follows assumed_onDiag labels (begun d) s trivial h hassumed)
    (diag_runs h)

/-- The diag library writes a stream of frames that fit the decoder's buffer,
    listings come in the order of creation, reads do not fail and do not end
    inside an escape, and no delete fails in the middle of a file. Then a
    listener that stays in the list of its code, for which there is a packet
    class, is called, in order, with the packets of that code from the first
    frames, each once; and when everything written has been read, the queue is
    empty and no packet is in hand, it has been called with all of them. -/
theorem frames_delivered (d : Dispatcher L) (hd : ∀ k, (d.listenersOf k).Nodup)
    {logcode : Int} {l : L} (hl : l ∈ d.listenersOf logcode)
    (hknown : d.factory.packetMap logcode ≠ none) (labels : List (Label L)) (s : Pipeline L)
    (hassumed : Along step Assumed (begun d) labels)
    (hquiet : Along step (Undisturbed logcode l) (begun d) labels)
    (h : exec step (begun d) labels = some s) (fs : List Hdlc.SentFrame)
    (hfit : ∀ f ∈ fs, f.packet.length + 2 ≤ Hdlc.readBufferMaxSize)
    (hwritten : s.diag.files.flatten <+: fs.flatMap Hdlc.frame)
    (hcuts : Hdlc.cutsCleanly (s.diag.passed.map PassedChunk.bytes)) :
    s.received logcode l <+: ofCode logcode (fs.map Hdlc.SentFrame.packet) ∧
      (s.diag.passedBytes = fs.flatMap Hdlc.frame → s.mPacketQueue = [] → s.inHand = none →
        s.received logcode l = ofCode logcode (fs.map Hdlc.SentFrame.packet)) := by
  obtain ⟨rest, hrest, hlast⟩ := received_exactly d hd hl hknown labels s hquiet h
  have hpassed : (s.diag.passed.map PassedChunk.bytes).flatten <+: s.diag.files.flatten := by
    rw [← List.flatMap_def]
    exact DiagFiles.passedBytes_prefix (s := s.diag.unread s.taken) (diag_inOrder h hassumed)
  obtain ⟨-, hprefix, hwhole⟩ := Hdlc.decodeChunks_frames fs _ hfit hcuts (hpassed.trans hwritten)
  rw [← taken_decoded h] at hprefix hwhole
  have hreceived : s.received logcode l <+: ofCode logcode s.taken := ⟨rest, hrest.symm⟩
  refine ⟨hreceived.trans (((List.prefix_append _ _).trans hprefix).filter _), ?_⟩
  intro hread hempty hidle
  have htaken := hwhole (by rw [← List.flatMap_def]; exact hread)
  rw [hempty, List.append_nil] at htaken
  rw [← htaken, hrest]
  rcases hlast with rfl | ⟨p, hp, -⟩
  · rw [List.append_nil]
  · rw [hidle] at hp
    exact absurd hp (by simp only [reduceCtorEq, not_false_eq_true])

/-- A dispatcher with one listener, for the code `0x5071`. -/
def oneListener : Dispatcher Nat := Dispatcher.start.registerPacketListener 0x5071 (some 7)

theorem oneListener_nodup (k : Int) : (oneListener.listenersOf k).Nodup := by
  unfold oneListener
  rw [Dispatcher.listenersOf_register]
  split
  · exact List.nodup_singleton 7
  · exact List.nodup_nil

/-- A log response of eight bytes with the code `0x5071`, and the frame around
    it. -/
def sentResponse : Hdlc.SentFrame where
  packet := [0x10, 0, 4, 0, 0, 0, 0x71, 0x50]
  crc := (1, 2)
  extra := fun _ => false

/-- The library writes one frame; the thread reads it, and the task dispatches
    it. -/
def oneFrame : List (Label Nat) :=
  [.diag .rotate, .diag (.append [0x10, 0, 4, 0, 0, 0, 0x71, 0x50, 1, 2, 0x7E]),
    .diag (.reader .nothing), .diag (.reader (.listing (some [0]))), .diag (.reader .opened),
    .diag (.reader .nothing), .diag (.reader (.chunk 11)), .task false, .task false, .task false,
    .task false, .task false]

/-- The run comes to its end, with one call made. -/
theorem oneFrame_runs : ∃ s ∈ exec step (begun oneListener) oneFrame,
    s.received 0x5071 7 = [sentResponse.packet] ∧
      s.diag.passedBytes = [sentResponse].flatMap Hdlc.frame ∧
      s.diag.files.flatten = [sentResponse].flatMap Hdlc.frame ∧
      s.diag.passed.map PassedChunk.bytes = [[sentResponse].flatMap Hdlc.frame] ∧
      s.mPacketQueue = [] ∧ s.inHand = none := by
  decide +kernel

/-- The call of that run is the one packet sent. -/
theorem frames_delivered_one_frame :
    ∃ s ∈ exec step (begun oneListener) oneFrame,
      s.received 0x5071 7 = ofCode 0x5071 ([sentResponse].map Hdlc.SentFrame.packet) := by
  obtain ⟨s, hs, -, hread, hfiles, hchunks, hqueue, hidle⟩ := oneFrame_runs
  refine ⟨s, hs, (frames_delivered oneListener oneListener_nodup (by decide) (by decide) oneFrame s
    (by decide +kernel) (by decide +kernel) hs [sentResponse] (by decide) ?_ ?_).2 hread hqueue
    hidle⟩
  · exact hfiles ▸ List.prefix_refl _
  · rw [hchunks]
    trivial

/-- In the same run the listener is not called a second time. -/
theorem received_at_most_once_one_frame :
    ∃ s ∈ exec step (begun oneListener) oneFrame,
      (s.received 0x5071 7).Sublist (ofCode 0x5071 (Hdlc.decodeChunks .fresh
        (s.diag.passed.map PassedChunk.bytes)).state.mPacketQueue) := by
  obtain ⟨s, hs, -⟩ := oneFrame_runs
  exact ⟨s, hs, received_at_most_once oneListener oneListener_nodup oneFrame s hs 0x5071 7⟩

end Pipeline

end NetProbe
