import NetProbe.Qualcomm.Hdlc
import NetProbe.Qualcomm.Packet

/-!
# The Packet Dispatcher

`PacketDispatcher` keeps a list of listeners per log code and hands each valid
packet to the listeners of its code. The code is read from the packet, so
both the routing and the survival of the dispatch loop rest on what the bytes
say.

The listener type is a parameter: all the dispatcher does with a listener is
compare it by identity and call it. A null listener is `none`; registering it
does nothing. The map from code to list is a function into `Option`, with
`none` for a code that was never registered, since that is the difference
`update` looks at before it asks the factory for the packet object.

The four `update_…` lemmas say what a call does in each case, and every
result below is read off them.

## Main definitions

* `Dispatcher`: The dispatcher together with the factory and the objects.
* `registerPacketListener`, `unregisterPacketListener`, `update`: Its calls.
* `dispatchTask`: The loop of the dispatch task over the queued packets.
* `Survivable`: The packets an update returns from.
* `Delivers`: A packet reaches a listener.
* `addRoute`: A parser and a listener registered for a code.

## Theorems

* `update_valid`, `update_invalid` and their two throwing siblings: What an
  update does.
* `update_state`: What an update leaves behind.
* `update_frame`: No update touches the registrations or the factory.
* `update_returns_iff`: When an update returns.
* `dispatchTask_survives_iff`: When the dispatch task survives its packets.
* `isValid_exact`: What the validity check says of the packets that reach it.
* `delivers_iff`: Delivery goes by the code as it was read.
* `update_routes_iff`: When a packet reaches the listeners of its wire code.
-/

namespace NetProbe

variable {L : Type}

/-- A dispatcher's fields, with the factory and the packet objects it uses. -/
structure Dispatcher (L : Type) where
  mListeners : Int → Option (List L)
  packetBase : PacketBase
  factory : PacketFactory
  objects : PacketFactory.Objects

/-- A listener's `update` called with a packet object. -/
abbrev Notification (L : Type) := L × PacketRef

namespace Dispatcher

/-- A new dispatcher beside an existing factory. -/
def fresh (factory : PacketFactory) (objects : PacketFactory.Objects) : Dispatcher L where
  mListeners := fun _ => none
  packetBase := PacketBase.empty
  factory := factory
  objects := objects

/-- `mListeners.put(logcode, listeners)`. -/
def putListeners (d : Dispatcher L) (logcode : Int) (listeners : List L) : Dispatcher L :=
  { d with mListeners := fun k => if k = logcode then some listeners else d.mListeners k }

def registerPacketListener [DecidableEq L] (d : Dispatcher L) (logcode : Int)
    (listener : Option L) : Dispatcher L :=
  match listener with
  | none => d
  | some l =>
      match d.mListeners logcode with
      | none => d.putListeners logcode [l]
      | some ls => if l ∈ ls then d else d.putListeners logcode (ls ++ [l])

def unregisterPacketListener [DecidableEq L] (d : Dispatcher L) (logcode : Int)
    (listener : Option L) : Dispatcher L :=
  match d.mListeners logcode with
  | none => d
  | some ls =>
      match listener with
      | none => d
      | some l => d.putListeners logcode (ls.erase l)

/-- `update(packetData)`, with the notifications it makes. Listeners return
    normally and do not call back, so the loop over them only records them. -/
def update (d : Dispatcher L) (packetData : List Byte) :
    Outcome (Dispatcher L × List (Notification L)) :=
  let d₁ := { d with packetBase := d.packetBase.setPacketData packetData }
  match d₁.packetBase.isValid with
  | .error e => .threw e (d₁, [])
  | .ok false => .returned (d₁, [])
  | .ok true =>
      match d₁.packetBase.getLogCode with
      | .error e => .threw e (d₁, [])
      | .ok logcode =>
          match d₁.mListeners logcode with
          | none => .returned (d₁, [])
          | some ls =>
              match d₁.factory.getPacket d₁.objects logcode packetData with
              | (none, objects) => .returned ({ d₁ with objects := objects }, [])
              | (some r, objects) =>
                  .returned ({ d₁ with objects := objects }, ls.map (fun l => (l, r)))

/-- The dispatcher after a packet has been looked at. -/
def inspect (d : Dispatcher L) (packetData : List Byte) : Dispatcher L :=
  { d with packetBase := wrap packetData }

/-- The dispatcher after the packet object `r` took the packet's bytes. -/
def fill (d : Dispatcher L) (r : PacketRef) (packetData : List Byte) : Dispatcher L :=
  { d.inspect packetData with
    objects := fun k => if k = r then wrap packetData else d.objects k }

/-- What a valid packet with a readable code leads to: the packet object of
    the code is filled and passed to the code's listeners, if the code has a
    list and the factory knows it. -/
def deliver (d : Dispatcher L) (code : Int) (p : List Byte) :
    Dispatcher L × List (Notification L) :=
  match d.mListeners code, d.factory.packetMap code with
  | some ls, some r => (d.fill r p, ls.map (fun l => (l, r)))
  | _, _ => (d.inspect p, [])

theorem update_isValid_threw (d : Dispatcher L) (p : List Byte) (e : JavaException)
    (h : (wrap p).isValid = .error e) : d.update p = .threw e (d.inspect p, []) := by
  simp only [update, setPacketData_eq, h]
  rfl

theorem update_invalid (d : Dispatcher L) (p : List Byte) (h : (wrap p).isValid = .ok false) :
    d.update p = .returned (d.inspect p, []) := by
  simp only [update, setPacketData_eq, h]
  rfl

theorem update_getLogCode_threw (d : Dispatcher L) (p : List Byte) (e : JavaException)
    (h : (wrap p).isValid = .ok true) (hc : (wrap p).getLogCode = .error e) :
    d.update p = .threw e (d.inspect p, []) := by
  simp only [update, setPacketData_eq, h, hc]
  rfl

theorem update_valid (d : Dispatcher L) (p : List Byte) (code : Int)
    (h : (wrap p).isValid = .ok true) (hc : (wrap p).getLogCode = .ok code) :
    d.update p = .returned (d.deliver code p) := by
  simp only [update, setPacketData_eq, h, hc, deliver, PacketFactory.getPacket]
  rcases d.mListeners code with _ | ls
  · rfl
  · rcases d.factory.packetMap code with _ | r
    · rfl
    · rfl

/-- The code an update looks up: that of a valid packet whose code can be
    read. -/
def lookedUp (p : List Byte) : Option Int :=
  match (wrap p).isValid, (wrap p).getLogCode with
  | .ok true, .ok code => some code
  | _, _ => none

theorem lookedUp_eq_some {p : List Byte} {code : Int} (h : lookedUp p = some code) :
    (wrap p).isValid = .ok true ∧ (wrap p).getLogCode = .ok code := by
  unfold lookedUp at h
  split at h
  · rename_i hv hc
    rw [Option.some.injEq] at h
    exact ⟨hv, h ▸ hc⟩
  · exact absurd h (by simp only [reduceCtorEq, not_false_eq_true])

/-- What an update leaves behind, however it ends. -/
theorem update_state (d : Dispatcher L) (p : List Byte) :
    (d.update p).state = match lookedUp p with
      | none => (d.inspect p, [])
      | some code => d.deliver code p := by
  unfold lookedUp
  rcases hv : (wrap p).isValid with e | v
  · rw [update_isValid_threw d p e hv, Outcome.state_threw]
  cases v with
  | false => rw [update_invalid d p hv, Outcome.state_returned]
  | true =>
      rcases hc : (wrap p).getLogCode with e | code
      · rw [update_getLogCode_threw d p e hv hc, Outcome.state_threw]
      · rw [update_valid d p code hv hc, Outcome.state_returned]

/-- No update touches the registrations or the factory. -/
theorem update_frame (d : Dispatcher L) (p : List Byte) :
    (d.update p).state.1.mListeners = d.mListeners ∧
      (d.update p).state.1.factory = d.factory := by
  rw [update_state]
  rcases lookedUp p with _ | code
  · exact ⟨rfl, rfl⟩
  unfold deliver
  simp only
  split
  · exact ⟨rfl, rfl⟩
  · exact ⟨rfl, rfl⟩

/-- One turn of the dispatch task's loop, recording which packet each
    notification is for. -/
def dispatchOne (s : Dispatcher L × List (List Byte × Notification L)) (p : List Byte) :
    Outcome (Dispatcher L × List (List Byte × Notification L)) :=
  (s.1.update p).map (fun r => (r.1, s.2 ++ r.2.map (fun n => (p, n))))

/-- The loop of the dispatch task over the packets it takes from the queue. -/
def dispatchTask (d : Dispatcher L) (packets : List (List Byte)) :
    Outcome (Dispatcher L × List (List Byte × Notification L)) :=
  Outcome.feed dispatchOne (d, []) packets

/-- A log response that declares its own length. -/
def WellFormed (p : List Byte) : Prop :=
  p.head? = some cmdCodeLogRsp ∧ declaredLength p + 4 = p.length

/-- Of the packets that any calls of `decode` can queue, the validity check
    accepts exactly the well-formed ones; the length field is read as a signed
    number, but a packet that fits into the decode buffer has no length for
    which that matters. -/
theorem isValid_exact (calls : List (List Byte × Nat)) (p : List Byte)
    (hp : p ∈ (Hdlc.decodeCalls Hdlc.Decoder.fresh calls).mPacketQueue) (hlen : 4 ≤ p.length) :
    ∃ valid, (wrap p).isValid = .ok valid ∧ (valid = true ↔ WellFormed p) := by
  have hbound : p.length + 2 ≤ 1024 * 16 :=
    Hdlc.decodeCalls_bounded calls Hdlc.Decoder.fresh (fun q hq => absurd hq List.not_mem_nil) p hp
  unfold WellFormed
  rcases p with _ | ⟨b, rest⟩
  · rw [List.length_nil] at hlen
    omega
  rw [List.length_cons] at hlen hbound ⊢
  rw [List.head?_cons, Option.some.injEq]
  by_cases hb : b = cmdCodeLogRsp
  · subst hb
    refine ⟨_, isValid_log_short rest (by omega) (by omega), ?_⟩
    rw [decide_eq_true_eq, eq_comm, and_iff_right rfl]
  · refine ⟨false, isValid_other b rest hb, ?_⟩
    simp only [Bool.false_eq_true, hb, false_and]

/-- A frame around a bare length field. -/
theorem isValid_exact_bare_length :
    [0x10, 0, 0, (0 : Byte)] ∈ (Hdlc.decodeCalls Hdlc.Decoder.fresh
        [([0x10, 0, 0, 0, 0xAA, 0xBB, 0x7E], 7)]).mPacketQueue ∧
      ∃ valid, (wrap [0x10, 0, 0, 0]).isValid = .ok valid ∧
        (valid = true ↔ WellFormed [0x10, 0, 0, 0]) := by
  have hqueue : [0x10, 0, 0, (0 : Byte)] ∈ (Hdlc.decodeCalls Hdlc.Decoder.fresh
      [([0x10, 0, 0, 0, 0xAA, 0xBB, 0x7E], 7)]).mPacketQueue := by
    rcases Hdlc.decode_of_tokens Hdlc.Decoder.fresh [0x10, 0, 0, 0, 0xAA, 0xBB, 0x7E]
      { pending := [], packets := [[0x10, 0, 0, 0]] } (by rw [Hdlc.pending_fresh]; decide) with
      ⟨d', hd', habs⟩
    have hstate : Hdlc.decodeCalls Hdlc.Decoder.fresh [([0x10, 0, 0, 0, 0xAA, 0xBB, 0x7E], 7)]
        = d' := congrArg Outcome.state hd'
    rw [hstate, show d'.mPacketQueue = [[0x10, 0, 0, 0]] from
      congrArg ByteStuffing.Deframer.packets habs]
    exact List.mem_singleton_self _
  exact ⟨hqueue, isValid_exact _ _ hqueue (by decide)⟩

/-- A packet whose header reads all lie inside it: it is not empty, a log
    response has its length field, and one that declares its own length has
    its log code. -/
def Survivable (p : List Byte) : Prop :=
  p ≠ [] ∧ (p.head? = some cmdCodeLogRsp →
    4 ≤ p.length ∧ (declaredLength p + 4 = p.length → 8 ≤ p.length))

/-- An update returns exactly from the survivable packets, and notifies only
    for well-formed ones. The length bound is that of the decode buffer; it
    keeps the signed length field from mattering. -/
theorem update_returns_iff (d : Dispatcher L) (p : List Byte) (hlen : p.length ≤ 16382) :
    ((d.update p).isReturned = true ↔ Survivable p) ∧
      ((d.update p).state.2 ≠ [] → WellFormed p) := by
  unfold Survivable WellFormed
  -- The cases follow the reads: the command, the length, the log code.
  rcases p with _ | ⟨b, rest⟩
  -- The first read already lies outside an empty packet.
  · rw [update_isValid_threw d [] _ isValid_nil]
    simp
  rw [List.length_cons] at hlen
  by_cases hb : b = cmdCodeLogRsp
  · subst hb
    simp only [List.head?_cons, List.length_cons, ne_eq, reduceCtorEq, not_false_eq_true,
      forall_const, true_and]
    by_cases hshort : rest.length < 3
    -- The length field is missing.
    · have hv : (wrap (cmdCodeLogRsp :: rest)).isValid = .error .indexOutOfBounds := by
        rw [isValid_log, if_pos hshort]
      rw [update_isValid_threw d _ _ hv]
      constructor
      · simp only [Outcome.isReturned_threw, Bool.false_eq_true, false_iff]
        omega
      · simp
    · have hv := isValid_log_short rest (by omega) (by omega)
      by_cases hdecl : rest.length + 1 = declaredLength (cmdCodeLogRsp :: rest) + 4
      · rw [decide_eq_true hdecl] at hv
        have hcode := getLogCode_log rest
        by_cases hcut : rest.length < 7
        -- The packet is consistent with itself but has no log code.
        · rw [if_pos hcut] at hcode
          rw [update_getLogCode_threw d _ _ hv hcode]
          constructor
          · simp only [Outcome.isReturned_threw, Bool.false_eq_true, false_iff]
            omega
          · simp
        · rw [if_neg hcut] at hcode
          rw [update_valid d _ _ hv hcode]
          constructor
          · simp only [Outcome.isReturned_returned, true_iff]
            omega
          · exact fun _ => hdecl.symm
      · rw [decide_eq_false hdecl] at hv
        rw [update_invalid d _ hv]
        constructor
        · simp only [Outcome.isReturned_returned, true_iff]
          omega
        · simp
  · rw [update_invalid d _ (isValid_other b rest hb)]
    simp [hb]

/-- From any point of the loop: the rest of it returns exactly when its packets
    are survivable, and what it has recorded stays about well-formed packets. -/
theorem feed_dispatchOne (packets : List (List Byte))
    (s : Dispatcher L × List (List Byte × Notification L))
    (hlen : ∀ p ∈ packets, p.length ≤ 16382) (hs : ∀ n ∈ s.2, WellFormed n.1) :
    ((Outcome.feed dispatchOne s packets).isReturned = true ↔ ∀ p ∈ packets, Survivable p) ∧
      ∀ n ∈ (Outcome.feed dispatchOne s packets).state.2, WellFormed n.1 := by
  induction packets generalizing s with
  | nil => exact ⟨by simp, hs⟩
  | cons p ps ih =>
      rcases update_returns_iff s.1 p (hlen p List.mem_cons_self) with ⟨hret, hnote⟩
      -- Whatever the update of `p` recorded, it recorded for a well-formed packet.
      have hlog : ∀ n ∈ s.2 ++ (s.1.update p).state.2.map (fun n => (p, n)), WellFormed n.1 := by
        intro n hn
        rcases List.mem_append.mp hn with hold | hnew
        · exact hs n hold
        · rcases List.mem_map.mp hnew with ⟨m, hm, rfl⟩
          exact hnote (List.ne_nil_of_mem hm)
      rw [Outcome.feed_cons]
      unfold dispatchOne
      cases hup : s.1.update p with
      | threw e r =>
          rw [hup] at hret hlog
          simp only [Outcome.map_threw, Outcome.bind_threw, Outcome.isReturned_threw,
            Bool.false_eq_true, false_iff, Outcome.state_threw] at hret ⊢
          exact ⟨fun hall => hret (hall p List.mem_cons_self), hlog⟩
      | returned r =>
          rw [hup] at hret hlog
          have hps : ∀ q ∈ ps, q.length ≤ 16382 := fun q hq => hlen q (List.mem_cons_of_mem p hq)
          rcases ih (r.1, s.2 ++ r.2.map (fun n => (p, n))) hps hlog with ⟨hrest, hlog'⟩
          refine ⟨?_, hlog'⟩
          rw [Outcome.map_returned, Outcome.bind_returned, List.forall_mem_cons]
          exact ⟨fun h => ⟨hret.mp rfl, hrest.mp h⟩, fun h => hrest.mpr h.2⟩

/-- The dispatch task survives a run of packets exactly when each of them is
    survivable, and no packet that is not a well-formed log response notifies
    anyone. -/
theorem dispatchTask_survives_iff (d : Dispatcher L) (packets : List (List Byte))
    (hlen : ∀ p ∈ packets, p.length ≤ 16382) :
    ((d.dispatchTask packets).isReturned = true ∧
        ∀ n ∈ (d.dispatchTask packets).state.2, WellFormed n.1) ↔
      ∀ p ∈ packets, Survivable p := by
  rcases feed_dispatchOne packets (d, []) hlen (by simp) with ⟨hret, hlog⟩
  exact ⟨fun h => hret.mp h.1, fun h => ⟨hret.mpr h, hlog⟩⟩

/-- The factory as the constructor leaves it, beside new packet objects. -/
def start : Dispatcher L := fresh PacketFactory.initial (fun _ => PacketBase.empty)

/-- A bare header that declares its own length goes through. -/
theorem dispatchTask_survives_bare_header :
    (∀ p ∈ [[0x10, 0x00, 0x04, 0x00, 0x00, 0x00, 0x71, (0x50 : Byte)]], p.length ≤ 16382) ∧
      ((start : Dispatcher Nat).dispatchTask
        [[0x10, 0x00, 0x04, 0x00, 0x00, 0x00, 0x71, 0x50]]).isReturned = true := by
  have hlen : ∀ p ∈ [[0x10, 0x00, 0x04, 0x00, 0x00, 0x00, 0x71, (0x50 : Byte)]],
      p.length ≤ 16382 := by
    decide
  refine ⟨hlen, ((dispatchTask_survives_iff start _ hlen).mpr ?_).1⟩
  unfold Survivable
  decide

/-- The deframer turns a frame of two CRC bytes into an empty packet, and the
    dispatch task ends on it. -/
theorem dispatchTask_ends_on_empty_packet :
    (∃ d', Hdlc.decode Hdlc.Decoder.fresh [0x01, 0x02, 0x7E] 3 = .returned d' ∧
        d'.mPacketQueue = [[]]) ∧
      ((start : Dispatcher Nat).dispatchTask [[]]).isReturned = false := by
  refine ⟨?_, rfl⟩
  rcases Hdlc.decode_of_tokens Hdlc.Decoder.fresh [0x01, 0x02, 0x7E]
    { pending := [], packets := [[]] } (by rw [Hdlc.pending_fresh]; decide) with ⟨d', hd', habs⟩
  exact ⟨d', hd', congrArg ByteStuffing.Deframer.packets habs⟩

/-- The packet reaches the listener: an update returns, and calls the listener
    with an object that then holds the packet. -/
def Delivers (d : Dispatcher L) (p : List Byte) (l : L) : Prop :=
  (d.update p).isReturned = true ∧
    ∃ r, (l, r) ∈ (d.update p).state.2 ∧ ((d.update p).state.1.objects r).mPacketData = p

/-- A valid packet starts with the log response command. -/
theorem isValid_head (p : List Byte) (h : (wrap p).isValid = .ok true) :
    ∃ rest, p = cmdCodeLogRsp :: rest := by
  rcases p with _ | ⟨b, rest⟩
  · rw [isValid_nil] at h
    exact absurd h (by simp only [reduceCtorEq, not_false_eq_true])
  · by_cases hb : b = cmdCodeLogRsp
    · exact ⟨rest, by rw [hb]⟩
    · rw [isValid_other b rest hb] at h
      exact absurd h (by simp only [Except.ok.injEq, Bool.false_eq_true, not_false_eq_true])

/-- The code of a valid packet that has a code field. -/
theorem getLogCode_valid (p : List Byte) (h : (wrap p).isValid = .ok true) (hlen : 8 ≤ p.length) :
    (wrap p).getLogCode = .ok (signedCode (wireCode p)) := by
  rcases isValid_head p h with ⟨rest, rfl⟩
  rw [List.length_cons] at hlen
  rw [getLogCode_log, if_neg (by omega)]

/-- Delivery is a matter of the listener list and the factory entry under the
    code as it was read. -/
theorem delivers_iff (d : Dispatcher L) (p : List Byte) (l : L)
    (h : (wrap p).isValid = .ok true) (hlen : 8 ≤ p.length) :
    d.Delivers p l ↔ ∃ r ls, d.factory.packetMap (signedCode (wireCode p)) = some r ∧
      d.mListeners (signedCode (wireCode p)) = some ls ∧ l ∈ ls := by
  unfold Delivers
  rw [update_valid d p _ h (getLogCode_valid p h hlen)]
  simp only [Outcome.isReturned_returned, Outcome.state_returned, true_and]
  unfold deliver
  -- Without a list or a factory entry nothing is sent.
  rcases hls : d.mListeners (signedCode (wireCode p)) with _ | ls
  · simp
  · rcases hr : d.factory.packetMap (signedCode (wireCode p)) with _ | r
    · simp
    · constructor
      · rintro ⟨r', hmem, _⟩
        rcases List.mem_map.mp hmem with ⟨l', hl', heq⟩
        rw [Prod.mk.injEq] at heq
        exact ⟨r, ls, rfl, rfl, heq.1 ▸ hl'⟩
      · rintro ⟨r', ls', _, hls', hl⟩
        rw [Option.some.injEq] at hls'
        refine ⟨r, List.mem_map.mpr ⟨l, hls' ▸ hl, rfl⟩, ?_⟩
        simp only [fill, if_true, wrap_mPacketData]

section Routing

variable [DecidableEq L]

/-- `PacketFactory.register(code, parser)` followed by
    `registerPacketListener(code, l)`. -/
def addRoute (d : Dispatcher L) (code : Int) (parser : PacketRef) (l : L) : Dispatcher L :=
  { d with factory := d.factory.register code parser }.registerPacketListener code (some l)

/-- The two calls leave the code known and the listener in its list, whether
    they took effect or found their entries there already. -/
theorem addRoute_self (d : Dispatcher L) (code : Int) (parser : PacketRef) (l : L) :
    ∃ r ls, (d.addRoute code parser l).factory.packetMap code = some r ∧
      (d.addRoute code parser l).mListeners code = some ls ∧ l ∈ ls := by
  have hparser : ∃ r, (d.factory.register code parser).packetMap code = some r := by
    unfold PacketFactory.register
    rcases h : d.factory.packetMap code with _ | r
    · exact ⟨parser, by simp only [if_true]⟩
    · exact ⟨r, h⟩
  rcases hparser with ⟨r, hr⟩
  unfold addRoute registerPacketListener
  -- The first listener of a code makes its list.
  rcases h : d.mListeners code with _ | ls
  · exact ⟨r, [l], by simpa only [putListeners, h] using hr, by simp [putListeners]⟩
  · by_cases hl : l ∈ ls
    · exact ⟨r, ls, by simpa only [h, if_pos hl] using hr, by simp only [h, if_pos hl], hl⟩
    · exact ⟨r, ls ++ [l], by simpa only [h, if_neg hl, putListeners] using hr,
        by simp [putListeners, hl]⟩

/-- The two calls change nothing under another code. -/
theorem addRoute_other (d : Dispatcher L) (code k : Int) (parser : PacketRef) (l : L)
    (hk : k ≠ code) :
    (d.addRoute code parser l).factory.packetMap k = d.factory.packetMap k ∧
      (d.addRoute code parser l).mListeners k = d.mListeners k := by
  -- The factory entry goes under the other code as well.
  have hparser : (d.factory.register code parser).packetMap k = d.factory.packetMap k := by
    unfold PacketFactory.register
    rcases d.factory.packetMap code with _ | r
    · simp only [if_neg hk]
    · rfl
  unfold addRoute registerPacketListener
  rcases h : d.mListeners code with _ | ls
  · simp only [putListeners, if_neg hk, hparser, and_self]
  · by_cases hl : l ∈ ls
    · simp only [if_pos hl, hparser, and_self]
    · simp only [if_neg hl, putListeners, if_neg hk, hparser, and_self]

/-- A valid packet reaches the listener registered for its wire code exactly
    when the code lies in the lower half of the range, the half where the
    signed read keeps it; or when a parser and the listener happen to be
    registered under the negative key the upper half is read as. -/
theorem update_routes_iff (d : Dispatcher L) (parser : PacketRef) (l : L) (p : List Byte)
    (hlen : 16 ≤ p.length) (hvalid : (wrap p).isValid = .ok true) :
    (d.addRoute (wireCode p) parser l).Delivers p l ↔ wireCode p < 32768 ∨
      ∃ r ls, d.factory.packetMap ((wireCode p : Int) - 65536) = some r ∧
        d.mListeners ((wireCode p : Int) - 65536) = some ls ∧ l ∈ ls := by
  rw [delivers_iff _ p l hvalid (by omega)]
  unfold signedCode
  -- The code as it was read is the code on the wire, or 65536 less.
  by_cases hlow : wireCode p < 32768
  · rw [if_pos hlow]
    exact ⟨fun _ => Or.inl hlow, fun _ => addRoute_self d _ parser l⟩
  · rw [if_neg hlow]
    rcases addRoute_other d (wireCode p) ((wireCode p : Int) - 65536) parser l (by omega) with
      ⟨hfactory, hlisteners⟩
    rw [hfactory, hlisteners]
    exact ⟨Or.inr, fun h => h.resolve_left hlow⟩

/-- A sixteen-byte log response with log code `lo + 256 * hi`. -/
def logResponse (lo hi : Byte) : List Byte :=
  [0x10, 0, 0x0C, 0, 0, 0, lo, hi, 0, 0, 0, 0, 0, 0, 0, 0]

/-- Log code `0x7EC0` lies in the lower half and is routed. -/
theorem update_routes_lower_half :
    16 ≤ (logResponse 0xC0 0x7E).length ∧ (wrap (logResponse 0xC0 0x7E)).isValid = .ok true ∧
      ((start : Dispatcher Nat).addRoute 0x7EC0 9 7).Delivers (logResponse 0xC0 0x7E) 7 :=
  ⟨by decide, by decide, (update_routes_iff start 9 7 (logResponse 0xC0 0x7E)
    (by decide) (by decide)).mpr (Or.inl (by decide))⟩

/-- Log code `0xB0C0` lies in the upper half: the packet is valid and carries
    the code its listener and parser were registered for, and nobody hears of
    it. -/
theorem update_misses_upper_half :
    (wrap (logResponse 0xC0 0xB0)).isValid = .ok true ∧ wireCode (logResponse 0xC0 0xB0) = 0xB0C0 ∧
      ¬ ((start : Dispatcher Nat).addRoute 0xB0C0 9 7).Delivers (logResponse 0xC0 0xB0) 7 := by
  have hvalid : (wrap (logResponse 0xC0 0xB0)).isValid = .ok true := by decide
  refine ⟨hvalid, by decide, ?_⟩
  rw [delivers_iff _ _ _ hvalid (by decide)]
  rintro ⟨r, ls, hr, _, _⟩
  have hnone : ((start : Dispatcher Nat).addRoute 0xB0C0 9 7).factory.packetMap
      (signedCode (wireCode (logResponse 0xC0 0xB0))) = none := by decide
  rw [hnone] at hr
  exact absurd hr (by simp only [reduceCtorEq, not_false_eq_true])

end Routing

end Dispatcher

end NetProbe
