import NetProbe.Lib.ByteBuffer
import NetProbe.Lib.ByteStuffing
import Mathlib.Data.Vector.Basic

/-!
# The Diag Deframer

`HDLC.decode` turns the byte stream of the diag port into packets. The decode
buffer, how much of it is filled and the packet queue are fields of the
object, so a frame may span calls; whether the last byte was an escape is a
local variable of one call.

The embedding follows the loop of the source. `decodeByte` is its body, one
byte at a time, over the pair of the local variable and the object, and
`decode` runs it over the first `len` bytes of the buffer it is given. A flag
with fewer than two bytes pending throws from the allocation of the packet,
before anything is changed, and a byte that finds the buffer full throws from
the array store; both leave the object as it was at the start of the byte.

`decode_abs` connects this to `ByteStuffing`: on the bytes it reads, a call
does what absorbing their tokens does, the tokens being read from outside an
escape because the local variable starts there. Everything below follows from
that and from facts about tokens. In particular a sequence of calls absorbs
the tokens of each chunk read separately (`decodeChunks_abs`), so the cut
matters exactly when a chunk ends inside an escape.

## Main definitions

* `Decoder`: The fields of an `HDLC` object.
* `decodeByte`: The body of the loop.
* `decode`: One call.
* `decodeChunks`: Consecutive calls on one object.
* `decodeCalls`: Any calls on one object, those that throw included.
* `OffendsAt`, `packetsOf`: Where a call throws, and what it queues.
* `cutsCleanly`: No chunk but the last ends inside an escape.
* `frame`: The bytes a sender emits for one packet.

## Theorems

* `decodeByte_abs`: One byte does what its tokens do.
* `decode_abs`: One call does what the tokens of its bytes do.
* `decode_of_tokens`: A call returns when absorbing its tokens does.
* `decode_exact`: Exactly when a call throws, and what it leaves either way.
* `decodeChunks_abs`: A run does what the tokens of its chunks do.
* `chunkTokens_eq`: Clean cuts do not change the tokens.
* `disagree_inside_escape`: A cut inside an escape changes the run.
* `decodeChunks_cut`: Cutting cleanly does not change the run, and a cut
  inside an escape does.
* `decode_frames`: Decoding undoes framing.
* `decodeCalls_bounded`: No packet is longer than the buffer without the CRC.
-/

namespace NetProbe

namespace Hdlc

open ByteStuffing

def escChar : Byte := 0x7D

def controlChar : Byte := 0x7E

def escMask : Byte := 0x20

def readBufferMaxSize : Nat := 1024 * 16

/-- The fields of an `HDLC` object. `mDecodeLen` counts the filled part of the
    buffer and never passes its end. -/
structure Decoder where
  mDecodeBytes : Vector Byte readBufferMaxSize
  mDecodeLen : Nat
  mPacketQueue : List (List Byte)
  mDecodeLen_le : mDecodeLen ≤ readBufferMaxSize

namespace Decoder

/-- A new object around an empty queue: a zeroed buffer, nothing pending. -/
def fresh : Decoder where
  mDecodeBytes := Vector.replicate readBufferMaxSize 0
  mDecodeLen := 0
  mPacketQueue := []
  mDecodeLen_le := Nat.zero_le _

/-- The bytes of the unfinished frame, `mDecodeBytes[0..mDecodeLen)`. -/
def pending (d : Decoder) : List Byte := d.mDecodeBytes.toList.take d.mDecodeLen

/-- What a decoder is for: the open frame and the packets closed so far. -/
def abs (d : Decoder) : Deframer Byte := { pending := d.pending, packets := d.mPacketQueue }

/-- `mDecodeBytes[mDecodeLen] = b; mDecodeLen++`. -/
def store (d : Decoder) (b : Byte) : Outcome Decoder :=
  if h : d.mDecodeLen < readBufferMaxSize then
    .returned { d with
      mDecodeBytes := d.mDecodeBytes.set d.mDecodeLen b h
      mDecodeLen := d.mDecodeLen + 1
      mDecodeLen_le := h }
  else .threw .arrayIndexOutOfBounds d

/-- The branch at a control character: copy the frame without its two CRC
    bytes, queue it, start over. -/
def enqueue (d : Decoder) : Outcome Decoder :=
  if d.mDecodeLen < 2 then .threw .negativeArraySize d
  else .returned { d with
    mDecodeLen := 0
    mPacketQueue := d.mPacketQueue ++ [d.mDecodeBytes.toList.take (d.mDecodeLen - 2)]
    mDecodeLen_le := Nat.zero_le _ }

end Decoder

/-- The body of the loop, over the local variable `escaping` and the object. -/
def decodeByte (s : Bool × Decoder) (oneByte : Byte) : Outcome (Bool × Decoder) :=
  if s.1 then (s.2.store (oneByte ^^^ escMask)).map (fun d => (false, d))
  else if oneByte = escChar then .returned (true, s.2)
  else if oneByte = controlChar then s.2.enqueue.map (fun d => (false, d))
  else (s.2.store oneByte).map (fun d => (false, d))

/-- One call of `decode(srcData, len)`. Reading past the end of `srcData`
    throws after its bytes have been processed. -/
def decode (d : Decoder) (srcData : List Byte) (len : Nat) : Outcome Decoder :=
  ((Outcome.feed decodeByte (false, d) (srcData.take len)).map Prod.snd).bind (fun d' =>
    if srcData.length < len then .threw .arrayIndexOutOfBounds d' else .returned d')

/-- Consecutive calls on one object, each handed a whole chunk. -/
def decodeChunks (d : Decoder) (chunks : List (List Byte)) : Outcome Decoder :=
  Outcome.feed (fun d c => decode d c c.length) d chunks

/-- The tokens of a byte stream, read from outside an escape. -/
def byteTokens (bs : List Byte) : List (Token Byte) :=
  tokens escChar controlChar (· ^^^ escMask) false bs

/-- The tokens of a chunked stream, each chunk read on its own. -/
def chunkTokens (chunks : List (List Byte)) : List (Token Byte) := chunks.flatMap byteTokens

/-- The two-byte CRC is the trailer of a frame, the buffer its capacity. -/
def collect : Deframer Byte → Token Byte → Outcome (Deframer Byte) := absorb readBufferMaxSize 2

theorem length_pending (d : Decoder) : d.pending.length = d.mDecodeLen := by
  rw [Decoder.pending, List.length_take, Vector.length_toList]
  exact Nat.min_eq_left d.mDecodeLen_le

theorem pending_fresh : Decoder.fresh.abs = { pending := [], packets := [] } := by
  rw [Decoder.abs, Decoder.pending, Decoder.fresh, List.take_zero]

/-- Storing a byte is absorbing a data token. -/
theorem store_abs (d : Decoder) (b : Byte) :
    (d.store b).map Decoder.abs = collect d.abs (.data b) := by
  simp only [Decoder.store, collect, absorb, Decoder.abs, length_pending]
  by_cases h : d.mDecodeLen < readBufferMaxSize
  · rw [dif_pos h, if_pos h, Outcome.map_returned]
    have hset : (d.mDecodeBytes.set d.mDecodeLen b h).toList.take (d.mDecodeLen + 1)
        = d.mDecodeBytes.toList.take d.mDecodeLen ++ [b] := by
      rw [Vector.toList_set, List.take_succ_eq_append_getElem
        (by rw [List.length_set, Vector.length_toList]; exact h), List.getElem_set_self,
        List.take_set_of_le (le_refl _)]
    simp only [Decoder.abs, Decoder.pending, hset]
  · rw [dif_neg h, if_neg h, Outcome.map_threw]
    rfl

/-- Queueing a packet is absorbing a flag. -/
theorem enqueue_abs (d : Decoder) : d.enqueue.map Decoder.abs = collect d.abs .flag := by
  simp only [Decoder.enqueue, collect, absorb, Decoder.abs, length_pending]
  by_cases h : d.mDecodeLen < 2
  · rw [if_pos h, if_pos h, Outcome.map_threw]
    rfl
  · rw [if_neg h, if_neg h, Outcome.map_returned]
    simp only [Decoder.abs, Decoder.pending, List.take_zero, List.take_take]
    rw [Nat.min_eq_left (Nat.sub_le _ _)]

/-- One byte does what its tokens do, and moves `escaping` as the reader of
    tokens does. -/
theorem decodeByte_abs (e : Bool) (d : Decoder) (b : Byte) :
    (decodeByte (e, d) b).map (fun s => s.2.abs)
      = Outcome.feed collect d.abs (tokens escChar controlChar (· ^^^ escMask) e [b]) := by
  cases e with
  | true =>
      simp only [decodeByte, if_true, tokens, Outcome.feed_cons, Outcome.feed_nil]
      rw [← store_abs]
      cases hs : d.store (b ^^^ escMask) <;> rfl
  | false =>
      simp only [decodeByte, Bool.false_eq_true, if_false, tokens]
      by_cases hesc : b = escChar
      · rw [if_pos hesc, if_pos hesc]
        rfl
      · rw [if_neg hesc, if_neg hesc]
        by_cases hflag : b = controlChar
        · rw [if_pos hflag, if_pos hflag, Outcome.feed_cons, ← enqueue_abs]
          cases hs : d.enqueue <;> rfl
        · rw [if_neg hflag, if_neg hflag, Outcome.feed_cons, ← store_abs]
          cases hs : d.store b <;> rfl

theorem decodeByte_escaping (e : Bool) (d : Decoder) (b : Byte) (s : Bool × Decoder)
    (h : decodeByte (e, d) b = .returned s) : s.1 = endsEscaping escChar e [b] := by
  -- Every branch but one leaves the flag down.
  have hmap : ∀ o : Outcome Decoder, o.map (fun d' => (false, d')) = .returned s → s.1 = false := by
    intro o ho
    cases o with
    | returned d' =>
        rw [Outcome.map_returned, Outcome.returned.injEq] at ho
        rw [← ho]
    | threw x d' => exact absurd ho (by simp only [Outcome.map_threw, reduceCtorEq,
        not_false_eq_true])
  cases e with
  | true =>
      simp only [decodeByte, if_true] at h
      rw [hmap _ h]
      rfl
  | false =>
      simp only [decodeByte, Bool.false_eq_true, if_false] at h
      simp only [endsEscaping]
      by_cases hesc : b = escChar
      · rw [if_pos hesc, Outcome.returned.injEq] at h
        rw [← h, decide_eq_true hesc]
      · rw [if_neg hesc] at h
        rw [decide_eq_false hesc]
        by_cases hflag : b = controlChar
        · rw [if_pos hflag] at h
          exact hmap _ h
        · rw [if_neg hflag] at h
          exact hmap _ h

/-- The loop does what the tokens of its bytes do. The induction carries
    `escaping`, since the tokens of the rest depend on it. -/
theorem decodeLoop_abs (bs : List Byte) (e : Bool) (d : Decoder) :
    (Outcome.feed decodeByte (e, d) bs).map (fun s => s.2.abs)
      = Outcome.feed collect d.abs (tokens escChar controlChar (· ^^^ escMask) e bs) := by
  induction bs generalizing e d with
  | nil => cases e <;> rfl
  | cons b bs ih =>
      have hsplit := tokens_append escChar controlChar (· ^^^ escMask) e [b] bs
      rw [List.singleton_append] at hsplit
      rw [hsplit, Outcome.feed_append, ← decodeByte_abs, Outcome.feed_cons]
      cases hstep : decodeByte (e, d) b with
      | returned s =>
          rw [← decodeByte_escaping e d b s hstep]
          exact ih s.1 s.2
      | threw x s => rfl

theorem decode_abs (d : Decoder) (srcData : List Byte) (len : Nat) (hlen : len ≤ srcData.length) :
    (decode d srcData len).map Decoder.abs
      = Outcome.feed collect d.abs (byteTokens (srcData.take len)) := by
  rw [byteTokens, ← decodeLoop_abs, decode]
  cases hloop : Outcome.feed decodeByte (false, d) (srcData.take len) with
  | returned s =>
      simp only [Outcome.map_returned, Outcome.bind_returned]
      rw [if_neg (by omega), Outcome.map_returned]
  | threw x s => rfl

/-- A call over a whole buffer whose tokens are absorbed without a throw
    returns, and leaves what absorbing them leaves. -/
theorem decode_of_tokens (d : Decoder) (srcData : List Byte) (s : Deframer Byte)
    (h : Outcome.feed collect d.abs (byteTokens srcData) = .returned s) :
    ∃ d', decode d srcData srcData.length = .returned d' ∧ d'.abs = s := by
  have hcall := decode_abs d srcData srcData.length (le_refl _)
  rw [List.take_length, h] at hcall
  cases hd : decode d srcData srcData.length with
  | threw x d' =>
      rw [hd, Outcome.map_threw] at hcall
      exact absurd hcall (by simp only [reduceCtorEq, not_false_eq_true])
  | returned d' =>
      rw [hd, Outcome.map_returned, Outcome.returned.injEq] at hcall
      exact ⟨d', rfl, hcall⟩

/-- A token finds the decode buffer full, or fewer than the two CRC bytes. -/
def OffendsAt (d : Decoder) (ts pre : List (Token Byte)) (tok : Token Byte) : Prop :=
  Offence readBufferMaxSize 2 d.pending ts pre tok

/-- The packets of the flags among some tokens: each frame without its last two
    bytes. -/
def packetsOf (d : Decoder) (ts : List (Token Byte)) : List (List Byte) :=
  (closedFrames d.pending ts).map fun frame => frame.take (frame.length - 2)

/-- A call throws exactly if some flag finds fewer than two bytes pending or some
    byte finds the buffer full. A call that throws has queued the packets of the
    flags before the first such token and leaves the frame it was in; a call that
    returns has queued one packet for each flag. -/
theorem decode_exact (d : Decoder) (srcData : List Byte) (len : Nat) (hlen : len ≤ srcData.length) :
    ((decode d srcData len).isReturned = false
      ↔ ∃ pre tok, OffendsAt d (byteTokens (srcData.take len)) pre tok)
    ∧ (∀ e d', decode d srcData len = .threw e d' →
      ∃ pre tok, OffendsAt d (byteTokens (srcData.take len)) pre tok
        ∧ (∀ pre' tok', ¬OffendsAt d pre pre' tok')
        ∧ d'.mPacketQueue = d.mPacketQueue ++ packetsOf d pre
        ∧ d'.pending = openFrame d.pending pre)
    ∧ ∀ d', decode d srcData len = .returned d' →
      d'.mPacketQueue = d.mPacketQueue ++ packetsOf d (byteTokens (srcData.take len))
      ∧ (packetsOf d (byteTokens (srcData.take len))).length
        = (byteTokens (srcData.take len)).count .flag
      ∧ d'.pending = openFrame d.pending (byteTokens (srcData.take len)) := by
  have habs := decode_abs d srcData len hlen
  obtain ⟨ts, hts⟩ : ∃ ts, ts = byteTokens (srcData.take len) := ⟨_, rfl⟩
  rw [← hts] at habs ⊢
  have hroom : d.abs.pending.length ≤ readBufferMaxSize := by
    rw [Decoder.abs, length_pending]
    exact d.mDecodeLen_le
  rcases feed_absorb readBufferMaxSize 2 ts d.abs hroom with ⟨hnone, hfeed⟩
    | ⟨pre, tok, hat, hfirst, e, hfeed⟩
  · rw [collect, hfeed, Outcome.map_eq_returned] at habs
    obtain ⟨d', hd', hstate⟩ := habs
    rw [hd']
    refine ⟨?_, fun e d'' h => ?_, fun d'' h => ?_⟩
    · rw [Outcome.isReturned_returned]
      refine ⟨fun h => absurd h Bool.noConfusion, ?_⟩
      rintro ⟨pre, tok, hat⟩
      exact absurd hat (hnone pre tok)
    · exact absurd h (by simp only [reduceCtorEq, not_false_eq_true])
    · obtain rfl : d' = d'' := Outcome.returned.inj h
      refine ⟨congrArg Deframer.packets hstate, ?_, congrArg Deframer.pending hstate⟩
      rw [packetsOf, List.length_map, length_closedFrames]
  · rw [collect, hfeed] at habs
    cases hd : decode d srcData len with
    | returned d' =>
        rw [hd, Outcome.map_returned] at habs
        exact absurd habs (by simp only [reduceCtorEq, not_false_eq_true])
    | threw e' d' =>
        rw [hd, Outcome.map_threw, Outcome.threw.injEq] at habs
        refine ⟨⟨fun _ => ⟨pre, tok, hat⟩, fun _ => rfl⟩, fun e'' d'' h => ?_, fun d'' h => ?_⟩
        · obtain ⟨rfl, rfl⟩ := Outcome.threw.inj h
          exact ⟨pre, tok, hat, hfirst, congrArg Deframer.packets habs.2,
            congrArg Deframer.pending habs.2⟩
        · exact absurd h (by simp only [reduceCtorEq, not_false_eq_true])

/-- A frame and a second flag right behind its own: the second flag throws, and the
    first frame's packet is queued. -/
theorem decode_exact_two_flags :
    ∃ pre tok, OffendsAt Decoder.fresh (byteTokens [0x10, 0x11, 0x12, 0x7E, 0x7E]) pre tok
      ∧ (decode Decoder.fresh [0x10, 0x11, 0x12, 0x7E, 0x7E] 5).isReturned = false := by
  have hat : OffendsAt Decoder.fresh (byteTokens [0x10, 0x11, 0x12, 0x7E, 0x7E])
      [.data 0x10, .data 0x11, .data 0x12, .flag] .flag :=
    ⟨by decide, Nat.zero_lt_two⟩
  exact ⟨_, _, hat, (decode_exact Decoder.fresh [0x10, 0x11, 0x12, 0x7E, 0x7E] 5
    (by decide)).1.mpr ⟨_, _, hat⟩⟩

/-- A run does what the tokens of its chunks do, each chunk read from outside
    an escape. -/
theorem decodeChunks_abs (chunks : List (List Byte)) (d : Decoder) :
    (decodeChunks d chunks).map Decoder.abs
      = Outcome.feed collect d.abs (chunkTokens chunks) := by
  induction chunks generalizing d with
  | nil => rfl
  | cons c chunks ih =>
      have hcall := decode_abs d c c.length (le_refl _)
      rw [List.take_length] at hcall
      rw [chunkTokens, List.flatMap_cons, Outcome.feed_append, ← hcall, decodeChunks,
        Outcome.feed_cons]
      cases hc : decode d c c.length with
      | returned d' => exact ih d'
      | threw x d' => rfl

/-- Every chunk but the last ends outside an escape: the number of escape
    characters it ends in is even. -/
def cutsCleanly : List (List Byte) → Prop
  | [] => True
  | [_] => True
  | c :: rest => trailingEscapes escChar c % 2 = 0 ∧ cutsCleanly rest

/-- Cutting cleanly does not change the tokens. -/
theorem chunkTokens_eq (chunks : List (List Byte)) (h : cutsCleanly chunks) :
    chunkTokens chunks = byteTokens chunks.flatten := by
  induction chunks with
  | nil => rfl
  | cons c rest ih =>
      cases rest with
      | nil =>
          simp only [chunkTokens, List.flatMap_cons, List.flatMap_nil, List.append_nil,
            List.flatten_cons, List.flatten_nil]
      | cons c' rest' =>
          rcases h with ⟨heven, hrest⟩
          -- The first chunk leaves the reader outside, where the next one
          -- starts.
          have hout : endsEscaping escChar false c = false := by
            rw [endsEscaping_eq, decide_eq_false_iff_not]
            omega
          have hrec := ih hrest
          rw [chunkTokens, List.flatMap_cons, List.flatten_cons, byteTokens, byteTokens,
            tokens_append, hout, ← byteTokens, ← byteTokens, ← hrec]
          rfl

/-- Two runs on fresh decoders agree: if every call of both returns, both queue
    the same packets in the same order and leave the same bytes pending. -/
def AgreeOnReturn (chunks chunks' : List (List Byte)) : Prop :=
  (decodeChunks Decoder.fresh chunks).isReturned = true →
  (decodeChunks Decoder.fresh chunks').isReturned = true →
    (decodeChunks Decoder.fresh chunks).state.mPacketQueue
        = (decodeChunks Decoder.fresh chunks').state.mPacketQueue ∧
      (decodeChunks Decoder.fresh chunks).state.pending
        = (decodeChunks Decoder.fresh chunks').state.pending

/-- Agreement of two runs is a question about their tokens. -/
theorem agreeOnReturn_iff (chunks chunks' : List (List Byte)) :
    AgreeOnReturn chunks chunks' ↔
      ((Outcome.feed collect Decoder.fresh.abs (chunkTokens chunks)).isReturned = true →
        (Outcome.feed collect Decoder.fresh.abs (chunkTokens chunks')).isReturned = true →
        (Outcome.feed collect Decoder.fresh.abs (chunkTokens chunks)).state
          = (Outcome.feed collect Decoder.fresh.abs (chunkTokens chunks')).state) := by
  rw [AgreeOnReturn, ← decodeChunks_abs, ← decodeChunks_abs, Outcome.isReturned_map,
    Outcome.isReturned_map, Outcome.state_map, Outcome.state_map]
  simp only [Decoder.abs, Deframer.mk.injEq]
  exact ⟨fun h hr hr' => (h hr hr').symm, fun h hr hr' => (h hr hr').symm⟩

theorem agreeOnReturn_of_tokens (chunks chunks' : List (List Byte))
    (h : chunkTokens chunks = chunkTokens chunks') : AgreeOnReturn chunks chunks' := by
  rw [agreeOnReturn_iff, h]
  exact fun _ _ => rfl

theorem chunkTokens_append (cs cs' : List (List Byte)) :
    chunkTokens (cs ++ cs') = chunkTokens cs ++ chunkTokens cs' :=
  List.flatMap_append

theorem chunkTokens_singleton (c : List Byte) : chunkTokens [c] = byteTokens c := by
  simp only [chunkTokens, List.flatMap_cons, List.flatMap_nil, List.append_nil]

/-- One more chunk after a clean run stays clean when the run ended outside an
    escape. -/
theorem cutsCleanly_append (cs : List (List Byte)) (c rest : List Byte)
    (h : cutsCleanly (cs ++ [c])) (heven : trailingEscapes escChar c % 2 = 0) :
    cutsCleanly (cs ++ [c, rest]) := by
  induction cs with
  | nil => exact ⟨heven, trivial⟩
  | cons d cs ih =>
      cases cs with
      | nil => exact ⟨h.1, ih h.2⟩
      | cons d' cs' => exact ⟨h.1, ih h.2⟩

/-- Whether a stream's tokens continue inside an escape is decided by its last
    chunk when the earlier cuts are clean. -/
theorem endsEscaping_flatten (cs : List (List Byte)) (c : List Byte)
    (h : cutsCleanly (cs ++ [c])) :
    endsEscaping escChar false (cs ++ [c]).flatten = endsEscaping escChar false c := by
  induction cs with
  | nil => simp only [List.nil_append, List.flatten_cons, List.flatten_nil, List.append_nil]
  | cons d cs ih =>
      have hd : trailingEscapes escChar d % 2 = 0 ∧ cutsCleanly (cs ++ [c]) := by
        cases cs with
        | nil => exact h
        | cons d' cs' => exact h
      have hout : endsEscaping escChar false d = false := by
        rw [endsEscaping_eq, decide_eq_false_iff_not]
        omega
      rw [List.cons_append, List.flatten_cons, endsEscaping_append, hout]
      exact ih hd.2

theorem agreeOnReturn_of_clean (chunks chunks' : List (List Byte))
    (hflat : chunks.flatten = chunks'.flatten) (h : cutsCleanly chunks) (h' : cutsCleanly chunks') :
    AgreeOnReturn chunks chunks' := by
  apply agreeOnReturn_of_tokens
  rw [chunkTokens_eq chunks h, chunkTokens_eq chunks' h', hflat]

/-- After a clean run that ended inside an escape, one more chunk is read
    differently from the whole stream: the byte behind the cut is taken as it
    stands by one run and masked by the other. -/
theorem disagree_inside_escape (cs : List (List Byte)) (c : List Byte)
    (hclean : cutsCleanly (cs ++ [c]))
    (hret : (decodeChunks Decoder.fresh (cs ++ [c])).isReturned = true)
    (hroom : (decodeChunks Decoder.fresh (cs ++ [c])).state.mDecodeLen < readBufferMaxSize)
    (hodd : trailingEscapes escChar c % 2 = 1) :
    ¬ AgreeOnReturn (cs ++ [c] ++ [[0x41]]) [(cs ++ [c] ++ [[0x41]]).flatten] := by
  have hesc : endsEscaping escChar false (cs ++ [c]).flatten = true := by
    rw [endsEscaping_flatten cs c hclean, endsEscaping_eq, decide_eq_true_iff]
    exact hodd
  -- One run takes the next byte as it stands ...
  have hsplit : chunkTokens (cs ++ [c] ++ [[0x41]]) = chunkTokens (cs ++ [c]) ++ [.data 0x41] := by
    rw [chunkTokens_append, chunkTokens_singleton]
    rfl
  -- ... the other one masks it.
  have hwhole : chunkTokens [(cs ++ [c] ++ [[0x41]]).flatten]
      = chunkTokens (cs ++ [c]) ++ [.data 0x61] := by
    rw [chunkTokens_singleton, List.flatten_append, byteTokens, tokens_append, hesc,
      ← byteTokens, ← chunkTokens_eq _ hclean]
    rfl
  have hrun := decodeChunks_abs (cs ++ [c]) Decoder.fresh
  rw [Outcome.eq_returned _ hret, Outcome.map_returned] at hrun
  -- Both find room for their byte, so both return.
  have hlen : (decodeChunks Decoder.fresh (cs ++ [c])).state.abs.pending.length
      < readBufferMaxSize := by
    rw [Decoder.abs, length_pending]
    exact hroom
  intro hsame
  rw [agreeOnReturn_iff, hsplit, hwhole, Outcome.feed_append, Outcome.feed_append, ← hrun] at hsame
  simp only [Outcome.bind_returned, Outcome.feed_cons, collect, absorb, if_pos hlen,
    Outcome.feed_nil, Outcome.isReturned_returned, Outcome.state_returned, forall_const,
    Deframer.mk.injEq, List.append_cancel_left_eq, List.cons.injEq, and_true] at hsame
  exact absurd hsame (by decide)

/-- Cutting a stream between calls does not change what the calls do as long
    as no cut falls inside an escape. The condition is exact for the next cut
    of a run: with room for another byte, cutting after the last chunk is
    harmless for every continuation exactly when that chunk ends outside an
    escape. -/
theorem decodeChunks_cut (chunks chunks' : List (List Byte))
    (hflat : chunks.flatten = chunks'.flatten) :
    (cutsCleanly chunks → cutsCleanly chunks' → AgreeOnReturn chunks chunks') ∧
    (∀ cs c, chunks = cs ++ [c] → cutsCleanly chunks →
      (decodeChunks Decoder.fresh chunks).isReturned = true →
      (decodeChunks Decoder.fresh chunks).state.mDecodeLen < readBufferMaxSize →
      ((∀ rest : List Byte, AgreeOnReturn (chunks ++ [rest]) [(chunks ++ [rest]).flatten]) ↔
        trailingEscapes escChar c % 2 = 0)) := by
  refine ⟨agreeOnReturn_of_clean chunks chunks' hflat, ?_⟩
  rintro cs c rfl hclean hret hroom
  constructor
  · intro hagree
    by_contra hodd
    exact disagree_inside_escape cs c hclean hret hroom (by omega) (hagree [0x41])
  · intro heven rest
    refine agreeOnReturn_of_clean _ _ ?_ ?_ trivial
    · rw [List.flatten_cons, List.flatten_nil, List.append_nil]
    · rw [List.append_assoc, List.singleton_append]
      exact cutsCleanly_append cs c rest hclean heven

/-- A frame cut between two plain bytes, against the frame in one piece. -/
theorem decodeChunks_cut_between_bytes :
    ([[0x10, 0x11], [0x12, 0x7E]] : List (List Byte)).flatten
        = ([[0x10, 0x11, 0x12, 0x7E]] : List (List Byte)).flatten ∧
      AgreeOnReturn [[0x10, 0x11], [0x12, 0x7E]] [[0x10, 0x11, 0x12, 0x7E]] :=
  ⟨rfl, (decodeChunks_cut [[0x10, 0x11], [0x12, 0x7E]] [[0x10, 0x11, 0x12, 0x7E]] rfl).1
    ⟨by decide, trivial⟩ trivial⟩

/-- An escape and its byte in one chunk, against the two in separate chunks:
    both runs return, and the pending byte differs. -/
theorem decodeChunks_cut_inside_escape :
    ([[0x7D, 0x41]] : List (List Byte)).flatten = ([[0x7D], [0x41]] : List (List Byte)).flatten ∧
      ¬ AgreeOnReturn [[0x7D, 0x41]] [[0x7D], [0x41]] := by
  refine ⟨rfl, ?_⟩
  rw [agreeOnReturn_iff, pending_fresh]
  decide

/-- A packet, its CRC bytes, and the positions the sender escapes without
    need. -/
structure SentFrame where
  packet : List Byte
  crc : Byte × Byte
  extra : Nat → Bool

/-- The bytes a sender emits for one packet. -/
def frame (f : SentFrame) : List Byte :=
  stuff escChar controlChar (· ^^^ escMask)
      ((f.packet ++ [f.crc.1, f.crc.2]).mapIdx (fun i b => (b, f.extra i))) ++ [controlChar]

theorem xor_escMask (b : Byte) : b ^^^ escMask ^^^ escMask = b := by
  rw [BitVec.xor_assoc, BitVec.xor_self, BitVec.xor_zero]

theorem byteTokens_frame (f : SentFrame) (rest : List Byte) :
    byteTokens (frame f ++ rest)
      = (f.packet ++ [f.crc.1, f.crc.2]).map Token.data ++ [Token.flag] ++ byteTokens rest := by
  rw [byteTokens, frame, List.append_assoc, tokens_stuff _ _ _ xor_escMask, List.append_assoc]
  congr 1
  refine List.ext_getElem (by simp only [List.length_map, List.length_mapIdx]) ?_
  intro i _ _
  simp only [List.getElem_map, List.getElem_mapIdx]

/-- The tokens of a list of frames become their packets. -/
theorem collect_frames (fs : List SentFrame) (s : Deframer Byte) (hopen : s.pending = [])
    (hfit : ∀ f ∈ fs, f.packet.length + 2 ≤ readBufferMaxSize) :
    Outcome.feed collect s (byteTokens (fs.flatMap frame))
      = .returned { pending := [], packets := s.packets ++ fs.map SentFrame.packet } := by
  -- Each frame finds the deframer with nothing pending and leaves it so.
  induction fs generalizing s with
  | nil =>
      rcases s with ⟨pending, packets⟩
      rw [show pending = [] from hopen, List.map_nil, List.append_nil]
      rfl
  | cons f fs ih =>
      rw [List.flatMap_cons, byteTokens_frame, Outcome.feed_append, collect,
        feed_absorb_frame readBufferMaxSize 2 f.packet [f.crc.1, f.crc.2] s hopen rfl
          (hfit f List.mem_cons_self), Outcome.bind_returned, ← collect,
        ih _ rfl (fun g hg => hfit g (List.mem_cons_of_mem f hg))]
      simp only [List.map_cons, List.append_assoc, List.singleton_append]

/-- Decoding undoes framing, from any state with nothing pending. -/
theorem decode_frames (fs : List SentFrame) (d : Decoder) (hlen : d.mDecodeLen = 0)
    (hfit : ∀ f ∈ fs, f.packet.length + 2 ≤ 16384) :
    ∃ d', decode d (fs.flatMap frame) (fs.flatMap frame).length = .returned d' ∧
      d'.mPacketQueue = d.mPacketQueue ++ fs.map SentFrame.packet ∧ d'.mDecodeLen = 0 := by
  have hopen : d.abs.pending = [] := by
    rw [← List.length_eq_zero_iff, Decoder.abs, length_pending]
    exact hlen
  rcases decode_of_tokens d _ _ (collect_frames fs d.abs hopen hfit) with ⟨d', hd', habs⟩
  unfold Decoder.abs at habs
  rw [Deframer.mk.injEq] at habs
  refine ⟨d', hd', habs.2, ?_⟩
  rw [← length_pending, habs.1, List.length_nil]

/-- A packet made of the special bytes, with one CRC byte escaped by choice. -/
theorem decode_frames_special_bytes :
    (∀ f ∈ [SentFrame.mk [0x7E, 0x7D, 0x5E] (0x10, 0x20) (fun i => decide (i = 4))],
        f.packet.length + 2 ≤ 16384) ∧
      ∃ d', decode Decoder.fresh [0x7D, 0x5E, 0x7D, 0x5D, 0x5E, 0x10, 0x7D, 0x00, 0x7E] 9
          = .returned d' ∧ d'.mPacketQueue = [[0x7E, 0x7D, 0x5E]] ∧ d'.mDecodeLen = 0 := by
  have hfit : ∀ f ∈ [SentFrame.mk [0x7E, 0x7D, 0x5E] (0x10, 0x20) (fun i => decide (i = 4))],
      f.packet.length + 2 ≤ 16384 := by
    decide
  exact ⟨hfit, decode_frames _ Decoder.fresh rfl hfit⟩

/-- Any calls on one object. A call that throws leaves the object as it is at
    the throw, and the next one goes on from there. -/
def decodeCalls (d : Decoder) (calls : List (List Byte × Nat)) : Decoder :=
  calls.foldl (fun d c => (decode d c.1 c.2).state) d

/-- Every packet queued so far fits into the buffer together with its CRC. -/
def Bounded (d : Decoder) : Prop := ∀ p ∈ d.mPacketQueue, p.length + 2 ≤ readBufferMaxSize

theorem decodeByte_bounded (s : Bool × Decoder) (b : Byte) (h : Bounded s.2) :
    Bounded (decodeByte s b).state.2 := by
  have hstore : ∀ c, Bounded (s.2.store c).state := by
    intro c
    unfold Decoder.store
    split
    · exact h
    · exact h
  have henqueue : Bounded s.2.enqueue.state := by
    unfold Decoder.enqueue
    split
    · exact h
    · rename_i hlong
      intro p hp
      rcases List.mem_append.mp hp with hp | hp
      · exact h p hp
      · have hle := s.2.mDecodeLen_le
        rw [List.mem_singleton.mp hp, List.length_take]
        omega
  unfold decodeByte
  split
  · rw [Outcome.state_map]
    exact hstore _
  · split
    · exact h
    · split
      · rw [Outcome.state_map]
        exact henqueue
      · rw [Outcome.state_map]
        exact hstore _

theorem decode_bounded (d : Decoder) (srcData : List Byte) (len : Nat) (h : Bounded d) :
    Bounded (decode d srcData len).state := by
  have hloop := Outcome.feed_keeps decodeByte (fun s => Bounded s.2) decodeByte_bounded
    (srcData.take len) (false, d) h
  unfold decode
  rcases hfeed : Outcome.feed decodeByte (false, d) (srcData.take len) with s | ⟨e, s⟩
  · rw [hfeed] at hloop
    rw [Outcome.map_returned, Outcome.bind_returned]
    split
    · exact hloop
    · exact hloop
  · rw [hfeed] at hloop
    exact hloop

/-- No run of calls queues a packet that, with its CRC, is longer than the
    buffer. -/
theorem decodeCalls_bounded (calls : List (List Byte × Nat)) (d : Decoder) (h : Bounded d) :
    Bounded (decodeCalls d calls) := by
  induction calls generalizing d with
  | nil => exact h
  | cons c calls ih => exact ih _ (decode_bounded d c.1 c.2 h)

end Hdlc

end NetProbe
