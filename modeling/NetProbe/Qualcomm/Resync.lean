import NetProbe.Qualcomm.Hdlc

/-!
# Resynchronisation of the Decoder

A stream that has lost bytes, or gained some, is not a stream of frames any
more. The decoder reads what is left of the damaged frames together with the
next whole frame, may take their bytes for anything, and may throw. What it
cannot do is miss the flag at the end of that frame, provided the sender escapes
only where it must: the flag is not eaten by an escape, whatever the bytes
before it were. From there on the decoder is back at the start of a frame.

So a disturbance costs the frames it touches and the one after them, and no
other. Whether the decoder throws depends on the bytes of the disturbance and
that one frame alone.

## Main definitions

* `Plain`: A frame whose sender escapes only the special bytes.
* `decodeAlone`: What a new decoder makes of some bytes and one frame.

## Theorems

* `collect_prepend`: Absorbing does not look at the packets collected before.
* `byteTokens_frames`: Frames are read without regard to what follows.
* `tokens_plain_frame`: A plain frame ends in a flag from either state.
* `decode_resync`: What comes before a disturbance and after the next frame is
  decoded as if nothing had happened.
-/

namespace NetProbe

namespace Hdlc

open ByteStuffing

/-- A deframer that has collected some packets before. -/
def prepend (packets : List (List Byte)) (s : Deframer Byte) : Deframer Byte :=
  { s with packets := packets ++ s.packets }

theorem collect_prepend (packets : List (List Byte)) (s : Deframer Byte) (tok : Token Byte) :
    collect (prepend packets s) tok = (collect s tok).map (prepend packets) := by
  unfold collect absorb prepend
  dsimp only
  split
  · split
    · rfl
    · rfl
  · split
    · rfl
    · rw [Outcome.map_returned, List.append_assoc]

theorem feed_prepend (packets : List (List Byte)) (ts : List (Token Byte)) (s : Deframer Byte) :
    Outcome.feed collect (prepend packets s) ts
      = (Outcome.feed collect s ts).map (prepend packets) := by
  induction ts generalizing s with
  | nil => rfl
  | cons tok ts ih =>
      rw [Outcome.feed_cons, Outcome.feed_cons, collect_prepend]
      cases collect s tok with
      | returned s' => exact ih s'
      | threw e s' => rfl

/-- Frames are read the same way whatever follows. -/
theorem byteTokens_frames (fs : List SentFrame) (rest : List Byte) :
    byteTokens (fs.flatMap frame ++ rest)
      = byteTokens (fs.flatMap frame) ++ byteTokens rest := by
  induction fs with
  | nil => rfl
  | cons f fs ih =>
      rw [List.flatMap_cons, List.append_assoc, byteTokens_frame, byteTokens_frame, ih,
        List.append_assoc, List.append_assoc, List.append_assoc]

/-- A frame whose sender escapes only the special bytes. -/
def Plain (f : SentFrame) : Prop := ∀ i, f.extra i = false

/-- From either state of the reader, a plain frame is data and then a flag. -/
theorem tokens_plain_frame (e : Bool) {f : SentFrame} (hf : Plain f) :
    ∃ ds : List Byte, ∀ rest,
      tokens escChar controlChar (· ^^^ escMask) e (frame f ++ rest)
        = ds.map Token.data ++ Token.flag :: byteTokens rest := by
  have hvalues : (f.packet ++ [f.crc.1, f.crc.2]).mapIdx (fun i b => (b, f.extra i))
      = (f.packet ++ [f.crc.1, f.crc.2]).map (fun b => (b, false)) := by
    rw [List.mapIdx_eq_iff]
    intro i
    rw [List.getElem?_map, hf i]
  obtain ⟨ds, hds⟩ := tokens_stuff_from escChar controlChar (· ^^^ escMask) (by decide)
    (by rintro b (rfl | rfl) <;> decide) e (f.packet ++ [f.crc.1, f.crc.2])
    (List.append_ne_nil_of_right_ne_nil _ (List.cons_ne_nil _ _))
  refine ⟨ds, fun rest => ?_⟩
  rw [frame, hvalues, List.append_assoc, List.singleton_append]
  exact hds rest

/-- Behind a flag nothing is pending. -/
theorem feed_flag_pending {ts : List (Token Byte)} {s s' : Deframer Byte}
    (h : Outcome.feed collect s (ts ++ [.flag]) = .returned s') : s'.pending = [] := by
  rw [Outcome.feed_append] at h
  obtain ⟨t, -, hflag⟩ := (Outcome.bind_eq_returned _ _ _).mp h
  simp only [Outcome.feed_cons, Outcome.feed_nil, collect, absorb] at hflag
  split at hflag
  · exact absurd hflag (by simp only [Outcome.bind_threw, reduceCtorEq, not_false_eq_true])
  · rw [Outcome.bind_returned, Outcome.returned.injEq] at hflag
    rw [← hflag]

/-- Garbage and the next plain frame are read apart from the frames behind
    them. They end in a flag, the one flag of the frame. -/
theorem byteTokens_garbage (g : List Byte) {b : SentFrame} (hb : Plain b) :
    ∃ ts, byteTokens (g ++ frame b) = ts ++ [.flag] ∧
      ts.count .flag = (byteTokens g).count .flag ∧
      ∀ rest, byteTokens (g ++ (frame b ++ rest))
        = byteTokens (g ++ frame b) ++ byteTokens rest := by
  obtain ⟨ds, hds⟩ := tokens_plain_frame (endsEscaping escChar false g) hb
  have hread : ∀ rest, byteTokens (g ++ (frame b ++ rest))
      = byteTokens g ++ ds.map Token.data ++ [.flag] ++ byteTokens rest := by
    intro rest
    rw [byteTokens, tokens_append, hds rest, List.append_assoc, List.append_assoc]
    rfl
  have hnone := hread []
  rw [List.append_nil, show byteTokens [] = [] from rfl, List.append_nil] at hnone
  refine ⟨byteTokens g ++ ds.map Token.data, hnone, ?_, fun rest => by rw [hread rest, hnone]⟩
  have hdata : (ds.map Token.data).count Token.flag = 0 := by
    rw [List.count_eq_zero, List.mem_map]
    rintro ⟨b, -, h⟩
    exact absurd h (by simp only [reduceCtorEq, not_false_eq_true])
  rw [List.count_append, hdata, Nat.add_zero]

/-- What a new decoder makes of some bytes and one frame behind them. -/
def decodeAlone (g : List Byte) (b : SentFrame) : Outcome Decoder :=
  decode .fresh (g ++ frame b) (g ++ frame b).length

/-- Let a decoder with nothing pending be handed frames, then any bytes at all,
    then one plain frame, then more frames. It throws exactly if a new decoder
    throws on those bytes and that one frame. Otherwise the frames before and
    the frames after are decoded as if nothing had come between, and the
    packets between them are those of a new decoder, one for each flag it
    reads in the bytes and one for the frame. -/
theorem decode_resync (d : Decoder) (hlen : d.mDecodeLen = 0) (before after : List SentFrame)
    (g : List Byte) (b : SentFrame) (hb : Plain b)
    (hfit : ∀ f ∈ before ++ after, f.packet.length + 2 ≤ readBufferMaxSize)
    (received : List Byte)
    (hreceived : received = before.flatMap frame ++ (g ++ (frame b ++ after.flatMap frame))) :
    (decode d received received.length).isReturned
        = (decodeAlone g b).isReturned ∧
      ∀ d', decode d received received.length = .returned d' →
        (decodeAlone g b).state.mPacketQueue.length = (byteTokens g).count .flag + 1 ∧
          d'.mDecodeLen = 0 ∧
          d'.mPacketQueue = d.mPacketQueue ++ before.map SentFrame.packet
            ++ (decodeAlone g b).state.mPacketQueue ++ after.map SentFrame.packet := by
  unfold decodeAlone
  obtain ⟨ts, hts, hcount, hread⟩ := byteTokens_garbage g hb
  have habs := decode_abs d received received.length (Nat.le_refl _)
  have hnew := decode_abs .fresh (g ++ frame b) (g ++ frame b).length (Nat.le_refl _)
  rw [List.take_length] at habs hnew
  rw [pending_fresh] at hnew
  have hopen : d.abs.pending = [] := by
    rw [← List.length_eq_zero_iff, Decoder.abs, length_pending]
    exact hlen
  -- The frames before leave nothing pending.
  rw [hreceived, byteTokens_frames, hread, Outcome.feed_append,
    collect_frames before d.abs hopen (fun f hf => hfit f (List.mem_append_left _ hf)),
    Outcome.bind_returned, Outcome.feed_append, ← hreceived,
    show ({ pending := [], packets := d.abs.packets ++ before.map SentFrame.packet } :
        Deframer Byte) = prepend (d.abs.packets ++ before.map SentFrame.packet)
          { pending := [], packets := [] } by rw [prepend, List.append_nil],
    feed_prepend] at habs
  cases hgarbage : Outcome.feed collect { pending := [], packets := [] }
      (byteTokens (g ++ frame b)) with
  | threw e s =>
      rw [hgarbage] at habs hnew
      have hthrew := congrArg Outcome.isReturned habs
      have hthrew' := congrArg Outcome.isReturned hnew
      rw [Outcome.isReturned_map] at hthrew hthrew'
      refine ⟨hthrew.trans hthrew'.symm, fun d' h => ?_⟩
      rw [h] at hthrew
      exact absurd hthrew (by simp only [Outcome.isReturned_returned, Outcome.map_threw,
        Outcome.bind_threw, Outcome.isReturned_threw, reduceCtorEq, not_false_eq_true])
  | returned s =>
      rw [hgarbage] at habs hnew
      obtain ⟨d₁, hd₁, hstate₁⟩ := (Outcome.map_eq_returned _ _ _).mp hnew
      -- And so does the flag of the plain frame.
      have hclosed : s.pending = [] := feed_flag_pending (hts ▸ hgarbage)
      rw [Outcome.map_returned, Outcome.bind_returned,
        collect_frames after (prepend _ s) hclosed
          (fun f hf => hfit f (List.mem_append_right _ hf))] at habs
      obtain ⟨d₂, hd₂, hstate₂⟩ := (Outcome.map_eq_returned _ _ _).mp habs
      rw [hd₁, hd₂]
      refine ⟨rfl, fun d' h => ?_⟩
      obtain rfl := Outcome.returned.inj h
      obtain ⟨hqueue, hflags, -⟩ :=
        (decode_exact .fresh (g ++ frame b) _ (Nat.le_refl _)).2.2 d₁ hd₁
      refine ⟨?_, ?_, ?_⟩
      · rw [Outcome.state_returned, hqueue]
        rw [List.take_length, hts, List.count_append, hcount, List.count_singleton_self] at hflags
        rw [List.take_length, hts]
        exact hflags
      · rw [← length_pending]
        exact congrArg List.length (congrArg Deframer.pending hstate₂)
      · rw [Outcome.state_returned, show d₁.mPacketQueue = s.packets from
          congrArg Deframer.packets hstate₁]
        exact congrArg Deframer.packets hstate₂

/-- A plain frame with two fixed CRC bytes. -/
def plainFrame (packet : List Byte) : SentFrame := ⟨packet, (1, 2), fun _ => false⟩

/-- Between two frames a byte and an escape are left of a third, and take the
    first byte of a fourth with them. -/
theorem decode_resync_lone_escape :
    ∃ damaged : List (List Byte), damaged.length = 1 ∧
      (decode .fresh [0x10, 1, 2, 0x7E, 0x11, 0x7D, 0x12, 1, 2, 0x7E, 0x13, 1, 2, 0x7E]
        14).state.mPacketQueue = [[0x10]] ++ damaged ++ [[0x13]] := by
  obtain ⟨hsame, hqueue⟩ := decode_resync .fresh rfl [plainFrame [0x10]] [plainFrame [0x13]]
    [0x11, 0x7D] (plainFrame [0x12]) (fun _ => rfl) (by decide)
    [0x10, 1, 2, 0x7E, 0x11, 0x7D, 0x12, 1, 2, 0x7E, 0x13, 1, 2, 0x7E] (by decide)
  have hreturned := Outcome.eq_returned _ (hsame.trans (by decide +kernel))
  obtain ⟨hlength, -, hpackets⟩ := hqueue _ hreturned
  exact ⟨_, hlength.trans (by decide), hpackets⟩

end Hdlc

end NetProbe
