import NetProbe.Lib.Outcome
import Mathlib.Data.List.Induction

/-!
# Byte Stuffing

Framing by a flag value, with an escape value that protects the two special
values inside a frame. Nothing here is about a particular link: the alphabet,
the two special values and the mask applied to a protected value are
parameters, and so are the capacity of a frame and the length of the trailer
that is cut off when it is closed.

A stream is read in two stages. `tokens` resolves escapes, so that what is
left is a list of data values and flags; `absorb` collects the data values of
one frame and closes it at a flag. The stages are separate because they fail
separately: reading tokens never fails, it only depends on whether the reader
starts inside an escape, and collecting fails exactly on a frame that is too
short or too long.

`tokens_append` is the fact about cutting a stream. Reading the second part
has to start where the first part ended, and `endsEscaping` says where that
is. A reader that restarts outside an escape agrees with it exactly when the
first part does not end inside one, and `endsEscaping_eq` turns that into
something visible in the bytes: the number of escape values the part ends in
is odd.

## Main definitions

* `Token`: A data value or the end of a frame.
* `tokens`: The tokens of a stream, from inside or outside an escape.
* `endsEscaping`: Whether a reader is inside an escape after a stream.
* `trailingEscapes`: How many escape values a stream ends in.
* `stuff`: The stream a sender emits for one frame's values.
* `Deframer`: The values of the open frame and the packets closed so far.
* `absorb`: One token's effect on the deframer.
* `openFrame`, `closedFrames`, `advance`: What tokens make of a deframer that has
  room and a trailer for them all.
* `Offence`: A place where a token finds the frame too short or too long.

## Theorems

* `tokens_append`: Reading a concatenation is reading its parts in turn.
* `endsEscaping_eq`: A stream ends inside an escape when it ends in an odd
  number of escape values.
* `tokens_stuff`: Reading undoes stuffing.
* `tokens_stuff_from`: The flag behind stuffed values is never missed.
* `feed_absorb_data`: Data tokens extend the open frame.
* `feed_absorb_frame`: A frame that fits becomes one packet.
* `feed_absorb`: Absorbing stops exactly at the first offence.
-/

namespace NetProbe

namespace ByteStuffing

/-- A data value of the open frame, or the flag that closes it. -/
inductive Token (α : Type) where
  | data (b : α)
  | flag
  deriving DecidableEq, Repr

section Tokens

variable {α : Type} [DecidableEq α] (esc flag : α) (mask : α → α)

/-- The tokens of a stream. The flag says whether the reader stands right
    after an escape value; an escape with nothing behind it gives no token. -/
def tokens : Bool → List α → List (Token α)
  | _, [] => []
  | true, b :: bs => .data (mask b) :: tokens false bs
  | false, b :: bs =>
      if b = esc then tokens true bs
      else if b = flag then .flag :: tokens false bs
      else .data b :: tokens false bs

/-- Whether the reader stands right after an escape value once the stream is
    read. -/
def endsEscaping : Bool → List α → Bool
  | e, [] => e
  | true, _ :: bs => endsEscaping false bs
  | false, b :: bs => endsEscaping (decide (b = esc)) bs

/-- How many escape values a stream ends in. -/
def trailingEscapes (bs : List α) : Nat :=
  (bs.reverse.takeWhile (fun b => decide (b = esc))).length

/-- The stream a sender emits for a list of values, each paired with its
    choice to escape it without need. -/
def stuff : List (α × Bool) → List α
  | [] => []
  | (b, extra) :: rest =>
      if b = esc ∨ b = flag ∨ extra = true then esc :: mask b :: stuff rest
      else b :: stuff rest

theorem tokens_append (e : Bool) (as bs : List α) :
    tokens esc flag mask e (as ++ bs)
      = tokens esc flag mask e as ++ tokens esc flag mask (endsEscaping esc e as) bs := by
  -- Induction on the first part; what it ends in decides how the second is
  -- read.
  induction as generalizing e with
  | nil => cases e <;> rfl
  | cons a as ih =>
      cases e with
      | true =>
          simp only [List.cons_append, tokens, endsEscaping]
          rw [ih false]
      | false =>
          simp only [List.cons_append, tokens, endsEscaping]
          by_cases ha : a = esc
          · rw [if_pos ha, if_pos ha, ih true, decide_eq_true ha]
          · rw [if_neg ha, if_neg ha, decide_eq_false ha]
            by_cases hf : a = flag
            · rw [if_pos hf, if_pos hf, ih false]
              rfl
            · rw [if_neg hf, if_neg hf, ih false]
              rfl

theorem endsEscaping_append (e : Bool) (as bs : List α) :
    endsEscaping esc e (as ++ bs) = endsEscaping esc (endsEscaping esc e as) bs := by
  induction as generalizing e with
  | nil => rfl
  | cons a as ih =>
      cases e with
      | true => exact ih false
      | false => exact ih (decide (a = esc))

/-- A stream ends inside an escape exactly when it ends in an odd number of
    escape values: any other value leaves the reader outside, and each escape
    value after that toggles it. -/
theorem endsEscaping_eq (bs : List α) :
    endsEscaping esc false bs = decide (trailingEscapes esc bs % 2 = 1) := by
  -- Induction from the end, where the trailing escapes are.
  induction bs using List.reverseRecOn with
  | nil => rfl
  | append_singleton bs b ih =>
      rw [endsEscaping_append, ih]
      -- One more value lengthens the trail of escapes or ends it.
      have htrail : trailingEscapes esc (bs ++ [b])
          = if b = esc then trailingEscapes esc bs + 1 else 0 := by
        simp only [trailingEscapes, List.reverse_append, List.reverse_cons, List.reverse_nil,
          List.nil_append, List.singleton_append, List.takeWhile_cons]
        by_cases hb : b = esc
        · simp only [hb, decide_true, if_true, List.length_cons]
        · simp only [hb, decide_false, Bool.false_eq_true, if_false, List.length_nil]
      rw [htrail]
      by_cases hb : b = esc
      · rw [if_pos hb]
        by_cases hodd : trailingEscapes esc bs % 2 = 1
        · simp only [hodd, decide_true, endsEscaping]
          rw [eq_comm, decide_eq_false_iff_not]
          omega
        · simp only [hodd, decide_false, endsEscaping, hb, decide_true]
          rw [eq_comm, decide_eq_true_iff]
          omega
      · rw [if_neg hb]
        by_cases hodd : trailingEscapes esc bs % 2 = 1
        · simp only [hodd, decide_true, endsEscaping]
          rfl
        · simp only [hodd, decide_false, endsEscaping, hb]
          rfl

/-- Reading undoes stuffing: the values come back as data tokens, and the
    reader is outside an escape for whatever follows. -/
theorem tokens_stuff (hmask : ∀ b, mask (mask b) = b) (vs : List (α × Bool)) (rest : List α) :
    tokens esc flag mask false (stuff esc flag mask vs ++ rest)
      = vs.map (fun v => Token.data v.1) ++ tokens esc flag mask false rest := by
  induction vs with
  | nil => rfl
  | cons v vs ih =>
      rcases v with ⟨b, extra⟩
      simp only [stuff]
      -- An escaped value is masked twice, a plain one is neither escape nor
      -- flag.
      by_cases hesc : b = esc ∨ b = flag ∨ extra = true
      · rw [if_pos hesc]
        simp only [List.cons_append, tokens, if_true, List.map_cons]
        rw [hmask b, ih]
      · rw [if_neg hesc]
        push Not at hesc
        simp only [List.cons_append, tokens, List.map_cons]
        rw [if_neg hesc.1, if_neg hesc.2.1, ih]

/-- Values stuffed without extra escapes, read from either state: whatever
    becomes of the values, the flag behind them is read as a flag. An escape
    that is pending takes the first byte away, and the masked values are
    neither escapes nor flags. -/
theorem tokens_stuff_from (hflag : flag ≠ esc)
    (hmask : ∀ b, b = esc ∨ b = flag → mask b ≠ esc ∧ mask b ≠ flag) (e : Bool) (vs : List α)
    (hvs : vs ≠ []) :
    ∃ ds : List α, ∀ rest,
      tokens esc flag mask e (stuff esc flag mask (vs.map (fun b => (b, false))) ++ flag :: rest)
        = ds.map Token.data ++ Token.flag :: tokens esc flag mask false rest := by
  -- Outside an escape the values come back one way or the other.
  have houtside : ∀ vs : List α, ∃ ds : List α, ∀ rest,
      tokens esc flag mask false
          (stuff esc flag mask (vs.map (fun b => (b, false))) ++ flag :: rest)
        = ds.map Token.data ++ Token.flag :: tokens esc flag mask false rest := by
    intro vs
    induction vs with
    | nil =>
        refine ⟨[], fun rest => ?_⟩
        simp only [List.map_nil, stuff, List.nil_append, tokens, if_neg hflag, if_true]
    | cons b vs ih =>
        obtain ⟨ds, hds⟩ := ih
        simp only [List.map_cons, stuff, Bool.false_eq_true, or_false]
        by_cases hb : b = esc ∨ b = flag
        · refine ⟨mask (mask b) :: ds, fun rest => ?_⟩
          simp only [if_pos hb, List.cons_append, tokens, if_true, List.map_cons]
          rw [hds rest]
        · push Not at hb
          refine ⟨b :: ds, fun rest => ?_⟩
          rw [if_neg (not_or.mpr hb)]
          simp only [List.cons_append, tokens, if_neg hb.1, if_neg hb.2, List.map_cons]
          rw [hds rest]
  cases e with
  | false => exact houtside vs
  | true =>
      rcases vs with _ | ⟨b, vs⟩
      · exact absurd rfl hvs
      obtain ⟨ds, hds⟩ := houtside vs
      simp only [List.map_cons, stuff, Bool.false_eq_true, or_false]
      by_cases hb : b = esc ∨ b = flag
      · refine ⟨mask esc :: mask b :: ds, fun rest => ?_⟩
        simp only [if_pos hb, List.cons_append, tokens, if_neg (hmask b hb).1,
          if_neg (hmask b hb).2, List.map_cons]
        rw [hds rest]
      · refine ⟨mask b :: ds, fun rest => ?_⟩
        simp only [if_neg hb, List.cons_append, tokens, List.map_cons]
        rw [hds rest]

end Tokens

section Deframing

variable {α : Type}

/-- The values of the open frame, and the packets closed so far. -/
structure Deframer (α : Type) where
  pending : List α
  packets : List (List α)
  deriving DecidableEq, Repr

/-- One token. A data value joins the open frame if there is room for it; a
    flag closes the frame, cutting off its trailer, and needs the trailer to
    be there. -/
def absorb (capacity trailer : Nat) (s : Deframer α) : Token α → Outcome (Deframer α)
  | .data b =>
      if s.pending.length < capacity then .returned { s with pending := s.pending ++ [b] }
      else .threw .arrayIndexOutOfBounds s
  | .flag =>
      if s.pending.length < trailer then .threw .negativeArraySize s
      else .returned
        { pending := [], packets := s.packets ++ [s.pending.take (s.pending.length - trailer)] }

theorem feed_absorb_data (capacity trailer : Nat) (vs : List α) (s : Deframer α)
    (hfit : s.pending.length + vs.length ≤ capacity) :
    Outcome.feed (absorb capacity trailer) s (vs.map Token.data)
      = .returned { s with pending := s.pending ++ vs } := by
  induction vs generalizing s with
  | nil => simp only [List.map_nil, Outcome.feed_nil, List.append_nil]
  | cons v vs ih =>
      simp only [List.length_cons] at hfit
      simp only [List.map_cons, Outcome.feed_cons, absorb]
      -- There is room for this value and, after it, for the others.
      rw [if_pos (by omega), Outcome.bind_returned, ih]
      · simp only [List.append_assoc, List.singleton_append]
      · simp only [List.length_append, List.length_singleton]
        omega

/-- The tokens of one frame, read with no frame open, become one packet. -/
theorem feed_absorb_frame (capacity trailer : Nat) (p t : List α) (s : Deframer α)
    (hopen : s.pending = []) (htrailer : t.length = trailer)
    (hfit : p.length + trailer ≤ capacity) :
    Outcome.feed (absorb capacity trailer) s ((p ++ t).map Token.data ++ [Token.flag])
      = .returned { pending := [], packets := s.packets ++ [p] } := by
  rw [Outcome.feed_append, feed_absorb_data]
  · simp only [Outcome.bind_returned, Outcome.feed_cons, absorb, hopen, List.nil_append,
      List.length_append, htrailer]
    rw [if_neg (by omega), Outcome.bind_returned, Outcome.feed_nil, Nat.add_sub_cancel,
      List.take_left]
  · rw [hopen, List.length_append, htrailer]
    simpa only [List.length_nil, Nat.zero_add] using hfit

/-- The open frame after some tokens, read with the values `p` pending: the data
    values since the last flag. -/
def openFrame : List α → List (Token α) → List α
  | p, [] => p
  | p, .data b :: ts => openFrame (p ++ [b]) ts
  | _, .flag :: ts => openFrame [] ts

/-- The frames that the flags among some tokens close, one for each flag. -/
def closedFrames : List α → List (Token α) → List (List α)
  | _, [] => []
  | p, .data b :: ts => closedFrames (p ++ [b]) ts
  | p, .flag :: ts => p :: closedFrames [] ts

/-- The deframer after tokens that it all has room and a trailer for. -/
def advance (trailer : Nat) (s : Deframer α) (ts : List (Token α)) : Deframer α where
  pending := openFrame s.pending ts
  packets := s.packets
    ++ (closedFrames s.pending ts).map fun frame => frame.take (frame.length - trailer)

/-- The token finds the open frame full, or without the trailer. -/
def Offends (capacity trailer : Nat) (p : List α) : Token α → Prop
  | .data _ => p.length = capacity
  | .flag => p.length < trailer

/-- Reading `ts` with the values `p` pending comes to `tok` after `pre`, and there
    it offends. -/
def Offence (capacity trailer : Nat) (p : List α) (ts pre : List (Token α)) (tok : Token α) :
    Prop :=
  pre ++ [tok] <+: ts ∧ Offends capacity trailer (openFrame p pre) tok

theorem advance_nil (trailer : Nat) (s : Deframer α) : advance trailer s [] = s := by
  rw [advance, closedFrames, List.map_nil, List.append_nil, openFrame]

theorem advance_cons (trailer : Nat) (s : Deframer α) (tok : Token α) (ts : List (Token α)) :
    advance trailer s (tok :: ts) = advance trailer (advance trailer s [tok]) ts := by
  cases tok with
  | data b => simp only [advance, openFrame, closedFrames, List.map_nil, List.append_nil]
  | flag => simp only [advance, openFrame, closedFrames, List.map_cons, List.map_nil,
      List.append_assoc, List.singleton_append]

theorem length_closedFrames (p : List α) (ts : List (Token α)) [DecidableEq α] :
    (closedFrames p ts).length = ts.count .flag := by
  induction ts generalizing p with
  | nil => rfl
  | cons tok ts ih =>
      cases tok with
      | data b => rw [closedFrames, ih, List.count_cons_of_ne (by simp only [ne_eq, reduceCtorEq,
          not_false_eq_true])]
      | flag => rw [closedFrames, List.length_cons, ih, List.count_cons_self]

/-- The first place to offend is the first token, or it comes later. -/
theorem offence_cons (capacity trailer : Nat) (p : List α) (t : Token α) (ts pre : List (Token α))
    (tok : Token α) :
    Offence capacity trailer p (t :: ts) pre tok
      ↔ (pre = [] ∧ tok = t ∧ Offends capacity trailer p t)
        ∨ ∃ pre', pre = t :: pre'
          ∧ Offence capacity trailer (openFrame p [t]) ts pre' tok := by
  have hopen : ∀ pre', openFrame p (t :: pre') = openFrame (openFrame p [t]) pre' := by
    intro pre'
    cases t <;> rfl
  cases pre with
  | nil =>
      simp only [Offence, List.nil_append, List.cons_prefix_cons, List.nil_prefix, and_true,
        openFrame, true_and, List.nil_eq, reduceCtorEq, false_and, exists_false, or_false]
      exact ⟨fun ⟨h, h'⟩ => ⟨h, h ▸ h'⟩, fun ⟨h, h'⟩ => ⟨h, h ▸ h'⟩⟩
  | cons t' pre =>
      simp only [Offence, List.cons_append, List.cons_prefix_cons, reduceCtorEq, false_and,
        List.cons.injEq, false_or]
      constructor
      · rintro ⟨⟨rfl, hpre⟩, hoff⟩
        exact ⟨pre, ⟨rfl, rfl⟩, hpre, hopen pre ▸ hoff⟩
      · rintro ⟨pre', ⟨rfl, rfl⟩, hpre, hoff⟩
        exact ⟨⟨rfl, hpre⟩, (hopen pre).symm ▸ hoff⟩

/-- A token that offends is refused and nothing changes. -/
theorem absorb_of_offends (capacity trailer : Nat) (s : Deframer α) (tok : Token α)
    (h : Offends capacity trailer s.pending tok) :
    ∃ e, absorb capacity trailer s tok = .threw e s := by
  cases tok with
  | data b => exact ⟨_, if_neg (by rw [show s.pending.length = capacity from h]; omega)⟩
  | flag => exact ⟨_, if_pos h⟩

/-- Any other token is taken, and the open frame still fits. -/
theorem absorb_of_fits (capacity trailer : Nat) (s : Deframer α) (tok : Token α)
    (hs : s.pending.length ≤ capacity) (h : ¬Offends capacity trailer s.pending tok) :
    absorb capacity trailer s tok = .returned (advance trailer s [tok])
      ∧ (advance trailer s [tok]).pending.length ≤ capacity := by
  cases tok with
  | data b =>
      have hroom : s.pending.length < capacity := Nat.lt_of_le_of_ne hs h
      rw [absorb, if_pos hroom, advance, openFrame, openFrame, closedFrames, closedFrames,
        List.map_nil, List.append_nil, List.length_append, List.length_singleton]
      exact ⟨rfl, hroom⟩
  | flag =>
      have hlong : ¬s.pending.length < trailer := h
      rw [absorb, if_neg hlong]
      exact ⟨rfl, Nat.zero_le _⟩

/-- What absorbing any tokens comes to: either none offends and every flag has
    closed its frame, or the first that does stops it with what the tokens before
    it have made. -/
theorem feed_absorb (capacity trailer : Nat) (ts : List (Token α)) (s : Deframer α)
    (hs : s.pending.length ≤ capacity) :
    ((∀ pre tok, ¬Offence capacity trailer s.pending ts pre tok)
      ∧ Outcome.feed (absorb capacity trailer) s ts = .returned (advance trailer s ts))
    ∨ ∃ pre tok, Offence capacity trailer s.pending ts pre tok
      ∧ (∀ pre' tok', ¬Offence capacity trailer s.pending pre pre' tok')
      ∧ ∃ e, Outcome.feed (absorb capacity trailer) s ts = .threw e (advance trailer s pre) := by
  induction ts generalizing s with
  | nil =>
      refine Or.inl ⟨fun pre tok h => ?_, by rw [Outcome.feed_nil, advance_nil]⟩
      exact absurd h.1 (by simp only [List.prefix_nil, List.append_eq_nil_iff, reduceCtorEq,
        and_false, not_false_eq_true])
  | cons t ts ih =>
      by_cases hoff : Offends capacity trailer s.pending t
      · obtain ⟨e, he⟩ := absorb_of_offends capacity trailer s t hoff
        refine Or.inr ⟨[], t, (offence_cons ..).mpr (Or.inl ⟨rfl, rfl, hoff⟩), ?_, e, ?_⟩
        · intro pre' tok' h
          exact absurd h.1 (by simp only [List.prefix_nil, List.append_eq_nil_iff, reduceCtorEq,
            and_false, not_false_eq_true])
        · rw [Outcome.feed_cons, he, Outcome.bind_threw, advance_nil]
      · obtain ⟨hstep, hfit⟩ := absorb_of_fits capacity trailer s t hs hoff
        have hlater : ∀ ts' pre tok, Offence capacity trailer s.pending (t :: ts') pre tok
            ↔ ∃ pre', pre = t :: pre'
              ∧ Offence capacity trailer (advance trailer s [t]).pending ts' pre' tok :=
          fun ts' pre tok => (offence_cons ..).trans
            (or_iff_right fun h => hoff h.2.2)
        rw [Outcome.feed_cons, hstep, Outcome.bind_returned]
        rcases ih (advance trailer s [t]) hfit with ⟨hnone, hfeed⟩ | ⟨pre, tok, hat, hfirst, e, he⟩
        · refine Or.inl ⟨fun pre tok h => ?_, by rw [hfeed, ← advance_cons]⟩
          obtain ⟨pre', -, h'⟩ := (hlater ts pre tok).mp h
          exact hnone pre' tok h'
        · refine Or.inr ⟨t :: pre, tok, (hlater ts _ tok).mpr ⟨pre, rfl, hat⟩, ?_, e,
            by rw [he, ← advance_cons]⟩
          intro pre' tok' h
          obtain ⟨pre'', -, h'⟩ := (hlater pre pre' tok').mp h
          exact hfirst pre'' tok' h'

end Deframing

end ByteStuffing

end NetProbe
