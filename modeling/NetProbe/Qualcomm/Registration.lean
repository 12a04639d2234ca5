import NetProbe.Qualcomm.Dispatcher

/-!
# Registration Histories

What a dispatcher's listener lists say about the calls that led to them.

A history is a list of calls. What it should have led to is described without
running it: `lastCall` finds the most recent call for a code and a listener,
and `StandsAt` names the position of the registration that made the listener
current, the one that took effect and has not been undone since. A register
for a listener that is current already is not such a position, so the order
of these positions is the order of the registrations that took effect.

`Represents` relates a listener list to a history through these two notions,
and `call_represents` is the step: each call keeps the lists and the history
in that relation. The list of a code is compared only with the calls for that
code, so calls for other codes, null listeners and updates are one case.

## Main definitions

* `Call`: A call on a dispatcher.
* `runCalls`: A history of calls.
* `lastCall`: The most recent call for a code and a listener.
* `StandsAt`: The registration that made a listener current.
* `Represents`: A listener list that agrees with a history.

## Theorems

* `represents_skip`, `represents_again`, `represents_new`,
  `represents_removed`: The four things a call can do to a list.
* `call_represents`: A call keeps every list in agreement with the history.
* `runCalls_represents`: So does a history.
* `update_exactly_once`: Each current listener is notified once, in order.
-/

namespace NetProbe

namespace Dispatcher

variable {L : Type} [DecidableEq L]

/-- A call on a dispatcher. Listeners are compared by identity, and a register
    may be handed a null listener. -/
inductive Call (L : Type) where
  | register (logcode : Int) (listener : Option L)
  | unregister (logcode : Int) (listener : Option L)
  | update (packetData : List Byte)
  deriving DecidableEq

/-- One call, the notifications of an update left out. -/
def call (d : Dispatcher L) : Call L → Outcome (Dispatcher L)
  | .register code l => .returned (d.registerPacketListener code l)
  | .unregister code l => .returned (d.unregisterPacketListener code l)
  | .update p => (d.update p).map Prod.fst

def runCalls (d : Dispatcher L) (history : List (Call L)) : Outcome (Dispatcher L) :=
  Outcome.feed call d history

/-- Whether a call is a register (`true`) or an unregister (`false`) of this
    listener for this code. -/
def concerns (code : Int) (l : L) : Call L → Option Bool
  | .register c x => if c = code ∧ x = some l then some true else none
  | .unregister c x => if c = code ∧ x = some l then some false else none
  | .update _ => none

/-- The most recent call for a code and a listener. -/
def lastCall (history : List (Call L)) (code : Int) (l : L) : Option Bool :=
  (history.filterMap (concerns code l)).getLast?

/-- The call at this position registered the listener when it was not current,
    and no later call unregistered it. -/
def StandsAt (history : List (Call L)) (code : Int) (l : L) (i : Nat) : Prop :=
  history[i]? = some (.register code (some l)) ∧
    lastCall (history.take i) code l ≠ some true ∧
    ∀ j, i < j → history[j]? ≠ some (.unregister code (some l))

/-- A listener list that agrees with a history: no duplicates, the listeners
    whose last call was a register, in the order of the registrations that
    stand. -/
structure Represents (history : List (Call L)) (code : Int) (ls : List L) : Prop where
  nodup : ls.Nodup
  current : ∀ l, l ∈ ls ↔ lastCall history code l = some true
  stands : ∀ l ∈ ls, ∃ i, StandsAt history code l i
  ordered : ls.Pairwise (fun a b => ∃ i j, i < j ∧ StandsAt history code a i ∧
    StandsAt history code b j)

theorem lastCall_append (history : List (Call L)) (c : Call L) (code : Int) (l : L) :
    lastCall (history ++ [c]) code l = (concerns code l c).or (lastCall history code l) := by
  unfold lastCall
  rw [List.filterMap_append]
  rcases h : concerns code l c with _ | b
  · rw [List.filterMap_cons_none h, List.filterMap_nil, List.append_nil, Option.none_or]
  · rw [List.filterMap_cons_some h, List.filterMap_nil, List.getLast?_append,
      List.getLast?_singleton, Option.some_or]

theorem standsAt_lt {history : List (Call L)} {code : Int} {l : L} {i : Nat}
    (h : StandsAt history code l i) : i < history.length :=
  (List.getElem?_eq_some_iff.mp h.1).1

/-- A registration that stands keeps standing under any call but its own
    unregister. -/
theorem standsAt_append {history : List (Call L)} {code : Int} {l : L} {i : Nat}
    (h : StandsAt history code l i) (c : Call L) (hc : c ≠ .unregister code (some l)) :
    StandsAt (history ++ [c]) code l i := by
  have hi := standsAt_lt h
  refine ⟨?_, ?_, ?_⟩
  · rw [List.getElem?_append_left hi]
    exact h.1
  · rw [List.take_append_of_le_length (le_of_lt hi)]
    exact h.2.1
  · intro j hij hj
    -- The new call is the only one that could have unregistered it.
    by_cases hlt : j < history.length
    · rw [List.getElem?_append_left hlt] at hj
      exact h.2.2 j hij hj
    · rw [List.getElem?_append_right (by omega)] at hj
      have hmem := List.mem_of_getElem? hj
      exact hc (List.mem_singleton.mp hmem).symm

/-- A register of a listener that is not current stands at its own position. -/
theorem standsAt_new (history : List (Call L)) (code : Int) (l : L)
    (h : lastCall history code l ≠ some true) :
    StandsAt (history ++ [.register code (some l)]) code l history.length := by
  refine ⟨List.getElem?_concat_length, ?_, ?_⟩
  · rw [List.take_left]
    exact h
  · intro j hj
    rw [List.getElem?_eq_none (by rw [List.length_append, List.length_singleton]; omega)]
    simp only [ne_eq, reduceCtorEq, not_false_eq_true]

/-- The listeners that are neither registered nor unregistered by a call keep
    their order and their positions. -/
theorem represents_keep {history : List (Call L)} {code : Int} {ls : List L}
    (h : Represents history code ls) (c : Call L) (ls' : List L) (hsub : ls'.Sublist ls)
    (hc : ∀ l ∈ ls', c ≠ .unregister code (some l)) :
    (∀ l ∈ ls', ∃ i < history.length, StandsAt (history ++ [c]) code l i) ∧
      ls'.Pairwise (fun a b => ∃ i j, i < j ∧ StandsAt (history ++ [c]) code a i ∧
        StandsAt (history ++ [c]) code b j) := by
  constructor
  · intro l hl
    rcases h.stands l (hsub.subset hl) with ⟨i, hi⟩
    exact ⟨i, standsAt_lt hi, standsAt_append hi c (hc l hl)⟩
  · refine List.Pairwise.imp_of_mem ?_ (h.ordered.sublist hsub)
    rintro a b ha hb ⟨i, j, hij, hai, hbj⟩
    exact ⟨i, j, hij, standsAt_append hai c (hc a ha), standsAt_append hbj c (hc b hb)⟩

/-- A call for another code, with a null listener, or an update. -/
theorem represents_skip {history : List (Call L)} {code : Int} {ls : List L}
    (h : Represents history code ls) (c : Call L) (hc : ∀ l, concerns code l c = none) :
    Represents (history ++ [c]) code ls := by
  have hne : ∀ l ∈ ls, c ≠ .unregister code (some l) := by
    rintro l _ rfl
    have := hc l
    simp [concerns] at this
  rcases represents_keep h c ls (List.Sublist.refl ls) hne with ⟨hstands, hordered⟩
  refine ⟨h.nodup, fun l => ?_, fun l hl => ?_, hordered⟩
  · rw [lastCall_append, hc l, Option.none_or]
    exact h.current l
  · rcases hstands l hl with ⟨i, _, hi⟩
    exact ⟨i, hi⟩

/-- A register of a listener that is current already. -/
theorem represents_again {history : List (Call L)} {code : Int} {ls : List L} {l : L}
    (h : Represents history code ls) (hl : l ∈ ls) :
    Represents (history ++ [.register code (some l)]) code ls := by
  rcases represents_keep h (.register code (some l)) ls (List.Sublist.refl ls)
    (fun _ _ => by simp only [ne_eq, reduceCtorEq, not_false_eq_true]) with ⟨hstands, hordered⟩
  refine ⟨h.nodup, fun k => ?_, fun k hk => ?_, hordered⟩
  · rw [lastCall_append]
    by_cases hk : k = l
    · subst hk
      simp [concerns, hl]
    · have hlk : ¬ l = k := fun hc => hk hc.symm
      simp [concerns, hlk, h.current k]
  · rcases hstands k hk with ⟨i, _, hi⟩
    exact ⟨i, hi⟩

/-- A register of a listener that is not current goes to the end. -/
theorem represents_new {history : List (Call L)} {code : Int} {ls : List L} {l : L}
    (h : Represents history code ls) (hl : l ∉ ls) :
    Represents (history ++ [.register code (some l)]) code (ls ++ [l]) := by
  have hnew := standsAt_new history code l (fun hc => hl ((h.current l).mpr hc))
  rcases represents_keep h (.register code (some l)) ls (List.Sublist.refl ls)
    (fun _ _ => by simp only [ne_eq, reduceCtorEq, not_false_eq_true]) with ⟨hstands, hordered⟩
  refine ⟨?_, fun k => ?_, fun k hk => ?_, ?_⟩
  · rw [List.nodup_append]
    refine ⟨h.nodup, List.nodup_singleton l, fun a ha b hb => ?_⟩
    rw [List.mem_singleton.mp hb]
    rintro rfl
    exact hl ha
  · rw [lastCall_append, List.mem_append, List.mem_singleton]
    by_cases hk : k = l
    · simp [concerns, hk]
    · have hlk : ¬ l = k := fun hc => hk hc.symm
      simp [concerns, hk, hlk, h.current k]
  · rcases List.mem_append.mp hk with hold | hlast
    · rcases hstands k hold with ⟨i, _, hi⟩
      exact ⟨i, hi⟩
    · rw [List.mem_singleton.mp hlast]
      exact ⟨_, hnew⟩
  · rw [List.pairwise_append]
    refine ⟨hordered, List.pairwise_singleton _ l, fun a ha b hb => ?_⟩
    -- Every earlier registration stands at a position of the old history.
    rcases hstands a ha with ⟨i, hi, hai⟩
    rw [List.mem_singleton.mp hb]
    exact ⟨i, history.length, hi, hai, hnew⟩

/-- An unregister takes its listener out and leaves the others in order. -/
theorem represents_removed {history : List (Call L)} {code : Int} {ls : List L} (l : L)
    (h : Represents history code ls) :
    Represents (history ++ [.unregister code (some l)]) code (ls.erase l) := by
  -- A list without duplicates does not hold the removed listener any more.
  have hne : ∀ k ∈ ls.erase l,
      (.unregister code (some l) : Call L) ≠ .unregister code (some k) := by
    intro k hk hc
    rw [Call.unregister.injEq, Option.some.injEq] at hc
    rw [hc.2, h.nodup.mem_erase_iff] at hk
    exact hk.1 rfl
  rcases represents_keep h (.unregister code (some l)) (ls.erase l) List.erase_sublist hne with
    ⟨hstands, hordered⟩
  refine ⟨h.nodup.erase l, fun k => ?_, fun k hk => ?_, hordered⟩
  · rw [lastCall_append, h.nodup.mem_erase_iff]
    by_cases hk : k = l
    · simp [concerns, hk]
    · have hlk : ¬ l = k := fun hc => hk hc.symm
      simp [concerns, hk, hlk, h.current k]
  · rcases hstands k hk with ⟨i, _, hi⟩
    exact ⟨i, hi⟩

/-- The list of a code, empty when the code was never registered. -/
def listenersOf (d : Dispatcher L) (code : Int) : List L := (d.mListeners code).getD []

omit [DecidableEq L] in
theorem listenersOf_put (d : Dispatcher L) (logcode code : Int) (ls : List L) :
    (d.putListeners logcode ls).listenersOf code = if code = logcode then ls
      else d.listenersOf code := by
  unfold listenersOf putListeners
  by_cases h : code = logcode
  · simp only [h, if_true, Option.getD_some]
  · simp only [if_neg h]

theorem listenersOf_register (d : Dispatcher L) (logcode code : Int) (l : L) :
    (d.registerPacketListener logcode (some l)).listenersOf code =
      if code = logcode ∧ l ∉ d.listenersOf code then d.listenersOf code ++ [l]
      else d.listenersOf code := by
  unfold registerPacketListener
  -- A code without a list, a list that has the listener, a list that has not.
  rcases h : d.mListeners logcode with _ | ls
  · rw [listenersOf_put]
    by_cases hk : code = logcode
    · simp [hk, listenersOf, h]
    · simp only [hk, false_and, if_false]
  · by_cases hl : l ∈ ls
    · by_cases hk : code = logcode
      · simp [hk, listenersOf, h, hl]
      · simp only [if_pos hl, hk, false_and, if_false]
    · simp only [if_neg hl]
      rw [listenersOf_put]
      by_cases hk : code = logcode
      · simp [hk, listenersOf, h, hl]
      · simp only [hk, false_and, if_false]

theorem listenersOf_unregister (d : Dispatcher L) (logcode code : Int) (l : L) :
    (d.unregisterPacketListener logcode (some l)).listenersOf code =
      if code = logcode then (d.listenersOf code).erase l else d.listenersOf code := by
  unfold unregisterPacketListener
  rcases h : d.mListeners logcode with _ | ls
  · by_cases hk : code = logcode
    · simp [hk, listenersOf, h]
    · simp only [if_neg hk]
  · rw [listenersOf_put]
    by_cases hk : code = logcode
    · simp [hk, listenersOf, h]
    · simp only [if_neg hk]

/-- A call keeps every list in agreement with the history. -/
theorem call_represents (d : Dispatcher L) (history : List (Call L)) (c : Call L)
    (h : ∀ code, Represents history code (d.listenersOf code)) (code : Int) :
    Represents (history ++ [c]) code ((d.call c).state.listenersOf code) := by
  cases c with
  | register logcode x =>
      rcases x with _ | l
      · exact represents_skip (h code) _ (fun k => by simp [concerns])
      · change Represents _ code ((d.registerPacketListener logcode (some l)).listenersOf code)
        rw [listenersOf_register]
        by_cases hk : code = logcode
        · subst hk
          by_cases hl : l ∈ d.listenersOf code
          · rw [if_neg (fun hc => hc.2 hl)]
            exact represents_again (h code) hl
          · rw [if_pos ⟨rfl, hl⟩]
            exact represents_new (h code) hl
        · rw [if_neg (fun hc => hk hc.1)]
          refine represents_skip (h code) _ (fun k => ?_)
          exact if_neg (fun hc => hk hc.1.symm)
  | unregister logcode x =>
      rcases x with _ | l
      · have hsame : d.unregisterPacketListener logcode none = d := by
          unfold unregisterPacketListener
          rcases d.mListeners logcode with _ | ls
          · rfl
          · rfl
        change Represents _ code ((d.unregisterPacketListener logcode none).listenersOf code)
        rw [hsame]
        exact represents_skip (h code) _ (fun k => by simp [concerns])
      · change Represents _ code ((d.unregisterPacketListener logcode (some l)).listenersOf code)
        rw [listenersOf_unregister]
        by_cases hk : code = logcode
        · subst hk
          rw [if_pos rfl]
          exact represents_removed l (h code)
        · rw [if_neg hk]
          refine represents_skip (h code) _ (fun k => ?_)
          exact if_neg (fun hc => hk hc.1.symm)
  -- An update leaves every list as it is.
  | update p =>
      have hframe : (d.call (.update p)).state.listenersOf code = d.listenersOf code := by
        unfold call listenersOf
        rw [Outcome.state_map, (update_frame d p).1]
      rw [hframe]
      exact represents_skip (h code) _ (fun _ => rfl)

/-- A packet with a whole header is looked at without a throw. -/
theorem call_returns (d : Dispatcher L) (c : Call L)
    (hlen : ∀ p, c = .update p → 16 ≤ p.length) : (d.call c).isReturned = true := by
  cases c with
  | register code l => rfl
  | unregister code l => rfl
  | update p =>
      have hp := hlen p rfl
      unfold call
      rw [Outcome.isReturned_map]
      -- Sixteen bytes hold all the fields that are read.
      rcases p with _ | ⟨b, rest⟩
      · exact absurd hp (by simp)
      rw [List.length_cons] at hp
      by_cases hb : b = cmdCodeLogRsp
      · subst hb
        rcases hv : (wrap (cmdCodeLogRsp :: rest)).isValid with e | v
        · rw [isValid_log, if_neg (by omega)] at hv
          exact absurd hv (by simp only [reduceCtorEq, not_false_eq_true])
        · cases v with
          | false => rw [update_invalid d _ hv, Outcome.isReturned_returned]
          | true =>
              have hc := getLogCode_valid _ hv (by rw [List.length_cons]; omega)
              rw [update_valid d _ _ hv hc, Outcome.isReturned_returned]
      · rw [update_invalid d _ (isValid_other b rest hb), Outcome.isReturned_returned]

/-- No call touches the factory's entries. -/
theorem call_factory (d : Dispatcher L) (c : Call L) : (d.call c).state.factory = d.factory := by
  cases c with
  | register code x =>
      change (d.registerPacketListener code x).factory = d.factory
      unfold registerPacketListener
      rcases x with _ | l
      · rfl
      · rcases d.mListeners code with _ | ls
        · rfl
        · by_cases hl : l ∈ ls
          · simp only [if_pos hl]
          · simp only [if_neg hl]
            rfl
  | unregister code x =>
      change (d.unregisterPacketListener code x).factory = d.factory
      unfold unregisterPacketListener
      rcases d.mListeners code with _ | ls
      · rfl
      · rcases x with _ | l
        · rfl
        · rfl
  | update p =>
      unfold call
      rw [Outcome.state_map, (update_frame d p).2]

/-- The lists agree with the history after any history, and its factory is the
    one it started with. -/
theorem runCalls_represents (factory : PacketFactory) (objects : PacketFactory.Objects)
    (history : List (Call L)) (hlen : ∀ p, .update p ∈ history → 16 ≤ p.length) :
    ∃ d, runCalls (fresh factory objects) history = .returned d ∧ d.factory = factory ∧
      ∀ code, Represents history code (d.listenersOf code) := by
  -- Induction on the history from its end: the last call meets what the rest
  -- left.
  induction history using List.reverseRecOn with
  | nil =>
      refine ⟨fresh factory objects, rfl, rfl, fun code => ?_⟩
      refine ⟨List.nodup_nil, fun l => ?_, fun l hl => ?_, List.Pairwise.nil⟩
      · simp [listenersOf, fresh, lastCall]
      · exact absurd hl (by simp [listenersOf, fresh])
  | append_singleton history c ih =>
      rcases ih (fun p hp => hlen p (List.mem_append_left _ hp)) with ⟨d, hd, hfactory, hrep⟩
      have hret := call_returns d c
        (fun p hp => hlen p (List.mem_append_right _ (List.mem_singleton.mpr hp.symm)))
      refine ⟨(d.call c).state, ?_, ?_, call_represents d history c hrep⟩
      · unfold runCalls at hd ⊢
        rw [Outcome.feed_append, hd, Outcome.bind_returned, Outcome.feed_cons,
          Outcome.eq_returned _ hret, Outcome.bind_returned, Outcome.feed_nil,
          Outcome.state_returned]
      · rw [call_factory, hfactory]

omit [DecidableEq L] in
/-- A packet of a known code goes to the whole list, in an object holding it. -/
theorem deliver_known (d : Dispatcher L) (code : Int) (p : List Byte) (r : PacketRef)
    (hr : d.factory.packetMap code = some r) :
    (d.deliver code p).2.map Prod.fst = d.listenersOf code ∧
      ∀ n ∈ (d.deliver code p).2, ((d.deliver code p).1.objects n.2).mPacketData = p := by
  unfold deliver listenersOf
  rcases d.mListeners code with _ | ls
  · exact ⟨rfl, by simp⟩
  · simp only [hr, Option.getD_some, List.map_map]
    refine ⟨List.map_id _, fun n hn => ?_⟩
    rcases List.mem_map.mp hn with ⟨l, _, rfl⟩
    simp only [fill, if_true, wrap_mPacketData]

omit [DecidableEq L] in
/-- A packet of an unknown code goes to nobody. -/
theorem deliver_unknown (d : Dispatcher L) (code : Int) (p : List Byte)
    (hr : d.factory.packetMap code = none) : (d.deliver code p).2 = [] := by
  unfold deliver
  rcases d.mListeners code with _ | ls
  · rfl
  · simp only [hr]

/-- After any history of calls, an update with a valid packet of a known code
    notifies exactly the listeners whose last call for that code was a
    register, each once, in the order of the registrations that stand, with an
    object holding the packet; any other update notifies nobody; and no
    listener list holds a duplicate. -/
theorem update_exactly_once (factory : PacketFactory) (objects : PacketFactory.Objects)
    (history : List (Call L)) (p : List Byte)
    (hlen : ∀ q, .update q ∈ history → 16 ≤ q.length) (hp : 16 ≤ p.length) :
    ∃ d d' sent, runCalls (fresh factory objects) history = .returned d ∧
      d.update p = .returned (d', sent) ∧
      (∀ code ls, d.mListeners code = some ls → ls.Nodup) ∧
      (∀ code, (wrap p).isValid = .ok true → (wrap p).getLogCode = .ok code →
        (factory.packetMap code).isSome = true →
        (sent.map Prod.fst).Nodup ∧
        (∀ l, l ∈ sent.map Prod.fst ↔ lastCall history code l = some true) ∧
        (sent.map Prod.fst).Pairwise (fun a b => ∃ i j, i < j ∧
          StandsAt history code a i ∧ StandsAt history code b j) ∧
        ∀ n ∈ sent, (d'.objects n.2).mPacketData = p) ∧
      ((∀ code, (wrap p).isValid = .ok true → (wrap p).getLogCode = .ok code →
        (factory.packetMap code).isSome = false) → sent = []) := by
  rcases runCalls_represents factory objects history hlen with ⟨d, hd, hfactory, hrep⟩
  have hnodup : ∀ code ls, d.mListeners code = some ls → ls.Nodup := by
    intro code ls hls
    have := (hrep code).nodup
    rwa [listenersOf, hls, Option.getD_some] at this
  have hret := call_returns d (.update p) (fun q hq => by rw [Call.update.injEq] at hq; rwa [← hq])
  unfold call at hret
  rw [Outcome.isReturned_map] at hret
  refine ⟨d, (d.update p).state.1, (d.update p).state.2, hd, Outcome.eq_returned _ hret, hnodup,
    ?_, ?_⟩
  -- The list of the code is what the history says it is.
  · intro code hv hc hknown
    rcases Option.isSome_iff_exists.mp hknown with ⟨r, hr⟩
    rw [← hfactory] at hr
    rcases deliver_known d code p r hr with ⟨hfst, hholds⟩
    rw [update_valid d p code hv hc, Outcome.state_returned, hfst]
    exact ⟨(hrep code).nodup, (hrep code).current, (hrep code).ordered, hholds⟩
  · intro hunknown
    rw [update_state]
    rcases hcode : lookedUp p with _ | code
    · rfl
    obtain ⟨hv, hc⟩ := lookedUp_eq_some hcode
    have hnone : d.factory.packetMap code = none := by
      rw [hfactory]
      exact Option.isSome_eq_false_iff.mp (hunknown code hv hc) |> Option.isNone_iff_eq_none.mp
    exact deliver_unknown d code p hnone

/-- Two listeners, a repeated register, an unregister of a stranger and a
    re-register after removal: the listener that was removed comes second. -/
theorem update_exactly_once_reordered :
    (∀ q, .update q ∈ ([.register 0x5071 (some 1), .register 0x5071 (some 2),
        .register 0x5071 (some 1), .unregister 0x5071 (some 3), .unregister 0x5071 (some 1),
        .register 0x5071 none, .register 0x5071 (some 1)] : List (Call Nat)) → 16 ≤ q.length) ∧
      16 ≤ (logResponse 0x71 0x50).length ∧
      ∃ d d' sent, runCalls (fresh PacketFactory.initial (fun _ => PacketBase.empty))
          ([.register 0x5071 (some 1), .register 0x5071 (some 2), .register 0x5071 (some 1),
            .unregister 0x5071 (some 3), .unregister 0x5071 (some 1), .register 0x5071 none,
            .register 0x5071 (some 1)] : List (Call Nat)) = .returned d ∧
        d.update (logResponse 0x71 0x50) = .returned (d', sent) ∧
        sent.map Prod.fst = [2, 1] := by
  have hlen : ∀ q, .update q ∈ ([.register 0x5071 (some 1), .register 0x5071 (some 2),
      .register 0x5071 (some 1), .unregister 0x5071 (some 3), .unregister 0x5071 (some 1),
      .register 0x5071 none, .register 0x5071 (some 1)] : List (Call Nat)) → 16 ≤ q.length := by
    intro q hq
    simp at hq
  refine ⟨hlen, by decide, ?_⟩
  rcases update_exactly_once PacketFactory.initial (fun _ => PacketBase.empty) _
    (logResponse 0x71 0x50) hlen (by decide) with ⟨d, d', sent, hd, hup, _, _, _⟩
  refine ⟨d, d', sent, hd, hup, ?_⟩
  cases hd
  cases hup
  rfl

end Dispatcher

end NetProbe
