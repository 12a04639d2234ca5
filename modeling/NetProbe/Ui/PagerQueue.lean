import NetProbe.Lib.Machine
import NetProbe.Qualcomm.Dispatcher

/-!
# Packets in Flight to the Screens

A pager does not draw a packet when it is told about it. Its `update` posts a
message carrying the packet object to its handler, and the UI thread later
takes the message and runs `updateView` on the object. Between the two the
object belongs to the factory, which fills it again for the next packet of
its code.

The machine here has two steps. `dispatch p` is the dispatch thread running
`PacketDispatcher.update`, with each notified pager posting the object it was
given. `handle pager` is the UI thread taking the pager's next message and
drawing the bytes the object holds at that moment. Two histories are kept on
the side: what was dispatched to each pager, and what each handled message
showed.

Messages carry references, so a dispatch changes what the messages already
waiting will show. `Undisturbed` is the condition under which it does not: no
waiting message carries the object the packet goes into, unless that object
holds the very same bytes. `InSync` is the invariant it keeps: what was
dispatched to a pager is what it has shown followed by what its waiting
messages would show now.

## Main definitions

* `Screens`: The dispatcher, the handler queues and the two histories.
* `target`: The packet object an update fills.
* `Undisturbed`: A dispatch that changes no waiting message.
* `InOrder`: Every handled message showed the packet it was posted for.
* `InSync`: The invariant.

## Theorems

* `update_target`: An update changes no object but its target.
* `step_inSync`: An undisturbed step keeps the invariant.
* `disturbed_shows_other`: A disturbed dispatch can be seen.
* `shown_in_order`: Undisturbed runs show every packet once, in order.
-/

namespace NetProbe

open Dispatcher Machine

variable {L : Type} [DecidableEq L]

/-- The dispatch side, the handlers' message queues, and the histories of what
    went to each pager and what it showed. -/
structure Screens (L : Type) where
  dispatcher : Dispatcher L
  queue : L → List PacketRef
  dispatched : L → List (List Byte)
  shown : L → List (List Byte)

/-- A move of the dispatch thread or of the UI thread. -/
inductive UiStep (L : Type) where
  | dispatch (packetData : List Byte)
  | handle (pager : L)

namespace Screens

/-- Registered pagers, nothing posted yet. -/
def idle (d : Dispatcher L) : Screens L where
  dispatcher := d
  queue := fun _ => []
  dispatched := fun _ => []
  shown := fun _ => []

/-- The bytes a message would show now. -/
def content (s : Screens L) (r : PacketRef) : List Byte := (s.dispatcher.objects r).mPacketData

/-- The objects a list of notifications hands to one pager. -/
def postedTo (sent : List (Notification L)) (pager : L) : List PacketRef :=
  (sent.filter (fun n => decide (n.1 = pager))).map Prod.snd

/-- `PacketDispatcher.update(p)`, each notified pager posting its message. -/
def afterDispatch (s : Screens L) (p : List Byte) : Screens L :=
  let o := s.dispatcher.update p
  { s with
    dispatcher := o.state.1
    queue := fun l => s.queue l ++ postedTo o.state.2 l
    dispatched := fun l => s.dispatched l ++ (postedTo o.state.2 l).map (fun _ => p) }

/-- `handleMessage` of a pager on the message carrying `r`. -/
def afterHandle (s : Screens L) (pager : L) (r : PacketRef) (rest : List PacketRef) : Screens L :=
  { s with
    queue := fun l => if l = pager then rest else s.queue l
    shown := fun l => if l = pager then s.shown l ++ [s.content r] else s.shown l }

def step (s : Screens L) : UiStep L → Option (Screens L)
  | .dispatch p => some (s.afterDispatch p)
  | .handle pager =>
      match s.queue pager with
      | [] => none
      | r :: rest => some (s.afterHandle pager r rest)

/-- The `k`-th message a pager handled showed the `k`-th packet dispatched to
    it. -/
def InOrder (s : Screens L) : Prop :=
  ∀ (pager : L) (k : Nat) (p : List Byte), (s.shown pager)[k]? = some p →
    (s.dispatched pager)[k]? = some p

/-- What was dispatched to a pager is what it has shown, followed by what its
    waiting messages would show now. -/
def InSync (s : Screens L) : Prop :=
  ∀ pager, s.dispatched pager = s.shown pager ++ (s.queue pager).map s.content

end Screens

/-- The packet object an update fills, if any. -/
def Dispatcher.target (d : Dispatcher L) (p : List Byte) : Option PacketRef :=
  match (wrap p).isValid, (wrap p).getLogCode with
  | .ok true, .ok code =>
      match d.mListeners code, d.factory.packetMap code with
      | some _, some r => some r
      | _, _ => none
  | _, _ => none

/-- A step that changes no waiting message: a dispatch goes into an object no
    waiting message carries, or one that holds the same bytes already. -/
def Undisturbed (s : Screens L) : UiStep L → Prop
  | .dispatch p => ∀ r, s.dispatcher.target p = some r →
      ∀ pager, r ∈ s.queue pager → s.content r = p
  | .handle _ => True

omit [DecidableEq L] in
/-- The target is the object the factory has for the code looked up, if the
    code has a listener list. -/
theorem target_eq (d : Dispatcher L) (p : List Byte) :
    d.target p = (lookedUp p).bind (fun code =>
      match d.mListeners code, d.factory.packetMap code with
      | some _, some r => some r
      | _, _ => none) := by
  unfold Dispatcher.target lookedUp
  rcases (wrap p).isValid with e | _ | _
  · rfl
  · rfl
  · rcases (wrap p).getLogCode with e | code
    · rfl
    · rfl

omit [DecidableEq L] in
/-- An update changes no object but its target, which then holds the packet;
    and what it hands out is the target. -/
theorem update_target (d : Dispatcher L) (p : List Byte) :
    (∀ r, ((d.update p).state.1.objects r).mPacketData =
      if d.target p = some r then p else (d.objects r).mPacketData) ∧
    ∀ n ∈ (d.update p).state.2, d.target p = some n.2 := by
  -- Without a target the update only looks at the packet.
  have hquiet : d.target p = none → (d.update p).state = (d.inspect p, []) →
      (∀ r, ((d.update p).state.1.objects r).mPacketData =
        if d.target p = some r then p else (d.objects r).mPacketData) ∧
      ∀ n ∈ (d.update p).state.2, d.target p = some n.2 := by
    intro htarget hstate
    rw [htarget, hstate]
    simp [inspect]
  have hstate := update_state d p
  have htarget := target_eq d p
  rcases hcode : lookedUp p with _ | code
  · rw [hcode] at htarget hstate
    exact hquiet htarget hstate
  rw [hcode] at htarget hstate
  simp only [Option.bind_some] at htarget hstate
  rcases hl : d.mListeners code with _ | ls
  · exact hquiet (by simp only [htarget, hl]) (by simp only [hstate, deliver, hl])
  rcases hr : d.factory.packetMap code with _ | r
  · exact hquiet (by simp only [htarget, hl, hr]) (by simp only [hstate, deliver, hl, hr])
  -- The object is filled and goes to the whole list.
  have hsent : d.deliver code p = (d.fill r p, ls.map (fun l => (l, r))) := by
    simp only [deliver, hl, hr]
  rw [hl, hr] at htarget
  rw [hstate, hsent, htarget]
  constructor
  · intro r'
    simp only [fill, Option.some.injEq]
    by_cases hr' : r = r'
    · rw [if_pos hr'.symm, if_pos hr', wrap_mPacketData]
    · rw [if_neg (fun hc => hr' hc.symm), if_neg hr']
  · intro n hn
    rcases List.mem_map.mp hn with ⟨l, _, rfl⟩
    rfl

namespace Screens

/-- What a message shows after a dispatch. -/
theorem content_dispatch (s : Screens L) (p : List Byte) (r : PacketRef) :
    (s.afterDispatch p).content r = if s.dispatcher.target p = some r then p else s.content r :=
  (update_target s.dispatcher p).1 r

theorem step_inSync (s s' : Screens L) (a : UiStep L) (h : s.InSync) (hu : Undisturbed s a)
    (hstep : s.step a = some s') : s'.InSync := by
  intro pager
  cases a with
  | dispatch p =>
      simp only [step, Option.some.injEq] at hstep
      rw [← hstep]
      -- A waiting message shows what it did; a new one shows the packet.
      have hold : ∀ r ∈ s.queue pager, (s.afterDispatch p).content r = s.content r := by
        intro r hr
        rw [content_dispatch]
        by_cases ht : s.dispatcher.target p = some r
        · rw [if_pos ht]
          exact (hu r ht pager hr).symm
        · rw [if_neg ht]
      have hnew : ∀ r ∈ postedTo (s.dispatcher.update p).state.2 pager,
          (s.afterDispatch p).content r = p := by
        intro r hr
        unfold postedTo at hr
        rcases List.mem_map.mp hr with ⟨n, hn, rfl⟩
        rw [content_dispatch,
          if_pos ((update_target s.dispatcher p).2 n (List.mem_of_mem_filter hn))]
      change s.dispatched pager ++ _ = s.shown pager ++ (s.queue pager ++ _).map _
      rw [List.map_append, List.map_congr_left hold, List.map_congr_left hnew, h pager,
        List.append_assoc]
  | handle who =>
      simp only [step] at hstep
      rcases hq : s.queue who with _ | ⟨r, rest⟩
      · rw [hq] at hstep
        exact absurd hstep (by simp only [reduceCtorEq, not_false_eq_true])
      rw [hq, Option.some.injEq] at hstep
      rw [← hstep]
      have hpager := h pager
      unfold afterHandle
      by_cases hp : pager = who
      · subst hp
        rw [hq, List.map_cons] at hpager
        simp only [if_true]
        rw [hpager, List.append_assoc, List.singleton_append]
        rfl
      · simp only [if_neg hp]
        exact hpager

omit [DecidableEq L] in
theorem inOrder_of_inSync (s : Screens L) (h : s.InSync) : s.InOrder := by
  intro pager k p hk
  rw [h pager, List.getElem?_append_left (List.getElem?_eq_some_iff.mp hk).1]
  exact hk

/-- Handling the messages of one pager shows what their objects hold. -/
theorem exec_handle (s : Screens L) (pager : L) (n : Nat) (hn : n ≤ (s.queue pager).length) :
    ∃ s', exec step s (List.replicate n (.handle pager)) = some s' ∧
      s'.dispatched = s.dispatched ∧
      s'.shown pager = s.shown pager ++ ((s.queue pager).take n).map s.content := by
  -- Induction on the number of messages; the first one is taken from the
  -- queue.
  induction n generalizing s with
  | zero => exact ⟨s, rfl, rfl, by simp⟩
  | succ n ih =>
      rcases hq : s.queue pager with _ | ⟨r, rest⟩
      · rw [hq] at hn
        exact absurd hn (by simp)
      rw [hq, List.length_cons] at hn
      have hrest : (s.afterHandle pager r rest).queue pager = rest := if_pos rfl
      rcases ih (s.afterHandle pager r rest) (by rw [hrest]; omega) with ⟨s', hs', hd, hshown⟩
      refine ⟨s', ?_, hd, ?_⟩
      · rw [List.replicate_succ]
        simp only [exec, step, hq, Option.bind_some]
        exact hs'
      · have hfirst : (s.afterHandle pager r rest).shown pager = s.shown pager ++ [s.content r] :=
          if_pos rfl
        rw [hshown, hrest, hfirst, List.take_succ_cons, List.map_cons, List.append_assoc,
          List.singleton_append]
        rfl

/-- After a dispatch that disturbs a waiting message, handling the pager's
    messages up to that one shows the new packet in its place. -/
theorem disturbed_shows_other (s : Screens L) (p : List Byte) (h : s.InSync)
    (hu : ¬ Undisturbed s (.dispatch p)) :
    ∃ pager n s', exec step s (.dispatch p :: List.replicate n (.handle pager)) = some s' ∧
      ¬ s'.InOrder := by
  simp only [Undisturbed] at hu
  push Not at hu
  rcases hu with ⟨r, htarget, pager, hmem, hne⟩
  rcases List.mem_iff_getElem.mp hmem with ⟨k, hk, hr⟩
  have hqueue : (s.afterDispatch p).queue pager
      = s.queue pager ++ postedTo (s.dispatcher.update p).state.2 pager := rfl
  rcases exec_handle (s.afterDispatch p) pager (k + 1)
    (by rw [hqueue, List.length_append]; omega) with ⟨s', hs', hd, hshown⟩
  refine ⟨pager, k + 1, s', hs', ?_⟩
  · intro horder
    -- The message at position `k` shows the new packet ...
    have hshow : (s'.shown pager)[(s.shown pager).length + k]? = some p := by
      have hsame : (s.afterDispatch p).shown pager = s.shown pager := rfl
      rw [hshown, hsame, hqueue, List.getElem?_append_right (by omega), Nat.add_sub_cancel_left,
        List.getElem?_map, List.getElem?_take_of_lt (by omega), List.getElem?_append_left hk,
        List.getElem?_eq_getElem hk, hr, Option.map_some, content_dispatch, if_pos htarget]
    -- ... but was posted for what the object held before.
    have hexpect := horder pager _ p hshow
    rw [hd] at hexpect
    change (s.dispatched pager ++ _)[(s.shown pager).length + k]? = some p at hexpect
    have hlen : (s.shown pager).length + k < (s.dispatched pager).length := by
      rw [h pager, List.length_append, List.length_map]
      omega
    rw [List.getElem?_append_left hlen, h pager, List.getElem?_append_right (by omega),
      Nat.add_sub_cancel_left, List.getElem?_map, List.getElem?_eq_getElem hk, hr, Option.map_some,
      Option.some.injEq] at hexpect
    exact hne hexpect

/-- In every run whose dispatches are undisturbed, the `k`-th message a pager
    handles shows the `k`-th packet dispatched to it; and the first dispatch
    that is not can be followed by UI steps after which this is false. -/
theorem shown_in_order (d : Dispatcher L) :
    (∀ run s, Along step Undisturbed (idle d) run → exec step (idle d) run = some s →
      s.InOrder) ∧
    (∀ run s p, Along step Undisturbed (idle d) run → exec step (idle d) run = some s →
      ¬ Undisturbed s (.dispatch p) →
      ∃ pager n s', exec step (idle d)
          (run ++ .dispatch p :: List.replicate n (.handle pager)) = some s' ∧ ¬ s'.InOrder) := by
  -- The invariant holds wherever an undisturbed run ends.
  have hsync : ∀ run s, Along step Undisturbed (idle d) run → exec step (idle d) run = some s →
      s.InSync := by
    intro run s halong hexec
    refine exec_keeps step Undisturbed InSync (fun s a s' h hu hs => step_inSync s s' a h hu hs)
      run (idle d) s ?_ halong hexec
    intro pager
    rfl
  refine ⟨fun run s ha he => inOrder_of_inSync s (hsync run s ha he), ?_⟩
  intro run s p ha he hu
  rcases disturbed_shows_other s p (hsync run s ha he) hu with ⟨pager, n, s', hs', hn⟩
  exact ⟨pager, n, s', by rw [exec_append step _ s run _ he]; exact hs', hn⟩

/-- A `0x5071` packet with no cells and a given time stamp byte. -/
def emptyBaList (tick : Byte) : List Byte :=
  [0x10, 0, 0x0D, 0, 0, 0, 0x71, 0x50, tick, 0, 0, 0, 0, 0, 0, 0, 0]

omit [DecidableEq L] in
/-- Nothing is disturbed where nothing waits. -/
theorem undisturbed_of_idle {s : Screens L} (h : ∀ pager, s.queue pager = []) (a : UiStep L) :
    Undisturbed s a := by
  cases a with
  | dispatch p =>
      intro r _ pager hr
      rw [h pager] at hr
      exact absurd hr List.not_mem_nil
  | handle pager => trivial

/-- Two packets of one code, the first one handled before the second is
    dispatched. -/
theorem shown_in_order_in_turn :
    ∃ s, exec step (idle ((start : Dispatcher Nat).registerPacketListener 0x5071 (some 1)))
        [.dispatch (emptyBaList 1), .handle 1, .dispatch (emptyBaList 2), .handle 1] = some s ∧
      s.dispatched 1 = [emptyBaList 1, emptyBaList 2] ∧
      s.shown 1 = [emptyBaList 1, emptyBaList 2] ∧ s.InOrder := by
  refine ⟨_, rfl, by decide, by decide, ?_⟩
  refine (shown_in_order ((start : Dispatcher Nat).registerPacketListener 0x5071 (some 1))).1
    [.dispatch (emptyBaList 1), .handle 1, .dispatch (emptyBaList 2), .handle 1] _ ?_ rfl
  refine ⟨undisturbed_of_idle (fun _ => rfl) _, fun s₁ hs₁ => ⟨trivial, fun s₂ hs₂ =>
    ⟨undisturbed_of_idle (fun pager => ?_) _, fun _ _ => ⟨trivial, fun _ _ => trivial⟩⟩⟩⟩
  -- The one message has been handled.
  obtain rfl := Option.some.inj hs₁
  obtain rfl := Option.some.inj hs₂
  by_cases hpager : pager = 1
  · rw [hpager]
    rfl
  · refine (if_neg hpager).trans (List.map_eq_nil_iff.mpr (List.filter_eq_nil_iff.mpr ?_))
    intro n hn hpost
    rw [List.mem_singleton.mp hn] at hpost
    exact hpager (of_decide_eq_true hpost).symm

/-- Two packets of one code dispatched before the UI thread gets to the first
    message: it shows the second packet. -/
theorem overtaken_message_shows_next :
    ∃ s, exec step (idle ((start : Dispatcher Nat).registerPacketListener 0x5071 (some 1)))
        [.dispatch (emptyBaList 1), .dispatch (emptyBaList 2), .handle 1] = some s ∧
      s.dispatched 1 = [emptyBaList 1, emptyBaList 2] ∧ s.shown 1 = [emptyBaList 2] ∧
      ¬ s.InOrder := by
  refine ⟨_, rfl, by decide, by decide, fun h => ?_⟩
  exact absurd (h 1 0 (emptyBaList 2) (by decide)) (by decide)

end Screens

end NetProbe
