import NetProbe.Lib.Simulation
import NetProbe.Tests.Loads

/-!
# The Web View of the Main Activity

The browse test and the video test have no web view of their own. They post
messages to the handler of the main activity: one that makes a new view, one
that begins the test, two for each load, one that ends the test. The UI thread
takes the messages from its queue and works on `mWebView`, which may be null;
a begin, a load or a stop that meets no view throws on the UI thread. Between
the first two messages the test polls `mWebView` up to ten times, a second
apart, and hangs its listener on the view it sees. The UI thread may be behind,
so that this is still the view of an earlier test.

The machine runs a list of tests one after the other on the test thread and
takes the messages in the order they were posted, with any delay. A test may be
interrupted in each of its waits; its polling goes on after an interrupt. Views
are numbered as they are made. Kept on the side are the test whose message made
each view, the loads with the view and the listener they met, and the tests
whose poll found a view before their own message for one was taken.

A session is what the messages amount to: which test the view was made for, and
whether the test has begun. `WebSession.accept` says which messages are in
order. The messages waiting are always in order, seen from where the UI thread
is, and lead to the session that the test thread relies on.

## Main definitions

* `WebTest`, `WebMessage`, `WebPc`, `WebScreen`: The state of the machine.
* `handleMessage`: What the UI thread does with a message.
* `callStep`: The next step of the test thread.
* `step`: A step of the test thread, of the UI thread, or of a finished page.
* `WebSession`, `accept`: Sessions, and the messages in order.
* `Orderly`, `Numbered`, `Deaf`, `Heard`: The invariants.

## Theorems

* `accept_handled`: A message in order is handled without an exception, and
  changes the session as it should.
* `loads_own_view`: In every run the UI thread throws nothing, every URL is
  loaded into the view made for its test, and at most one view is left.
* `listener_of_load`: A test that polled too early hears of none of its loads,
  and if none did, every load is heard by its test.
-/

namespace NetProbe

open Machine

/-- A configured browse or video test. -/
structure WebTest where
  kind : LoadKind
  urlList : List String
  count : Nat
  deriving DecidableEq, Repr

/-- The URLs in the order of the two loops of `call`. -/
def WebTest.loads (t : WebTest) : List String := (List.replicate t.count t.urlList).flatten

/-- The messages to the handler. The number of the test is for the record, the
    handler does not see it. -/
inductive WebMessage where
  | newWebView (test : Nat)
  | destroyWebView
  | beginTest
  | loadUrl (test : Nat) (url : String)
  | stopLoading
  | playVideo
  | endTest
  deriving DecidableEq, Repr

/-- Where the test thread is: between two calls, in front of a poll, behind it
    with a view, in front of the begin message, in front of load `n`, in the
    wait for it, in the pause behind it, or in front of the end message. -/
inductive WebPc where
  | between
  | polling (tries : Nat)
  | found (view : Nat)
  | beginning
  | sending (n : Nat)
  | waiting (n : Nat)
  | pausing (n : Nat)
  | ending
  deriving DecidableEq, Repr

/-- A `loadUrl` the UI thread has made, with the view and its listener at that
    moment. -/
structure WebLoad where
  view : Nat
  test : Nat
  url : String
  listener : Option Nat
  deriving DecidableEq, Repr

/-- `test` is the test in its call, or the next one. `made` holds for each view
    the test whose message made it, and `shown` are the children of
    `mMainTestShow`. -/
structure WebScreen where
  tests : List WebTest
  test : Nat
  pc : WebPc
  queue : List WebMessage
  mWebView : Option Nat
  made : List Nat
  destroyed : List Nat
  listeners : Nat → Option Nat
  shown : List Nat
  crashed : Bool
  loaded : List WebLoad
  early : List Nat

namespace WebScreen

/-- The activity before the first test. -/
def fresh (tests : List WebTest) : WebScreen where
  tests := tests
  test := 0
  pc := .between
  queue := []
  mWebView := none
  made := []
  destroyed := []
  listeners := fun _ => none
  shown := []
  crashed := false
  loaded := []
  early := []

def sendMessage (s : WebScreen) (msg : WebMessage) (pc : WebPc) : WebScreen :=
  { s with queue := s.queue ++ [msg], pc := pc }

/-- The call of the current test returns. -/
def returns (s : WebScreen) : WebScreen := { s with test := s.test + 1, pc := .between }

/-- An exception on the UI thread: a null view to add, or a call on it. -/
def crash (s : WebScreen) : WebScreen := { s with crashed := true }

/-- `handleMessage` of the activity's handler. -/
def handleMessage (s : WebScreen) : WebMessage → WebScreen
  | .newWebView t =>
      { s with
        destroyed := s.destroyed ++ s.mWebView.toList
        mWebView := some s.made.length
        made := s.made ++ [t]
        listeners := fun v => if v = s.made.length then none else s.listeners v }
  | .destroyWebView =>
      { s with destroyed := s.destroyed ++ s.mWebView.toList, mWebView := none }
  | .beginTest =>
      match s.mWebView with
      | none => { s with shown := [] }.crash
      | some v => { s with shown := [v] }
  | .loadUrl t url =>
      match s.mWebView with
      | none => s.crash
      | some v => { s with loaded := s.loaded ++ [⟨v, t, url, s.listeners v⟩] }
  | .stopLoading =>
      match s.mWebView with
      | none => s.crash
      | some _ => s
  -- A click on no view does nothing.
  | .playVideo => s
  | .endTest =>
      match s.mWebView with
      | none => s
      | some v =>
          { s with destroyed := s.destroyed ++ [v], shown := s.shown.erase v, mWebView := none }

/-- The next step of the test thread. In a `wait` or a pause an interrupt leads
    to the end message; the sleep of a poll catches it. -/
def callStep (s : WebScreen) (interrupted : Bool) : Option WebScreen :=
  match s.pc with
  | .between =>
      if s.test < s.tests.length then some (s.sendMessage (.newWebView s.test) (.polling 0))
      else none
  | .polling tries =>
      match s.mWebView with
      | some v =>
          some { s with
            pc := .found v
            early := if .newWebView s.test ∈ s.queue then s.early ++ [s.test] else s.early }
      | none => some (if tries + 1 < 10 then { s with pc := .polling (tries + 1) } else s.returns)
  | .found v =>
      some { s with
        listeners := fun w => if w = v then some s.test else s.listeners w
        pc := .beginning }
  | .beginning => some (s.sendMessage .beginTest (.sending 0))
  | .sending n =>
      match s.tests[s.test]?.bind (fun t => t.loads[n]?) with
      | some url => some (s.sendMessage (.loadUrl s.test url) (.waiting n))
      | none => some { s with pc := .ending }
  | .waiting n =>
      some (if interrupted then { s with pc := .ending }
        else s.sendMessage .stopLoading (.pausing n))
  | .pausing n => some { s with pc := if interrupted then .ending else .sending (n + 1) }
  | .ending => some (s.sendMessage .endTest s.pc).returns

/-- `onPageFinished` of the view, if it has a listener. The video test posts a
    click, the browse test ends its wait. -/
def pageFinished (s : WebScreen) : Option WebScreen :=
  match s.mWebView.bind s.listeners with
  | none => none
  | some t =>
      some (match s.tests[t]?.map WebTest.kind with
        | some .httpVideo => s.sendMessage .playVideo s.pc
        | _ => s)

/-- A step of the test thread, of the UI thread, or a callback of the view on the
    UI thread. How long a wait takes is left open, so a callback that ends one
    needs no step of its own. -/
inductive Label where
  | call (interrupted : Bool)
  | handle
  | pageFinished
  deriving DecidableEq, Repr

def step (s : WebScreen) : Label → Option WebScreen
  | .call interrupted => s.callStep interrupted
  | .handle =>
      match s.queue with
      | [] => none
      | msg :: rest => if s.crashed then none else some ({ s with queue := rest }.handleMessage msg)
  | .pageFinished => s.pageFinished

/-- What the test thread does next. -/
inductive Calls (s : WebScreen) : WebScreen → Prop where
  | opens (hpc : s.pc = .between) :
      Calls s (s.sendMessage (.newWebView s.test) (.polling 0))
  | sees (tries v : Nat) (hpc : s.pc = .polling tries) (hview : s.mWebView = some v) :
      Calls s { s with
        pc := .found v
        early := if .newWebView s.test ∈ s.queue then s.early ++ [s.test] else s.early }
  | polls (tries : Nat) (hpc : s.pc = .polling tries) :
      Calls s { s with pc := .polling (tries + 1) }
  | givesUp (tries : Nat) (hpc : s.pc = .polling tries) : Calls s s.returns
  | listens (v : Nat) (hpc : s.pc = .found v) :
      Calls s { s with
        listeners := fun w => if w = v then some s.test else s.listeners w
        pc := .beginning }
  | begins (hpc : s.pc = .beginning) : Calls s (s.sendMessage .beginTest (.sending 0))
  | loads (n : Nat) (url : String) (hpc : s.pc = .sending n) :
      Calls s (s.sendMessage (.loadUrl s.test url) (.waiting n))
  | finishes (n : Nat) (hpc : s.pc = .sending n) : Calls s { s with pc := .ending }
  | stops (n : Nat) (hpc : s.pc = .waiting n) :
      Calls s (s.sendMessage .stopLoading (.pausing n))
  | breaks (n : Nat) (hpc : s.pc = .waiting n ∨ s.pc = .pausing n) :
      Calls s { s with pc := .ending }
  | goesOn (n : Nat) (hpc : s.pc = .pausing n) : Calls s { s with pc := .sending (n + 1) }
  | ends (hpc : s.pc = .ending) : Calls s (s.sendMessage .endTest s.pc).returns

theorem callStep_calls {s s' : WebScreen} {interrupted : Bool}
    (h : s.callStep interrupted = some s') : Calls s s' := by
  unfold callStep at h
  split at h
  case h_1 hpc =>
      split at h
      · exact Option.some.inj h ▸ .opens hpc
      · exact absurd h (by simp only [reduceCtorEq, not_false_eq_true])
  case h_2 tries hpc =>
      split at h
      · rename_i v hview
        exact Option.some.inj h ▸ .sees tries v hpc hview
      · rw [← Option.some.inj h]
        split
        · exact .polls tries hpc
        · exact .givesUp tries hpc
  case h_3 v hpc => exact Option.some.inj h ▸ .listens v hpc
  case h_4 hpc => exact Option.some.inj h ▸ .begins hpc
  case h_5 n hpc =>
      split at h
      · rename_i url _
        exact Option.some.inj h ▸ .loads n url hpc
      · exact Option.some.inj h ▸ .finishes n hpc
  case h_6 n hpc =>
      rw [← Option.some.inj h]
      cases interrupted with
      | false => exact .stops n hpc
      | true => exact .breaks n (.inl hpc)
  case h_7 n hpc =>
      rw [← Option.some.inj h]
      cases interrupted with
      | false => exact .goesOn n hpc
      | true => exact .breaks n (.inr hpc)
  case h_8 hpc => exact Option.some.inj h ▸ .ends hpc

/-- A finished page changes the queue at most, by a click at its end. -/
theorem pageFinished_posts {s s' : WebScreen} (h : s.pageFinished = some s') :
    s' = s ∨ s' = s.sendMessage .playVideo s.pc := by
  unfold pageFinished at h
  split at h
  · exact absurd h (by simp only [reduceCtorEq, not_false_eq_true])
  · rw [← Option.some.inj h]
    split
    · exact .inr rfl
    · exact .inl rfl

end WebScreen

/-- The test whose view it is, and whether the test has begun on it. -/
structure WebSession where
  view : Option Nat
  begun : Bool
  deriving DecidableEq, Repr

/-- The messages that are in order, and the session they lead to. -/
def WebSession.accept (u : WebSession) : WebMessage → Option WebSession
  | .newWebView t => if u.begun then none else some ⟨some t, false⟩
  | .destroyWebView => none
  | .beginTest => if u.view ≠ none ∧ u.begun = false then some { u with begun := true } else none
  | .loadUrl t _ => if u.view = some t ∧ u.begun = true then some u else none
  | .stopLoading => if u.view ≠ none ∧ u.begun = true then some u else none
  | .playVideo => some u
  | .endTest => if u.view ≠ none ∧ u.begun = true then some ⟨none, false⟩ else none

namespace WebScreen

/-- The session the UI thread is in. -/
def session (s : WebScreen) : WebSession where
  view := s.mWebView.bind (fun v => s.made[v]?)
  begun := !s.shown.isEmpty

/-- The state of the UI side agrees with what has been recorded. -/
structure Kept (s : WebScreen) : Prop where
  running : s.crashed = false
  made : ∀ v, s.mWebView = some v → v < s.made.length
  shown : s.shown = [] ∨ ∃ v, s.mWebView = some v ∧ s.shown = [v]
  own : ∀ r ∈ s.loaded, s.made[r.view]? = some r.test
  gone : ∀ v ∈ s.destroyed, v < s.made.length ∧ s.mWebView ≠ some v
  left : ∀ v < s.made.length, s.mWebView = some v ∨ v ∈ s.destroyed

theorem session_view {s : WebScreen} {t : Nat} (h : s.session.view = some t) :
    ∃ v, s.mWebView = some v ∧ s.made[v]? = some t :=
  Option.bind_eq_some_iff.mp h

theorem session_view_ne {s : WebScreen} (h : s.session.view ≠ none) :
    ∃ v, s.mWebView = some v := by
  obtain ⟨t, ht⟩ := Option.ne_none_iff_exists'.mp h
  obtain ⟨v, hv, -⟩ := session_view ht
  exact ⟨v, hv⟩

/-- A message in order finds what it needs: nothing is thrown, and the UI thread
    is then in the session that the message leads to. -/
theorem accept_handled {s : WebScreen} {msg : WebMessage} {u : WebSession} (hs : s.Kept)
    (h : s.session.accept msg = some u) :
    (s.handleMessage msg).Kept ∧ (s.handleMessage msg).session = u := by
  cases msg with
  | newWebView t =>
      simp only [WebSession.accept] at h
      split at h
      · exact absurd h (by simp only [reduceCtorEq, not_false_eq_true])
      rename_i hbegun
      have hempty : s.shown = [] := by
        rcases hs.shown with hempty | ⟨v, -, hv⟩
        · exact hempty
        · exact absurd (by simp only [session, hv, List.isEmpty_cons, Bool.not_false]) hbegun
      refine ⟨⟨hs.running, fun v hv => ?_, .inl hempty, fun r hr => ?_, fun v hv => ?_,
        fun v hv => ?_⟩, ?_⟩
      · simp only [handleMessage, Option.some.injEq, List.length_append, List.length_singleton]
          at hv ⊢
        omega
      · exact List.getElem?_append_left (List.getElem?_eq_some_iff.mp (hs.own r hr)).1 ▸ hs.own r hr
      · simp only [handleMessage, List.mem_append, Option.mem_toList, List.length_append,
          List.length_singleton, ne_eq, Option.some.injEq] at hv ⊢
        have hlt : v < s.made.length := hv.elim (fun hv => (hs.gone v hv).1) (hs.made v)
        omega
      · simp only [handleMessage, List.mem_append, Option.mem_toList, List.length_append,
          List.length_singleton, Option.some.injEq] at hv ⊢
        by_cases hlast : v = s.made.length
        · exact .inl hlast.symm
        · exact .inr ((hs.left v (by omega)).symm)
      · rw [← Option.some.inj h]
        simp only [session, handleMessage, Option.bind_some, hempty, List.isEmpty_nil,
          Bool.not_true, List.getElem?_concat_length]
  | destroyWebView => exact absurd h (by simp only [WebSession.accept, reduceCtorEq,
      not_false_eq_true])
  | beginTest =>
      simp only [WebSession.accept] at h
      split at h
      · rename_i hview
        obtain ⟨v, hv⟩ := session_view_ne hview.1
        simp only [handleMessage, hv]
        refine ⟨⟨hs.running, fun w hw => hs.made w (hv ▸ hw), .inr ⟨v, rfl, rfl⟩, hs.own,
          fun w hw => hv ▸ hs.gone w hw, fun w hw => hv ▸ hs.left w hw⟩, ?_⟩
        rw [← Option.some.inj h]
        simp only [session, hv, List.isEmpty_cons, Bool.not_false]
      · exact absurd h (by simp only [reduceCtorEq, not_false_eq_true])
  | loadUrl t url =>
      simp only [WebSession.accept] at h
      split at h
      · rename_i hview
        obtain ⟨v, hv, hmade⟩ := session_view hview.1
        simp only [handleMessage, hv]
        refine ⟨⟨hs.running, fun w hw => hs.made w (hv ▸ hw), ?_, fun r hr => ?_,
          fun w hw => hv ▸ hs.gone w hw, fun w hw => hv ▸ hs.left w hw⟩, ?_⟩
        · exact hv ▸ hs.shown
        · rcases List.mem_append.mp hr with hr | hr
          · exact hs.own r hr
          · rw [List.mem_singleton.mp hr]
            exact hmade
        · rw [← Option.some.inj h]
          simp only [session, hv]
      · exact absurd h (by simp only [reduceCtorEq, not_false_eq_true])
  | stopLoading =>
      simp only [WebSession.accept] at h
      split at h
      · rename_i hview
        obtain ⟨v, hv⟩ := session_view_ne hview.1
        simp only [handleMessage, hv]
        exact ⟨hs, Option.some.inj h⟩
      · exact absurd h (by simp only [reduceCtorEq, not_false_eq_true])
  | playVideo => exact ⟨hs, Option.some.inj h⟩
  | endTest =>
      simp only [WebSession.accept] at h
      split at h
      · rename_i hview
        obtain ⟨v, hv⟩ := session_view_ne hview.1
        simp only [handleMessage, hv]
        have hempty : s.shown.erase v = [] := by
          rcases hs.shown with hshown | ⟨w, hw, hshown⟩
          · rw [hshown]
            rfl
          · rw [hv, Option.some.injEq] at hw
            rw [hshown, hw]
            exact List.erase_cons_head w []
        refine ⟨⟨hs.running, fun w hw => absurd hw (by simp only [reduceCtorEq,
          not_false_eq_true]), .inl hempty, hs.own, fun w hw => ⟨?_, by simp only [ne_eq,
          reduceCtorEq, not_false_eq_true]⟩, fun w hw => .inr ?_⟩, ?_⟩
        · rcases List.mem_append.mp hw with hw | hw
          · exact (hs.gone w hw).1
          · exact hs.made w (List.mem_singleton.mp hw ▸ hv)
        · rcases hs.left w hw with hw | hw
          · rw [hv, Option.some.injEq] at hw
            exact List.mem_append_right _ (List.mem_singleton.mpr hw.symm)
          · exact List.mem_append_left _ hw
        · rw [← Option.some.inj h]
          simp only [session, Option.bind_none, hempty, List.isEmpty_nil, Bool.not_true]
      · exact absurd h (by simp only [reduceCtorEq, not_false_eq_true])

/-- The session the test thread counts on, once its messages have been taken. -/
def CountsOn (s : WebScreen) (u : WebSession) : Prop :=
  match s.pc with
  | .between => u.begun = false
  | .polling _ => u.view = some s.test ∧ u.begun = false
  | .found _ => u.view = some s.test ∧ u.begun = false
  | .beginning => u.view = some s.test ∧ u.begun = false
  | _ => u.view = some s.test ∧ u.begun = true

/-- The messages waiting are in order, and lead to the session that the test
    thread counts on. -/
structure Orderly (s : WebScreen) : Prop where
  kept : s.Kept
  inOrder : ∃ u, exec WebSession.accept s.session s.queue = some u ∧ s.CountsOn u

/-- One more message is in order if it is in the session counted on. -/
theorem exec_post {u u' v : WebSession} {queue : List WebMessage} {msg : WebMessage}
    (h : exec WebSession.accept u queue = some u') (hmsg : u'.accept msg = some v) :
    exec WebSession.accept u (queue ++ [msg]) = some v := by
  rw [exec_append WebSession.accept u u' queue [msg] h, exec_cons hmsg]
  rfl

/-- The test thread leaves the UI side alone. -/
theorem Kept.calls {s s' : WebScreen} (hs : s.Kept) (h : Calls s s') : s'.Kept := by
  cases h
  all_goals exact ⟨hs.running, hs.made, hs.shown, hs.own, hs.gone, hs.left⟩

theorem calls_orderly {s s' : WebScreen} (hs : s.Orderly) (h : Calls s s') : s'.Orderly := by
  obtain ⟨hkept, u, hqueue, hcounts⟩ := hs
  refine ⟨hkept.calls h, ?_⟩
  unfold CountsOn at hcounts
  cases h
  case opens hpc =>
      rw [hpc] at hcounts
      exact ⟨⟨some s.test, false⟩, exec_post hqueue (if_neg (by rw [hcounts]; exact
        Bool.false_ne_true)), rfl, rfl⟩
  case sees tries v hpc _ =>
      rw [hpc] at hcounts
      exact ⟨u, hqueue, hcounts⟩
  case polls tries hpc =>
      rw [hpc] at hcounts
      exact ⟨u, hqueue, hcounts⟩
  -- The test returns without an end message, and has not begun either.
  case givesUp tries hpc =>
      rw [hpc] at hcounts
      exact ⟨u, hqueue, hcounts.2⟩
  case listens v hpc =>
      rw [hpc] at hcounts
      exact ⟨u, hqueue, hcounts⟩
  case begins hpc =>
      rw [hpc] at hcounts
      exact ⟨{ u with begun := true },
        exec_post hqueue (if_pos ⟨hcounts.1 ▸ Option.some_ne_none _, hcounts.2⟩), hcounts.1, rfl⟩
  case loads n url hpc =>
      rw [hpc] at hcounts
      exact ⟨u, exec_post hqueue (if_pos hcounts), hcounts⟩
  case finishes n hpc =>
      rw [hpc] at hcounts
      exact ⟨u, hqueue, hcounts⟩
  case stops n hpc =>
      rw [hpc] at hcounts
      exact ⟨u, exec_post hqueue (if_pos ⟨hcounts.1 ▸ Option.some_ne_none _, hcounts.2⟩), hcounts⟩
  case breaks n hpc =>
      rcases hpc with hpc | hpc
      · rw [hpc] at hcounts
        exact ⟨u, hqueue, hcounts⟩
      · rw [hpc] at hcounts
        exact ⟨u, hqueue, hcounts⟩
  case goesOn n hpc =>
      rw [hpc] at hcounts
      exact ⟨u, hqueue, hcounts⟩
  case ends hpc =>
      rw [hpc] at hcounts
      exact ⟨⟨none, false⟩,
        exec_post hqueue (if_pos ⟨hcounts.1 ▸ Option.some_ne_none _, hcounts.2⟩), rfl⟩

/-- The next message is in order, and the rest is from the session it leads
    to. -/
theorem handle_accepts {s : WebScreen} {msg : WebMessage} {rest : List WebMessage}
    (hs : s.Orderly) (hqueue : s.queue = msg :: rest) :
    ∃ u, s.session.accept msg = some u ∧
      ∃ v, exec WebSession.accept u rest = some v ∧ s.CountsOn v := by
  obtain ⟨v, hrun, hcounts⟩ := hs.inOrder
  rw [hqueue] at hrun
  obtain ⟨u, hmsg, hrest⟩ := exec_cons_iff.mp hrun
  exact ⟨u, hmsg, v, hrest, hcounts⟩

/-- Handling a message touches neither thread nor queue. -/
theorem handleMessage_frame (s : WebScreen) (msg : WebMessage) :
    (s.handleMessage msg).pc = s.pc ∧ (s.handleMessage msg).test = s.test ∧
      (s.handleMessage msg).queue = s.queue ∧ (s.handleMessage msg).early = s.early := by
  cases msg
  case newWebView t => exact ⟨rfl, rfl, rfl, rfl⟩
  case destroyWebView => exact ⟨rfl, rfl, rfl, rfl⟩
  case playVideo => exact ⟨rfl, rfl, rfl, rfl⟩
  all_goals
    simp only [handleMessage]
    split
    · exact ⟨rfl, rfl, rfl, rfl⟩
    · exact ⟨rfl, rfl, rfl, rfl⟩

/-- What a step can be: one of the test thread, a click posted, or the next
    message handled. -/
theorem step_cases {s s' : WebScreen} {l : Label} (h : s.step l = some s') :
    Calls s s' ∨ s' = s ∨ s' = s.sendMessage .playVideo s.pc ∨
      ∃ msg rest, s.queue = msg :: rest ∧ s' = { s with queue := rest }.handleMessage msg := by
  cases l with
  | call interrupted => exact .inl (callStep_calls h)
  | handle =>
      simp only [step] at h
      split at h
      · exact absurd h (by simp only [reduceCtorEq, not_false_eq_true])
      · rename_i msg rest hqueue
        split at h
        · exact absurd h (by simp only [reduceCtorEq, not_false_eq_true])
        · exact .inr (.inr (.inr ⟨msg, rest, hqueue, (Option.some.inj h).symm⟩))
  | pageFinished =>
      rcases pageFinished_posts h with hsame | hpost
      · exact .inr (.inl hsame)
      · exact .inr (.inr (.inl hpost))

theorem step_orderly {s s' : WebScreen} {l : Label} (hs : s.Orderly) (h : s.step l = some s') :
    s'.Orderly := by
  rcases step_cases h with hcall | rfl | rfl | ⟨msg, rest, hqueue, rfl⟩
  · exact calls_orderly hs hcall
  · exact hs
  · obtain ⟨hkept, u, hrun, hcounts⟩ := hs
    exact ⟨⟨hkept.running, hkept.made, hkept.shown, hkept.own, hkept.gone, hkept.left⟩, u,
      exec_post hrun rfl, hcounts⟩
  · obtain ⟨u, hmsg, v, hrest, hcounts⟩ := handle_accepts hs hqueue
    have hkept : ({ s with queue := rest } : WebScreen).Kept :=
      ⟨hs.kept.running, hs.kept.made, hs.kept.shown, hs.kept.own, hs.kept.gone, hs.kept.left⟩
    obtain ⟨hkept', hsession⟩ := accept_handled hkept hmsg
    obtain ⟨hpc, htest, hqueue', -⟩ := handleMessage_frame { s with queue := rest } msg
    refine ⟨hkept', v, by rw [hsession, hqueue']; exact hrest, ?_⟩
    unfold CountsOn at hcounts ⊢
    rw [hpc, htest]
    exact hcounts

theorem fresh_orderly (tests : List WebTest) : (fresh tests).Orderly := by
  refine ⟨⟨rfl, fun v hv => ?_, .inl rfl, fun r hr => ?_, fun v hv => ?_, fun v hv => ?_⟩,
    _, rfl, rfl⟩
  · exact absurd hv (by simp only [fresh, reduceCtorEq, not_false_eq_true])
  · exact absurd hr List.not_mem_nil
  · exact absurd hv List.not_mem_nil
  · exact absurd hv (Nat.not_lt_zero v)

/-- In every run of any tests, with the messages delayed in any way and the tests
    interrupted anywhere, the UI thread throws nothing, every URL is loaded
    into the view made for its own test, and every view but the current one
    has been destroyed. -/
theorem loads_own_view (tests : List WebTest) (labels : List Label) (s : WebScreen)
    (h : exec step (fresh tests) labels = some s) :
    s.crashed = false ∧ (∀ r ∈ s.loaded, s.made[r.view]? = some r.test) ∧
      ∀ v < s.made.length, s.mWebView = some v ∨ v ∈ s.destroyed := by
  have hs : s.Orderly :=
    exec_keeps step (fun _ _ => True) Orderly (fun _ _ _ hs _ hstep => step_orderly hs hstep)
      labels (fresh tests) s (fresh_orderly tests) (along_true step (fresh tests) labels) h
  exact ⟨hs.kept.running, hs.kept.own, hs.kept.left⟩

/-- A browse test and a video test. The second finds the view of the first, whose
    end message the UI thread has not come to. -/
def delayed : List Label :=
  [.call false, .handle, .call false, .call false, .call false, .call false, .handle, .handle,
    .call false, .call false, .call false, .call false, .call false, .call false, .call false,
    .call false, .call false, .handle, .handle, .handle, .handle, .handle]

/-- The two tests of that run. -/
def twoTests : List WebTest := [⟨.webBrowse, ["a"], 1⟩, ⟨.httpVideo, ["b"], 1⟩]

theorem delayed_runs : ∃ s ∈ exec step (fresh twoTests) delayed,
    s.loaded.map (fun r => (r.view, r.test)) = [(0, 0), (1, 1)] ∧ s.early = [1] ∧
      s.mWebView = some 1 ∧ s.destroyed = [0] := by
  decide +kernel

/-- Both URLs met the views made for their tests, and only the second view is
    left. -/
theorem loads_own_view_delayed : ∃ s ∈ exec step (fresh twoTests) delayed,
    s.mWebView = some 1 ∧ s.crashed = false ∧ ∀ r ∈ s.loaded, s.made[r.view]? = some r.test := by
  obtain ⟨s, hs, -, -, hview, -⟩ := delayed_runs
  obtain ⟨hrunning, hown, -⟩ := loads_own_view twoTests delayed s hs
  exact ⟨s, hs, hview, hrunning, hown⟩

/-- The tests whose new views are still to be made. -/
def newViews (queue : List WebMessage) : List Nat :=
  queue.filterMap (fun msg => match msg with | .newWebView t => some t | _ => none)

/-- The tests whose loads are still to be made. -/
def newLoads (queue : List WebMessage) : List Nat :=
  queue.filterMap (fun msg => match msg with | .loadUrl t _ => some t | _ => none)

/-- The test is an earlier one, or the current one and it has come so far. -/
def Reached (s : WebScreen) (far : Bool) (t : Nat) : Prop := t < s.test ∨ t = s.test ∧ far = true

end WebScreen

/-- The test has posted its first message. -/
def WebPc.hasOpened : WebPc → Bool
  | .between => false
  | _ => true

/-- The test has found a view. -/
def WebPc.hasPolled : WebPc → Bool
  | .between | .polling _ => false
  | _ => true

/-- The test has hung its listener on the view. -/
def WebPc.hasTuned : WebPc → Bool
  | .between | .polling _ | .found _ => false
  | _ => true

namespace WebScreen

/-- The tests have their views in turn, and nothing is there of a test that has
    not come to it. -/
structure Numbered (s : WebScreen) : Prop where
  increasing : (s.made ++ newViews s.queue).Pairwise (· < ·)
  opened : ∀ t ∈ s.made ++ newViews s.queue, s.Reached s.pc.hasOpened t
  polled : ∀ t ∈ s.early, s.Reached s.pc.hasPolled t
  begun : ∀ t ∈ s.loaded.map WebLoad.test ++ newLoads s.queue, s.Reached s.pc.hasTuned t

theorem Reached.mono {s : WebScreen} {far far' : Bool} {t : Nat} (h : s.Reached far t)
    (hfar : far = true → far' = true) : s.Reached far' t :=
  h.imp id (fun h => ⟨h.1, hfar h.2⟩)

/-- Behind its return a test is an earlier one. -/
theorem Reached.lt {s : WebScreen} {far : Bool} {t : Nat} (h : s.Reached far t) :
    t < s.test + 1 := by
  rcases h with h | ⟨h, -⟩
  · omega
  · omega

theorem newViews_append (queue more : List WebMessage) :
    newViews (queue ++ more) = newViews queue ++ newViews more := List.filterMap_append

theorem newLoads_append (queue more : List WebMessage) :
    newLoads (queue ++ more) = newLoads queue ++ newLoads more := List.filterMap_append

/-- A test that only goes on, with a message that neither makes a view nor loads
    one. -/
theorem Numbered.moves {s : WebScreen} (hs : s.Numbered) {more : List WebMessage}
    {listeners : Nat → Option Nat} {pc : WebPc} (hviews : newViews more = [])
    (hloads : newLoads more = []) (hopened : s.pc.hasOpened = true → pc.hasOpened = true)
    (hpolled : s.pc.hasPolled = true → pc.hasPolled = true)
    (htuned : s.pc.hasTuned = true → pc.hasTuned = true) :
    ({ s with queue := s.queue ++ more, listeners := listeners, pc := pc } :
      WebScreen).Numbered := by
  have hviews' : newViews (s.queue ++ more) = newViews s.queue := by
    rw [newViews_append, hviews, List.append_nil]
  have hloads' : newLoads (s.queue ++ more) = newLoads s.queue := by
    rw [newLoads_append, hloads, List.append_nil]
  refine ⟨hviews' ▸ hs.increasing, fun t ht => ?_, fun t ht => (hs.polled t ht).mono hpolled,
    fun t ht => ?_⟩
  · exact (hs.opened t (hviews' ▸ ht)).mono hopened
  · exact (hs.begun t (hloads' ▸ ht)).mono htuned

/-- A test that returns becomes an earlier one. -/
theorem Numbered.returns {s : WebScreen} (hs : s.Numbered) : s.returns.Numbered :=
  ⟨hs.increasing, fun t ht => .inl (hs.opened t ht).lt, fun t ht => .inl (hs.polled t ht).lt,
    fun t ht => .inl (hs.begun t ht).lt⟩

/-- The new view of a test is the last to be made. -/
theorem opens_numbered {s : WebScreen} (hs : s.Numbered) (hpc : s.pc = .between) :
    (s.sendMessage (.newWebView s.test) (.polling 0)).Numbered := by
  obtain ⟨hinc, hopened, hpolled, hbegun⟩ := hs
  rw [hpc] at hopened hpolled hbegun
  have hold : ∀ t ∈ s.made ++ newViews s.queue, t < s.test := by
    intro t ht
    rcases hopened t ht with hlt | ⟨-, hfar⟩
    · exact hlt
    · exact absurd hfar Bool.false_ne_true
  have hviews : s.made ++ newViews (s.queue ++ [.newWebView s.test])
      = s.made ++ newViews s.queue ++ [s.test] := by
    rw [newViews_append, ← List.append_assoc]
    rfl
  refine ⟨?_, fun t ht => ?_, hpolled, fun t ht => ?_⟩
  · rw [sendMessage, hviews, List.pairwise_append]
    refine ⟨hinc, List.pairwise_singleton _ _, fun a ha b hb => ?_⟩
    rw [List.mem_singleton.mp hb]
    exact hold a ha
  · rw [sendMessage, hviews] at ht
    rcases List.mem_append.mp ht with ht | ht
    · exact .inl (hold t ht)
    · exact .inr ⟨List.mem_singleton.mp ht, rfl⟩
  · rw [sendMessage, newLoads_append, show newLoads [.newWebView s.test] = [] from rfl,
      List.append_nil] at ht
    exact hbegun t ht

theorem loads_numbered {s : WebScreen} (hs : s.Numbered) {n : Nat} (hpc : s.pc = .sending n)
    (url : String) : (s.sendMessage (.loadUrl s.test url) (.waiting n)).Numbered := by
  obtain ⟨hinc, hopened, hpolled, hbegun⟩ := hs
  rw [hpc] at hopened hpolled hbegun
  have hviews : newViews (s.queue ++ [.loadUrl s.test url]) = newViews s.queue := by
    rw [newViews_append]
    exact List.append_nil _
  refine ⟨?_, fun t ht => ?_, hpolled, fun t ht => ?_⟩
  · rw [sendMessage, hviews]
    exact hinc
  · rw [sendMessage, hviews] at ht
    exact hopened t ht
  · rw [sendMessage, newLoads_append, ← List.append_assoc] at ht
    rcases List.mem_append.mp ht with ht | ht
    · exact hbegun t ht
    · exact .inr ⟨List.mem_singleton.mp ht, rfl⟩

theorem calls_numbered {s s' : WebScreen} (hs : s.Numbered) (h : Calls s s') : s'.Numbered := by
  cases h
  case opens hpc => exact opens_numbered hs hpc
  case sees tries v hpc _ =>
      obtain ⟨hinc, hopened, hpolled, hbegun⟩ := hs
      rw [hpc] at hopened hpolled hbegun
      refine ⟨hinc, hopened, fun t ht => ?_, hbegun⟩
      dsimp only at ht
      split at ht
      · rcases List.mem_append.mp ht with ht | ht
        · exact (hpolled t ht).mono (fun _ => rfl)
        · exact .inr ⟨List.mem_singleton.mp ht, rfl⟩
      · exact (hpolled t ht).mono (fun _ => rfl)
  case polls tries hpc =>
      obtain ⟨hinc, hopened, hpolled, hbegun⟩ := hs
      rw [hpc] at hopened hpolled hbegun
      exact ⟨hinc, hopened, hpolled, hbegun⟩
  case givesUp => exact hs.returns
  case listens v hpc =>
      obtain ⟨hinc, hopened, hpolled, hbegun⟩ := hs
      rw [hpc] at hopened hpolled hbegun
      exact ⟨hinc, hopened, hpolled, fun t ht => (hbegun t ht).mono (fun _ => rfl)⟩
  case begins => exact hs.moves rfl rfl (fun _ => rfl) (fun _ => rfl) (fun _ => rfl)
  case loads n url hpc => exact loads_numbered hs hpc url
  case finishes n hpc =>
      obtain ⟨hinc, hopened, hpolled, hbegun⟩ := hs
      rw [hpc] at hopened hpolled hbegun
      exact ⟨hinc, hopened, hpolled, hbegun⟩
  case stops => exact hs.moves rfl rfl (fun _ => rfl) (fun _ => rfl) (fun _ => rfl)
  case breaks =>
      exact ⟨hs.increasing, fun t ht => (hs.opened t ht).mono (fun _ => rfl),
        fun t ht => (hs.polled t ht).mono (fun _ => rfl),
        fun t ht => (hs.begun t ht).mono (fun _ => rfl)⟩
  case goesOn =>
      exact ⟨hs.increasing, fun t ht => (hs.opened t ht).mono (fun _ => rfl),
        fun t ht => (hs.polled t ht).mono (fun _ => rfl),
        fun t ht => (hs.begun t ht).mono (fun _ => rfl)⟩
  case ends =>
      refine Numbered.returns (s := s.sendMessage .endTest s.pc) ?_
      exact hs.moves rfl rfl id id id

theorem handle_numbered {s : WebScreen} {msg : WebMessage} {rest : List WebMessage}
    (hs : s.Numbered) (hqueue : s.queue = msg :: rest) :
    ({ s with queue := rest }.handleMessage msg).Numbered := by
  obtain ⟨hinc, hopened, hpolled, hbegun⟩ := hs
  rw [hqueue] at hinc hopened hbegun
  cases msg with
  | newWebView t =>
      -- The view moves from the messages to the views made.
      have hviews : s.made ++ newViews (.newWebView t :: rest)
          = s.made ++ [t] ++ newViews rest := by
        rw [List.append_assoc]
        rfl
      rw [hviews] at hinc hopened
      exact ⟨hinc, hopened, hpolled, hbegun⟩
  | loadUrl t url =>
      simp only [handleMessage]
      split
      · refine ⟨hinc, hopened, hpolled, fun t' ht' => hbegun t' ?_⟩
        rcases List.mem_append.mp ht' with ht' | ht'
        · exact List.mem_append_left _ ht'
        · exact List.mem_append_right _ (List.mem_cons_of_mem t ht')
      · refine ⟨hinc, hopened, hpolled, fun t' ht' => hbegun t' ?_⟩
        rw [List.map_append, List.append_assoc] at ht'
        exact ht'
  | destroyWebView => exact ⟨hinc, hopened, hpolled, hbegun⟩
  | playVideo => exact ⟨hinc, hopened, hpolled, hbegun⟩
  | _ =>
      simp only [handleMessage]
      split
      · exact ⟨hinc, hopened, hpolled, hbegun⟩
      · exact ⟨hinc, hopened, hpolled, hbegun⟩

theorem step_numbered {s s' : WebScreen} {l : Label} (hs : s.Numbered)
    (h : s.step l = some s') : s'.Numbered := by
  rcases step_cases h with hcall | rfl | rfl | ⟨msg, rest, hqueue, rfl⟩
  · exact calls_numbered hs hcall
  · exact hs
  · exact hs.moves rfl rfl id id id
  · exact handle_numbered hs hqueue

/-- A view is made for one test. -/
theorem Numbered.view_inj {s : WebScreen} (hs : s.Numbered) {v w t : Nat}
    (hv : s.made[v]? = some t) (hw : s.made[w]? = some t) : v = w := by
  have hnodup : s.made.Nodup :=
    (List.pairwise_append.mp hs.increasing).1.imp (fun hlt => Nat.ne_of_lt hlt)
  obtain ⟨hlt, hget⟩ := List.getElem?_eq_some_iff.mp hv
  exact (List.getElem?_inj hlt hnodup).mp (hv.trans hw.symm)

/-- Without the message for it, no message leads into the session of a test. -/
theorem view_of_exec {queue : List WebMessage} {u v : WebSession} {t : Nat}
    (h : exec WebSession.accept u queue = some v) (hview : v.view = some t)
    (hnone : .newWebView t ∉ queue) : u.view = some t := by
  induction queue generalizing u with
  | nil => exact Option.some.inj h ▸ hview
  | cons msg rest ih =>
      obtain ⟨u', hmsg, hrest⟩ := exec_cons_iff.mp h
      have hu' := ih hrest (fun hmem => hnone (List.mem_cons_of_mem msg hmem))
      cases msg with
      | newWebView t' =>
          simp only [WebSession.accept] at hmsg
          split at hmsg
          · exact absurd hmsg (by simp only [reduceCtorEq, not_false_eq_true])
          · rw [← Option.some.inj hmsg] at hu'
            exact absurd (Option.some.inj hu' ▸ List.mem_cons_self) hnone
      | destroyWebView => exact absurd hmsg (by simp only [WebSession.accept, reduceCtorEq,
          not_false_eq_true])
      | playVideo => exact Option.some.inj hmsg ▸ hu'
      | endTest =>
          simp only [WebSession.accept] at hmsg
          split at hmsg
          · rw [← Option.some.inj hmsg] at hu'
            exact absurd hu' (by simp only [reduceCtorEq, not_false_eq_true])
          · exact absurd hmsg (by simp only [reduceCtorEq, not_false_eq_true])
      | _ =>
          simp only [WebSession.accept] at hmsg
          split at hmsg
          · rw [← Option.some.inj hmsg] at hu'
            exact hu'
          · exact absurd hmsg (by simp only [reduceCtorEq, not_false_eq_true])

/-- The listener of a test that polled too early is not on the view of that
    test. -/
structure Deaf (s : WebScreen) : Prop where
  found : ∀ v, s.pc = .found v →
    v < s.made.length ∧ (s.test ∈ s.early → s.made[v]? ≠ some s.test)
  views : ∀ t ∈ s.early, ∀ v, s.made[v]? = some t → s.listeners v ≠ some t
  loads : ∀ r ∈ s.loaded, r.test ∈ s.early → r.listener ≠ some r.test

/-- The listener of a test is on its view, from the poll on. -/
structure Heard (s : WebScreen) : Prop where
  found : ∀ v, s.pc = .found v → s.made[v]? = some s.test
  tuned : ∀ t, t ∈ newLoads s.queue ∨ t = s.test ∧ s.pc.hasTuned = true →
    ∃ v, s.made[v]? = some t ∧ s.listeners v = some t
  loads : ∀ r ∈ s.loaded, r.listener = some r.test

/-- Another view at the end changes no view that is there. -/
theorem made_append {made : List Nat} {v t : Nat} (hv : v < made.length) :
    (made ++ [t])[v]? = made[v]? := List.getElem?_append_left hv

theorem sees_deaf {s : WebScreen} {v tries : Nat} (hord : s.Orderly) (hnum : s.Numbered)
    (hs : s.Deaf) (hpc : s.pc = .polling tries) (hview : s.mWebView = some v) :
    ({ s with
      pc := .found v
      early := if .newWebView s.test ∈ s.queue then s.early ++ [s.test] else s.early } :
      WebScreen).Deaf := by
  have hnot : s.test ∉ s.early := by
    intro hmem
    rcases hnum.polled _ hmem with hlt | ⟨-, hfar⟩
    · exact Nat.lt_irrefl _ hlt
    · rw [hpc] at hfar
      exact absurd hfar Bool.false_ne_true
  have hunloaded : ∀ r ∈ s.loaded, r.test ≠ s.test := by
    intro r hr heq
    rcases hnum.begun r.test (List.mem_append_left _ (List.mem_map_of_mem hr)) with
      hlt | ⟨-, hfar⟩
    · omega
    · rw [hpc] at hfar
      exact absurd hfar Bool.false_ne_true
  split
  · rename_i hqueued
    -- The message for the view is still waiting, so no view is the test's own.
    have hnone : ∀ w : Nat, s.made[w]? ≠ some s.test := by
      intro w hw
      have hnew : s.test ∈ newViews s.queue := List.mem_filterMap.mpr ⟨_, hqueued, rfl⟩
      exact Nat.lt_irrefl _ ((List.pairwise_append.mp hnum.increasing).2.2 s.test
        (List.mem_of_getElem? hw) s.test hnew)
    refine ⟨fun w hw => ?_, fun t ht w hw => ?_, fun r hr hmem => ?_⟩
    · obtain rfl := WebPc.found.inj hw
      exact ⟨hord.kept.made v hview, fun _ => hnone v⟩
    · rcases List.mem_append.mp ht with ht | ht
      · exact hs.views t ht w hw
      · rw [List.mem_singleton.mp ht] at hw
        exact absurd hw (hnone w)
    · rcases List.mem_append.mp hmem with hmem | hmem
      · exact hs.loads r hr hmem
      · exact absurd (List.mem_singleton.mp hmem) (hunloaded r hr)
  · refine ⟨fun w hw => ?_, hs.views, hs.loads⟩
    obtain rfl := WebPc.found.inj hw
    exact ⟨hord.kept.made v hview, fun hmem => absurd hmem hnot⟩

theorem calls_deaf {s s' : WebScreen} (hord : s.Orderly) (hnum : s.Numbered) (hs : s.Deaf)
    (h : Calls s s') : s'.Deaf := by
  cases h
  case sees tries v hpc hview => exact sees_deaf hord hnum hs hpc hview
  case listens v hpc =>
      obtain ⟨hlt, hother⟩ := hs.found v hpc
      refine ⟨fun w hw => absurd hw (by simp only [reduceCtorEq, not_false_eq_true]),
        fun t ht w hw => ?_, hs.loads⟩
      dsimp only at ht hw ⊢
      split
      · rename_i hwv
        subst hwv
        intro heq
        rw [Option.some.injEq] at heq
        subst heq
        exact hother ht hw
      · exact hs.views t ht w hw
  all_goals
    exact ⟨fun w hw => absurd hw (by simp only [sendMessage, returns, reduceCtorEq,
      not_false_eq_true]), hs.views, hs.loads⟩

theorem handle_deaf {s : WebScreen} {msg : WebMessage} {rest : List WebMessage}
    (hord : s.Orderly) (hs : s.Deaf) (hqueue : s.queue = msg :: rest) :
    ({ s with queue := rest }.handleMessage msg).Deaf := by
  obtain ⟨u, hmsg, -⟩ := handle_accepts hord hqueue
  cases msg with
  | newWebView t =>
      refine ⟨fun v hv => ?_, fun t' ht' v hv => ?_, hs.loads⟩
      · obtain ⟨hlt, hother⟩ := hs.found v hv
        refine ⟨by simp only [handleMessage, List.length_append]; omega, fun hmem => ?_⟩
        simp only [handleMessage]
        rw [made_append hlt]
        exact hother hmem
      · simp only [handleMessage] at hv ⊢
        split
        · exact (Option.some_ne_none _).symm
        · rename_i hne
          have hlt := (List.getElem?_eq_some_iff.mp hv).1
          rw [List.length_append, List.length_singleton] at hlt
          rw [made_append (by omega)] at hv
          exact hs.views t' ht' v hv
  | loadUrl t url =>
      simp only [WebSession.accept] at hmsg
      split at hmsg
      · rename_i hview
        obtain ⟨v, hv, hmade⟩ := session_view hview.1
        simp only [handleMessage, hv]
        refine ⟨hs.found, hs.views, fun r hr hmem => ?_⟩
        rcases List.mem_append.mp hr with hr | hr
        · exact hs.loads r hr hmem
        · rw [List.mem_singleton.mp hr] at hmem ⊢
          exact hs.views t hmem v hmade
      · exact absurd hmsg (by simp only [reduceCtorEq, not_false_eq_true])
  | destroyWebView => exact ⟨hs.found, hs.views, hs.loads⟩
  | playVideo => exact ⟨hs.found, hs.views, hs.loads⟩
  | _ =>
      simp only [handleMessage]
      split
      · exact ⟨hs.found, hs.views, hs.loads⟩
      · exact ⟨hs.found, hs.views, hs.loads⟩

/-- A test that goes on, and posts loads only once its listener is hung. -/
theorem Heard.moves {s : WebScreen} (hs : s.Heard) {more : List WebMessage} {pc : WebPc}
    (hfound : ∀ v, pc ≠ .found v)
    (hmore : ∀ t ∈ newLoads more, t = s.test ∧ s.pc.hasTuned = true)
    (htuned : pc.hasTuned = true → s.pc.hasTuned = true) :
    ({ s with queue := s.queue ++ more, pc := pc } : WebScreen).Heard := by
  refine ⟨fun v hv => absurd hv (hfound v), fun t ht => hs.tuned t ?_, hs.loads⟩
  rcases ht with ht | ht
  · rw [newLoads_append] at ht
    exact (List.mem_append.mp ht).imp id (hmore t)
  · exact .inr ⟨ht.1, htuned ht.2⟩

theorem Heard.returns {s : WebScreen} (hs : s.Heard) : s.returns.Heard :=
  ⟨fun v hv => absurd hv (by simp only [WebScreen.returns, reduceCtorEq, not_false_eq_true]),
    fun t ht => hs.tuned t (.inl (ht.elim id (fun ht => absurd ht.2 Bool.false_ne_true))),
    hs.loads⟩

/-- The message for the view has been taken, so the view seen is the test's
    own. -/
theorem sees_own {s : WebScreen} {tries v : Nat} (hord : s.Orderly) (hpc : s.pc = .polling tries)
    (hview : s.mWebView = some v) (hqueue : .newWebView s.test ∉ s.queue) :
    s.made[v]? = some s.test := by
  obtain ⟨u, hrun, hcounts⟩ := hord.inOrder
  unfold CountsOn at hcounts
  rw [hpc] at hcounts
  obtain ⟨w, hw, hmade⟩ := session_view (view_of_exec hrun hcounts.1 hqueue)
  rw [hview, Option.some.injEq] at hw
  rw [hw]
  exact hmade

theorem listens_heard {s : WebScreen} {v : Nat} (hs : s.Heard) (hpc : s.pc = .found v) :
    ({ s with
      listeners := fun w => if w = v then some s.test else s.listeners w
      pc := .beginning } : WebScreen).Heard := by
  have hown := hs.found v hpc
  refine ⟨fun w hw => absurd hw (by simp only [reduceCtorEq, not_false_eq_true]),
    fun t ht => ?_, hs.loads⟩
  by_cases htest : t = s.test
  · exact ⟨v, htest ▸ hown, by rw [htest]; exact if_pos rfl⟩
  · obtain ⟨w, hw, hlistener⟩ := hs.tuned t (.inl (ht.elim id (fun ht => absurd ht.1 htest)))
    refine ⟨w, hw, ?_⟩
    dsimp only
    rw [if_neg, hlistener]
    rintro rfl
    exact htest (Option.some.inj (hw.symm.trans hown))

theorem calls_heard {s s' : WebScreen} (hord : s.Orderly) (hs : s.early = [] → s.Heard)
    (h : Calls s s') (hearly : s'.early = []) : s'.Heard := by
  cases h
  case opens =>
      exact (hs hearly).moves (by simp) (fun t ht => absurd ht List.not_mem_nil)
        (fun hfar => absurd hfar Bool.false_ne_true)
  case sees tries v hpc hview =>
      dsimp only at hearly
      split at hearly
      · exact absurd hearly (List.append_ne_nil_of_right_ne_nil _ (List.cons_ne_nil _ _))
      rename_i hqueue
      have hown := sees_own hord hpc hview hqueue
      refine ⟨fun w hw => ?_, fun t ht => (hs hearly).tuned t (.inl ?_), (hs hearly).loads⟩
      · rw [← WebPc.found.inj hw]
        exact hown
      · exact ht.elim id (fun ht => absurd ht.2 Bool.false_ne_true)
  case polls =>
      exact ⟨fun v hv => absurd hv (by simp only [reduceCtorEq, not_false_eq_true]),
        fun t ht => (hs hearly).tuned t
          (.inl (ht.elim id (fun ht => absurd ht.2 Bool.false_ne_true))), (hs hearly).loads⟩
  case givesUp => exact (hs hearly).returns
  case listens v hpc => exact listens_heard (hs hearly) hpc
  case begins hpc =>
      exact (hs hearly).moves (by simp) (fun t ht => absurd ht List.not_mem_nil)
        (fun _ => by rw [hpc]; rfl)
  case loads n url hpc =>
      refine (hs hearly).moves (by simp) (fun t ht => ⟨List.mem_singleton.mp ht, ?_⟩) ?_
      · rw [hpc]
        rfl
      · rw [hpc]
        exact fun _ => rfl
  case finishes n hpc =>
      exact ⟨fun v hv => absurd hv (by simp only [reduceCtorEq, not_false_eq_true]),
        fun t ht => (hs hearly).tuned t (ht.imp id (fun ht => ⟨ht.1, by rw [hpc]; rfl⟩)),
        (hs hearly).loads⟩
  case stops n hpc =>
      exact (hs hearly).moves (by simp) (fun t ht => absurd ht List.not_mem_nil)
        (fun _ => by rw [hpc]; rfl)
  case breaks n hpc =>
      have hfar : s.pc.hasTuned = true := by
        rcases hpc with hpc | hpc
        · rw [hpc]
          rfl
        · rw [hpc]
          rfl
      exact ⟨fun v hv => absurd hv (by simp only [reduceCtorEq, not_false_eq_true]),
        fun t ht => (hs hearly).tuned t (ht.imp id (fun ht => ⟨ht.1, hfar⟩)), (hs hearly).loads⟩
  case goesOn n hpc =>
      exact ⟨fun v hv => absurd hv (by simp only [reduceCtorEq, not_false_eq_true]),
        fun t ht => (hs hearly).tuned t (ht.imp id (fun ht => ⟨ht.1, by rw [hpc]; rfl⟩)),
        (hs hearly).loads⟩
  case ends hpc =>
      refine Heard.returns (s := s.sendMessage .endTest s.pc) ?_
      refine (hs hearly).moves (by rw [hpc]; simp) (fun t ht => absurd ht List.not_mem_nil) id

theorem handle_heard {s : WebScreen} {msg : WebMessage} {rest : List WebMessage}
    (hord : s.Orderly) (hnum : s.Numbered) (hs : s.Heard) (hqueue : s.queue = msg :: rest) :
    ({ s with queue := rest }.handleMessage msg).Heard := by
  obtain ⟨u, hmsg, -⟩ := handle_accepts hord hqueue
  have hloads : ∀ t ∈ newLoads rest, t ∈ newLoads s.queue := by
    intro t ht
    rw [hqueue]
    exact (List.sublist_cons_self msg rest).filterMap _ |>.mem ht
  have htuned : ∀ t, t ∈ newLoads rest ∨ t = s.test ∧ s.pc.hasTuned = true →
      ∃ v, s.made[v]? = some t ∧ s.listeners v = some t :=
    fun t ht => hs.tuned t (ht.imp (hloads t) id)
  cases msg with
  | newWebView t =>
      refine ⟨fun v hv => ?_, fun t' ht' => ?_, hs.loads⟩
      · have hown := hs.found v hv
        simp only [handleMessage]
        rw [made_append (List.getElem?_eq_some_iff.mp hown).1]
        exact hown
      · obtain ⟨v, hv, hlistener⟩ := htuned t' ht'
        have hlt := (List.getElem?_eq_some_iff.mp hv).1
        refine ⟨v, ?_, ?_⟩
        · simp only [handleMessage]
          rw [made_append hlt]
          exact hv
        · simp only [handleMessage]
          rw [if_neg (by omega)]
          exact hlistener
  | loadUrl t url =>
      simp only [WebSession.accept] at hmsg
      split at hmsg
      · rename_i hview
        obtain ⟨v, hv, hmade⟩ := session_view hview.1
        simp only [handleMessage, hv]
        refine ⟨hs.found, htuned, fun r hr => ?_⟩
        rcases List.mem_append.mp hr with hr | hr
        · exact hs.loads r hr
        -- The current view is the one the test's listener hangs on.
        · obtain ⟨w, hw, hlistener⟩ := hs.tuned t (.inl (by rw [hqueue]; exact List.mem_cons_self))
          rw [List.mem_singleton.mp hr, hnum.view_inj hmade hw]
          exact hlistener
      · exact absurd hmsg (by simp only [reduceCtorEq, not_false_eq_true])
  | destroyWebView => exact ⟨hs.found, htuned, hs.loads⟩
  | playVideo => exact ⟨hs.found, htuned, hs.loads⟩
  | _ =>
      simp only [handleMessage]
      split
      · exact ⟨hs.found, htuned, hs.loads⟩
      · exact ⟨hs.found, htuned, hs.loads⟩

/-- The four invariants together. -/
structure Tuned (s : WebScreen) : Prop where
  orderly : s.Orderly
  numbered : s.Numbered
  deaf : s.Deaf
  heard : s.early = [] → s.Heard

theorem step_tuned {s s' : WebScreen} {l : Label} (hs : s.Tuned) (h : s.step l = some s') :
    s'.Tuned := by
  refine ⟨step_orderly hs.orderly h, step_numbered hs.numbered h, ?_, fun hearly => ?_⟩
  · rcases step_cases h with hcall | rfl | rfl | ⟨msg, rest, hqueue, rfl⟩
    · exact calls_deaf hs.orderly hs.numbered hs.deaf hcall
    · exact hs.deaf
    · exact ⟨hs.deaf.found, hs.deaf.views, hs.deaf.loads⟩
    · exact handle_deaf hs.orderly hs.deaf hqueue
  · rcases step_cases h with hcall | rfl | rfl | ⟨msg, rest, hqueue, rfl⟩
    · exact calls_heard hs.orderly hs.heard hcall hearly
    · exact hs.heard hearly
    · refine ⟨(hs.heard hearly).found, fun t ht => (hs.heard hearly).tuned t ?_,
        (hs.heard hearly).loads⟩
      rw [sendMessage, newLoads_append] at ht
      exact ht.imp (fun ht => (List.mem_append.mp ht).elim id (fun ht => absurd ht
        List.not_mem_nil)) id
    · rw [(handleMessage_frame { s with queue := rest } msg).2.2.2] at hearly
      exact handle_heard hs.orderly hs.numbered (hs.heard hearly) hqueue

theorem fresh_tuned (tests : List WebTest) : (fresh tests).Tuned := by
  refine ⟨fresh_orderly tests, ⟨List.Pairwise.nil, ?_, ?_, ?_⟩, ⟨fun v hv => ?_, ?_, ?_⟩,
    fun _ => ⟨fun v hv => ?_, fun t ht => ?_, ?_⟩⟩
  case refine_4 => exact absurd hv (by simp only [fresh, reduceCtorEq, not_false_eq_true])
  case refine_7 => exact absurd hv (by simp only [fresh, reduceCtorEq, not_false_eq_true])
  case refine_8 =>
      rcases ht with ht | ⟨-, hfar⟩
      · exact absurd ht List.not_mem_nil
      · exact absurd hfar Bool.false_ne_true
  all_goals exact fun _ ht => absurd ht List.not_mem_nil

/-- In every run, a test whose poll found a view before its own message for one
    was taken hears of none of its loads: each meets a view without the test's
    listener. If no test polled too early, every load meets the listener of
    its test. -/
theorem listener_of_load (tests : List WebTest) (labels : List Label) (s : WebScreen)
    (h : exec step (fresh tests) labels = some s) :
    (∀ r ∈ s.loaded, r.test ∈ s.early → r.listener ≠ some r.test) ∧
      (s.early = [] → ∀ r ∈ s.loaded, r.listener = some r.test) := by
  have hs : s.Tuned :=
    exec_keeps step (fun _ _ => True) Tuned (fun _ _ _ hs _ hstep => step_tuned hs hstep) labels
      (fresh tests) s (fresh_tuned tests) (along_true step (fresh tests) labels) h
  exact ⟨hs.deaf.loads, fun hearly => (hs.heard hearly).loads⟩

/-- The load of the second test is not heard by it. -/
theorem listener_of_load_delayed : ∃ s ∈ exec step (fresh twoTests) delayed,
    ∃ r ∈ s.loaded, r.test = 1 ∧ r.listener ≠ some 1 := by
  obtain ⟨s, hs, hloaded, hearly, -, -⟩ := delayed_runs
  have hmem : (1, 1) ∈ s.loaded.map (fun r => (r.view, r.test)) := by
    rw [hloaded]
    exact List.mem_cons_of_mem _ List.mem_cons_self
  obtain ⟨r, hr, heq⟩ := List.mem_map.mp hmem
  have htest : r.test = 1 := congrArg Prod.snd heq
  refine ⟨s, hs, r, hr, htest, ?_⟩
  have hunheard := (listener_of_load twoTests delayed s hs).1 r hr
    (by rw [htest, hearly]; exact List.mem_singleton_self 1)
  rw [htest] at hunheard
  exact hunheard

end WebScreen

end NetProbe
