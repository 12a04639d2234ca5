import Mathlib.Data.List.Basic

/-!
# Calls That Throw

A call on a mutable object either returns or throws, and in both cases it
leaves a state behind. `Except` forgets the second half: an exception in the
middle of a loop keeps every update made before it, and what the object looks
like afterwards is often the whole question.

`Outcome` keeps the state on both branches. `feed` runs one such call per
element of a list, which is the shape of a loop over a buffer, of a sequence
of calls on one object, and of a consumer draining a queue. It stops at the
first throw, and `feed_append` splits it at any point, so a loop can be cut
where an argument needs it to be.

`feed_keeps` is the invariant rule: what every single call preserves, thrown
or not, the whole loop preserves. `feed_isReturned_iff` is the rule for calls
whose element alone decides how they end: a loop of such calls returns when
every one of them does.

## Main definitions

* `JavaException`: The unchecked exceptions the modelled code can raise.
* `Outcome`: A call's result together with the state it leaves behind.
* `feed`: One call per list element, stopping at the first throw.

## Theorems

* `feed_append`: A loop over a concatenation is one loop after the other.
* `feed_keeps`: An invariant of every call is an invariant of the loop.
* `feed_isReturned_iff`: A loop returns exactly if every call does.
* `bind_ok_iff`, `mapM_ok_iff`: A sequence of steps succeeds exactly if every
  step does.
-/

namespace NetProbe

/-- The unchecked exceptions raised by array, buffer, parsing, cast and executor
    operations. -/
inductive JavaException where
  | arrayIndexOutOfBounds
  | negativeArraySize
  | indexOutOfBounds
  | arithmetic
  | numberFormat
  | rejectedExecution
  | nullPointer
  | classCast
  deriving DecidableEq, Repr

/-- What a call leaves behind: the state after a normal return, or the
    exception together with the state at the throw. -/
inductive Outcome (σ : Type) where
  | returned (s : σ)
  | threw (e : JavaException) (s : σ)
  deriving DecidableEq, Repr

namespace Outcome

variable {σ τ α : Type}

/-- The state left behind, whichever way the call ended. -/
def state : Outcome σ → σ
  | returned s => s
  | threw _ s => s

/-- Whether the call ended by a normal return. -/
def isReturned : Outcome σ → Bool
  | returned _ => true
  | threw _ _ => false

/-- Rename the state, keeping how the call ended. -/
def map (f : σ → τ) : Outcome σ → Outcome τ
  | returned s => returned (f s)
  | threw e s => threw e (f s)

/-- Sequencing: the second call starts where the first returned, and does not
    happen at all after a throw. -/
def bind (o : Outcome σ) (f : σ → Outcome σ) : Outcome σ :=
  match o with
  | returned s => f s
  | threw e s => threw e s

@[simp] theorem state_returned (s : σ) : (returned s).state = s := rfl

@[simp] theorem state_threw (e : JavaException) (s : σ) : (threw e s).state = s := rfl

@[simp] theorem isReturned_returned (s : σ) : (returned s).isReturned = true := rfl

@[simp] theorem isReturned_threw (e : JavaException) (s : σ) :
    (threw e s).isReturned = false := rfl

@[simp] theorem map_returned (f : σ → τ) (s : σ) : (returned s).map f = returned (f s) := rfl

@[simp] theorem map_threw (f : σ → τ) (e : JavaException) (s : σ) :
    (threw e s).map f = threw e (f s) := rfl

@[simp] theorem bind_returned (s : σ) (f : σ → Outcome σ) : (returned s).bind f = f s := rfl

@[simp] theorem bind_threw (e : JavaException) (s : σ) (f : σ → Outcome σ) :
    (threw e s).bind f = threw e s := rfl

@[simp] theorem state_map (f : σ → τ) (o : Outcome σ) : (o.map f).state = f o.state := by
  cases o <;> rfl

@[simp] theorem isReturned_map (f : σ → τ) (o : Outcome σ) :
    (o.map f).isReturned = o.isReturned := by
  cases o <;> rfl

/-- A call that returned is exactly the return of the state it left. -/
theorem eq_returned (o : Outcome σ) (h : o.isReturned = true) : o = returned o.state := by
  cases o with
  | returned s => rfl
  | threw e s => exact absurd h (by simp only [isReturned_threw, Bool.false_eq_true,
      not_false_eq_true])

theorem isReturned_iff (o : Outcome σ) : o.isReturned = true ↔ ∃ s, o = returned s :=
  ⟨fun h => ⟨o.state, eq_returned o h⟩, fun ⟨s, hs⟩ => by rw [hs, isReturned_returned]⟩

/-- Two calls return exactly if the first returns and the second does from
    there. -/
theorem bind_eq_returned (o : Outcome σ) (f : σ → Outcome σ) (s' : σ) :
    o.bind f = returned s' ↔ ∃ s, o = returned s ∧ f s = returned s' := by
  cases o with
  | returned s => simp only [bind_returned, returned.injEq, exists_eq_left']
  | threw e s => simp only [bind_threw, reduceCtorEq, false_and, exists_false]

theorem map_eq_returned (f : σ → τ) (o : Outcome σ) (s' : τ) :
    o.map f = returned s' ↔ ∃ s, o = returned s ∧ f s = s' := by
  cases o with
  | returned s => simp only [map_returned, returned.injEq, exists_eq_left']
  | threw e s => simp only [map_threw, reduceCtorEq, false_and, exists_false]

/-- One call per list element, each starting where the last one returned. -/
def feed (f : σ → α → Outcome σ) : σ → List α → Outcome σ
  | s, [] => returned s
  | s, a :: as => (f s a).bind (fun s' => feed f s' as)

@[simp] theorem feed_nil (f : σ → α → Outcome σ) (s : σ) : feed f s [] = returned s := rfl

theorem feed_cons (f : σ → α → Outcome σ) (s : σ) (a : α) (as : List α) :
    feed f s (a :: as) = (f s a).bind (fun s' => feed f s' as) := rfl

theorem feed_append (f : σ → α → Outcome σ) (s : σ) (as bs : List α) :
    feed f s (as ++ bs) = (feed f s as).bind (fun s' => feed f s' bs) := by
  induction as generalizing s with
  | nil => rfl
  | cons a as ih =>
      rw [List.cons_append, feed_cons, feed_cons]
      cases hstep : f s a with
      | returned s' => exact ih s'
      | threw e s' => rfl

/-- An invariant of every call is an invariant of the loop, the state left by
    a throw included. -/
theorem feed_keeps (f : σ → α → Outcome σ) (P : σ → Prop)
    (hstep : ∀ s a, P s → P (f s a).state) :
    ∀ (as : List α) (s : σ), P s → P (feed f s as).state := by
  intro as
  induction as with
  | nil => intro s hs; exact hs
  | cons a as ih =>
      intro s hs
      have hnext := hstep s a hs
      rw [feed_cons]
      cases hcall : f s a with
      | returned s' => rw [hcall] at hnext; exact ih s' hnext
      | threw e s' => rw [hcall] at hnext; exact hnext

/-- Where it depends on the element alone whether a call returns, the loop
    returns exactly if every call does. -/
theorem feed_isReturned_iff (f : σ → α → Outcome σ) (P : α → Prop)
    (hcall : ∀ s a, (f s a).isReturned = true ↔ P a) :
    ∀ (as : List α) (s : σ), (feed f s as).isReturned = true ↔ ∀ a ∈ as, P a := by
  intro as
  induction as with
  | nil => intro s; simp
  | cons a as ih =>
      intro s
      rw [feed_cons, List.forall_mem_cons, ← hcall s a]
      cases f s a with
      | returned s' => simp [ih s']
      | threw e s' => simp

end Outcome

section Steps

variable {ε α β : Type}

/-- The second of two steps is asked only if the first succeeds. -/
theorem bind_ok_iff (x : Except ε α) (f : α → Except ε β) (P : Prop)
    (h : ∀ a, (∃ b, f a = .ok b) ↔ P) :
    (∃ b, (x >>= f) = .ok b) ↔ (∃ a, x = .ok a) ∧ P := by
  rcases x with e | a
  · simp [Bind.bind, Except.bind]
  · rw [← h a]
    simp [Bind.bind, Except.bind]

theorem map_ok_iff (x : Except ε α) (f : α → β) :
    (∃ b, x.map f = .ok b) ↔ ∃ a, x = .ok a := by
  rcases x with e | a
  · simp [Except.map]
  · simp [Except.map]

theorem pure_ok (a : α) : (∃ b, (pure a : Except ε α) = .ok b) ↔ True :=
  ⟨fun _ => trivial, fun _ => ⟨a, rfl⟩⟩

theorem mapM_ok_iff (f : α → Except ε β) (P : α → Prop) (h : ∀ a, (∃ b, f a = .ok b) ↔ P a)
    (as : List α) : (∃ bs, as.mapM f = .ok bs) ↔ ∀ a ∈ as, P a := by
  induction as with
  | nil => simp [pure, Except.pure]
  | cons a as ih =>
      rw [List.mapM_cons, List.forall_mem_cons, ← h a, ← ih]
      refine bind_ok_iff _ _ _ (fun b => ?_)
      rw [bind_ok_iff _ _ True (fun bs => pure_ok (b :: bs)), and_true]

end Steps

end NetProbe
