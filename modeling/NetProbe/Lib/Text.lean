import NetProbe.Lib.Outcome
import Mathlib.Data.List.Infix

/-!
# Searching a Text

`indexOf`, `contains` and `substring`, as a `String` of Java has them, on a list
over any alphabet. A search that finds nothing returns minus one and goes on as
a position from there, and a substring between positions that are not in order
or not in the text throws.

Whether a word is found is a question about infixes, and `indexOf?_append` says
where it is found first: at a place in front of which it does not begin. A word
that lies over a seam of two texts is split by it, which `not_infix_append` and what
follows it rule out from the letters on either side.

## Main definitions

* `indexOf?`, `indexOf`: The first occurrence of a word.
* `contains`, `substring`: The other two operations.

## Theorems

* `contains_iff`: A word is contained exactly if it is an infix.
* `indexOf?_some`, `indexOf?_append`: A word is found where it is first.
* `indexOf?_singleton`: The first occurrence of one letter splits the text.
* `indexOf_pos_iff`: A word that is contained, but not at the start.
* `substring_drop`, `substring_indexOf`: The letters between two positions.
* `not_infix_append`, `not_infix_of_head`, `not_infix_in_front`: Words that do not lie
  over a seam.
-/

namespace NetProbe

namespace Text

variable {α : Type}

section Search

variable [DecidableEq α]

/-- The position of the first occurrence of a word. -/
def indexOf? (sub : List α) : List α → Option Nat
  | [] => if sub = [] then some 0 else none
  | c :: cs => if sub <+: c :: cs then some 0 else (indexOf? sub cs).map (· + 1)

/-- `s.indexOf(sub, start)`. -/
def indexOf (s sub : List α) (start : Nat) : Int :=
  match indexOf? sub (s.drop start) with
  | some i => start + i
  | none => -1

/-- `s.contains(sub)`. -/
def contains (s sub : List α) : Bool := (indexOf? sub s).isSome

theorem contains_iff (s sub : List α) : contains s sub = true ↔ sub <:+: s := by
  rw [contains]
  induction s with
  | nil =>
      rw [indexOf?, List.infix_nil]
      by_cases h : sub = []
      · rw [if_pos h]
        exact iff_of_true rfl h
      · rw [if_neg h]
        exact iff_of_false Bool.noConfusion h
  | cons c cs ih =>
      rw [indexOf?, List.infix_cons_iff, ← ih]
      by_cases h : sub <+: c :: cs
      · rw [if_pos h]
        exact iff_of_true rfl (Or.inl h)
      · rw [if_neg h, Option.isSome_map]
        exact (or_iff_right h).symm

theorem indexOf?_eq_none (s sub : List α) (h : ¬sub <:+: s) : indexOf? sub s = none := by
  rw [← contains_iff, contains, Bool.not_eq_true, Option.isSome_eq_false_iff,
    Option.isNone_iff_eq_none] at h
  exact h

/-- What the search finds is the first occurrence. -/
theorem indexOf?_some {sub s : List α} {i : Nat} (hsub : sub ≠ []) (h : indexOf? sub s = some i) :
    s = s.take i ++ (sub ++ s.drop (i + sub.length)) ∧ ¬sub <:+: s.take i ++ sub.dropLast := by
  induction s generalizing i with
  | nil =>
      rw [indexOf?, if_neg hsub] at h
      exact absurd h (by simp only [reduceCtorEq, not_false_eq_true])
  | cons c cs ih =>
      rw [indexOf?] at h
      by_cases hhead : sub <+: c :: cs
      · rw [if_pos hhead, Option.some.injEq] at h
        subst h
        obtain ⟨rest, hrest⟩ := hhead
        rw [← hrest, List.take_zero, Nat.zero_add, List.drop_left]
        refine ⟨rfl, fun hin => ?_⟩
        have hlen := hin.length_le
        have hpos := List.length_pos_iff.mpr hsub
        rw [List.nil_append, List.length_dropLast] at hlen
        omega
      · rw [if_neg hhead, Option.map_eq_some_iff] at h
        obtain ⟨j, hj, rfl⟩ := h
        obtain ⟨hsplit, hnot⟩ := ih hj
        rw [List.take_succ_cons, show j + 1 + sub.length = j + sub.length + 1 by omega,
          List.drop_succ_cons, List.cons_append, ← hsplit]
        refine ⟨rfl, fun hin => ?_⟩
        rw [List.cons_append, List.infix_cons_iff] at hin
        refine hin.elim (fun hpre => hhead (hpre.trans ?_)) hnot
        refine List.cons_prefix_cons.mpr ⟨rfl, ?_⟩
        conv_rhs => rw [hsplit]
        exact (List.prefix_append_right_inj _).mpr
          ((List.dropLast_prefix sub).trans (List.prefix_append sub _))

/-- A word is found first at a place in front of which it does not begin. -/
theorem indexOf?_append {sub x : List α} (y : List α) (hsub : sub ≠ [])
    (h : ¬sub <:+: x ++ sub.dropLast) : indexOf? sub (x ++ (sub ++ y)) = some x.length := by
  -- Induction on what stands in front; its first letter is passed over.
  induction x with
  | nil =>
      obtain ⟨c, cs, rfl⟩ := List.exists_cons_of_ne_nil hsub
      rw [List.nil_append, List.cons_append, indexOf?,
        if_pos (List.cons_prefix_cons.mpr ⟨rfl, List.prefix_append cs y⟩), List.length_nil]
  | cons c x ih =>
      have hnot : ¬sub <+: c :: (x ++ (sub ++ y)) := by
        intro hpre
        have hlen : sub.length ≤ (c :: x ++ sub.dropLast).length := by
          have hpos := List.length_pos_iff.mpr hsub
          rw [List.length_append, List.length_dropLast, List.length_cons]
          omega
        have hcut : c :: x ++ sub.dropLast <+: c :: (x ++ (sub ++ y)) := by
          refine List.cons_prefix_cons.mpr ⟨rfl, (List.prefix_append_right_inj x).mpr ?_⟩
          exact (List.dropLast_prefix sub).trans (List.prefix_append sub y)
        exact h (List.prefix_of_prefix_length_le hpre hcut hlen).isInfix
      have hrest : ¬sub <:+: x ++ sub.dropLast := fun hin => h (List.infix_cons hin)
      rw [List.cons_append, indexOf?, if_neg hnot, ih hrest, Option.map_some, List.length_cons]

/-- One letter is found at its first occurrence. -/
theorem indexOf?_letter {a : α} {x : List α} (y : List α) (h : a ∉ x) :
    indexOf? [a] (x ++ a :: y) = some x.length := by
  refine indexOf?_append y (List.cons_ne_nil a []) ?_
  rw [List.dropLast_singleton, List.append_nil]
  exact fun hin => h (hin.subset List.mem_cons_self)

/-- Where a letter is found it splits the text, and it is not in the first part. -/
theorem indexOf?_singleton {a : α} {s : List α} {i : Nat} (h : indexOf? [a] s = some i) :
    s = s.take i ++ a :: s.drop (i + 1) ∧ a ∉ s.take i := by
  obtain ⟨hsplit, hnot⟩ := indexOf?_some (List.cons_ne_nil a []) h
  rw [List.dropLast_singleton, List.append_nil] at hnot
  refine ⟨hsplit, fun hmem => hnot ?_⟩
  obtain ⟨l₁, l₂, heq⟩ := List.append_of_mem hmem
  exact ⟨l₁, l₂, by rw [heq, List.append_assoc, List.singleton_append]⟩

theorem getElem?_of_indexOf? {a : α} {s : List α} {i : Nat} (h : indexOf? [a] s = some i) :
    s[i]? = some a := by
  have hdrop : s.drop i = a :: s.drop (i + 1) :=
    List.append_cancel_left ((List.take_append_drop i s).trans (indexOf?_singleton h).1)
  rw [← List.head?_drop, hdrop, List.head?_cons]

end Search

/-- `s.substring(first, last)`. -/
def substring (s : List α) (first last : Int) : Except JavaException (List α) :=
  if 0 ≤ first ∧ first ≤ last ∧ last ≤ s.length then
    .ok ((s.drop first.toNat).take (last - first).toNat)
  else .error .indexOutOfBounds

theorem substring_drop (s : List α) (first n : Nat) (h : first + n ≤ s.length) :
    substring s first ((first : Int) + n) = .ok ((s.drop first).take n) := by
  rw [substring, if_pos (by omega), Int.toNat_natCast]
  congr 2
  omega

section Position

variable [DecidableEq α] {s sub : List α}

/-- The search succeeds past the start of a text that contains the word and does not
    begin with it. -/
theorem indexOf_pos_iff (hsub : sub ≠ []) :
    0 < indexOf s sub 0 ↔ sub <:+: s ∧ ¬sub <+: s := by
  rw [indexOf, List.drop_zero, ← contains_iff, contains]
  rcases hindex : indexOf? sub s with _ | i
  · simp only [Option.isSome_none, Bool.false_eq_true, false_and, iff_false]
    omega
  · simp only [Option.isSome_some, true_and]
    constructor
    · rintro hpos ⟨rest, rfl⟩
      obtain ⟨c, cs, rfl⟩ := List.exists_cons_of_ne_nil hsub
      rw [List.cons_append, indexOf?,
        if_pos (List.cons_prefix_cons.mpr ⟨rfl, List.prefix_append cs rest⟩)] at hindex
      cases hindex
      exact absurd hpos (by decide)
    · intro hnot
      rcases i with _ | i
      · refine absurd ?_ hnot
        rw [(indexOf?_some hsub hindex).1, List.take_zero, List.nil_append]
        exact List.prefix_append _ _
      · omega

/-- From where a word is found there is a rest of the text. -/
theorem substring_indexOf (hsub : sub ≠ []) (h : 0 < indexOf s sub 0) :
    ∃ t, substring s (indexOf s sub 0) s.length = .ok t := by
  rw [indexOf, List.drop_zero] at h ⊢
  rcases hindex : indexOf? sub s with _ | i
  · rw [hindex] at h
    exact absurd h (by decide)
  · have hpos := List.length_pos_iff.mpr hsub
    have hsplit := congrArg List.length (indexOf?_some hsub hindex).1
    rw [List.length_append, List.length_append, List.length_take] at hsplit
    dsimp only
    rw [substring, if_pos (by omega)]
    exact ⟨_, rfl⟩

end Position

/-- A word that is in neither of two texts is not in the two together, unless the
    seam splits it. -/
theorem not_infix_append {k x y : List α} (hx : ¬k <:+: x) (hy : ¬k <:+: y)
    (hseam : ∀ i, 0 < i → i < k.length → k.take i <:+ x → ¬k.drop i <+: y) :
    ¬k <:+: x ++ y := by
  intro h
  rcases List.infix_append_iff_ne_nil.mp h with hin | hin | ⟨l₁, l₂, hne₁, hne₂, rfl, h₁, h₂⟩
  · exact hx hin
  · exact hy hin
  · have hpos₁ := List.length_pos_iff.mpr hne₁
    have hpos₂ := List.length_pos_iff.mpr hne₂
    refine hseam l₁.length hpos₁ (by rw [List.length_append]; omega) ?_ ?_
    · rwa [List.take_left]
    · rwa [List.drop_left]

/-- A text without the first letter of a word has no part in an occurrence. -/
theorem not_infix_of_head {k x y : List α} (hk : k ≠ []) (hx : ∀ a ∈ k.take 1, a ∉ x)
    (hy : ¬k <:+: y) : ¬k <:+: x ++ y := by
  obtain ⟨a, k, rfl⟩ := List.exists_cons_of_ne_nil hk
  have ha : a ∉ x := hx a List.mem_cons_self
  refine not_infix_append (fun hin => ha (hin.subset List.mem_cons_self)) hy
    (fun i hi _ hsuffix => absurd (hsuffix.subset ?_) ha)
  obtain ⟨j, rfl⟩ := Nat.exists_eq_succ_of_ne_zero (Nat.pos_iff_ne_zero.mp hi)
  rw [List.take_succ_cons]
  exact List.mem_cons_self

/-- No end of a word goes on in the text that starts with `y`, as far as `y` goes. -/
theorem not_infix_in_front {k x y z : List α} (hx : ¬k <:+: x) (hyz : ¬k <:+: y ++ z)
    (hseam : ∀ i < k.length, 0 < i → ¬(k.drop i).take y.length <+: y) : ¬k <:+: x ++ (y ++ z) := by
  refine not_infix_append hx hyz (fun i hi hlen _ hpre => hseam i hlen hi ?_)
  have htake := hpre.take y.length
  rwa [List.take_left] at htake

end Text

end NetProbe
