import NetProbe.Lib.Outcome
import Mathlib.Data.Nat.Digits.Defs

/-!
# Decimal Integers in Text

`Integer.parseInt`: an optional sign and at least one decimal digit, with a
value that fits an `int`. A digit is any character of the basic plane that
Unicode classes as a decimal digit, not only an ASCII one; a character outside
that plane is read as two halves, neither of which is a digit.

`parseInt` reads the digits from the left, as the loop of the original does.
`IsInt` says which texts are numbers in terms of their positional value, and
`parseInt_ok_iff` that the two agree.

## Main definitions

* `digit`: The value of a decimal digit.
* `magnitude`: The loop over the digits.
* `parseInt`: The number a text stands for, or the exception.
* `IsInt`: A text that stands for an `int`.
* `decimal`: The text of a number.

## Theorems

* `magnitude_eq`: The loop computes the positional value.
* `parseInt_ok_iff`: Exactly the decimal texts within range are parsed.
* `parseInt_decimal`, `parseInt_decimal_append`: A printed number is read back, and is
  not if anything but a digit stands behind it.
-/

namespace NetProbe

namespace Decimal

/-- The zero of each run of decimal digits in the basic plane. -/
def zeros : List Nat :=
  [0x30, 0x660, 0x6F0, 0x7C0, 0x966, 0x9E6, 0xA66, 0xAE6, 0xB66, 0xBE6, 0xC66, 0xCE6, 0xD66,
    0xDE6, 0xE50, 0xED0, 0xF20, 0x1040, 0x1090, 0x17E0, 0x1810, 0x1946, 0x19D0, 0x1A80, 0x1A90,
    0x1B50, 0x1BB0, 0x1C40, 0x1C50, 0xA620, 0xA8D0, 0xA900, 0xA9D0, 0xA9F0, 0xAA50, 0xABF0,
    0xFF10]

/-- `Character.digit(c, 10)`, with `none` for -1. -/
def digit (c : Char) : Option Nat :=
  (zeros.find? (fun z => z ≤ c.toNat && c.toNat < z + 10)).map (fun z => c.toNat - z)

/-- The digits read from the left onto what was read before them, or `none` at
    the first character that is not a digit. -/
def magnitude (acc : Nat) : List Char → Option Nat
  | [] => some acc
  | c :: cs => (digit c).bind (fun d => magnitude (10 * acc + d) cs)

/-- The sign of a text and what follows it. -/
def sign : List Char → Bool × List Char
  | '-' :: ds => (true, ds)
  | '+' :: ds => (false, ds)
  | ds => (false, ds)

/-- The largest magnitude an `int` of the given sign can have. -/
def limit (negative : Bool) : Nat := if negative then 2 ^ 31 else 2 ^ 31 - 1

/-- `Integer.parseInt(s)`. -/
def parseInt (s : List Char) : Except JavaException Int :=
  match (sign s).2, magnitude 0 (sign s).2 with
  | _ :: _, some n =>
      if n ≤ limit (sign s).1 then .ok (if (sign s).1 then -(n : Int) else n)
      else .error .numberFormat
  | _, _ => .error .numberFormat

/-- After its sign the text has at least one character, all of them digits,
    and the number they spell fits. -/
def IsInt (s : List Char) : Prop :=
  (sign s).2 ≠ [] ∧
    ∃ ds, (sign s).2.mapM digit = some ds ∧ Nat.ofDigits 10 ds.reverse ≤ limit (sign s).1

theorem magnitude_eq (acc : Nat) (cs : List Char) :
    magnitude acc cs = (cs.mapM digit).map
      (fun ds => acc * 10 ^ ds.length + Nat.ofDigits 10 ds.reverse) := by
  induction cs generalizing acc with
  | nil => simp [magnitude]
  | cons c cs ih =>
      unfold magnitude
      rw [List.mapM_cons]
      rcases digit c with _ | d
      · rfl
      rcases hds : cs.mapM digit with _ | ds
      · simp [ih, hds]
      -- The first digit weighs as much as there are digits after it.
      simp only [ih, hds, Option.bind_some, Option.map_some, Option.bind_eq_bind, Option.pure_def,
        List.length_cons, List.reverse_cons, Nat.ofDigits_append, Nat.ofDigits_singleton,
        List.length_reverse, Option.some.injEq]
      ring

theorem parseInt_ok_iff (s : List Char) : (∃ n, parseInt s = .ok n) ↔ IsInt s := by
  unfold parseInt IsInt
  rcases hcs : (sign s).2 with _ | ⟨c, cs⟩
  · simp
  rw [magnitude_eq]
  rcases hds : (c :: cs).mapM digit with _ | ds
  · simp
  by_cases hlim : Nat.ofDigits 10 ds.reverse ≤ limit (sign s).1
  · simp [hlim]
  · simp [hlim]

instance (s : List Char) : Decidable (IsInt s) :=
  match h : parseInt s with
  | .ok n => isTrue ((parseInt_ok_iff s).mp ⟨n, h⟩)
  | .error _ => isFalse (fun hs => by
      rcases (parseInt_ok_iff s).mpr hs with ⟨n, hn⟩
      rw [h] at hn
      exact absurd hn (by simp only [reduceCtorEq, not_false_eq_true]))

/-- The text of a number, as it is printed. -/
def decimal (n : Int) : List Char :=
  if n < 0 then '-' :: Nat.toDigits 10 n.natAbs else Nat.toDigits 10 n.natAbs

theorem toNat_of_isDigit {c : Char} (h : c.isDigit = true) : 48 ≤ c.toNat ∧ c.toNat ≤ 57 := by
  rw [Char.isDigit, Bool.and_eq_true, decide_eq_true_iff, decide_eq_true_iff] at h
  exact ⟨UInt32.le_iff_toNat_le.mp h.1, UInt32.le_iff_toNat_le.mp h.2⟩

/-- An ASCII digit is found in the first run. -/
theorem digit_of_isDigit {c : Char} (h : c.isDigit = true) : digit c = some (c.toNat - 48) := by
  have hrange := toNat_of_isDigit h
  rw [digit, zeros, List.find?_cons_of_pos]
  · rfl
  · rw [Bool.and_eq_true, decide_eq_true_iff, decide_eq_true_iff]
    omega

theorem magnitude_of_isDigit {cs : List Char} (h : ∀ c ∈ cs, c.isDigit = true) (acc : Nat) :
    magnitude acc cs = some (Nat.ofDigitChars 10 cs acc) := by
  induction cs generalizing acc with
  | nil => rw [magnitude, Nat.ofDigitChars_nil]
  | cons c cs ih =>
      rw [magnitude, digit_of_isDigit (h c List.mem_cons_self), Option.bind_some,
        ih fun d hd => h d (List.mem_cons_of_mem c hd), Nat.ofDigitChars_cons]
      rfl

theorem isDigit_of_mem_toDigits {n : Nat} {c : Char} (h : c ∈ Nat.toDigits 10 n) :
    c.isDigit = true :=
  Nat.isDigit_of_mem_toDigits (by decide) (by decide) h

theorem toDigits_cons (n : Nat) :
    ∃ d ds, Nat.toDigits 10 n = d :: ds ∧ d.isDigit = true := by
  obtain ⟨d, ds, hds⟩ := List.exists_cons_of_ne_nil (Nat.toDigits_ne_nil (n := n) (b := 10))
  exact ⟨d, ds, hds, isDigit_of_mem_toDigits (hds ▸ List.mem_cons_self)⟩

/-- The text of a number is made of digits, with a sign in front where it is
    negative. -/
theorem mem_decimal {n : Int} {c : Char} (h : c ∈ decimal n) : c = '-' ∨ c.isDigit = true := by
  unfold decimal at h
  split at h
  · exact (List.mem_cons.mp h).imp id isDigit_of_mem_toDigits
  · exact Or.inr (isDigit_of_mem_toDigits h)

/-- The sign of a printed number, whatever follows it. -/
theorem sign_decimal_append (n : Int) (cs : List Char) :
    sign (decimal n ++ cs) = (decide (n < 0), Nat.toDigits 10 n.natAbs ++ cs) := by
  unfold decimal
  by_cases h : n < 0
  · rw [if_pos h, decide_eq_true h]
    rfl
  · rw [if_neg h, decide_eq_false h]
    obtain ⟨d, ds, hds, hd⟩ := toDigits_cons n.natAbs
    rw [hds, List.cons_append, sign]
    · intro ds' heq
      exact absurd ((List.cons.inj heq).1 ▸ hd) (by decide)
    · intro ds' heq
      exact absurd ((List.cons.inj heq).1 ▸ hd) (by decide)

/-- A printed `int` is read back. -/
theorem parseInt_decimal {n : Int} (h : -2147483648 ≤ n) (h' : n ≤ 2147483647) :
    parseInt (decimal n) = .ok n := by
  have hsign := sign_decimal_append n []
  rw [List.append_nil, List.append_nil] at hsign
  rw [parseInt, hsign]
  dsimp only
  rw [magnitude_of_isDigit fun c hc => isDigit_of_mem_toDigits hc, Nat.ofDigitChars_ten_toDigits]
  obtain ⟨d, ds, hds, -⟩ := toDigits_cons n.natAbs
  rw [hds]
  dsimp only
  by_cases hneg : n < 0
  · rw [decide_eq_true hneg, limit, if_pos rfl, if_pos (by omega), if_pos rfl]
    congr 1
    omega
  · rw [decide_eq_false hneg, limit, if_neg Bool.false_ne_true, if_pos (by omega),
      if_neg Bool.false_ne_true]
    congr 1
    omega

/-- The loop stops at a character that is not a digit. -/
theorem magnitude_append_none (ds : List Char) {c : Char} (cs : List Char) (hc : digit c = none)
    (acc : Nat) : magnitude acc (ds ++ c :: cs) = none := by
  induction ds generalizing acc with
  | nil => rw [List.nil_append, magnitude, hc, Option.bind_none]
  | cons d ds ih =>
      rw [List.cons_append, magnitude]
      cases digit d with
      | none => rfl
      | some v => exact ih _

/-- A printed number is not read if anything but a digit stands behind it. -/
theorem parseInt_decimal_append (n : Int) {c : Char} (cs : List Char) (hc : digit c = none) :
    parseInt (decimal n ++ c :: cs) = .error .numberFormat := by
  rw [parseInt, sign_decimal_append]
  dsimp only
  rw [magnitude_append_none _ _ hc]
  split
  · exact absurd ‹_› (by simp only [reduceCtorEq, not_false_eq_true])
  · rfl

example : parseInt "-042".toList = .ok (-42) := by decide +kernel

example : parseInt "2147483648".toList = .error .numberFormat := by decide +kernel

end Decimal

end NetProbe
