import ChartLocker.Library.Placeholder
import Mathlib.Algebra.Order.Ring.Abs
import Mathlib.Data.Rat.Cast.Order
import Mathlib.Tactic.Linarith
import Mathlib.Tactic.Positivity
import Mathlib.Tactic.Ring

/-!
# Binary fractions in decimal

A finite floating-point number is a sign and a binary fraction.  Written with
a fixed number of decimals it is rounded to the nearest, in a tie to the even
digit; the sign of a negative zero is written, too.  Two numbers which are
written alike differ by at most one unit of the last place.
-/

namespace Library.FixedPoint

open Placeholder

/-- `numerator / 2 ^ shift`, or its negation. -/
structure Fraction where
  negative : Bool
  numerator : Nat
  shift : Nat
deriving DecidableEq, Repr

namespace Fraction

def magnitude (fraction : Fraction) : ℚ :=
  fraction.numerator / 2 ^ fraction.shift

def value (fraction : Fraction) : ℚ :=
  if fraction.negative then -fraction.magnitude else fraction.magnitude

/-- The absolute value is at most a natural number. -/
def within (fraction : Fraction) (bound : Nat) : Bool :=
  decide (fraction.numerator ≤ bound * 2 ^ fraction.shift)

/-- The absolute value in units of the last of some decimal places. -/
def units (places : Nat) (fraction : Fraction) : Nat :=
  let scaled := fraction.numerator * 10 ^ places
  let whole := scaled / 2 ^ fraction.shift
  let rest := scaled % 2 ^ fraction.shift
  if 2 ^ fraction.shift < 2 * rest ∨
      (2 ^ fraction.shift = 2 * rest ∧ whole % 2 = 1) then
    whole + 1
  else
    whole

/-- The digits of a number, filled up with zeros. -/
def padded (places number : Nat) : List Char :=
  List.replicate (places - (digits number).length) '0' ++ digits number

/-- The text with a fixed number of decimals. -/
def fixed (places : Nat) (fraction : Fraction) : List Char :=
  (if fraction.negative then ['-'] else []) ++
    digits (fraction.units places / 10 ^ places) ++
      '.' :: padded places (fraction.units places % 10 ^ places)

section Text

variable {places : Nat} {left right : Fraction}

theorem ofDigits_padded (places number : Nat) :
    Nat.ofDigitChars 10 (padded places number) 0 = number := by
  unfold padded digits
  rw [Nat.ofDigitChars_append, Nat.ofDigitChars_replicate_zero,
    Nat.mul_zero, Nat.toList_repr, Nat.ofDigitChars_ten_toDigits]

theorem isDigit_of_mem_padded {places number : Nat} {char : Char}
    (member : char ∈ padded places number) : char.isDigit = true := by
  cases List.mem_append.mp member with
  | inl zero =>
      rw [List.eq_of_mem_replicate zero]
      rfl
  | inr digit => exact isDigit_of_mem_digits digit

/-- What a text is made of. -/
theorem mem_fixed {char : Char} (member : char ∈ left.fixed places) :
    char.isDigit = true ∨ char = '.' ∨ char = '-' := by
  unfold fixed at member
  rcases List.mem_append.mp member with front | fraction
  · rcases List.mem_append.mp front with sign | whole
    · split at sign
      · exact .inr (.inr (List.mem_singleton.mp sign))
      · cases sign
    · exact .inl (isDigit_of_mem_digits whole)
  · cases List.mem_cons.mp fraction with
    | inl dot => exact .inr (.inl dot)
    | inr decimal => exact .inl (isDigit_of_mem_padded decimal)

theorem dot_notMem_front (negative : Bool) (number : Nat) :
    '.' ∉ (if negative then ['-'] else []) ++ digits number := by
  intro member
  cases List.mem_append.mp member with
  | inl sign =>
      split at sign
      · cases List.mem_singleton.mp sign
      · cases sign
  | inr whole => cases isDigit_of_mem_digits whole

/-- The text tells the sign and the units. -/
theorem fixed_inj (same : left.fixed places = right.fixed places) :
    left.negative = right.negative ∧
      left.units places = right.units places := by
  unfold fixed at same
  obtain ⟨fronts, decimals⟩ := Text.append_cons_inj
    (dot_notMem_front left.negative _) (dot_notMem_front right.negative _) same
  have signs : left.negative = right.negative ∧
      digits (left.units places / 10 ^ places) =
        digits (right.units places / 10 ^ places) := by
    have dash : ∀ number rest, digits number ≠ '-' :: rest := by
      intro number rest written
      have member : '-' ∈ digits number := written ▸ List.mem_cons_self
      cases isDigit_of_mem_digits member
    cases leftSign : left.negative with
    | true =>
        cases rightSign : right.negative with
        | true => simpa [leftSign, rightSign] using fronts
        | false =>
            simp only [leftSign, rightSign] at fronts
            exact absurd fronts.symm (dash _ _)
    | false =>
        cases rightSign : right.negative with
        | true =>
            simp only [leftSign, rightSign] at fronts
            exact absurd fronts (dash _ _)
        | false => simpa [leftSign, rightSign] using fronts
  have whole := digits_inj signs.2
  have rest : left.units places % 10 ^ places =
      right.units places % 10 ^ places := by
    have read := congrArg (fun text => Nat.ofDigitChars 10 text 0) decimals
    simpa only [ofDigits_padded] using read
  refine ⟨signs.1, ?_⟩
  rw [← Nat.div_add_mod (left.units places) (10 ^ places), whole, rest,
    Nat.div_add_mod]

end Text

/-! ## How far two numbers are apart which are written alike -/

section Distance

variable {places : Nat} {left right : Fraction}

/-- The units are within half a unit of the number. -/
theorem units_near (fraction : Fraction) (places : Nat) :
    2 * (fraction.numerator * 10 ^ places) ≤
        (2 * fraction.units places + 1) * 2 ^ fraction.shift ∧
      2 * fraction.units places * 2 ^ fraction.shift ≤
        2 * (fraction.numerator * 10 ^ places) + 2 ^ fraction.shift := by
  unfold units
  dsimp only
  generalize fraction.numerator * 10 ^ places = scaled
  have positive : 0 < 2 ^ fraction.shift := Nat.two_pow_pos _
  generalize 2 ^ fraction.shift = unit at positive ⊢
  have whole := Nat.div_add_mod scaled unit
  have small := Nat.mod_lt scaled positive
  generalize scaled / unit = quotient at whole ⊢
  generalize scaled % unit = rest at whole small ⊢
  have product : unit * quotient = quotient * unit := Nat.mul_comm _ _
  split
  · next up =>
    constructor
    · nlinarith
    · have half : unit ≤ 2 * rest := by omega
      nlinarith
  · next down =>
    have half : 2 * rest ≤ unit := by omega
    constructor <;> nlinarith

theorem magnitude_near (fraction : Fraction) (places : Nat) :
    |fraction.magnitude * 10 ^ places - fraction.units places| ≤ 1 / 2 := by
  obtain ⟨above, below⟩ := units_near fraction places
  have positive : (0 : ℚ) < 2 ^ fraction.shift := by positivity
  have upper : (2 : ℚ) * (fraction.numerator * 10 ^ places) ≤
      (2 * fraction.units places + 1) * 2 ^ fraction.shift := by
    exact_mod_cast above
  have lower : (2 : ℚ) * fraction.units places * 2 ^ fraction.shift ≤
      2 * (fraction.numerator * 10 ^ places) + 2 ^ fraction.shift := by
    exact_mod_cast below
  have whole : fraction.magnitude * 10 ^ places =
      fraction.numerator * 10 ^ places / 2 ^ fraction.shift := by
    unfold magnitude
    ring
  rw [whole, abs_le]
  constructor
  · rw [neg_le_sub_iff_le_add, ← sub_le_iff_le_add, le_div_iff₀ positive]
    linarith
  · rw [sub_le_iff_le_add, div_le_iff₀ positive]
    linarith

theorem abs_sub_le_of_fixed (same : left.fixed places = right.fixed places) :
    |left.value - right.value| ≤ 1 / 10 ^ places := by
  obtain ⟨signs, unitsSame⟩ := fixed_inj same
  have positive : (0 : ℚ) < 10 ^ places := by positivity
  have apart : |left.magnitude - right.magnitude| ≤ 1 / 10 ^ places := by
    have first := magnitude_near left places
    have second := magnitude_near right places
    rw [unitsSame] at first
    have scaled : |left.magnitude - right.magnitude| * 10 ^ places =
        |(left.magnitude - right.magnitude) * 10 ^ places| := by
      rw [abs_mul, abs_of_pos positive]
    rw [le_div_iff₀ positive, scaled]
    have split : (left.magnitude - right.magnitude) * 10 ^ places =
        (left.magnitude * 10 ^ places - right.units places) -
          (right.magnitude * 10 ^ places - right.units places) := by
      ring
    rw [split]
    calc
      _ ≤ |left.magnitude * 10 ^ places - right.units places| +
          |right.magnitude * 10 ^ places - right.units places| := abs_sub _ _
      _ ≤ 1 / 2 + 1 / 2 := add_le_add first second
      _ = 1 := by norm_num
  unfold value
  rw [signs]
  split
  · rw [neg_sub_neg, abs_sub_comm]
    exact apart
  · exact apart

end Distance

end Fraction

end Library.FixedPoint
