import Mathlib.Algebra.Order.Group.Nat

/-!
# Networks

A network of some width is the set of the addresses which agree with a given
one on its first bits.  Programs test this on parts of an address, with masks;
the lemmas here read such a test as a quotient.
-/

namespace Library

/-- The addresses of `width` bits with the first `length` bits of `address`. -/
structure Network (width : Nat) where
  address : Nat
  length : Nat
deriving DecidableEq, Repr

namespace Network

variable {width : Nat}

def Contains (network : Network width) (number : Nat) : Prop :=
  number / 2 ^ (width - network.length) =
    network.address / 2 ^ (width - network.length)

instance (network : Network width) (number : Nat) :
    Decidable (network.Contains number) :=
  inferInstanceAs (Decidable (_ = _))

end Network

/-! ## Masks -/

/-- A mask of the upper bits of a number. -/
theorem and_upper_bits {number width low : Nat} (small : number < 2 ^ width)
    (within : low ≤ width) :
    number &&& (2 ^ width - 2 ^ low) = number / 2 ^ low * 2 ^ low := by
  have mask : 2 ^ width - 2 ^ low = (2 ^ (width - low) - 1) * 2 ^ low := by
    rw [Nat.sub_mul, Nat.one_mul, ← Nat.pow_add, Nat.sub_add_cancel within]
  rw [mask]
  apply Nat.eq_of_testBit_eq
  intro place
  rw [Nat.testBit_and, Nat.testBit_mul_two_pow, Nat.testBit_mul_two_pow,
    Nat.testBit_two_pow_sub_one, Nat.testBit_div_two_pow]
  by_cases above : low ≤ place
  · have same : place - low + low = place := Nat.sub_add_cancel above
    by_cases inside : place < width
    · have below : place - low < width - low := by omega
      simp [above, below, same]
    · have outside : ¬ place - low < width - low := by omega
      have zero : number.testBit place = false := by
        apply Nat.testBit_lt_two_pow
        apply Nat.lt_of_lt_of_le small
        exact Nat.pow_le_pow_right (by decide) (Nat.le_of_not_lt inside)
      simp [above, outside, same, zero]
  · simp [above]

/-- A number which shows a pattern under such a mask. -/
theorem and_upper_bits_eq {number pattern width low : Nat}
    (small : number < 2 ^ width) (within : low ≤ width) :
    number &&& (2 ^ width - 2 ^ low) = pattern * 2 ^ low ↔
      number / 2 ^ low = pattern := by
  rw [and_upper_bits small within]
  constructor
  · exact Nat.eq_of_mul_eq_mul_right (Nat.two_pow_pos low)
  · intro same
    rw [same]

end Library
