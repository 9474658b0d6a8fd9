import Mathlib.Data.Finset.Card

/-!
# Counting semaphores

A semaphore is conserved if the parties which hold a permit and the free
permits add up to its size.  A party acquires one free permit or releases the
one it holds; a permit which is given up without a release is lost, and the
sum never holds again.
-/

namespace Library.Semaphore

universe u

variable {Party : Type u} [DecidableEq Party]

/-- The parties which hold one of `total` permits, of which `free` are free. -/
def Conserved (holds : Party → Bool) (free total : Nat) : Prop :=
  ∃ holders : Finset Party, (∀ party, party ∈ holders ↔ holds party = true) ∧
    holders.card + free = total

variable {before after : Party → Bool} {free total : Nat}

omit [DecidableEq Party] in
theorem conserved_of_idle (idle : ∀ party, before party = false)
    (total : Nat) : Conserved before total total := by
  refine ⟨∅, fun party => ?_, by simp⟩
  simp [idle party]

omit [DecidableEq Party] in
theorem Conserved.congr (conserved : Conserved before free total)
    (same : ∀ party, after party = before party) :
    Conserved after free total := by
  obtain ⟨holders, members, sum⟩ := conserved
  refine ⟨holders, fun party => ?_, sum⟩
  rw [members, same]

theorem Conserved.acquire {party : Party}
    (conserved : Conserved before (free + 1) total)
    (absent : before party = false) (present : after party = true)
    (others : ∀ other, other ≠ party → after other = before other) :
    Conserved after free total := by
  obtain ⟨holders, members, sum⟩ := conserved
  have outside : party ∉ holders := by
    intro inside
    exact Bool.noConfusion (absent.symm.trans ((members party).mp inside))
  refine ⟨insert party holders, fun other => ?_, ?_⟩
  · rw [Finset.mem_insert]
    by_cases same : other = party
    · simp [same, present]
    · rw [members, others other same]
      simp [same]
  · rw [Finset.card_insert_of_notMem outside]
    omega

theorem Conserved.release {party : Party}
    (conserved : Conserved before free total)
    (present : before party = true) (absent : after party = false)
    (others : ∀ other, other ≠ party → after other = before other) :
    Conserved after (free + 1) total := by
  obtain ⟨holders, members, sum⟩ := conserved
  have inside : party ∈ holders := (members party).mpr present
  refine ⟨holders.erase party, fun other => ?_, ?_⟩
  · rw [Finset.mem_erase]
    by_cases same : other = party
    · simp [same, absent]
    · rw [members, others other same]
      simp [same]
  · have shorter := Finset.card_erase_add_one inside
    omega

/-- A step of one party, from what it holds before and after it. -/
theorem Conserved.change {party : Party} {freeAfter : Nat}
    (conserved : Conserved before free total)
    (balance : freeAfter + (after party).toNat = free + (before party).toNat)
    (others : ∀ other, other ≠ party → after other = before other) :
    Conserved after freeAfter total := by
  cases held : before party with
  | false =>
      cases holds : after party with
      | false =>
          rw [held, holds] at balance
          obtain rfl : freeAfter = free := Nat.add_right_cancel balance
          apply conserved.congr
          intro other
          by_cases same : other = party
          · rw [same, held, holds]
          · exact others other same
      | true =>
          rw [held, holds] at balance
          have more : free = freeAfter + 1 := balance.symm
          rw [more] at conserved
          exact conserved.acquire held holds others
  | true =>
      cases holds : after party with
      | false =>
          rw [held, holds] at balance
          have more : freeAfter = free + 1 := balance
          rw [more]
          exact conserved.release held holds others
      | true =>
          rw [held, holds] at balance
          obtain rfl : freeAfter = free := Nat.add_right_cancel balance
          apply conserved.congr
          intro other
          by_cases same : other = party
          · rw [same, held, holds]
          · exact others other same

omit [DecidableEq Party] in
/-- No more parties than permits hold one. -/
theorem Conserved.card_le (conserved : Conserved before free total)
    {parties : Finset Party}
    (holding : ∀ party ∈ parties, before party = true) :
    parties.card ≤ total := by
  obtain ⟨holders, members, sum⟩ := conserved
  have subset : parties ⊆ holders := fun party member =>
    (members party).mpr (holding party member)
  have bound := Finset.card_le_card subset
  omega

end Library.Semaphore
