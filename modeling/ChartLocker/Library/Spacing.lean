import Mathlib.Algebra.Order.Group.Nat
import Mathlib.Data.List.Induction
import Mathlib.Tactic.Ring

/-!
# Spaced events

A log, newest entry first, whose entries are admitted at least a gap apart,
one at a time, and may take effect later than they were admitted.  The number
of admissions in a window is then bounded by its length in gaps, and the
number of effects by one more: a late effect of an earlier entry may fall
into the window of the later ones.
-/

namespace Library.Spacing

/-- In nanoseconds. -/
def second : Nat := 1000000000

universe u

variable {Entry : Type u} {gap : Nat} {stamp sent : Entry → Nat}

/-- Entries take effect before the next one is admitted, which is at least a
gap after the admission of the one before. -/
structure Orderly (gap : Nat) (stamp sent : Entry → Nat)
    (log : List Entry) : Prop where
  delay : ∀ entry ∈ log, stamp entry ≤ sent entry
  spaced : log.Pairwise fun later earlier =>
    stamp earlier + gap ≤ stamp later ∧ sent earlier ≤ stamp later

theorem Orderly.nil : Orderly gap stamp sent [] :=
  ⟨fun _ member => absurd member List.not_mem_nil, .nil⟩

theorem Orderly.cons {log : List Entry} {entry : Entry}
    (orderly : Orderly gap stamp sent log)
    (delay : stamp entry ≤ sent entry)
    (spaced : ∀ earlier ∈ log, stamp earlier + gap ≤ stamp entry ∧
      sent earlier ≤ stamp entry) :
    Orderly gap stamp sent (entry :: log) where
  delay := by
    intro other member
    cases List.mem_cons.mp member with
    | inl same => exact same ▸ delay
    | inr earlier => exact orderly.delay other earlier
  spaced := List.pairwise_cons.mpr ⟨spaced, orderly.spaced⟩

theorem Orderly.sublist {log chosen : List Entry}
    (orderly : Orderly gap stamp sent log) (part : chosen.Sublist log) :
    Orderly gap stamp sent chosen where
  delay entry member := orderly.delay entry (part.subset member)
  spaced := orderly.spaced.sublist part

/-- Entries which are all admitted in a window of `count` gaps. -/
theorem Orderly.length_le {log : List Entry}
    (orderly : Orderly gap stamp sent log) {start count : Nat}
    (window : ∀ entry ∈ log, start ≤ stamp entry ∧
      stamp entry < start + count * gap) : log.length ≤ count := by
  induction log generalizing count with
  | nil => exact Nat.zero_le _
  | cons head rest induction =>
      have newest := window head List.mem_cons_self
      cases count with
      | zero => omega
      | succ fewer =>
          have split : (fewer + 1) * gap = fewer * gap + gap := by ring
          have tail : rest.length ≤ fewer := by
            apply induction (orderly.sublist (List.sublist_cons_self _ _))
            intro entry member
            have before := (List.pairwise_cons.mp orderly.spaced).1 entry
              member
            have inside := window entry (List.mem_cons_of_mem head member)
            omega
          simpa using tail

/-- No more admissions than gaps fall into a window. -/
theorem Orderly.admissions_le {log : List Entry}
    (orderly : Orderly gap stamp sent log) (start count : Nat) :
    (log.filter fun entry => decide (start ≤ stamp entry) &&
      decide (stamp entry < start + count * gap)).length ≤ count := by
  apply (orderly.sublist List.filter_sublist).length_le
  intro entry member
  simpa using (List.mem_filter.mp member).2

/-- Entries which all take effect in a window: all but the oldest are also
admitted in it. -/
theorem Orderly.length_sent_le {log : List Entry}
    (orderly : Orderly gap stamp sent log) {start count : Nat}
    (window : ∀ entry ∈ log, start ≤ sent entry ∧
      sent entry < start + count * gap) : log.length ≤ count + 1 := by
  cases log using List.reverseRecOn with
  | nil => exact Nat.zero_le _
  | append_singleton newer oldest =>
      have oldestIn := window oldest (by simp)
      have later : newer.length ≤ count := by
        have part := orderly.sublist (List.sublist_append_left newer [oldest])
        refine @Orderly.length_le _ gap stamp sent newer part start count ?_
        intro entry member
        have apart := (List.pairwise_append.mp orderly.spaced).2.2 entry
          member oldest (by simp)
        have late := orderly.delay entry (List.mem_append_left _ member)
        have inside := window entry (List.mem_append_left _ member)
        omega
      simpa using later

theorem Orderly.effects_le {log : List Entry}
    (orderly : Orderly gap stamp sent log) (start count : Nat) :
    (log.filter fun entry => decide (start ≤ sent entry) &&
      decide (sent entry < start + count * gap)).length ≤ count + 1 := by
  apply (orderly.sublist List.filter_sublist).length_sent_le
  intro entry member
  simpa using (List.mem_filter.mp member).2

end Library.Spacing
