import Mathlib.Data.List.Destutter
import Mathlib.Data.List.Sort
import Mathlib.Order.Basic

/-!
# Sweeping a line

A strictly increasing list of boundaries cuts a line into the windows between
neighbours.  Every point between two boundaries is in one of them, no boundary
is inside one, and a later window begins where an earlier one has ended.
-/

namespace Library

namespace Sweep

variable {α : Type} [LinearOrder α]

/-- The pairs of neighbours. -/
abbrev windows (boundaries : List α) : List (α × α) :=
  boundaries.zip boundaries.tail

/-- Sort a list and drop the repetitions. -/
theorem sorted_destutter (values : List α) :
    ((values.insertionSort (· ≤ ·)).destutter (· ≠ ·)).Pairwise (· < ·) := by
  have sorted : (values.insertionSort (· ≤ ·)).Pairwise (· ≤ ·) :=
    List.pairwise_insertionSort (· ≤ ·) values
  have ordered := sorted.sublist
    (List.destutter_sublist (· ≠ ·) (values.insertionSort (· ≤ ·)))
  have distinct : ((values.insertionSort (· ≤ ·)).destutter (· ≠ ·)).Nodup := by
    rw [sorted.destutter_eq_dedup]
    exact List.nodup_dedup _
  exact (ordered.and distinct).imp fun both => lt_of_le_of_ne both.1 both.2

theorem mem_destutter {values : List α} {value : α} :
    value ∈ (values.insertionSort (· ≤ ·)).destutter (· ≠ ·) ↔
      value ∈ values := by
  have sorted : (values.insertionSort (· ≤ ·)).Pairwise (· ≤ ·) :=
    List.pairwise_insertionSort (· ≤ ·) values
  rw [sorted.destutter_eq_dedup, List.mem_dedup,
    (List.perm_insertionSort (· ≤ ·) values).mem_iff]

variable {boundaries : List α}

/-- The ends of a window are boundaries, and no boundary is between them. -/
theorem window_gap (sorted : boundaries.Pairwise (· < ·)) {window : α × α}
    (member : window ∈ windows boundaries) :
    window.1 < window.2 ∧
      ∀ boundary ∈ boundaries, boundary ≤ window.1 ∨ window.2 ≤ boundary := by
  induction boundaries with
  | nil => cases member
  | cons first rest induction =>
      cases rest with
      | nil => cases member
      | cons second rest =>
          obtain ⟨least, sorted⟩ := List.pairwise_cons.mp sorted
          have step := least second List.mem_cons_self
          rcases List.mem_cons.mp member with rfl | later
          · refine ⟨step, ?_⟩
            intro boundary boundaryMember
            rcases List.mem_cons.mp boundaryMember with rfl | after
            · exact .inl le_rfl
            · rcases List.mem_cons.mp after with rfl | later
              · exact .inr le_rfl
              · exact .inr
                  (le_of_lt (List.rel_of_pairwise_cons sorted later))
          · have found := induction sorted later
            refine ⟨found.1, ?_⟩
            intro boundary boundaryMember
            rcases List.mem_cons.mp boundaryMember with rfl | after
            · have start : window.1 ∈ second :: rest :=
                (List.of_mem_zip later).1
              exact .inl (le_of_lt (least _ start))
            · exact found.2 boundary after

/-- A point which is not before every boundary and is before one of them is in
a window. -/
theorem exists_window (sorted : boundaries.Pairwise (· < ·)) {point : α}
    (after : ∃ boundary ∈ boundaries, boundary ≤ point)
    (before : ∃ boundary ∈ boundaries, point < boundary) :
    ∃ window ∈ windows boundaries, window.1 ≤ point ∧ point < window.2 := by
  induction boundaries with
  | nil =>
      obtain ⟨_, member, _⟩ := after
      cases member
  | cons first rest induction =>
      obtain ⟨least, sorted⟩ := List.pairwise_cons.mp sorted
      have starts : first ≤ point := by
        obtain ⟨boundary, member, reached⟩ := after
        rcases List.mem_cons.mp member with rfl | later
        · exact reached
        · exact (le_of_lt (least boundary later)).trans reached
      cases rest with
      | nil =>
          obtain ⟨boundary, member, ahead⟩ := before
          cases List.mem_singleton.mp member
          exact absurd starts (not_le.mpr ahead)
      | cons second rest =>
          by_cases inside : point < second
          · exact ⟨(first, second), List.mem_cons_self, starts, inside⟩
          · obtain ⟨window, member, bounds⟩ := induction sorted
              ⟨second, List.mem_cons_self, not_lt.mp inside⟩ (by
                obtain ⟨boundary, member, ahead⟩ := before
                rcases List.mem_cons.mp member with rfl | later
                · exact absurd starts (not_le.mpr ahead)
                · exact ⟨boundary, later, ahead⟩)
            exact ⟨window, List.mem_cons_of_mem _ member, bounds⟩

theorem windows_ordered (sorted : boundaries.Pairwise (· < ·)) :
    (windows boundaries).Pairwise fun left right => left.2 ≤ right.1 := by
  induction boundaries with
  | nil => exact List.Pairwise.nil
  | cons first rest induction =>
      cases rest with
      | nil => exact List.Pairwise.nil
      | cons second rest =>
          obtain ⟨_, sorted⟩ := List.pairwise_cons.mp sorted
          refine List.pairwise_cons.mpr ⟨?_, induction sorted⟩
          intro window member
          have start : window.1 ∈ second :: rest := (List.of_mem_zip member).1
          rcases List.mem_cons.mp start with same | later
          · exact le_of_eq same.symm
          · exact le_of_lt (List.rel_of_pairwise_cons sorted later)

end Sweep

end Library
