import Mathlib.Algebra.BigOperators.Group.List.Basic
import Mathlib.Algebra.Order.BigOperators.Group.List
import Mathlib.Data.List.Nodup
import Mathlib.Tactic.Ring

/-!
# Finite tables with a primary key

A table is a list of rows in which no two rows have the same key.  The
operations are those of a relational store: point lookup, replacement of one
row, deletion and update of the rows which satisfy a predicate, and the sum of
an integer column over the rows which satisfy a predicate.

Each operation has one membership lemma and one lemma about sums, so that a
proof about a program never looks at the underlying list.
-/

namespace Library

universe u v

/-- A list of rows which the key function distinguishes. -/
structure KeyedTable {Row : Type u} {Key : Type v} (key : Row → Key) where
  rows : List Row
  nodup : (rows.map key).Nodup

namespace KeyedTable

variable {Row : Type u} {Key : Type v} {key : Row → Key}

def empty : KeyedTable key where
  rows := []
  nodup := by simp

theorem eq_of_key_eq (table : KeyedTable key) {left right : Row}
    (leftMember : left ∈ table.rows) (rightMember : right ∈ table.rows)
    (same : key left = key right) : left = right :=
  List.inj_on_of_nodup_map table.nodup leftMember rightMember same

/-- Delete the rows which satisfy a predicate. -/
def deleteWhere (table : KeyedTable key) (drop : Row → Bool) :
    KeyedTable key where
  rows := table.rows.filter fun row => !drop row
  nodup := table.nodup.sublist (List.filter_sublist.map key)

/-- Update the rows which satisfy a predicate, leaving every key as it is. -/
def updateWhere (table : KeyedTable key) (select : Row → Bool)
    (update : Row → Row) (keeps : ∀ row, key (update row) = key row) :
    KeyedTable key where
  rows := table.rows.map fun row => if select row then update row else row
  nodup := by
    have keys : (table.rows.map fun row =>
        if select row then update row else row).map key =
          table.rows.map key := by
      rw [List.map_map]
      apply List.map_congr_left
      intro row _
      by_cases chosen : select row = true
      · simp [chosen, keeps]
      · simp [chosen]
    rw [keys]
    exact table.nodup

/-- The sum of a column over the rows which satisfy a predicate. -/
def sumWhere (table : KeyedTable key) (select : Row → Bool)
    (column : Row → Int) : Int :=
  ((table.rows.filter select).map column).sum

section Lookup

variable [DecidableEq Key]

/-- The row with a key. -/
def lookup (table : KeyedTable key) (wanted : Key) : Option Row :=
  table.rows.find? fun row => decide (key row = wanted)

/-- Replace the row with the key of the given row, or insert the row. -/
def insertOrReplace (table : KeyedTable key) (row : Row) :
    KeyedTable key where
  rows := (table.rows.filter fun old => decide (key old ≠ key row)) ++ [row]
  nodup := by
    rw [List.map_append, List.nodup_append]
    refine ⟨table.nodup.sublist (List.filter_sublist.map key), by simp, ?_⟩
    intro left leftMember right rightMember
    obtain ⟨old, oldMember, rfl⟩ := List.mem_map.mp leftMember
    have different : key old ≠ key row := by
      simpa using (List.mem_filter.mp oldMember).2
    have equality : right = key row := by simpa using rightMember
    exact equality ▸ different

theorem lookup_eq_some {table : KeyedTable key} {wanted : Key} {row : Row} :
    table.lookup wanted = some row ↔ row ∈ table.rows ∧ key row = wanted := by
  constructor
  · intro found
    exact ⟨List.mem_of_find?_eq_some found, by
      simpa using List.find?_some found⟩
  · rintro ⟨member, rfl⟩
    cases found : table.lookup (key row) with
    | none =>
        have missing := List.find?_eq_none.mp found row member
        simp at missing
    | some other =>
        have otherMember : other ∈ table.rows :=
          List.mem_of_find?_eq_some found
        have sameKey : key other = key row := by
          simpa using List.find?_some found
        rw [table.eq_of_key_eq otherMember member sameKey]

theorem lookup_eq_none {table : KeyedTable key} {wanted : Key} :
    table.lookup wanted = none ↔ ∀ row ∈ table.rows, key row ≠ wanted := by
  simp [lookup, List.find?_eq_none]

end Lookup

theorem mem_deleteWhere {table : KeyedTable key} {drop : Row → Bool}
    {row : Row} :
    row ∈ (table.deleteWhere drop).rows ↔
      row ∈ table.rows ∧ drop row = false := by
  simp [deleteWhere, List.mem_filter]

theorem mem_updateWhere {table : KeyedTable key} {select : Row → Bool}
    {update : Row → Row} (keeps : ∀ row, key (update row) = key row)
    {row : Row} :
    row ∈ (table.updateWhere select update keeps).rows ↔
      ∃ old ∈ table.rows, row = if select old then update old else old := by
  simp only [updateWhere, List.mem_map]
  constructor
  · rintro ⟨old, member, rfl⟩
    exact ⟨old, member, rfl⟩
  · rintro ⟨old, member, rfl⟩
    exact ⟨old, member, rfl⟩

theorem mem_insertOrReplace [DecidableEq Key] {table : KeyedTable key}
    {new row : Row} :
    row ∈ (table.insertOrReplace new).rows ↔
      row = new ∨ (row ∈ table.rows ∧ key row ≠ key new) := by
  simp [insertOrReplace, List.mem_filter, or_comm]

/-- Nothing but the inserted rows is added. -/
theorem mem_of_mem_foldl_insertOrReplace [DecidableEq Key]
    {table : KeyedTable key} {inserted : List Row} {row : Row}
    (member : row ∈ (inserted.foldl insertOrReplace table).rows) :
    row ∈ table.rows ∨ row ∈ inserted := by
  induction inserted generalizing table with
  | nil => exact .inl member
  | cons head tail induction =>
      rcases induction member with early | late
      · rcases mem_insertOrReplace.mp early with rfl | ⟨old, _⟩
        · exact .inr List.mem_cons_self
        · exact .inl old
      · exact .inr (List.mem_cons_of_mem head late)

/-! ## Lookups after an operation -/

section LookupAfter

variable [DecidableEq Key] (table : KeyedTable key)

theorem lookup_key {wanted : Key} {row : Row}
    (found : table.lookup wanted = some row) : key row = wanted :=
  (lookup_eq_some.mp found).2

theorem lookup_insertOrReplace (row : Row) (wanted : Key) :
    (table.insertOrReplace row).lookup wanted =
      if wanted = key row then some row else table.lookup wanted := by
  by_cases same : wanted = key row
  · rw [if_pos same, lookup_eq_some, mem_insertOrReplace]
    exact ⟨.inl rfl, same.symm⟩
  · rw [if_neg same]
    cases found : table.lookup wanted with
    | none =>
        rw [lookup_eq_none] at found ⊢
        intro other member
        rcases mem_insertOrReplace.mp member with rfl | ⟨old, _⟩
        · exact fun equality => same equality.symm
        · exact found other old
    | some old =>
        obtain ⟨member, oldKey⟩ := lookup_eq_some.mp found
        refine lookup_eq_some.mpr ⟨mem_insertOrReplace.mpr ?_, oldKey⟩
        exact .inr ⟨member, oldKey ▸ same⟩

/-- A row with a key of its own is found after a list of insertions. -/
theorem lookup_foldl_insertOrReplace {inserted : List Row} {row : Row}
    (unique : ∀ other ∈ inserted, key other = key row → other = row)
    (found : row ∈ inserted ∨ table.lookup (key row) = some row) :
    (inserted.foldl insertOrReplace table).lookup (key row) = some row := by
  induction inserted generalizing table with
  | nil => simpa using found
  | cons head tail induction =>
      apply induction
      · exact fun other member => unique other
          (List.mem_cons_of_mem head member)
      · rw [lookup_insertOrReplace]
        by_cases same : key row = key head
        · obtain rfl : head = row := unique head List.mem_cons_self same.symm
          simp
        · rcases found with member | stored
          · rcases List.mem_cons.mp member with rfl | later
            · exact absurd rfl same
            · exact .inl later
          · exact .inr (by simpa [same] using stored)

theorem lookup_deleteWhere (drop : Row → Bool) (wanted : Key) :
    (table.deleteWhere drop).lookup wanted =
      (table.lookup wanted).filter fun row => !drop row := by
  cases found : table.lookup wanted with
  | none =>
      rw [Option.filter_none, lookup_eq_none]
      intro row member
      exact lookup_eq_none.mp found row (mem_deleteWhere.mp member).1
  | some row =>
      obtain ⟨member, rowKey⟩ := lookup_eq_some.mp found
      cases dropped : drop row with
      | true =>
          simp only [Option.filter_some, dropped, Bool.not_true,
            Bool.false_eq_true, if_false, lookup_eq_none]
          intro other otherMember otherKey
          obtain ⟨old, kept⟩ := mem_deleteWhere.mp otherMember
          have same : other = row :=
            table.eq_of_key_eq old member (otherKey.trans rowKey.symm)
          rw [same, dropped] at kept
          contradiction
      | false =>
          simp only [Option.filter_some, dropped, Bool.not_false, if_true]
          exact lookup_eq_some.mpr
            ⟨mem_deleteWhere.mpr ⟨member, dropped⟩, rowKey⟩

theorem lookup_updateWhere (select : Row → Bool) {update : Row → Row}
    (keeps : ∀ row, key (update row) = key row) (wanted : Key) :
    (table.updateWhere select update keeps).lookup wanted =
      (table.lookup wanted).map fun row =>
        if select row then update row else row := by
  have sameKey : ∀ row,
      key (if select row then update row else row) = key row := by
    intro row
    split
    · exact keeps row
    · rfl
  cases found : table.lookup wanted with
  | none =>
      rw [Option.map_none, lookup_eq_none]
      intro row member
      obtain ⟨old, oldMember, rfl⟩ := (mem_updateWhere keeps).mp member
      exact sameKey old ▸ lookup_eq_none.mp found old oldMember
  | some row =>
      obtain ⟨member, rowKey⟩ := lookup_eq_some.mp found
      exact lookup_eq_some.mpr ⟨(mem_updateWhere keeps).mpr
        ⟨row, member, rfl⟩, (sameKey row).trans rowKey⟩

end LookupAfter

/-! ## Sums -/

theorem sumWhere_congr {table : KeyedTable key} {left right : Row → Bool}
    {column : Row → Int}
    (same : ∀ row ∈ table.rows, left row = right row) :
    table.sumWhere left column = table.sumWhere right column := by
  unfold sumWhere
  rw [List.filter_congr same]

private theorem list_sum_filter_split (rows : List Row)
    (select drop : Row → Bool) (column : Row → Int) :
    ((rows.filter select).map column).sum =
      ((rows.filter fun row => select row && !drop row).map column).sum +
        ((rows.filter fun row => select row && drop row).map column).sum := by
  induction rows with
  | nil => simp
  | cons row rows induction =>
      cases chosen : select row <;> cases dropped : drop row <;>
        simp [chosen, dropped, induction] <;> ring

/-- What a deletion keeps and what it removes make up the sum before it. -/
theorem sumWhere_deleteWhere (table : KeyedTable key)
    (drop select : Row → Bool) (column : Row → Int) :
    (table.deleteWhere drop).sumWhere select column =
      table.sumWhere select column -
        table.sumWhere (fun row => select row && drop row) column := by
  have split := list_sum_filter_split table.rows select drop column
  simp only [sumWhere, deleteWhere, List.filter_filter]
  omega

theorem sumWhere_updateWhere (table : KeyedTable key)
    (select choose : Row → Bool) {update : Row → Row}
    (keeps : ∀ row, key (update row) = key row) (column : Row → Int)
    (columnKept : ∀ row, column (update row) = column row) :
    (table.updateWhere choose update keeps).sumWhere select column =
      table.sumWhere
        (fun row => if choose row then select (update row) else select row)
        column := by
  simp only [sumWhere, updateWhere]
  induction table.rows with
  | nil => rfl
  | cons row rows induction =>
      cases chosen : choose row
      · cases selected : select row <;> simp [chosen, selected, induction]
      · cases selected : select (update row) <;>
          simp [chosen, selected, columnKept, induction]

/-- The contribution of one row to a sum. -/
def weight (select : Row → Bool) (column : Row → Int) (row : Row) : Int :=
  if select row then column row else 0

private theorem list_sum_filter_ne [DecidableEq Key] (rows : List Row)
    (nodup : (rows.map key).Nodup) (wanted : Key)
    (select : Row → Bool) (column : Row → Int) :
    (((rows.filter fun row => decide (key row ≠ wanted)).filter select).map
        column).sum =
      ((rows.filter select).map column).sum -
        ((rows.find? fun row => decide (key row = wanted)).elim 0
          (weight select column)) := by
  induction rows with
  | nil => simp
  | cons row rows induction =>
      simp only [List.map_cons, List.nodup_cons] at nodup
      by_cases same : key row = wanted
      · have keepsAll : (rows.filter fun row => decide (key row ≠ wanted)) =
            rows := by
          apply List.filter_eq_self.mpr
          intro other member
          have different : key other ≠ wanted := by
            intro equality
            exact nodup.1 (List.mem_map.mpr
              ⟨other, member, equality.trans same.symm⟩)
          simpa using different
        have dropped : ((row :: rows).filter fun row =>
            decide (key row ≠ wanted)) = rows := by
          rw [List.filter_cons_of_neg (by simpa using same), keepsAll]
        rw [dropped, List.find?_cons_of_pos (by simpa using same)]
        cases selected : select row <;> simp [selected, weight]
      · rw [List.filter_cons_of_pos (by simpa using same),
          List.find?_cons_of_neg (by simpa using same)]
        cases selected : select row
        · simpa [selected] using induction nodup.2
        · have tail := induction nodup.2
          simp only [selected, List.filter_cons_of_pos, List.map_cons,
            List.sum_cons]
          omega

/-- A sum is made up of its part inside and its part outside a predicate. -/
theorem sumWhere_split (table : KeyedTable key)
    (select part : Row → Bool) (column : Row → Int) :
    table.sumWhere select column =
      table.sumWhere (fun row => select row && part row) column +
        table.sumWhere (fun row => select row && !part row) column := by
  have split := list_sum_filter_split table.rows select part column
  unfold sumWhere
  omega

/-- At most one row contributes to a sum over one key. -/
theorem sumWhere_and_key [DecidableEq Key] (table : KeyedTable key)
    (wanted : Key) (select : Row → Bool) (column : Row → Int) :
    table.sumWhere (fun row => select row && decide (key row = wanted))
        column =
      (table.lookup wanted).elim 0 (weight select column) := by
  have split := table.sumWhere_split select
    (fun row => decide (key row = wanted)) column
  have removed := list_sum_filter_ne table.rows table.nodup wanted
    select column
  have outside : table.sumWhere
      (fun row => select row && !decide (key row = wanted)) column =
        (((table.rows.filter fun row => decide (key row ≠ wanted)).filter
          select).map column).sum := by
    simp only [sumWhere, List.filter_filter, decide_not]
  rw [outside, removed] at split
  unfold sumWhere lookup at *
  omega

/-- A replacement takes away what the replaced row contributed and adds what
the new row contributes. -/
theorem sumWhere_insertOrReplace [DecidableEq Key] (table : KeyedTable key)
    (row : Row) (select : Row → Bool) (column : Row → Int) :
    (table.insertOrReplace row).sumWhere select column =
      table.sumWhere select column -
        (table.lookup (key row)).elim 0 (weight select column) +
          weight select column row := by
  have removed := list_sum_filter_ne table.rows table.nodup (key row)
    select column
  simp only [sumWhere, insertOrReplace, List.filter_append, List.map_append,
    List.sum_append, lookup]
  rw [removed]
  cases selected : select row <;> simp [selected, weight]

theorem sumWhere_nonneg {table : KeyedTable key} {select : Row → Bool}
    {column : Row → Int} (positive : ∀ row ∈ table.rows, 0 ≤ column row) :
    0 ≤ table.sumWhere select column := by
  apply List.sum_nonneg
  intro value member
  obtain ⟨row, rowMember, rfl⟩ := List.mem_map.mp member
  exact positive row (List.mem_of_mem_filter rowMember)

/-- Deleting the rows of some keys of the table deletes one row for each. -/
theorem length_deleteWhere_keys [DecidableEq Key] (table : KeyedTable key)
    {keys : List Key} (distinct : keys.Nodup)
    (present : ∀ wanted ∈ keys, wanted ∈ table.rows.map key) :
    (table.deleteWhere fun row => keys.contains (key row)).rows.length +
      keys.length = table.rows.length := by
  have dropped : ((table.rows.filter fun row => keys.contains (key row)).map
      key).Perm keys := by
    apply (List.perm_ext_iff_of_nodup
      (table.nodup.sublist (List.filter_sublist.map key)) distinct).mpr
    intro wanted
    constructor
    · intro member
      obtain ⟨row, chosen, rfl⟩ := List.mem_map.mp member
      exact List.contains_iff_mem.mp (List.mem_filter.mp chosen).2
    · intro member
      obtain ⟨row, listed, rfl⟩ := List.mem_map.mp (present wanted member)
      exact List.mem_map.mpr ⟨row, List.mem_filter.mpr
        ⟨listed, List.contains_iff_mem.mpr member⟩, rfl⟩
  have counted := dropped.length_eq
  rw [List.length_map] at counted
  have both := List.length_eq_length_filter_add (l := table.rows)
    fun row => keys.contains (key row)
  change (table.rows.filter fun row => !keys.contains (key row)).length +
    keys.length = table.rows.length
  omega

end KeyedTable

end Library
