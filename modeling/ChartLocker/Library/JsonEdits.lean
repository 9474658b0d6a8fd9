import ChartLocker.Library.Json
import Mathlib.Data.List.Induction

/-!
# Edits of JSON objects

Inserting and removing a member of an object, and the assignment to a place in
a value (`value[name] = …`), which fails on a value which is neither an object
nor null.
-/

namespace Library.Json

/-- A later member replaces an earlier one of its name. -/
def insertMember (members : List (String × Json)) (name : String)
    (value : Json) : List (String × Json) :=
  members ++ [(name, value)]

def removeMember (members : List (String × Json)) (name : String) :
    List (String × Json) :=
  members.filter fun member => member.1 != name

/-- The place `value[name]`, null where there is no such member yet. -/
def place (value : Json) (name : String) : Option Json :=
  match value with
  | .object members => some ((get (.object members) name).getD .null)
  | .null => some .null
  | _ => none

/-- The value after the assignment to the place `value[name]`. -/
def assign (value : Json) (name : String) (new : Json) : Option Json :=
  match value with
  | .object members => some (.object (insertMember members name new))
  | .null => some (.object [(name, new)])
  | _ => none

variable {members : List (String × Json)} {name other : String}
  {value new : Json}

theorem get_insertMember :
    get (.object (insertMember members name new)) other =
      if other = name then some new else get (.object members) other := by
  simp only [get, asObject, Option.bind_some, insertMember, member,
    List.foldl_append, List.foldl_cons, List.foldl_nil,
    KeyedTable.lookup_insertOrReplace]
  split
  · rfl
  · rfl

theorem get_removeMember :
    get (.object (removeMember members name)) other =
      if other = name then none else get (.object members) other := by
  induction members using List.reverseRecOn with
  | nil =>
      split
      · rfl
      · rfl
  | append_singleton before last induction =>
      have inserted : get (.object (before ++ [last])) other =
          if other = last.1 then some last.2
          else get (.object before) other := by
        exact get_insertMember
      have filtered : removeMember (before ++ [last]) name =
          if last.1 = name then removeMember before name
          else insertMember (removeMember before name) last.1 last.2 := by
        simp only [removeMember, insertMember, List.filter_append]
        split
        · next same => simp [same]
        · next different => simp [different]
      rw [filtered, inserted]
      split
      · next dropped =>
        rw [induction]
        split
        · rfl
        · next kept =>
          rw [if_neg]
          intro same
          exact kept (same.trans dropped)
      · next kept =>
        rw [get_insertMember, induction]
        split
        · next same =>
          rw [if_neg]
          intro removed
          exact kept (same.symm.trans removed)
        · rfl

theorem object_of_get (found : get value name = some new) :
    ∃ members, value = .object members := by
  cases value with
  | object members => exact ⟨members, rfl⟩
  | _ => cases found

theorem place_of_get (found : get value name = some new) :
    place value name = some new := by
  obtain ⟨members, rfl⟩ := object_of_get found
  simp only [place, found, Option.getD_some]

end Library.Json
