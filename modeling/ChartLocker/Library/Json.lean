import ChartLocker.Library.KeyedTable
import Mathlib.Data.Rat.Defs

/-!
# JSON values

The values of a JSON parser and the accessors which programs use on them.  An
object denotes a map in which a later member replaces an earlier one of the
same name; `asObject` gives that map as a table with distinct names.
-/

namespace Library

inductive JsonNumber where
  | unsigned (value : Nat)
  | negative (value : Int)
  | float (value : ℚ)
deriving DecidableEq

inductive Json where
  | null
  | bool (value : Bool)
  | number (value : JsonNumber)
  | string (value : String)
  | array (values : List Json)
  | object (members : List (String × Json))

namespace Json

/-- The map of an object. -/
abbrev Members : Type := KeyedTable (@Prod.fst String Json)

def asArray : Json → Option (List Json)
  | .array values => some values
  | _ => none

def asString : Json → Option String
  | .string value => some value
  | _ => none

def asU64 : Json → Option Nat
  | .number (.unsigned value) => some value
  | _ => none

def asObject : Json → Option Members
  | .object members =>
      some (members.foldl KeyedTable.insertOrReplace KeyedTable.empty)
  | _ => none

def names (members : Members) : List String :=
  members.rows.map Prod.fst

/-- The value of a member. -/
def member (members : Members) (name : String) : Option Json :=
  (members.lookup name).map Prod.snd

/-- The value of a member; a value which is not an object has none. -/
def get (value : Json) (name : String) : Option Json :=
  value.asObject.bind fun members => member members name

theorem member_eq_some {members : Members} {name : String} {value : Json} :
    member members name = some value ↔ (name, value) ∈ members.rows := by
  simp only [member, Option.map_eq_some_iff]
  constructor
  · rintro ⟨⟨key, _⟩, found, rfl⟩
    obtain ⟨stored, rfl⟩ := KeyedTable.lookup_eq_some.mp found
    exact stored
  · intro stored
    exact ⟨(name, value), KeyedTable.lookup_eq_some.mpr ⟨stored, rfl⟩, rfl⟩

theorem member_of_mem_names {members : Members} {name : String}
    (known : name ∈ names members) :
    ∃ value, member members name = some value := by
  obtain ⟨⟨_, value⟩, stored, rfl⟩ := List.mem_map.mp known
  exact ⟨value, member_eq_some.mpr stored⟩

/-- A member of an object whose names are distinct. -/
theorem get_object {members : List (String × Json)} {name : String}
    {value : Json} (unique : (members.map Prod.fst).Nodup)
    (found : (name, value) ∈ members) :
    get (.object members) name = some value := by
  have stored : (members.foldl KeyedTable.insertOrReplace
      (KeyedTable.empty : Members)).lookup name = some (name, value) := by
    apply KeyedTable.lookup_foldl_insertOrReplace _ _ (.inl found)
    intro other present same
    exact List.inj_on_of_nodup_map unique present found same
  exact congrArg (Option.map Prod.snd) stored

theorem nodup_names (members : Members) : (names members).Nodup :=
  members.nodup

end Json

end Library
