import ChartLocker.Library.KeyedTable
import ChartLocker.Library.Doubles

/-!
# The chart registry

The records of the discovered charts, by their identifier.  The identifier is
a lossy function of the file name.
-/

namespace ChartLocker.Plugin.Charts

open Library Doubles

/-- `nameToId`, which replaces the first occurrence only. -/
def nameToId : List Char → List Char
  | [] => []
  | head :: rest =>
      if ".pmtiles".toList.isPrefixOf (head :: rest) then
        "-pmtiles".toList ++ (head :: rest).drop ".pmtiles".length
      else
        head :: nameToId rest

/-- What `stat` and `fstat` tell of a file, with integers of any size. -/
structure FileInfo where
  isFile : Bool
  dev : ℕ
  ino : ℕ
  size : ℕ
  mtimeMs : Int
  mtimeNs : Int
deriving DecidableEq, Repr

/-- The identity of a file as a scan captures it. -/
structure FileIdentity where
  mtimeMs : Int
  mtimeNs : Int
  device : ℕ
  inode : ℕ
  bytes : ℕ
deriving DecidableEq, Repr

structure ChartNaming where
  name : List Char
  description : List Char
  scale : ℕ
deriving DecidableEq, Repr

structure ChartRecord (Decoded : Type) where
  identifier : List Char
  fileName : List Char
  filePath : List Char
  naming : ChartNaming
  decoded : Decoded
  mtimeMs : Option Int
  mtimeNs : Option Int
  device : Option ℕ
  inode : Option ℕ
  bytes : Option ℕ
deriving DecidableEq

structure ChartRegistry (Decoded : Type) where
  records : KeyedTable (@ChartRecord.identifier Decoded)
  errors : KeyedTable (@Prod.fst (List Char) String)

namespace ChartRegistry

variable {Decoded : Type}

/-- Publishes one complete snapshot. -/
def replace (records : List (ChartRecord Decoded))
    (errors : List (List Char × String)) : ChartRegistry Decoded where
  records := records.foldl KeyedTable.insertOrReplace .empty
  errors := errors.foldl KeyedTable.insertOrReplace .empty

def record (registry : ChartRegistry Decoded) (id : List Char) :
    Option (ChartRecord Decoded) :=
  registry.records.lookup id

end ChartRegistry

end ChartLocker.Plugin.Charts
