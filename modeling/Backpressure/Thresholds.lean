import Backpressure.DataSize
import Backpressure.Table

/-!
# Backpressure thresholds

* `Thresholds` : the limits of a connection, each of them optional;
* `ThresholdDirectory` : the thresholds of the known connections, with `register`, `remove`, `resolve` and `ids`;
* `ThresholdRow` : the thresholds of a row of the connections table. A size that is not well formed counts as none.
-/

namespace Backpressure

/-- The limits of a connection. -/
structure Thresholds where
  bytes : Option Limit
  count : Option Limit
  deriving DecidableEq, Repr

/-- The thresholds of the known connections. -/
structure ThresholdDirectory where
  table : Table Thresholds
  deriving DecidableEq, Repr

namespace ThresholdDirectory

def empty : ThresholdDirectory := ⟨Table.empty⟩

/-- Records the limits of a connection, in place of earlier ones; a size that cannot be read changes nothing. -/
def register (d : ThresholdDirectory) (id : String) (bytes : Reading) (count : Option Limit) :
    Except Error (Thresholds × ThresholdDirectory) := do
  let limits : Thresholds := ⟨← DataSize.parse bytes, count⟩
  return (limits, ⟨d.table.insert id limits⟩)

def remove (d : ThresholdDirectory) (id : String) : ThresholdDirectory := ⟨d.table.erase id⟩

def resolve (d : ThresholdDirectory) (id : String) : Except Error Thresholds :=
  match d.table.get? id with
  | some limits => .ok limits
  | none => .error (.unknownConnection id)

/-- The known connections, by code point. -/
def ids (d : ThresholdDirectory) : List String := d.table.sortedKeys

end ThresholdDirectory

/-- A row of the connections table: the size limit as a text, and the limit on objects. -/
structure ThresholdRow where
  size : Reading
  objects : Reading

namespace ThresholdRow

def toThresholds (r : ThresholdRow) : Except Error Thresholds := do
  let bytes ← match DataSize.parse r.size with
    | .ok limit => pure limit
    | .error e => if DataSize.isMalformed e then pure none else throw e
  match r.objects with
  | .missing => return ⟨bytes, none⟩
  | cell => return ⟨bytes, some (.amount (← cell.toInt))⟩

/-- The limits of the connection `id`, from the row that the table holds for it. -/
def resolve (id : String) : Option ThresholdRow → Except Error Thresholds
  | some row => row.toThresholds
  | none => .error (.unknownConnection id)

/-- The connections that the first cells of rows name. -/
def connections (cells : List Reading) : List String := cells.map Reading.toText

end ThresholdRow

end Backpressure
