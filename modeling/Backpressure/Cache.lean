import Backpressure.Table

/-!
# The bounded cache

`Cache α` holds the values of at most `capacity` ids, in the order in which they were last put. Putting one more id
drops those put longest ago; reading an id does not move it.
-/

namespace Backpressure

/-- Values by id, at most `capacity` of them. -/
structure Cache (α : Type) where
  capacity : Nat
  table : Table α
  deriving DecidableEq, Repr

namespace Cache

variable {α : Type}

/-- The cache without values that holds `n` ids, at least one. -/
def empty (n : Int) : Cache α := ⟨(max 1 n).toNat, Table.empty⟩

def get? (c : Cache α) (id : String) : Option α := c.table.get? id

/-- The ids in the order in which they were last put. -/
def ids (c : Cache α) : List String := c.table.keys

def size (c : Cache α) : Nat := c.table.size

/-- The cache with a value for an id, which is now the id put last. -/
def put (c : Cache α) (id : String) (a : α) : Cache α :=
  { c with table := (c.table.insert id a).keepLast c.capacity }

def drop (c : Cache α) (id : String) : Cache α := { c with table := c.table.erase id }

/-- Drops an id and says whether it was there. -/
def invalidate (c : Cache α) (id : String) : Bool × Cache α := (c.table.contains id, c.drop id)

def clear (c : Cache α) : Cache α := { c with table := Table.empty }

end Cache

end Backpressure
