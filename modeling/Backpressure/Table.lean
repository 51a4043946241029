/-!
# Tables keyed by text

`Table α` holds one value for each of finitely many keys and remembers the order in which the keys were last written.

* `get?`, `insert`, `erase`, `keys`, `size`;
* `sortedKeys` : the keys by code point.
-/

namespace Backpressure

/-- Values by key, the key written last at the end. -/
structure Table (α : Type) where
  entries : List (String × α)
  deriving DecidableEq, Repr

namespace Table

variable {α : Type}

def empty : Table α := ⟨[]⟩

def get? (t : Table α) (key : String) : Option α := t.entries.lookup key

def contains (t : Table α) (key : String) : Bool := (t.get? key).isSome

def erase (t : Table α) (key : String) : Table α := ⟨t.entries.filter fun e => e.1 != key⟩

/-- The table with a value for a key, which is now the key written last. -/
def insert (t : Table α) (key : String) (a : α) : Table α := ⟨(t.erase key).entries ++ [(key, a)]⟩

/-- The keys, the one written last at the end. -/
def keys (t : Table α) : List String := t.entries.map Prod.fst

def size (t : Table α) : Nat := t.entries.length

/-- The table without the keys written first, as many of them as make it larger than `n`. -/
def keepLast (t : Table α) (n : Nat) : Table α := ⟨t.entries.drop (t.size - n)⟩

/-- The keys by code point. -/
def sortedKeys (t : Table α) : List String := t.keys.mergeSort fun a b => !(b < a)

end Table

end Backpressure
