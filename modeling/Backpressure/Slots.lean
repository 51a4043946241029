/-!
# Slots for the recomputations in progress

A recomputation of an id runs in the id's slot, one at a time. A thread registers before it waits for the slot, so that
dropping the id from the cache meanwhile makes no second slot.

* `Slot` : the slot of an id, how many threads use it and whether one of them is inside;
* `Ticket` : what a thread holds from registering to deregistering;
* `Slots.register`, `acquire?`, `release?`, `deregister?` : the four steps; the last three fail for a ticket whose slot
  is not in the table, and `acquire?` also while another thread is inside.
-/

namespace Backpressure

/-- The slot of an id. Slots made at different times have different serial numbers. -/
structure Slot where
  id : String
  serial : Nat
  users : Nat
  occupied : Bool
  deriving DecidableEq, Repr

/-- The right of a thread to one slot. -/
structure Ticket where
  id : String
  serial : Nat
  deriving DecidableEq, Repr

/-- The slots in use, in the order in which they were made. -/
structure Slots where
  list : List Slot
  /-- The serial number of the next slot. -/
  nextSerial : Nat
  deriving DecidableEq, Repr

namespace Slots

def empty : Slots := ⟨[], 0⟩

/-- The ids that have a slot. -/
def ids (s : Slots) : List String := s.list.map Slot.id

def find? (s : Slots) (id : String) : Option Slot := s.list.find? fun slot => slot.id == id

def ofTicket? (s : Slots) (t : Ticket) : Option Slot := (s.find? t.id).filter fun slot => slot.serial == t.serial

/-- The slots with the one of an id changed. -/
def modify (s : Slots) (id : String) (f : Slot → Slot) : Slots :=
  { s with list := s.list.map fun slot => if slot.id == id then f slot else slot }

/-- Takes part in the slot of an id, which is made if there is none. -/
def register (s : Slots) (id : String) : Ticket × Slots :=
  match s.find? id with
  | some slot => (⟨id, slot.serial⟩, s.modify id fun slot => { slot with users := slot.users + 1 })
  | none => (⟨id, s.nextSerial⟩, ⟨s.list ++ [⟨id, s.nextSerial, 1, false⟩], s.nextSerial + 1⟩)

/-- Enters a slot that no thread is in. -/
def acquire? (s : Slots) (t : Ticket) : Option Slots :=
  match s.ofTicket? t with
  | some slot => if slot.occupied then none else some (s.modify t.id fun slot => { slot with occupied := true })
  | none => none

/-- Leaves a slot. -/
def release? (s : Slots) (t : Ticket) : Option Slots :=
  match s.ofTicket? t with
  | some slot => if slot.occupied then some (s.modify t.id fun slot => { slot with occupied := false }) else none
  | none => none

/-- Takes no longer part in a slot, which is removed with its last user. -/
def deregister? (s : Slots) (t : Ticket) : Option Slots :=
  match s.ofTicket? t with
  | some slot =>
    if slot.users ≤ 1 then some { s with list := s.list.filter fun slot => slot.id != t.id }
    else some (s.modify t.id fun slot => { slot with users := slot.users - 1 })
  | none => none

/-- Registers for the slot of an id that no thread uses, and enters it. -/
def enter (s : Slots) (id : String) : Ticket × Slots :=
  let (ticket, s) := s.register id
  (ticket, (s.acquire? ticket).getD s)

/-- Leaves a slot and takes no longer part in it. -/
def leave (s : Slots) (t : Ticket) : Slots :=
  let s := (s.release? t).getD s
  (s.deregister? t).getD s

end Slots

end Backpressure
