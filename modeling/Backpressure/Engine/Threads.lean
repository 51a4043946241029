import Backpressure.Engine.Basic

/-!
# Threads that share an engine

A call of a thread takes several steps, and between two of them other threads may act.

* `Stage` : how far a call has come;
* `Thread.advance` : the next step of a thread. A thread that waits for an occupied slot stays where it is;
* `Machine`, `Move`, `Machine.run` : threads that share an engine, and what can happen to them;
* `Machine.overlap` : calls that all begin before the first of them ends.
-/

namespace Backpressure
open Number

/-- What a thread asks for: the analytics of a connection, computed anew in any case or only if none are fresh. -/
structure Call where
  id : String
  forced : Bool
  deriving DecidableEq, Repr

/-- How far a call has come. -/
inductive Stage (K : Type) where
  /-- Not begun. -/
  | called
  /-- The cache held nothing fresh, or was not asked. -/
  | missed
  /-- Registered for the slot of the connection. -/
  | waiting (ticket : Ticket)
  /-- In the slot. -/
  | inside (ticket : Ticket)
  /-- The cache has been read again, and an entry is being computed from what it held. -/
  | computing (ticket : Ticket) (previous : Option (Entry K))
  /-- The computation has ended. -/
  | computed (ticket : Ticket) (previous : Option (Entry K)) (outcome : Except Error (Entry K))
  /-- The answer is known, the slot still occupied. -/
  | leaving (ticket : Ticket) (answer : Except Error (Reply K))
  /-- The slot is free again, the thread still registered. -/
  | released (ticket : Ticket) (answer : Except Error (Reply K))
  | finished (answer : Except Error (Reply K))

/-- A thread and its call. -/
structure Thread (K : Type) where
  call : Call
  stage : Stage K

namespace Thread

variable {K : Type}

def begin (call : Call) : Thread K := ⟨call, .called⟩

/-- The answer of a thread that has finished. -/
def answer? (t : Thread K) : Option (Except Error (Reply K)) :=
  match t.stage with
  | .finished answer => some answer
  | _ => none

variable [Scalar K]

/-- Fresh cached analytics, unless the call asks for new ones in any case. -/
def hit? (t : Thread K) (e : Engine K) (s : Sources K) : Option (Reply K × Engine K) :=
  if t.call.forced then none else e.hit? s t.call.id

/-- The next stage of a thread and the engine after that step. -/
def step (t : Thread K) (e : Engine K) (s : Sources K) : Stage K × Engine K :=
  match t.stage with
  | .called =>
    match t.hit? e s with
    | some (reply, e) => (.finished (.ok reply), e)
    | none => (.missed, e)
  | .missed =>
    let (ticket, slots) := e.slots.register t.call.id
    (.waiting ticket, { e with slots })
  | .waiting ticket =>
    match e.slots.acquire? ticket with
    | some slots => (.inside ticket, { e with slots })
    | none => (.waiting ticket, e)
  | .inside ticket =>
    match t.hit? e s with
    | some (reply, e) => (.leaving ticket (.ok reply), e)
    | none => (.computing ticket (e.cache.get? t.call.id), e)
  | .computing ticket previous =>
    (.computed ticket previous (Entry.compute s e.config e.stopped t.call.id previous), e)
  | .computed ticket previous outcome =>
    let (answer, e) := e.conclude t.call.id previous outcome
    (.leaving ticket answer, e)
  | .leaving ticket answer =>
    match e.slots.release? ticket with
    | some slots => (.released ticket answer, { e with slots })
    | none => (.leaving ticket answer, e)
  | .released ticket answer =>
    match e.slots.deregister? ticket with
    | some slots => (.finished answer, { e with slots })
    | none => (.released ticket answer, e)
  | .finished answer => (.finished answer, e)

/-- The thread and the engine after the next step of the thread. -/
def advance (t : Thread K) (e : Engine K) (s : Sources K) : Thread K × Engine K :=
  let (stage, e) := t.step e s
  ({ t with stage }, e)

end Thread

/-- Threads that share an engine and its surroundings. -/
structure Machine (K : Type) where
  engine : Engine K
  sources : Sources K
  threads : List (Thread K)

/-- What can happen to threads that share an engine. -/
inductive Move (K : Type) where
  /-- A new thread begins a call. -/
  | begin (call : Call)
  /-- The thread of this number takes its next step. -/
  | advance (index : Nat)
  | invalidate (id : String)
  | invalidateAll
  /-- The surroundings change. -/
  | surround (sources : Sources K)

namespace Machine

variable {K : Type} [Scalar K]

def apply (m : Machine K) : Move K → Machine K
  | .begin call => { m with threads := m.threads ++ [Thread.begin call] }
  | .advance i =>
    match m.threads[i]? with
    | some t =>
      let (t, engine) := t.advance m.engine m.sources
      { m with engine, threads := m.threads.set i t }
    | none => m
  | .invalidate id => { m with engine := (m.engine.invalidate id).2 }
  | .invalidateAll => { m with engine := m.engine.invalidateAll }
  | .surround sources => { m with sources }

/-- The machine after moves one after another. -/
def run (m : Machine K) (moves : List (Move K)) : Machine K := moves.foldl apply m

/-- The number of steps from the start of a call to its end. -/
def stepsOfCall : Nat := 8

/-- The moves of calls that all find nothing fresh, or go on to their slots in any case, before the first of them enters
one; then each goes on to its end. -/
def overlapping (calls : List Call) : List (Move K) :=
  let indices := List.range calls.length
  calls.map .begin ++ indices.flatMap (fun i => List.replicate 2 (.advance i)) ++
    indices.flatMap fun i => List.replicate (stepsOfCall - 2) (.advance i)

/-- The answers to calls that all begin before the first of them ends, and the engine after them. -/
def overlap (e : Engine K) (s : Sources K) (calls : List Call) : List (Except Error (Reply K)) × Engine K :=
  let m := (Machine.mk e s []).run (overlapping calls)
  (m.threads.filterMap Thread.answer?, m.engine)

end Machine

end Backpressure
