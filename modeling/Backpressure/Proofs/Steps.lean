import Mathlib.Algebra.BigOperators.Group.List.Basic
import Backpressure.Proofs.Calls

/-!
# What a step of a thread does

* `Thread.hit?_eq_some`, `hit?_eq_none` : when a thread finds fresh analytics, and what this does to the engine;
* `Thread.recomputes` : whether a thread is in the middle of a recomputation;
* `Thread.Step` : one case for each step that a thread can take, `advance_spec` : there is no other.
-/

namespace Backpressure
open Number

variable {K : Type}

/-! ## One element of a list -/

theorem forall_mem_set {α : Type} {P : α → Prop} {l : List α} (h : ∀ a ∈ l, P a) {b : α} (hb : P b) (i : Nat) :
    ∀ a ∈ l.set i b, P a := by
  intro a ha
  rcases List.mem_or_eq_of_mem_set ha with ha | rfl
  · exact h a ha
  · exact hb

theorem set_eq_self {α : Type} {l : List α} {i : Nat} {a : α} (h : l[i]? = some a) : l.set i a = l := by
  obtain ⟨hlt, rfl⟩ := List.getElem?_eq_some_iff.mp h
  exact List.set_getElem_self hlt

/-- An element that takes the place of another one in a list takes its place in a sum. -/
theorem sum_map_set {α M : Type} [AddCommMonoid M] (f : α → M) {l : List α} {i : Nat} {a : α} (h : l[i]? = some a)
    (b : α) : ((l.set i b).map f).sum + f a = (l.map f).sum + f b := by
  induction l generalizing i with
  | nil => cases h
  | cons x rest ih =>
    cases i with
    | zero =>
      cases h
      rw [List.set_cons_zero, List.map_cons, List.map_cons, List.sum_cons, List.sum_cons, add_rotate, add_comm _ (f a)]
    | succ i =>
      rw [List.set_cons_succ, List.map_cons, List.map_cons, List.sum_cons, List.sum_cons, add_assoc, ih h, ← add_assoc]

namespace Thread

/-- Whether a thread has read the entry that it computes from and has not concluded yet. -/
def recomputes (t : Thread K) : Bool :=
  match t.stage with
  | .computing _ _ | .computed _ _ _ => true
  | _ => false

variable [Scalar K] {e : Engine K} {s : Sources K} {t : Thread K}

/-! ## Finding fresh analytics -/

/-- A thread finds fresh analytics if it does not insist on new ones, and only counts them. -/
theorem hit?_eq_some {r : Reply K × Engine K} : t.hit? e s = some r ↔ t.call.forced = false ∧
    ∃ entry, e.cache.get? t.call.id = some entry ∧ e.isFresh s.monotonic entry = true ∧
      r = (⟨.cached, entry.analytics⟩, e.count fun c => { c with cacheHits := c.cacheHits + 1 }) := by
  unfold hit? Engine.hit?
  cases t.call.forced with
  | true => simp
  | false =>
    simp only [Bool.false_eq_true, if_false, Option.map_eq_some_iff, Engine.fresh?_eq_some, true_and]
    constructor
    · rintro ⟨value, ⟨entry, hget, hfresh, rfl⟩, rfl⟩
      exact ⟨entry, hget, hfresh, rfl⟩
    · rintro ⟨entry, hget, hfresh, rfl⟩
      exact ⟨entry.analytics, ⟨entry, hget, hfresh, rfl⟩, rfl⟩

theorem hit?_eq_none : t.hit? e s = none ↔ (t.call.forced = false →
    ∀ entry, e.cache.get? t.call.id = some entry → e.isFresh s.monotonic entry = false) := by
  rw [Option.eq_none_iff_forall_ne_some]
  constructor
  · intro h hforced entry hget
    exact Bool.eq_false_iff.mpr fun hfresh => h _ (hit?_eq_some.mpr ⟨hforced, entry, hget, hfresh, rfl⟩)
  · intro h r hr
    obtain ⟨hforced, entry, hget, hfresh, -⟩ := hit?_eq_some.mp hr
    rw [h hforced entry hget] at hfresh
    cases hfresh

/-! ## Steps -/

/-- A step of a thread, with the thread and the engine after it. -/
inductive Step (e : Engine K) (s : Sources K) : Thread K → Thread K → Engine K → Prop
  | found {call : Call} {entry : Entry K} (hforced : call.forced = false) (hget : e.cache.get? call.id = some entry)
      (hfresh : e.isFresh s.monotonic entry = true) :
      Step e s ⟨call, .called⟩ ⟨call, .finished (.ok ⟨.cached, entry.analytics⟩)⟩
        (e.count fun c => { c with cacheHits := c.cacheHits + 1 })
  | missed {call : Call} (hhit : hit? ⟨call, .called⟩ e s = none) : Step e s ⟨call, .called⟩ ⟨call, .missed⟩ e
  | registered {call : Call} : Step e s ⟨call, .missed⟩ ⟨call, .waiting (e.slots.register call.id).1⟩
      { e with slots := (e.slots.register call.id).2 }
  | entered {call : Call} {ticket : Ticket} {slots : Slots} (hslots : e.slots.acquire? ticket = some slots) :
      Step e s ⟨call, .waiting ticket⟩ ⟨call, .inside ticket⟩ { e with slots }
  | foundInside {call : Call} {ticket : Ticket} {entry : Entry K} (hforced : call.forced = false)
      (hget : e.cache.get? call.id = some entry) (hfresh : e.isFresh s.monotonic entry = true) :
      Step e s ⟨call, .inside ticket⟩ ⟨call, .leaving ticket (.ok ⟨.cached, entry.analytics⟩)⟩
        (e.count fun c => { c with cacheHits := c.cacheHits + 1 })
  | read {call : Call} {ticket : Ticket} (hhit : hit? ⟨call, .inside ticket⟩ e s = none) :
      Step e s ⟨call, .inside ticket⟩ ⟨call, .computing ticket (e.cache.get? call.id)⟩ e
  | computed {call : Call} {ticket : Ticket} {previous : Option (Entry K)} :
      Step e s ⟨call, .computing ticket previous⟩
        ⟨call, .computed ticket previous (Entry.compute s e.config e.stopped call.id previous)⟩ e
  | concluded {call : Call} {ticket : Ticket} {previous : Option (Entry K)} {outcome : Except Error (Entry K)} :
      Step e s ⟨call, .computed ticket previous outcome⟩ ⟨call, .leaving ticket (e.conclude call.id previous outcome).1⟩
        (e.conclude call.id previous outcome).2
  | left {call : Call} {ticket : Ticket} {answer : Except Error (Reply K)} {slots : Slots}
      (hslots : e.slots.release? ticket = some slots) :
      Step e s ⟨call, .leaving ticket answer⟩ ⟨call, .released ticket answer⟩ { e with slots }
  | deregistered {call : Call} {ticket : Ticket} {answer : Except Error (Reply K)} {slots : Slots}
      (hslots : e.slots.deregister? ticket = some slots) :
      Step e s ⟨call, .released ticket answer⟩ ⟨call, .finished answer⟩ { e with slots }
  /-- The thread waits for a slot that is occupied, or has finished. -/
  | stayed {t : Thread K} (hidle : t.recomputes = false) : Step e s t t e

theorem advance_spec (t : Thread K) (e : Engine K) (s : Sources K) :
    Step e s t (t.advance e s).1 (t.advance e s).2 := by
  obtain ⟨call, stage⟩ := t
  unfold advance step
  cases stage with
  | called =>
    dsimp only
    split
    · next reply after hhit =>
      obtain ⟨hforced, entry, hget, hfresh, hfound⟩ := hit?_eq_some.mp hhit
      cases hfound
      exact .found hforced hget hfresh
    · next hhit => exact .missed hhit
  | missed => exact .registered
  | waiting ticket =>
    dsimp only
    split
    · next slots hslots => exact .entered hslots
    · exact .stayed rfl
  | inside ticket =>
    dsimp only
    split
    · next reply after hhit =>
      obtain ⟨hforced, entry, hget, hfresh, hfound⟩ := hit?_eq_some.mp hhit
      cases hfound
      exact .foundInside hforced hget hfresh
    · next hhit => exact .read hhit
  | computing ticket previous => exact .computed
  | computed ticket previous outcome => exact .concluded
  | leaving ticket answer =>
    dsimp only
    split
    · next slots hslots => exact .left hslots
    · exact .stayed rfl
  | released ticket answer =>
    dsimp only
    split
    · next slots hslots => exact .deregistered hslots
    · exact .stayed rfl
  | finished answer => exact .stayed rfl

end Thread

end Backpressure
