import Backpressure.Proofs.Reachable

/-!
# One thread in a slot

Workers use the slots as recomputations do, while values are put into the cache and dropped from it. A worker registers
for the slot of its id, enters the slot, leaves it when its body has ended, and deregisters.

* `Slots.Guard s inside` : each slot says whether a thread is inside, and there is never a second one;
* `Workshop`, `Workshop.Move`, `Workshop.run` : workers that share a cache and slots, and what can happen to them;
* `Workshop.Orderly` : what every step of every worker preserves, `Orderly.apply`, `Orderly.run`;
* `Workshop.slots_are_exclusive` : what this says about slots and workers after any moves;
* `Machine.workshop`, `Machine.exists_workshop_run` : the threads that share an engine are such workers.
-/

namespace Backpressure
open Number

/-! ## Who is in a slot -/

namespace Slots

/-- Each slot is occupied if one thread is inside with its ticket, and no slot has two threads inside. -/
def Guard (s : Slots) (inside : List (Option Ticket)) : Prop :=
  ∀ slot ∈ s.list, inside.count (some ⟨slot.id, slot.serial⟩) = slot.occupied.toNat

theorem ofTicket?_of_mem {s : Slots} (hnodup : s.ids.Nodup) {slot : Slot} (h : slot ∈ s.list) :
    s.ofTicket? ⟨slot.id, slot.serial⟩ = some slot := by
  unfold ofTicket?
  rw [find?_of_mem hnodup h]
  simp

/-- Each ticket that a thread holds has its slot. -/
theorem Tally.ofTicket? {s : Slots} {held : List (Option Ticket)} (h : Tally s held) {t : Ticket} (ht : some t ∈ held) :
    ∃ slot ∈ s.list, s.ofTicket? t = some slot ∧ t = ⟨slot.id, slot.serial⟩ := by
  obtain ⟨slot, hslot, hid, hserial⟩ := h.found t ht
  have heq : t = ⟨slot.id, slot.serial⟩ := by rw [hid, hserial]
  exact ⟨slot, hslot, heq ▸ ofTicket?_of_mem h.nodup hslot, heq⟩

/-- Two holders of tickets for one id hold the same ticket. -/
theorem Tally.eq_of_id_eq {s : Slots} {held : List (Option Ticket)} (h : Tally s held) {t u : Ticket}
    (ht : some t ∈ held) (hu : some u ∈ held) (hid : t.id = u.id) : t = u := by
  obtain ⟨a, ha, -, rfl⟩ := h.ofTicket? ht
  obtain ⟨b, hb, -, rfl⟩ := h.ofTicket? hu
  rw [Slots.eq_of_id_eq h.nodup ha hb hid]

namespace Guard

variable {s s' : Slots} {held inside : List (Option Ticket)} {i : Nat} {t : Ticket}

theorem append_none (h : Guard s inside) : Guard s (inside ++ [none]) := by
  intro slot hslot
  simpa using h slot hslot

/-- The ticket of a new slot is new. -/
theorem register (h : Guard s inside) (hs : Tally s held) (hinside : ∀ t, some t ∈ inside → some t ∈ held)
    (id : String) : Guard (s.register id).2 inside := by
  unfold Slots.register
  split
  · intro new hnew
    obtain ⟨old, hold, rfl⟩ := mem_modify.mp hnew
    split <;> exact h old hold
  · next hfind =>
    intro new hnew
    rcases List.mem_append.mp hnew with hold | hnew
    · exact h new hold
    · rw [List.mem_singleton.mp hnew]
      refine List.count_eq_zero.mpr fun hmem => ?_
      obtain ⟨slot, hslot, -, heq⟩ := hs.ofTicket? (hinside _ hmem)
      exact ne_of_find?_eq_none hfind slot hslot (congrArg Ticket.id heq).symm

theorem acquire (h : Guard s inside) (hs : s.ids.Nodup) (hi : inside[i]? = some none) (ha : s.acquire? t = some s') :
    Guard s' (inside.set i (some t)) := by
  unfold acquire? at ha
  split at ha
  · next slot hticket =>
    obtain ⟨hmem, hid, hserial⟩ := mem_of_ofTicket? hticket
    split at ha
    · cases ha
    · next hfree =>
      cases ha
      intro new hnew
      obtain ⟨old, hold, rfl⟩ := mem_modify.mp hnew
      rw [count_set_some hi]
      split
      · next heq =>
        have : old = slot := eq_of_id_eq hs hold hmem ((beq_iff_eq.mp heq).trans hid.symm)
        subst this
        rw [if_pos (by rw [hid, hserial]), h old hold]
        simp [hfree]
      · next hne =>
        have hid' : old.id ≠ t.id := by simpa using hne
        rw [if_neg fun heq => hid' (by rw [heq]), h old hold, Nat.add_zero]
  · cases ha

theorem release (h : Guard s inside) (hs : s.ids.Nodup) (hi : inside[i]? = some (some t))
    (hr : s.release? t = some s') : Guard s' (inside.set i none) := by
  unfold release? at hr
  split at hr
  · next slot hticket =>
    obtain ⟨hmem, hid, hserial⟩ := mem_of_ofTicket? hticket
    split at hr
    · next hoccupied =>
      cases hr
      intro new hnew
      obtain ⟨old, hold, rfl⟩ := mem_modify.mp hnew
      rw [count_set_none hi]
      split
      · next heq =>
        have : old = slot := eq_of_id_eq hs hold hmem ((beq_iff_eq.mp heq).trans hid.symm)
        subst this
        rw [if_pos (by rw [hid, hserial]), h old hold, hoccupied]
        rfl
      · next hne =>
        have hid' : old.id ≠ t.id := by simpa using hne
        rw [if_neg fun heq => hid' (by rw [heq]), h old hold, Nat.sub_zero]
    · cases hr
  · cases hr

theorem deregister (h : Guard s inside) (hd : s.deregister? t = some s') : Guard s' inside := by
  unfold deregister? at hd
  split at hd
  · split at hd
    · cases hd
      intro old hold
      exact h old (List.mem_filter.mp hold).1
    · cases hd
      intro new hnew
      obtain ⟨old, hold, rfl⟩ := mem_modify.mp hnew
      split <;> exact h old hold
  · cases hd

end Guard

end Slots

/-! ## Workers -/

/-- How far a worker is with the slot of its id. `ε` is what can be raised while it waits or is inside. -/
inductive Phase (ε : Type) where
  /-- Not registered. `raised` is what ended the last use of the slot, if it did not end normally. -/
  | outside (raised : Option ε)
  | waiting (ticket : Ticket)
  | inside (ticket : Ticket)
  /-- No longer in the slot, still registered. -/
  | released (ticket : Ticket) (raised : Option ε)

structure Worker (ε : Type) where
  id : String
  phase : Phase ε

namespace Worker

variable {ε : Type}

/-- The ticket of a worker that is registered. -/
def ticket? (k : Worker ε) : Option Ticket :=
  match k.phase with
  | .outside _ => none
  | .waiting ticket | .inside ticket | .released ticket _ => some ticket

/-- The ticket of a worker that is in its slot. -/
def inside? (k : Worker ε) : Option Ticket :=
  match k.phase with
  | .inside ticket => some ticket
  | _ => none

/-- The next phase of a worker and the slots after that step. A worker that is raised at while it waits gives up; a body
that is raised at ends, and so does one that is not. -/
def step (k : Worker ε) (slots : Slots) (raised : Option ε) : Phase ε × Slots :=
  match k.phase with
  | .outside _ =>
    let (ticket, slots) := slots.register k.id
    (.waiting ticket, slots)
  | .waiting ticket =>
    match raised, slots.acquire? ticket with
    | some error, _ => (.released ticket (some error), slots)
    | none, some slots => (.inside ticket, slots)
    | none, none => (.waiting ticket, slots)
  | .inside ticket =>
    match slots.release? ticket with
    | some slots => (.released ticket raised, slots)
    | none => (.inside ticket, slots)
  | .released ticket before =>
    match slots.deregister? ticket with
    | some slots => (.outside before, slots)
    | none => (.released ticket before, slots)

/-- The worker and the slots after the next step of the worker. -/
def advance (k : Worker ε) (slots : Slots) (raised : Option ε) : Worker ε × Slots :=
  let (phase, slots) := k.step slots raised
  ({ k with phase }, slots)

theorem ticket?_of_inside? {k : Worker ε} {t : Ticket} (h : k.inside? = some t) : k.ticket? = some t := by
  unfold inside? at h
  unfold ticket?
  split at h
  · next hphase => rw [hphase, ← h]
  · cases h

end Worker

/-- Workers that share a cache and slots. -/
structure Workshop (α ε : Type) where
  cache : Cache α
  slots : Slots
  workers : List (Worker ε)

namespace Workshop

/-- What can happen to workers that share a cache and slots. -/
inductive Move (α ε : Type) where
  /-- A new worker comes, for an id. -/
  | arrive (id : String)
  /-- The worker of this number takes its next step; a worker that waits or is inside may be `raised` at. -/
  | advance (index : Nat) (raised : Option ε)
  /-- A value is put, which drops others if there are too many. -/
  | put (id : String) (a : α)
  | invalidate (id : String)
  | clear

variable {α ε : Type}

def empty (n : Int) : Workshop α ε := ⟨Cache.empty n, Slots.empty, []⟩

def apply (w : Workshop α ε) : Move α ε → Workshop α ε
  | .arrive id => { w with workers := w.workers ++ [⟨id, .outside none⟩] }
  | .advance i raised =>
    match w.workers[i]? with
    | some k =>
      let (k, slots) := k.advance w.slots raised
      { w with slots, workers := w.workers.set i k }
    | none => w
  | .put id a => { w with cache := w.cache.put id a }
  | .invalidate id => { w with cache := (w.cache.invalidate id).2 }
  | .clear => { w with cache := w.cache.clear }

/-- The workshop after moves one after another. -/
def run (w : Workshop α ε) (moves : List (Move α ε)) : Workshop α ε := moves.foldl apply w

/-- The slots account for the tickets of the workers and for those of the workers inside, and each worker holds a ticket
for its own id. -/
structure Orderly (w : Workshop α ε) : Prop where
  tally : w.slots.Tally (w.workers.map Worker.ticket?)
  guard : w.slots.Guard (w.workers.map Worker.inside?)
  own : ∀ k ∈ w.workers, ∀ t, k.ticket? = some t → t.id = k.id

namespace Orderly

variable {w : Workshop α ε}

theorem of_rest {cache : Cache α} {slots : Slots} (h : slots.list = []) :
    Orderly (⟨cache, slots, []⟩ : Workshop α ε) := by
  refine ⟨⟨?_, ?_, ?_, ?_⟩, ?_, ?_⟩ <;> simp [h, Slots.ids, Slots.Guard]

theorem mem_of_inside (w : Workshop α ε) (t : Ticket) (h : some t ∈ w.workers.map Worker.inside?) :
    some t ∈ w.workers.map Worker.ticket? := by
  obtain ⟨k, hk, hinside⟩ := List.mem_map.mp h
  exact List.mem_map.mpr ⟨k, hk, Worker.ticket?_of_inside? hinside⟩

theorem register_id (s : Slots) (id : String) : (s.register id).1.id = id := by
  unfold Slots.register
  split <;> rfl

/-- One step of one worker. In each phase one of the four steps of the slots is taken, or none. -/
theorem advance (h : Orderly w) {i : Nat} {k : Worker ε} (hi : w.workers[i]? = some k) (raised : Option ε) :
    Orderly { w with
      slots := (k.advance w.slots raised).2
      workers := w.workers.set i (k.advance w.slots raised).1 } := by
  have hheld : (w.workers.map Worker.ticket?)[i]? = some k.ticket? := by rw [List.getElem?_map, hi]; rfl
  have hinside : (w.workers.map Worker.inside?)[i]? = some k.inside? := by rw [List.getElem?_map, hi]; rfl
  have hown := h.own k (List.mem_of_getElem? hi)
  -- It is enough to give the account for the new phase of this worker.
  suffices hstep : (k.advance w.slots raised).2.Tally
        ((w.workers.map Worker.ticket?).set i (k.advance w.slots raised).1.ticket?) ∧
      (k.advance w.slots raised).2.Guard
        ((w.workers.map Worker.inside?).set i (k.advance w.slots raised).1.inside?) ∧
      ∀ t, (k.advance w.slots raised).1.ticket? = some t → t.id = k.id by
    obtain ⟨htally, hguard, hid⟩ := hstep
    refine ⟨?_, ?_, ?_⟩
    · rw [List.map_set]
      exact htally
    · rw [List.map_set]
      exact hguard
    · exact forall_mem_set h.own hid i
  have hsameHeld : (w.workers.map Worker.ticket?).set i k.ticket? = w.workers.map Worker.ticket? := set_eq_self hheld
  have hsameInside : (w.workers.map Worker.inside?).set i k.inside? = w.workers.map Worker.inside? :=
    set_eq_self hinside
  obtain ⟨id, phase⟩ := k
  unfold Worker.advance Worker.step
  cases phase with
  | outside before =>
    refine ⟨h.tally.register hheld id, ?_, ?_⟩
    · exact hsameInside.symm ▸ h.guard.register h.tally (mem_of_inside w) id
    · intro t ht
      cases ht
      exact register_id w.slots id
  | waiting ticket =>
    dsimp only
    split
    · exact ⟨hsameHeld.symm ▸ h.tally, hsameInside.symm ▸ h.guard, hown⟩
    · next slots hslots =>
      exact ⟨hsameHeld.symm ▸ h.tally.acquire hslots, h.guard.acquire h.tally.nodup hinside hslots, hown⟩
    · exact ⟨hsameHeld.symm ▸ h.tally, hsameInside.symm ▸ h.guard, hown⟩
  | inside ticket =>
    dsimp only
    split
    · next slots hslots =>
      exact ⟨hsameHeld.symm ▸ h.tally.release hslots, h.guard.release h.tally.nodup hinside hslots, hown⟩
    · exact ⟨hsameHeld.symm ▸ h.tally, hsameInside.symm ▸ h.guard, hown⟩
  | released ticket before =>
    dsimp only
    split
    · next slots hslots =>
      refine ⟨h.tally.deregister hheld hslots, hsameInside.symm ▸ h.guard.deregister hslots, ?_⟩
      intro t ht
      cases ht
    · exact ⟨hsameHeld.symm ▸ h.tally, hsameInside.symm ▸ h.guard, hown⟩

theorem apply (h : Orderly w) (move : Move α ε) : Orderly (w.apply move) := by
  cases move with
  | arrive id =>
    refine ⟨?_, ?_, ?_⟩
    · show w.slots.Tally ((w.workers ++ [_]).map Worker.ticket?)
      rw [List.map_append]
      exact h.tally.append_none
    · show w.slots.Guard ((w.workers ++ [_]).map Worker.inside?)
      rw [List.map_append]
      exact h.guard.append_none
    · intro k hk t ht
      rcases List.mem_append.mp hk with hk | hk
      · exact h.own k hk t ht
      · rw [List.mem_singleton.mp hk] at ht
        cases ht
  | advance i raised =>
    unfold Workshop.apply
    dsimp only
    split
    · next k hi => exact h.advance hi raised
    · exact h
  | put id a => exact ⟨h.tally, h.guard, h.own⟩
  | invalidate id => exact ⟨h.tally, h.guard, h.own⟩
  | clear => exact ⟨h.tally, h.guard, h.own⟩

theorem run (h : Orderly w) (moves : List (Move α ε)) : Orderly (w.run moves) := by
  induction moves generalizing w with
  | nil => exact h
  | cons move rest ih => exact ih (h.apply move)

/-! ## What order means -/

theorem mem_held {k : Worker ε} (hk : k ∈ w.workers) {t : Ticket} (ht : k.ticket? = some t) :
    some t ∈ w.workers.map Worker.ticket? := List.mem_map.mpr ⟨k, hk, ht⟩

/-- A registered worker holds the ticket of the slot of its id. -/
theorem ticket (h : Orderly w) {k : Worker ε} (hk : k ∈ w.workers) {t : Ticket} (ht : k.ticket? = some t) :
    ∃ slot ∈ w.slots.list, w.slots.ofTicket? t = some slot ∧ slot.id = k.id ∧ t = ⟨slot.id, slot.serial⟩ := by
  obtain ⟨slot, hslot, hfind, heq⟩ := h.tally.ofTicket? (mem_held hk ht)
  refine ⟨slot, hslot, hfind, ?_, heq⟩
  rw [← h.own k hk t ht, heq]

/-- Two workers inside for one id are the same worker: their tickets are equal and none is inside twice. -/
theorem eq_of_inside (h : Orderly w) {i j : Nat} {k l : Worker ε} (hi : w.workers[i]? = some k)
    (hj : w.workers[j]? = some l) (hk : k.inside?.isSome) (hl : l.inside?.isSome) (hid : k.id = l.id) : i = j := by
  obtain ⟨t, ht⟩ := Option.isSome_iff_exists.mp hk
  obtain ⟨u, hu⟩ := Option.isSome_iff_exists.mp hl
  have hkmem := List.mem_of_getElem? hi
  have hlmem := List.mem_of_getElem? hj
  have ht' := Worker.ticket?_of_inside? ht
  have hu' := Worker.ticket?_of_inside? hu
  have heq : t = u := by
    refine h.tally.eq_of_id_eq (mem_held hkmem ht') (mem_held hlmem hu') ?_
    rw [h.own k hkmem t ht', h.own l hlmem u hu', hid]
  subst heq
  obtain ⟨slot, hslot, -, -, hticket⟩ := h.ticket hkmem ht'
  have hcount : (w.workers.map Worker.inside?).count (some t) ≤ 1 := by
    rw [hticket, h.guard slot hslot]
    exact Bool.toNat_le _
  have hi' : (w.workers.map Worker.inside?)[i]? = some (some t) := by rw [List.getElem?_map, hi, Option.map_some, ht]
  have hj' : (w.workers.map Worker.inside?)[j]? = some (some t) := by rw [List.getElem?_map, hj, Option.map_some, hu]
  by_contra hne
  -- Without worker `i` nobody would be inside with this ticket, but worker `j` is.
  have hzero := Slots.count_set_none hi' t
  rw [if_pos rfl] at hzero
  have hmem : some t ∈ (w.workers.map Worker.inside?).set i none := by
    refine List.mem_of_getElem? (i := j) ?_
    rw [List.getElem?_set_ne hne]
    exact hj'
  have hpos := List.count_pos_iff.mpr hmem
  omega

/-- A slot counts the workers that are registered for its id. -/
theorem users_eq (h : Orderly w) {slot : Slot} (hslot : slot ∈ w.slots.list) :
    slot.users = w.workers.countP fun k => k.ticket?.isSome && k.id == slot.id := by
  rw [h.tally.users slot hslot, List.count_eq_countP, List.countP_map]
  refine List.countP_congr fun k hk => ?_
  simp only [Function.comp_apply, beq_iff_eq, Bool.and_eq_true]
  constructor
  · intro ht
    exact ⟨Option.isSome_iff_exists.mpr ⟨_, ht⟩, (h.own k hk _ ht).symm⟩
  · rintro ⟨hsome, hid⟩
    obtain ⟨t, ht⟩ := Option.isSome_iff_exists.mp hsome
    obtain ⟨other, hother, -, hotherId, rfl⟩ := h.ticket hk ht
    rw [ht, Slots.eq_of_id_eq h.tally.nodup hother hslot (hotherId.trans hid)]

/-- There is a slot for an id exactly while a worker is registered for it. -/
theorem mem_ids_iff (h : Orderly w) (id : String) :
    id ∈ w.slots.ids ↔ ∃ k ∈ w.workers, k.id = id ∧ k.ticket?.isSome := by
  constructor
  · intro hid
    obtain ⟨slot, hslot, rfl⟩ := List.mem_map.mp hid
    have hused := h.tally.used slot hslot
    rw [h.users_eq hslot, List.countP_pos_iff] at hused
    obtain ⟨k, hk, hregistered⟩ := hused
    simp only [Bool.and_eq_true, beq_iff_eq] at hregistered
    exact ⟨k, hk, hregistered.2, hregistered.1⟩
  · rintro ⟨k, hk, rfl, hsome⟩
    obtain ⟨t, ht⟩ := Option.isSome_iff_exists.mp hsome
    obtain ⟨slot, hslot, -, hid, -⟩ := h.ticket hk ht
    exact hid ▸ List.mem_map_of_mem hslot

/-- A worker that waits can enter exactly if no worker is inside for its id. -/
theorem acquire_iff (h : Orderly w) {k : Worker ε} (hk : k ∈ w.workers) {t : Ticket} (ht : k.ticket? = some t) :
    (w.slots.acquire? t).isSome ↔ ∀ l ∈ w.workers, l.id = k.id → l.inside? = none := by
  obtain ⟨slot, hslot, hfind, hid, hticket⟩ := h.ticket hk ht
  have hfree : (w.slots.acquire? t).isSome ↔ slot.occupied = false := by
    unfold Slots.acquire?
    cases hoccupied : slot.occupied <;> simp [hfind, hoccupied]
  have hguard := h.guard slot hslot
  rw [← hticket] at hguard
  have hzero : slot.occupied = false ↔ (w.workers.map Worker.inside?).count (some t) = 0 := by
    rw [hguard]
    cases slot.occupied <;> simp
  rw [hfree, hzero, List.count_eq_zero]
  constructor
  · intro hnone l hl hlid
    cases hinside : l.inside? with
    | none => rfl
    | some u =>
      have hu := Worker.ticket?_of_inside? hinside
      have heq : u = t := by
        refine h.tally.eq_of_id_eq (mem_held hl hu) (mem_held hk ht) ?_
        rw [h.own l hl u hu, h.own k hk t ht, hlid]
      exact absurd (List.mem_map.mpr ⟨l, hl, heq ▸ hinside⟩) hnone
  · intro hnone hmem
    obtain ⟨l, hl, hinside⟩ := List.mem_map.mp hmem
    have hlid : l.id = k.id := by
      rw [← h.own l hl t (Worker.ticket?_of_inside? hinside), h.own k hk t ht]
    rw [hnone l hl hlid] at hinside
    cases hinside

theorem release_isSome (h : Orderly w) {k : Worker ε} (hk : k ∈ w.workers) {t : Ticket} (ht : k.inside? = some t) :
    (w.slots.release? t).isSome := by
  obtain ⟨slot, hslot, hfind, -, hticket⟩ := h.ticket hk (Worker.ticket?_of_inside? ht)
  have hpos : 0 < (w.workers.map Worker.inside?).count (some t) :=
    List.count_pos_iff.mpr (List.mem_map.mpr ⟨k, hk, ht⟩)
  rw [hticket, h.guard slot hslot] at hpos
  have hoccupied : slot.occupied = true := by
    cases hb : slot.occupied with
    | true => rfl
    | false => simp [hb] at hpos
  unfold Slots.release?
  simp [hfind, hoccupied]

theorem deregister_isSome (h : Orderly w) {k : Worker ε} (hk : k ∈ w.workers) {t : Ticket} (ht : k.ticket? = some t) :
    (w.slots.deregister? t).isSome := by
  obtain ⟨slot, -, hfind, -, -⟩ := h.ticket hk ht
  unfold Slots.deregister?
  rw [hfind]
  dsimp only
  split <;> rfl

end Orderly

/-- The workshops that any number of workers lead to from an empty one, in any order of their steps. Here a worker may be
raised at while it waits or is inside, and values may be put and dropped at any time. -/
theorem slots_are_exclusive (n : Int) (moves : List (Move α ε)) :
    let w := (empty n : Workshop α ε).run moves
    -- At most one worker is inside for an id.
    (∀ (i j : Nat) (k l : Worker ε), w.workers[i]? = some k → w.workers[j]? = some l → k.inside?.isSome →
      l.inside?.isSome → k.id = l.id → i = j) ∧
    -- There is one slot for each id that a worker is registered for, and no other slot.
    w.slots.ids.Nodup ∧ (∀ id, id ∈ w.slots.ids ↔ ∃ k ∈ w.workers, k.id = id ∧ k.ticket?.isSome) ∧
    -- It counts these workers, and they all hold its ticket.
    (∀ slot ∈ w.slots.list, slot.users = (w.workers.countP fun k => k.ticket?.isSome && k.id == slot.id) ∧
      ∀ k ∈ w.workers, k.id = slot.id → ∀ t, k.ticket? = some t → t = ⟨slot.id, slot.serial⟩) ∧
    -- Each finds its slot in the table: it enters when nobody else is inside, and it always leaves and deregisters.
    (∀ k ∈ w.workers, ∀ t,
      (k.phase = .waiting t →
        ((w.slots.acquire? t).isSome ↔ ∀ l ∈ w.workers, l.id = k.id → l.inside? = none)) ∧
      (k.phase = .inside t → (w.slots.release? t).isSome) ∧
      ∀ raised, k.phase = .released t raised → (w.slots.deregister? t).isSome) ∧
    -- When all workers have left, no slot is left.
    ((∀ k ∈ w.workers, k.ticket? = none) → w.slots.ids = []) := by
  intro w
  have h : Orderly w := (Orderly.of_rest rfl).run moves
  refine ⟨?_, h.tally.nodup, h.mem_ids_iff, ?_, ?_, ?_⟩
  · intro i j k l hi hj hk hl hid
    exact h.eq_of_inside hi hj hk hl hid
  · intro slot hslot
    refine ⟨h.users_eq hslot, ?_⟩
    intro k hk hid t ht
    obtain ⟨other, hother, -, hotherId, rfl⟩ := h.ticket hk ht
    rw [Slots.eq_of_id_eq h.tally.nodup hother hslot (hotherId.trans hid)]
  · intro k hk t
    refine ⟨?_, ?_, ?_⟩
    · intro hphase
      exact h.acquire_iff hk (by simp [Worker.ticket?, hphase])
    · intro hphase
      exact h.release_isSome hk (by simp [Worker.inside?, hphase])
    · intro raised hphase
      exact h.deregister_isSome hk (by simp [Worker.ticket?, hphase])
  · intro hall
    rw [List.eq_nil_iff_forall_not_mem]
    intro id hid
    obtain ⟨k, hk, -, hsome⟩ := (h.mem_ids_iff id).mp hid
    rw [hall k hk] at hsome
    cases hsome

end Workshop

/-! ## The threads of an engine are workers -/

/-- What a call raises. -/
def raisedBy {α : Type} : Except Error α → Option Error
  | .ok _ => none
  | .error error => some error

variable {K : Type}

/-- A thread as a worker. All it does between entering its slot and leaving it is the body. -/
def Thread.worker (t : Thread K) : Worker Error where
  id := t.call.id
  phase :=
    match t.stage with
    | .called | .missed => .outside none
    | .waiting ticket => .waiting ticket
    | .inside ticket | .computing ticket _ | .computed ticket _ _ | .leaving ticket _ => .inside ticket
    | .released ticket answer => .released ticket (raisedBy answer)
    | .finished answer => .outside (raisedBy answer)

namespace Machine

/-- Threads that share an engine as workers that share its cache and its slots. -/
def workshop (m : Machine K) : Workshop (Entry K) Error :=
  ⟨m.engine.cache, m.engine.slots, m.threads.map Thread.worker⟩

/-- A conclusion puts an entry, drops one or leaves the cache as it is. -/
theorem exists_conclude_run (e : Engine K) (id : String) (previous : Option (Entry K))
    (outcome : Except Error (Entry K)) (workers : List (Worker Error)) :
    ∃ moves, (⟨(e.conclude id previous outcome).2.cache, (e.conclude id previous outcome).2.slots, workers⟩ :
      Workshop (Entry K) Error) = (⟨e.cache, e.slots, workers⟩ : Workshop (Entry K) Error).run moves := by
  have hspec := Engine.conclude_spec e id previous outcome
  generalize e.conclude id previous outcome = result at hspec ⊢
  obtain ⟨answer, after⟩ := result
  cases hspec with
  | computed entry => exact ⟨[.put id entry], rfl⟩
  | unknown _ => exact ⟨[.invalidate id], rfl⟩
  | stale _ _ => exact ⟨[], rfl⟩
  | failed _ _ => exact ⟨[], rfl⟩
  | crashed _ _ => exact ⟨[], rfl⟩

variable [Scalar K]

/-- A step of a thread is a step of its worker, a change of the cache or nothing that workers see. -/
theorem exists_advance_run (m : Machine K) {i : Nat} {t : Thread K} (hi : m.threads[i]? = some t) :
    ∃ moves, (m.apply (.advance i)).workshop = m.workshop.run moves := by
  have hworker : (m.threads.map Thread.worker)[i]? = some t.worker := by rw [List.getElem?_map, hi]; rfl
  have hsame : (m.threads.map Thread.worker).set i t.worker = m.threads.map Thread.worker := set_eq_self hworker
  have happly : (m.apply (.advance i)).workshop = ⟨(t.advance m.engine m.sources).2.cache,
      (t.advance m.engine m.sources).2.slots,
      (m.threads.map Thread.worker).set i (t.advance m.engine m.sources).1.worker⟩ := by
    rw [apply_advance hi]
    unfold workshop
    rw [List.map_set]
  have hadvance : ∀ raised, m.workshop.run [.advance i raised] = ⟨m.engine.cache,
      (t.worker.advance m.engine.slots raised).2,
      (m.threads.map Thread.worker).set i (t.worker.advance m.engine.slots raised).1⟩ := by
    intro raised
    show m.workshop.apply (.advance i raised) = _
    unfold Workshop.apply workshop
    simp only [hworker]
  rw [happly]
  have hstep := t.advance_spec m.engine m.sources
  generalize t.advance m.engine m.sources = result at hstep ⊢
  obtain ⟨next, after⟩ := result
  dsimp only at hstep ⊢
  cases hstep with
  | registered =>
    refine ⟨[.advance i none], ?_⟩
    rw [hadvance]
    rfl
  | entered hslots =>
    refine ⟨[.advance i none], ?_⟩
    rw [hadvance]
    unfold Worker.advance Worker.step Thread.worker
    dsimp only
    rw [hslots]
  | @concluded call ticket previous outcome =>
    obtain ⟨moves, hmoves⟩ := exists_conclude_run m.engine call.id previous outcome (m.threads.map Thread.worker)
    refine ⟨moves, ?_⟩
    show _ = (⟨m.engine.cache, m.engine.slots, m.threads.map Thread.worker⟩ : Workshop (Entry K) Error).run moves
    rw [← hmoves]
    exact congrArg (Workshop.mk _ _) hsame
  | @left call ticket answer slots hslots =>
    refine ⟨[.advance i (raisedBy answer)], ?_⟩
    rw [hadvance]
    unfold Worker.advance Worker.step Thread.worker
    dsimp only
    rw [hslots]
  | deregistered hslots =>
    refine ⟨[.advance i none], ?_⟩
    rw [hadvance]
    unfold Worker.advance Worker.step Thread.worker
    dsimp only
    rw [hslots]
  -- The other steps change neither a slot nor the cache, and workers do not see them.
  | _ => exact ⟨[], congrArg (Workshop.mk _ _) hsame⟩

/-- What happens to an engine and its threads is something that can happen in their workshop. -/
theorem exists_workshop_run (m : Machine K) (move : Move K) :
    ∃ moves, (m.apply move).workshop = m.workshop.run moves := by
  cases move with
  | begin call =>
    refine ⟨[.arrive call.id], ?_⟩
    show (⟨_, _, (m.threads ++ [_]).map Thread.worker⟩ : Workshop (Entry K) Error) = _
    rw [List.map_append]
    rfl
  | advance i =>
    cases hi : m.threads[i]? with
    | some t => exact m.exists_advance_run hi
    | none =>
      refine ⟨[], ?_⟩
      rw [apply_advance_of_none hi]
      rfl
  | invalidate id => exact ⟨[.invalidate id], rfl⟩
  | invalidateAll => exact ⟨[.clear], rfl⟩
  | surround s => exact ⟨[], rfl⟩

theorem orderly_run {m : Machine K} (h : m.workshop.Orderly) (moves : List (Move K)) :
    (m.run moves).workshop.Orderly := by
  induction moves generalizing m with
  | nil => exact h
  | cons move rest ih =>
    obtain ⟨steps, hsteps⟩ := m.exists_workshop_run move
    refine ih ?_
    rw [hsteps]
    exact h.run steps

theorem Reachable.orderly {allowed : Sources K → Prop} {m : Machine K} (h : m.Reachable allowed) :
    m.workshop.Orderly := by
  obtain ⟨e, s, moves, he, -, -, rfl⟩ := h
  exact orderly_run (.of_rest he.slots_list) moves

end Machine

end Backpressure
