import Backpressure.Slots
import Mathlib.Data.List.Nodup

/-!
# Who uses a slot

* `Slots.Tally s held` : the slots `s` account for the tickets `held`, one entry for each thread. Each slot counts the
  threads that hold its ticket, there is at least one, and each ticket has its slot;
* `Tally.register`, `acquire`, `release`, `deregister` : the four steps of a thread keep the account;
* `Tally.list_eq_nil` : when no thread holds a ticket there are no slots;
* `Slots.enter_leave` : entering and leaving when there are no slots leaves none.
-/

namespace Backpressure.Slots

/-- The slots account for the tickets that threads hold. -/
structure Tally (s : Slots) (held : List (Option Ticket)) : Prop where
  nodup : s.ids.Nodup
  users : ∀ slot ∈ s.list, slot.users = held.count (some ⟨slot.id, slot.serial⟩)
  used : ∀ slot ∈ s.list, 0 < slot.users
  found : ∀ t, some t ∈ held → ∃ slot ∈ s.list, slot.id = t.id ∧ slot.serial = t.serial

/-! ## Finding a slot -/

theorem mem_of_find? {s : Slots} {id : String} {slot : Slot} (h : s.find? id = some slot) :
    slot ∈ s.list ∧ slot.id = id :=
  ⟨List.mem_of_find?_eq_some h, by simpa using List.find?_some h⟩

theorem ne_of_find?_eq_none {s : Slots} {id : String} (h : s.find? id = none) : ∀ slot ∈ s.list, slot.id ≠ id := by
  intro slot hslot
  simpa using List.find?_eq_none.mp h slot hslot

theorem mem_of_ofTicket? {s : Slots} {t : Ticket} {slot : Slot} (h : s.ofTicket? t = some slot) :
    slot ∈ s.list ∧ slot.id = t.id ∧ slot.serial = t.serial := by
  obtain ⟨hfind, hserial⟩ := Option.filter_eq_some_iff.mp h
  obtain ⟨hmem, hid⟩ := mem_of_find? hfind
  exact ⟨hmem, hid, by simpa using hserial⟩

/-- Slots of one id are one slot. -/
theorem eq_of_id_eq {s : Slots} (hnodup : s.ids.Nodup) {a b : Slot} (ha : a ∈ s.list) (hb : b ∈ s.list)
    (h : a.id = b.id) : a = b := List.inj_on_of_nodup_map hnodup ha hb h

theorem mem_modify {s : Slots} {id : String} {f : Slot → Slot} {slot : Slot} :
    slot ∈ (s.modify id f).list ↔ ∃ old ∈ s.list, (if old.id == id then f old else old) = slot := List.mem_map

theorem ids_modify (s : Slots) (id : String) {f : Slot → Slot} (hf : ∀ slot, (f slot).id = slot.id) :
    (s.modify id f).ids = s.ids := by
  unfold modify ids
  rw [List.map_map]
  refine List.map_congr_left fun slot _ => ?_
  dsimp only [Function.comp]
  split
  · exact hf slot
  · rfl

theorem nodup_modify {s : Slots} (h : s.ids.Nodup) (id : String) {f : Slot → Slot}
    (hf : ∀ slot, (f slot).id = slot.id) : (s.modify id f).ids.Nodup := by
  rw [ids_modify s id hf]
  exact h

/-- A slot is found by its own id. -/
theorem find?_of_mem {s : Slots} (hnodup : s.ids.Nodup) {slot : Slot} (h : slot ∈ s.list) :
    s.find? slot.id = some slot := by
  cases hfind : s.find? slot.id with
  | none => exact absurd rfl (ne_of_find?_eq_none hfind slot h)
  | some found =>
    obtain ⟨hmem, hid⟩ := mem_of_find? hfind
    rw [eq_of_id_eq hnodup hmem h hid]

/-! ## Counting the holders of a ticket -/

theorem count_set_some {held : List (Option Ticket)} {i : Nat} (hi : held[i]? = some none) (t ticket : Ticket) :
    (held.set i (some t)).count (some ticket) = held.count (some ticket) + if t = ticket then 1 else 0 := by
  obtain ⟨hlt, hget⟩ := List.getElem?_eq_some_iff.mp hi
  rw [List.count_set hlt, hget]
  simp

theorem count_set_none {held : List (Option Ticket)} {i : Nat} {t : Ticket} (hi : held[i]? = some (some t))
    (ticket : Ticket) :
    (held.set i none).count (some ticket) = held.count (some ticket) - if t = ticket then 1 else 0 := by
  obtain ⟨hlt, hget⟩ := List.getElem?_eq_some_iff.mp hi
  rw [List.count_set hlt, hget]
  simp

/-! ## The four steps -/

namespace Tally

variable {s s' : Slots} {held : List (Option Ticket)} {i : Nat}

theorem empty : Tally Slots.empty [] where
  nodup := List.nodup_nil
  users := fun _ h => absurd h List.not_mem_nil
  used := fun _ h => absurd h List.not_mem_nil
  found := fun _ h => absurd h List.not_mem_nil

theorem append_none (h : Tally s held) : Tally s (held ++ [none]) where
  nodup := h.nodup
  users := fun slot hslot => by simpa using h.users slot hslot
  used := h.used
  found := fun t ht => h.found t (by simpa using ht)

theorem register (h : Tally s held) (hi : held[i]? = some none) (id : String) :
    Tally (s.register id).2 (held.set i (some (s.register id).1)) := by
  unfold Slots.register
  split
  · next slot hfind =>
    obtain ⟨hmem, hid⟩ := mem_of_find? hfind
    refine ⟨?_, ?_, ?_, ?_⟩
    · exact nodup_modify h.nodup _ fun _ => rfl
    · intro new hnew
      obtain ⟨old, hold, rfl⟩ := mem_modify.mp hnew
      rw [count_set_some hi]
      split
      · next heq =>
        have : old = slot := eq_of_id_eq h.nodup hold hmem ((beq_iff_eq.mp heq).trans hid.symm)
        subst this
        rw [if_pos (by simp [hid]), ← h.users old hold]
      · next hne =>
        have hid' : id ≠ old.id := fun heq => hne (by simp [heq])
        rw [if_neg (by simp [hid']), h.users old hold, Nat.add_zero]
    · intro new hnew
      obtain ⟨old, hold, rfl⟩ := mem_modify.mp hnew
      split
      · exact Nat.succ_pos _
      · exact h.used old hold
    · intro t ht
      have hold : ∃ old ∈ s.list, old.id = t.id ∧ old.serial = t.serial := by
        rcases List.mem_or_eq_of_mem_set ht with ht | ht
        · exact h.found t ht
        · cases ht
          exact ⟨slot, hmem, hid, rfl⟩
      obtain ⟨old, hold, heq⟩ := hold
      refine ⟨_, mem_modify.mpr ⟨old, hold, rfl⟩, ?_⟩
      split <;> exact heq
  · next hfind =>
    have hne := ne_of_find?_eq_none hfind
    have hzero : held.count (some ⟨id, s.nextSerial⟩) = 0 := by
      rw [List.count_eq_zero]
      intro hmem
      obtain ⟨slot, hslot, hid, -⟩ := h.found _ hmem
      exact hne slot hslot hid
    refine ⟨?_, ?_, ?_, ?_⟩
    · show ((s.list ++ [_]).map Slot.id).Nodup
      rw [List.map_append, List.nodup_append]
      refine ⟨h.nodup, by simp, ?_⟩
      intro a ha b hb
      obtain ⟨slot, hslot, rfl⟩ := List.mem_map.mp ha
      simp only [List.map_cons, List.map_nil, List.mem_singleton] at hb
      exact hb ▸ hne slot hslot
    · intro new hnew
      rw [count_set_some hi]
      rcases List.mem_append.mp hnew with hold | hnew
      · rw [if_neg (by simp [(hne new hold).symm]), h.users new hold, Nat.add_zero]
      · rw [List.mem_singleton.mp hnew]
        simp [hzero]
    · intro new hnew
      rcases List.mem_append.mp hnew with hold | hnew
      · exact h.used new hold
      · rw [List.mem_singleton.mp hnew]
        exact Nat.one_pos
    · intro t ht
      rcases List.mem_or_eq_of_mem_set ht with ht | ht
      · obtain ⟨slot, hslot, heq⟩ := h.found t ht
        exact ⟨slot, List.mem_append_left _ hslot, heq⟩
      · cases ht
        exact ⟨_, List.mem_append_right _ (List.mem_singleton_self _), rfl, rfl⟩

/-- A change of who is inside is not one of who holds a ticket. -/
theorem modify_occupied (h : Tally s held) (id : String) (b : Bool) :
    Tally (s.modify id fun slot => { slot with occupied := b }) held where
  nodup := nodup_modify h.nodup _ fun _ => rfl
  users := by
    intro new hnew
    obtain ⟨old, hold, rfl⟩ := mem_modify.mp hnew
    split <;> exact h.users old hold
  used := by
    intro new hnew
    obtain ⟨old, hold, rfl⟩ := mem_modify.mp hnew
    split <;> exact h.used old hold
  found := by
    intro t ht
    obtain ⟨old, hold, heq⟩ := h.found t ht
    refine ⟨_, mem_modify.mpr ⟨old, hold, rfl⟩, ?_⟩
    split <;> exact heq

theorem acquire (h : Tally s held) {t : Ticket} (hs : s.acquire? t = some s') : Tally s' held := by
  unfold acquire? at hs
  split at hs
  · split at hs
    · cases hs
    · cases hs
      exact h.modify_occupied _ _
  · cases hs

theorem release (h : Tally s held) {t : Ticket} (hs : s.release? t = some s') : Tally s' held := by
  unfold release? at hs
  split at hs
  · split at hs
    · cases hs
      exact h.modify_occupied _ _
    · cases hs
  · cases hs

theorem deregister (h : Tally s held) {t : Ticket} (hi : held[i]? = some (some t)) (hs : s.deregister? t = some s') :
    Tally s' (held.set i none) := by
  have hfound : ∀ ticket, some ticket ∈ held.set i none → some ticket ∈ held := by
    intro ticket ht
    rcases List.mem_or_eq_of_mem_set ht with ht | ht
    · exact ht
    · cases ht
  unfold deregister? at hs
  split at hs
  · next slot hticket =>
    obtain ⟨hmem, hid, hserial⟩ := mem_of_ofTicket? hticket
    have ht : t = ⟨slot.id, slot.serial⟩ := by rw [hid, hserial]
    split at hs
    · next hlast =>
      cases hs
      refine ⟨?_, ?_, ?_, ?_⟩
      · exact h.nodup.sublist (List.filter_sublist.map _)
      · intro old hold
        obtain ⟨hold, hne⟩ := List.mem_filter.mp hold
        have hne : old.id ≠ t.id := by simpa using hne
        rw [count_set_none hi, if_neg (fun heq => hne (by rw [heq])), Nat.sub_zero]
        exact h.users old hold
      · intro old hold
        exact h.used old (List.mem_filter.mp hold).1
      · intro ticket hheld
        obtain ⟨old, hold, heq⟩ := h.found ticket (hfound ticket hheld)
        refine ⟨old, List.mem_filter.mpr ⟨hold, ?_⟩, heq⟩
        rw [bne_iff_ne]
        intro hsame
        -- Another holder of this slot's ticket would make it two users.
        have hslot : old = slot := eq_of_id_eq h.nodup hold hmem (hsame.trans hid.symm)
        subst hslot
        have hthis : ticket = t := by rw [ht, heq.1, heq.2]
        have hpos : 0 < (held.set i none).count (some t) := List.count_pos_iff.mpr (hthis ▸ hheld)
        rw [count_set_none hi, if_pos rfl, ht, ← h.users old hmem] at hpos
        omega
    · next hmore =>
      cases hs
      refine ⟨?_, ?_, ?_, ?_⟩
      · exact nodup_modify h.nodup _ fun _ => rfl
      · intro new hnew
        obtain ⟨old, hold, rfl⟩ := mem_modify.mp hnew
        rw [count_set_none hi]
        split
        · next heq =>
          have : old = slot := eq_of_id_eq h.nodup hold hmem ((beq_iff_eq.mp heq).trans hid.symm)
          subst this
          rw [if_pos ht, ← h.users old hold]
        · next hne =>
          have hid' : old.id ≠ t.id := by simpa using hne
          rw [if_neg (fun heq => hid' (by rw [heq])), Nat.sub_zero]
          exact h.users old hold
      · intro new hnew
        obtain ⟨old, hold, rfl⟩ := mem_modify.mp hnew
        split
        · next heq =>
          have : old = slot := eq_of_id_eq h.nodup hold hmem ((beq_iff_eq.mp heq).trans hid.symm)
          subst this
          show 0 < old.users - 1
          omega
        · exact h.used old hold
      · intro ticket hheld
        obtain ⟨old, hold, heq⟩ := h.found ticket (hfound ticket hheld)
        refine ⟨_, mem_modify.mpr ⟨old, hold, rfl⟩, ?_⟩
        split <;> exact heq
  · cases hs

/-- Without tickets there are no slots. -/
theorem list_eq_nil (h : Tally s held) (hnone : ∀ t, some t ∉ held) : s.list = [] := by
  rw [List.eq_nil_iff_forall_not_mem]
  intro slot hslot
  have hzero : held.count (some ⟨slot.id, slot.serial⟩) = 0 := List.count_eq_zero.mpr (hnone _)
  have hpos := h.used slot hslot
  rw [h.users slot hslot, hzero] at hpos
  exact Nat.lt_irrefl 0 hpos

end Tally

/-- A lone thread that enters a slot and leaves it leaves no slot behind. -/
theorem enter_leave {s : Slots} (h : s.list = []) (id : String) : ((s.enter id).2.leave (s.enter id).1).list = [] := by
  simp [enter, leave, register, acquire?, release?, deregister?, ofTicket?, find?, modify, Option.filter, h]

end Backpressure.Slots
