import Mathlib.Data.List.Perm.Subperm
import Backpressure.Cache

/-!
# What tables and caches hold

* `Table.get?_insert`, `get?_erase`, `keys_erase` : reading a table after a write;
* `Cache.WellFormed` : no id is held twice, and never more of them than the cache has room for;
* `Cache.get?_put_self`, `get?_put_of_ne` : what is put is there afterwards, and of another id either what was there
  before or nothing;
* `Cache.WellFormed.put`, `drop`, `clear` : the operations keep a cache well formed;
* `Cache.Within` : a cache that holds none but the ids of a list, all of which it has room for, `Within.get?_put` : what is
  put there changes nothing for the other ids.
-/

namespace Backpressure

namespace Table

variable {α : Type}

theorem lookup_filter_ne (entries : List (String × α)) (key : String) :
    (entries.filter fun e => e.1 != key).lookup key = none := by
  rw [List.lookup_eq_none_iff]
  intro e he
  have hne : e.1 ≠ key := by simpa using (List.mem_filter.mp he).2
  exact bne_iff_ne.mpr hne.symm

theorem lookup_filter_of_ne {key other : String} (h : other ≠ key) (entries : List (String × α)) :
    (entries.filter fun e => e.1 != key).lookup other = entries.lookup other := by
  induction entries with
  | nil => rfl
  | cons e rest ih =>
    obtain ⟨k, a⟩ := e
    by_cases hk : k = key
    · have hne : (other == k) = false := beq_false_of_ne (hk ▸ h)
      rw [List.filter_cons_of_neg (by simp [hk]), ih, List.lookup_cons, hne]
    · rw [List.filter_cons_of_pos (by simpa using hk), List.lookup_cons, List.lookup_cons, ih]

@[simp] theorem get?_erase_self (t : Table α) (key : String) : (t.erase key).get? key = none :=
  lookup_filter_ne t.entries key

theorem get?_erase_of_ne {key other : String} (h : other ≠ key) (t : Table α) :
    (t.erase key).get? other = t.get? other := lookup_filter_of_ne h t.entries

theorem get?_erase (t : Table α) (key other : String) :
    (t.erase key).get? other = if other = key then none else t.get? other := by
  split
  · next h => rw [h, get?_erase_self]
  · next h => exact get?_erase_of_ne h t

theorem get?_insert (t : Table α) (key other : String) (a : α) :
    (t.insert key a).get? other = if other = key then some a else t.get? other := by
  unfold insert get?
  rw [List.lookup_append]
  split
  · next h =>
    subst h
    have : (t.erase other).entries.lookup other = none := get?_erase_self t other
    simp [this]
  · next h =>
    have : (t.erase key).entries.lookup other = t.get? other := get?_erase_of_ne h t
    have hne : (other == key) = false := by simpa using h
    simp [this, get?, List.lookup_cons, hne]

theorem keys_erase (t : Table α) (key : String) : (t.erase key).keys = t.keys.filter (· != key) := by
  simp only [keys, erase, List.filter_map]
  rfl

theorem keys_insert (t : Table α) (key : String) (a : α) :
    (t.insert key a).keys = t.keys.filter (· != key) ++ [key] := by
  rw [← keys_erase]
  simp [keys, insert]

theorem keys_keepLast (t : Table α) (n : Nat) : (t.keepLast n).keys = t.keys.drop (t.keys.length - n) := by
  simp [keys, keepLast, size, List.map_drop]

theorem mem_keys_of_get? {t : Table α} {key : String} {a : α} (h : t.get? key = some a) : key ∈ t.keys := by
  obtain ⟨l₁, l₂, hsplit, -⟩ := List.lookup_eq_some_iff.mp h
  simp [keys, hsplit]

theorem exists_get?_of_mem_keys {t : Table α} {key : String} (h : key ∈ t.keys) : ∃ a, t.get? key = some a := by
  unfold get?
  cases hget : t.entries.lookup key with
  | some a => exact ⟨a, rfl⟩
  | none =>
    obtain ⟨e, he, rfl⟩ := List.mem_map.mp h
    have := List.lookup_eq_none_iff.mp hget e he
    simp at this

/-- Of a table that has each key once, a part tells no other values. -/
theorem get?_of_suffix {t u : Table α} (hnodup : t.keys.Nodup) (hsuffix : u.entries <:+ t.entries) {key : String}
    {a : α} (h : u.get? key = some a) : t.get? key = some a := by
  obtain ⟨front, hfront⟩ := hsuffix
  have hmem : key ∈ u.keys := mem_keys_of_get? h
  have hnot : front.lookup key = none := by
    rw [List.lookup_eq_none_iff]
    intro e he
    simp only [keys, ← hfront, List.map_append, List.nodup_append] at hnodup
    exact bne_iff_ne.mpr fun h => hnodup.2.2 e.1 (List.mem_map_of_mem he) key hmem h.symm
  unfold get? at h ⊢
  rw [← hfront, List.lookup_append, hnot, h]
  rfl

end Table

namespace Cache

variable {α : Type}

/-- A cache that has room for an id, holds no id twice and not more of them than it has room for. -/
structure WellFormed (c : Cache α) : Prop where
  positive : 0 < c.capacity
  nodup : c.ids.Nodup
  bounded : c.size ≤ c.capacity

theorem size_eq_length_ids (c : Cache α) : c.size = c.ids.length := by simp [size, Table.size, ids, Table.keys]

theorem get?_drop (c : Cache α) (id other : String) :
    (c.drop id).get? other = if other = id then none else c.get? other := Table.get?_erase c.table id other

theorem get?_drop_of_ne {id other : String} (h : other ≠ id) (c : Cache α) : (c.drop id).get? other = c.get? other :=
  Table.get?_erase_of_ne h c.table

theorem ids_drop (c : Cache α) (id : String) : (c.drop id).ids = c.ids.filter (· != id) :=
  Table.keys_erase c.table id

theorem ids_put (c : Cache α) (id : String) (a : α) :
    (c.put id a).ids =
      (c.ids.filter (· != id) ++ [id]).drop ((c.ids.filter (· != id) ++ [id]).length - c.capacity) := by
  unfold put ids
  rw [Table.keys_keepLast, Table.keys_insert]

theorem entries_put_suffix (c : Cache α) (id : String) (a : α) :
    (c.put id a).table.entries <:+ (c.table.insert id a).entries := List.drop_suffix _ _

namespace WellFormed

variable {c : Cache α}

theorem nodup_ids_append (h : c.WellFormed) (id : String) : (c.ids.filter (· != id) ++ [id]).Nodup := by
  rw [List.nodup_append]
  refine ⟨h.nodup.filter _, by simp, ?_⟩
  intro a ha b hb
  rw [List.mem_singleton] at hb
  have := (List.mem_filter.mp ha).2
  rintro rfl
  simp [hb] at this

protected theorem put (h : c.WellFormed) (id : String) (a : α) : (c.put id a).WellFormed where
  positive := h.positive
  nodup := by
    rw [ids_put]
    exact (h.nodup_ids_append id).sublist (List.drop_sublist _ _)
  bounded := by
    rw [size_eq_length_ids, ids_put, List.length_drop]
    show _ ≤ c.capacity
    omega

protected theorem drop (h : c.WellFormed) (id : String) : (c.drop id).WellFormed where
  positive := h.positive
  nodup := by
    rw [ids_drop]
    exact h.nodup.filter _
  bounded := by
    have hle : (c.ids.filter (· != id)).length ≤ c.ids.length := List.length_filter_le _ _
    have hbound := h.bounded
    rw [size_eq_length_ids] at hbound ⊢
    rw [ids_drop]
    exact Nat.le_trans hle hbound

protected theorem clear (h : c.WellFormed) : c.clear.WellFormed where
  positive := h.positive
  nodup := List.nodup_nil
  bounded := Nat.zero_le _

/-- The id put last is cached, and it is the last of the cached ids. -/
theorem ids_put_eq_concat (h : c.WellFormed) (id : String) (a : α) : ∃ others, (c.put id a).ids = others ++ [id] := by
  refine ⟨(c.ids.filter (· != id)).drop ((c.ids.filter (· != id) ++ [id]).length - c.capacity), ?_⟩
  have hpos := h.positive
  rw [ids_put, List.drop_append_of_le_length]
  simp
  omega

theorem get?_of_get?_put (h : c.WellFormed) {id other : String} {a b : α} (hget : (c.put id a).get? other = some b) :
    (c.table.insert id a).get? other = some b := by
  refine Table.get?_of_suffix ?_ (c.entries_put_suffix id a) hget
  rw [Table.keys_insert]
  exact h.nodup_ids_append id

theorem get?_put_self (h : c.WellFormed) (id : String) (a : α) : (c.put id a).get? id = some a := by
  obtain ⟨others, hids⟩ := h.ids_put_eq_concat id a
  have hmem : id ∈ (c.put id a).table.keys := by
    show id ∈ (c.put id a).ids
    rw [hids]
    exact List.mem_append_right _ (List.mem_singleton_self id)
  obtain ⟨b, hb⟩ := Table.exists_get?_of_mem_keys hmem
  have hinsert := h.get?_of_get?_put hb
  rw [Table.get?_insert, if_pos rfl] at hinsert
  exact hb.trans hinsert.symm

/-- Putting an id adds and changes nothing for the others. -/
theorem get?_put_of_ne (h : c.WellFormed) {id other : String} (hne : other ≠ id) {a b : α}
    (hget : (c.put id a).get? other = some b) : c.get? other = some b := by
  have hinsert := h.get?_of_get?_put hget
  rwa [Table.get?_insert, if_neg hne] at hinsert

end WellFormed

/-- The cache without ids has room for one at least. -/
theorem wellFormed_empty (n : Int) : (empty n : Cache α).WellFormed where
  positive := by
    show 0 < (max 1 n).toNat
    omega
  nodup := List.nodup_nil
  bounded := Nat.zero_le _

/-! ## Room for all ids -/

variable {c : Cache α} {ids : List String}

/-- A cache that holds none but the ids of a list, all of which it has room for. -/
structure Within (ids : List String) (c : Cache α) : Prop where
  wellFormed : c.WellFormed
  subset : c.ids ⊆ ids
  room : ids.length ≤ c.capacity

namespace Within

/-- A cache that has room for all ids drops none of them to make room for another. -/
theorem put_eq (h : c.Within ids) {id : String} (hid : id ∈ ids) (a : α) :
    c.put id a = { c with table := c.table.insert id a } := by
  have hkeys : (c.table.insert id a).keys = c.ids.filter (· != id) ++ [id] := Table.keys_insert _ _ _
  have hsubset : c.ids.filter (· != id) ++ [id] ⊆ ids := by
    intro other hother
    rcases List.mem_append.mp hother with hother | hother
    · exact h.subset (List.mem_filter.mp hother).1
    · rw [List.mem_singleton.mp hother]
      exact hid
  have hlength := (List.Nodup.subperm (h.wellFormed.nodup_ids_append id) hsubset).length_le
  have hsize : (c.table.insert id a).size ≤ c.capacity := by
    rw [← hkeys] at hlength
    simp only [Table.keys, List.length_map] at hlength
    exact Nat.le_trans hlength h.room
  unfold put Table.keepLast
  rw [Nat.sub_eq_zero_of_le hsize, List.drop_zero]

theorem get?_put (h : c.Within ids) {id : String} (hid : id ∈ ids) (a : α) (other : String) :
    (c.put id a).get? other = if other = id then some a else c.get? other := by
  rw [h.put_eq hid]
  exact Table.get?_insert c.table id other a

protected theorem put (h : c.Within ids) {id : String} (hid : id ∈ ids) (a : α) : (c.put id a).Within ids where
  wellFormed := h.wellFormed.put id a
  subset := by
    intro other hother
    rw [h.put_eq hid] at hother
    have hkeys : other ∈ c.ids.filter (· != id) ++ [id] := Table.keys_insert c.table id a ▸ hother
    rcases List.mem_append.mp hkeys with hkeys | hkeys
    · exact h.subset (List.mem_filter.mp hkeys).1
    · rw [List.mem_singleton.mp hkeys]
      exact hid
  room := h.room

protected theorem drop (h : c.Within ids) (id : String) : (c.drop id).Within ids where
  wellFormed := h.wellFormed.drop id
  subset := by
    rw [ids_drop]
    exact fun other hother => h.subset (List.mem_filter.mp hother).1
  room := h.room

protected theorem clear (h : c.Within ids) : c.clear.Within ids where
  wellFormed := h.wellFormed.clear
  subset := List.nil_subset _
  room := h.room

end Within

theorem within_empty {n : Int} (h : (ids.length : Int) ≤ max 1 n) : (empty n : Cache α).Within ids where
  wellFormed := wellFormed_empty n
  subset := List.nil_subset _
  room := by
    show ids.length ≤ (max 1 n).toNat
    omega

end Cache

end Backpressure
