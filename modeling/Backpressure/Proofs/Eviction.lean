import Mathlib.Data.List.Induction
import Backpressure.Proofs.Cache

/-!
# What is evicted from a cache

* `Cache.Operation`, `Cache.apply`, `Cache.after` : what can be done with a cache, and the cache that it leads to;
* `Cache.LastPut`, `Cache.KeptSince` : the place at which an id was put last among operations, and that no operation
  after that place drops it;
* `Cache.CrowdedOut` : after that place as many others were cached at once as there is room for, all of them put later;
* `Cache.Faithful` : how a cache reflects the operations that led to it, `Faithful.apply`, `faithful_after` : one more
  operation and all of them;
* `Cache.ids_follow_last_puts` : which ids are cached after any operations, in which order and with what.
-/

namespace Backpressure

/-- What stands in a list with one more element at its end. -/
theorem getElem?_concat_eq_some {β : Type} {xs : List β} {x found : β} {j : Nat} :
    (xs ++ [x])[j]? = some found ↔ xs[j]? = some found ∨ j = xs.length ∧ found = x := by
  rcases Nat.lt_trichotomy j xs.length with hj | hj | hj
  · rw [List.getElem?_append_left hj]
    simp [Nat.ne_of_lt hj]
  · subst hj
    simp [eq_comm]
  · rw [List.getElem?_eq_none (by simp; omega), List.getElem?_eq_none (by omega)]
    simp
    omega

namespace Cache

variable {α : Type}

/-- What can be done with a cache. -/
inductive Operation (α : Type) where
  | put (id : String) (a : α)
  /-- Reading the value of an id. -/
  | get (id : String)
  | invalidate (id : String)
  | clear

namespace Operation

/-- The id that an operation puts, if it puts one. -/
def put? : Operation α → Option String
  | .put id _ => some id
  | _ => none

/-- Whether an operation drops an id. -/
def drops (id : String) : Operation α → Bool
  | .invalidate other => other == id
  | .clear => true
  | _ => false

end Operation

/-- The cache after an operation. -/
def apply (c : Cache α) : Operation α → Cache α
  | .put id a => c.put id a
  | .get _ => c
  | .invalidate id => (c.invalidate id).2
  | .clear => c.clear

/-- A cache that was made for `n` ids, after operations one after another. -/
def after (n : Int) (ops : List (Operation α)) : Cache α := ops.foldl apply (empty n)

/-! ## What operations say about an id -/

variable {n : Int} {ops : List (Operation α)} {op : Operation α} {id other : String} {i : Nat} {a : α}

/-- The operation at place `i` puts `a` for an id, and no operation after it puts that id. -/
structure LastPut (ops : List (Operation α)) (id : String) (i : Nat) (a : α) : Prop where
  puts : ops[i]? = some (.put id a)
  last : ∀ j b, ops[j]? = some (.put id b) → j ≤ i

/-- No operation after place `i` drops an id. -/
def KeptSince (ops : List (Operation α)) (id : String) (i : Nat) : Prop :=
  ∀ j op, i < j → ops[j]? = some op → op.drops id = false

/-- Both ids were put, the second one later than the first was put last. -/
def PutBefore (ops : List (Operation α)) (id other : String) : Prop :=
  ∃ i a j b, LastPut ops id i a ∧ LastPut ops other j b ∧ i < j

/-- After place `i` there was a time when as many others were cached as there is room for, each of them put last after
place `i`. -/
def CrowdedOut (n : Int) (ops : List (Operation α)) (id : String) (i : Nat) : Prop :=
  ∃ k, i < k ∧ k ≤ ops.length ∧ ∃ others : List String, others.Nodup ∧ (others.length : Int) = max 1 n ∧
    ∀ other ∈ others, other ≠ id ∧ other ∈ (after n (ops.take k)).ids ∧
      ∃ j b, LastPut (ops.take k) other j b ∧ i < j

theorem after_concat (n : Int) (ops : List (Operation α)) (op : Operation α) :
    after n (ops ++ [op]) = (after n ops).apply op := by
  simp [after]

theorem LastPut.lt_length (h : LastPut ops id i a) : i < ops.length :=
  (List.getElem?_eq_some_iff.mp h.puts).1

theorem LastPut.eq {j : Nat} {b : α} (h : LastPut ops id i a) (h' : LastPut ops id j b) : i = j :=
  Nat.le_antisymm (h'.last i a h.puts) (h.last j b h'.puts)

/-- An operation that puts an id puts it last. -/
theorem lastPut_concat_self (ops : List (Operation α)) (id : String) (a : α) :
    LastPut (ops ++ [.put id a]) id ops.length a where
  puts := getElem?_concat_eq_some.mpr (.inr ⟨rfl, rfl⟩)
  last := by
    intro j b hj
    have := (List.getElem?_eq_some_iff.mp hj).1
    simp at this
    omega

/-- An operation that does not put an id has no part in when it was put last. -/
theorem lastPut_concat_of_ne (h : op.put? ≠ some id) : LastPut (ops ++ [op]) id i a ↔ LastPut ops id i a := by
  have hputs : ∀ {j : Nat} {b : α}, (ops ++ [op])[j]? = some (.put id b) ↔ ops[j]? = some (.put id b) := by
    intro j b
    rw [getElem?_concat_eq_some, or_iff_left]
    rintro ⟨-, rfl⟩
    exact h rfl
  constructor
  · intro hlast
    exact ⟨hputs.mp hlast.puts, fun j b hj => hlast.last j b (hputs.mpr hj)⟩
  · intro hlast
    exact ⟨hputs.mpr hlast.puts, fun j b hj => hlast.last j b (hputs.mp hj)⟩

theorem keptSince_concat (hi : i < ops.length) :
    KeptSince (ops ++ [op]) id i ↔ KeptSince ops id i ∧ op.drops id = false := by
  unfold KeptSince
  constructor
  · intro h
    exact ⟨fun j found hj hfound => h j found hj (getElem?_concat_eq_some.mpr (.inl hfound)),
      h ops.length op hi (getElem?_concat_eq_some.mpr (.inr ⟨rfl, rfl⟩))⟩
  · rintro ⟨h, hop⟩ j found hj hfound
    rcases getElem?_concat_eq_some.mp hfound with hfound | ⟨-, rfl⟩
    · exact h j found hj hfound
    · exact hop

theorem CrowdedOut.concat (h : CrowdedOut n ops id i) (op : Operation α) : CrowdedOut n (ops ++ [op]) id i := by
  obtain ⟨k, hik, hk, hothers⟩ := h
  refine ⟨k, hik, ?_, ?_⟩
  · rw [List.length_append]
    omega
  · rw [List.take_append_of_le_length hk]
    exact hothers

theorem PutBefore.concat (h : PutBefore ops id other) (hid : op.put? ≠ some id) (hother : op.put? ≠ some other) :
    PutBefore (ops ++ [op]) id other := by
  obtain ⟨i, a, j, b, hi, hj, hij⟩ := h
  exact ⟨i, a, j, b, (lastPut_concat_of_ne hid).mpr hi, (lastPut_concat_of_ne hother).mpr hj, hij⟩

/-! ## One operation -/

/-- What an operation leaves cached was cached before, unless the operation put it. -/
theorem mem_ids_of_apply {c : Cache α} (h : id ∈ (c.apply op).ids) : id ∈ c.ids ∨ op.put? = some id := by
  cases op with
  | put other a =>
    rw [apply, ids_put] at h
    rcases List.mem_append.mp (List.mem_of_mem_drop h) with h | h
    · exact .inl (List.mem_filter.mp h).1
    · rw [List.mem_singleton.mp h]
      exact .inr rfl
  | get other => exact .inl h
  | invalidate other =>
    rw [apply, invalidate, ids_drop] at h
    exact .inl (List.mem_filter.mp h).1
  | clear => cases h

/-- An id that is not put does not come back. -/
theorem not_mem_ids_foldl {c : Cache α} (h : id ∉ c.ids) (hops : ∀ op ∈ ops, op.put? ≠ some id) :
    id ∉ (ops.foldl apply c).ids := by
  induction ops generalizing c with
  | nil => exact h
  | cons op rest ih =>
    rw [List.forall_mem_cons] at hops
    refine ih (fun hmem => ?_) hops.2
    rcases mem_ids_of_apply hmem with hmem | hput
    · exact h hmem
    · exact hops.1 hput

/-- A cache reflects the operations that led to it. -/
structure Faithful (n : Int) (ops : List (Operation α)) (c : Cache α) : Prop where
  wellFormed : c.WellFormed
  capacity : (c.capacity : Int) = max 1 n
  holds : ∀ id a, c.get? id = some a → ∃ i, LastPut ops id i a ∧ KeptSince ops id i
  ordered : c.ids.Pairwise (PutBefore ops)
  evicted : ∀ id i a, LastPut ops id i a → KeptSince ops id i → id ∉ c.ids → CrowdedOut n ops id i

namespace Faithful

variable {c : Cache α}

theorem empty (n : Int) : Faithful n ([] : List (Operation α)) (empty n) where
  wellFormed := wellFormed_empty n
  capacity := by
    show ((max 1 n).toNat : Int) = max 1 n
    omega
  holds := fun id a h => by cases h
  ordered := .nil
  evicted := fun id i a h => by cases h.puts

theorem exists_lastPut (h : Faithful n ops c) (hid : id ∈ c.ids) :
    ∃ i a, LastPut ops id i a ∧ KeptSince ops id i ∧ c.get? id = some a := by
  obtain ⟨a, ha⟩ := Table.exists_get?_of_mem_keys hid
  obtain ⟨i, hi, hkept⟩ := h.holds id a ha
  exact ⟨i, a, hi, hkept, ha⟩

/-- The ids without one of them, and then that one, are in the order in which they were put last when it is put now. -/
theorem ordered_put (h : Faithful n ops c) (id : String) (a : α) :
    (c.ids.filter (· != id) ++ [id]).Pairwise (PutBefore (ops ++ [.put id a])) := by
  have hne : ∀ {other}, other ∈ c.ids.filter (· != id) → (Operation.put id a).put? ≠ some other := by
    intro other hother heq
    cases heq
    simp at hother
  rw [List.pairwise_append]
  refine ⟨?_, List.pairwise_singleton _ _, ?_⟩
  · refine (h.ordered.filter _).imp_of_mem fun hfirst hsecond hput => ?_
    exact hput.concat (hne hfirst) (hne hsecond)
  · intro first hfirst second hsecond
    rw [List.mem_singleton.mp hsecond]
    obtain ⟨i, b, hi, -, -⟩ := h.exists_lastPut (List.mem_filter.mp hfirst).1
    exact ⟨i, b, ops.length, a, (lastPut_concat_of_ne (hne hfirst)).mpr hi, lastPut_concat_self ops id a, hi.lt_length⟩

/-- Where a put evicts an id, those that stay fill the cache, and each of them was put later. -/
theorem crowdedOut_put (h : Faithful n ops c) (hc : c = after n ops) {id other : String} {a b : α} {i : Nat}
    (hid : LastPut ops id i a) (hmem : id ∈ c.ids) (hne : id ≠ other) (hnot : id ∉ (c.put other b).ids) :
    CrowdedOut n (ops ++ [.put other b]) id i := by
  have hwell : (c.put other b).WellFormed := h.wellFormed.put other b
  have hafter : after n (ops ++ [.put other b]) = c.put other b := by
    rw [after_concat, ← hc]
    rfl
  have hordered := h.ordered_put other b
  have hinsert : id ∈ c.ids.filter (· != other) ++ [other] :=
    List.mem_append_left _ (List.mem_filter.mpr ⟨hmem, bne_iff_ne.mpr hne⟩)
  have hids := c.ids_put other b
  generalize c.ids.filter (· != other) ++ [other] = inserted at hordered hinsert hids
  -- `id` is among the ids at the front, which are dropped
  have hfront : id ∈ inserted.take (inserted.length - c.capacity) := by
    have hsplit := List.take_append_drop (inserted.length - c.capacity) inserted
    rw [← hsplit, List.mem_append, ← hids] at hinsert
    exact hinsert.resolve_right hnot
  have hlength : (c.put other b).ids.length = c.capacity := by
    have hpos : 0 < (inserted.take (inserted.length - c.capacity)).length := List.length_pos_of_mem hfront
    rw [List.length_take] at hpos
    rw [hids, List.length_drop]
    omega
  refine ⟨ops.length + 1, Nat.lt_succ_of_lt hid.lt_length, by simp, (c.put other b).ids, hwell.nodup, ?_, ?_⟩
  · rw [hlength]
    exact h.capacity
  · intro later hlater
    rw [List.take_of_length_le (by simp), hafter]
    refine ⟨fun heq => hnot (heq ▸ hlater), hlater, ?_⟩
    rw [hids] at hlater
    rw [← List.take_append_drop (inserted.length - c.capacity) inserted, List.pairwise_append] at hordered
    obtain ⟨i', a', j, b', hi', hj, hij⟩ := hordered.2.2 id hfront later hlater
    have hput : (Operation.put other b).put? ≠ some id := fun heq => hne (Option.some.inj heq).symm
    rw [hid.eq ((lastPut_concat_of_ne hput).mp hi')]
    exact ⟨j, b', hj, hij⟩

/-- One more operation. -/
theorem apply (h : Faithful n ops c) (hc : c = after n ops) (op : Operation α) :
    Faithful n (ops ++ [op]) (c.apply op) := by
  -- an id that is neither put nor dropped now is as it was
  have hold : ∀ {id i a}, op.put? ≠ some id → op.drops id = false → LastPut ops id i a ∧ KeptSince ops id i →
      LastPut (ops ++ [op]) id i a ∧ KeptSince (ops ++ [op]) id i := fun hput hdrop hlast =>
    ⟨(lastPut_concat_of_ne hput).mpr hlast.1, (keptSince_concat hlast.1.lt_length).mpr ⟨hlast.2, hdrop⟩⟩
  have hevicted : ∀ {id i a}, op.put? ≠ some id → LastPut (ops ++ [op]) id i a → KeptSince (ops ++ [op]) id i →
      LastPut ops id i a ∧ KeptSince ops id i ∧ op.drops id = false := fun hput hlast hkept =>
    have hlast := (lastPut_concat_of_ne hput).mp hlast
    ⟨hlast, (keptSince_concat hlast.lt_length).mp hkept⟩
  cases op with
  | put other b =>
    have hne : ∀ {id}, id ≠ other → (Operation.put other b).put? ≠ some id :=
      fun hid heq => hid (Option.some.inj heq).symm
    refine ⟨h.wellFormed.put other b, h.capacity, ?_, ?_, ?_⟩
    · intro id a hget
      by_cases hid : id = other
      · subst hid
        have hself : some b = some a := (h.wellFormed.get?_put_self id b).symm.trans hget
        cases hself
        refine ⟨ops.length, lastPut_concat_self ops id b, fun j op hj hop => ?_⟩
        have := (List.getElem?_eq_some_iff.mp hop).1
        simp at this
        omega
      · obtain ⟨i, hi⟩ := h.holds id a (h.wellFormed.get?_put_of_ne hid hget)
        exact ⟨i, hold (hne hid) rfl hi⟩
    · show (c.put other b).ids.Pairwise _
      rw [ids_put]
      exact (h.ordered_put other b).sublist (List.drop_sublist _ _)
    · intro id i a hlast hkept hnot
      have hid : id ≠ other := by
        rintro rfl
        exact hnot (Table.mem_keys_of_get? (h.wellFormed.get?_put_self id b))
      obtain ⟨hlast, hkept, -⟩ := hevicted (hne hid) hlast hkept
      by_cases hmem : id ∈ c.ids
      · exact h.crowdedOut_put hc hlast hmem hid hnot
      · exact (h.evicted id i a hlast hkept hmem).concat _
  | get other =>
    have hput : ∀ {id}, (Operation.get (α := α) other).put? ≠ some id := fun heq => by cases heq
    refine ⟨h.wellFormed, h.capacity, ?_, ?_, ?_⟩
    · intro id a hget
      obtain ⟨i, hi⟩ := h.holds id a hget
      exact ⟨i, hold hput rfl hi⟩
    · exact h.ordered.imp fun hbefore => hbefore.concat hput hput
    · intro id i a hlast hkept hnot
      obtain ⟨hlast, hkept, -⟩ := hevicted hput hlast hkept
      exact (h.evicted id i a hlast hkept hnot).concat _
  | invalidate other =>
    have hput : ∀ {id}, (Operation.invalidate (α := α) other).put? ≠ some id := fun heq => by cases heq
    refine ⟨h.wellFormed.drop other, h.capacity, ?_, ?_, ?_⟩
    · intro id a hget
      have hget : (c.drop other).get? id = some a := hget
      rw [get?_drop] at hget
      split at hget
      · cases hget
      · next hid =>
        obtain ⟨i, hi⟩ := h.holds id a hget
        exact ⟨i, hold hput (beq_false_of_ne (Ne.symm hid)) hi⟩
    · show (c.drop other).ids.Pairwise _
      rw [ids_drop]
      exact (h.ordered.imp fun hbefore => hbefore.concat hput hput).filter _
    · intro id i a hlast hkept hnot
      obtain ⟨hlast, hkept, hdrops⟩ := hevicted hput hlast hkept
      refine (h.evicted id i a hlast hkept fun hmem => hnot ?_).concat _
      show id ∈ (c.drop other).ids
      rw [ids_drop]
      exact List.mem_filter.mpr ⟨hmem, bne_iff_ne.mpr fun heq => beq_eq_false_iff_ne.mp hdrops heq.symm⟩
  | clear =>
    have hput : ∀ {id}, (Operation.clear (α := α)).put? ≠ some id := fun heq => by cases heq
    refine ⟨h.wellFormed.clear, h.capacity, fun id a hget => (by cases hget), .nil, ?_⟩
    intro id i a hlast hkept hnot
    obtain ⟨-, -, hdrops⟩ := hevicted hput hlast hkept
    cases hdrops

end Faithful

/-! ## Any operations -/

theorem faithful_after (n : Int) (ops : List (Operation α)) : Faithful n ops (after n ops) := by
  induction ops using List.reverseRecOn with
  | nil => exact .empty n
  | append_singleton ops op ih =>
    rw [after_concat]
    exact ih.apply rfl op

/-- An id that was crowded out is not cached: there was no room for it, and it was not put again. -/
theorem not_mem_ids_of_crowdedOut (hlast : LastPut ops id i a) (h : CrowdedOut n ops id i) :
    id ∉ (after n ops).ids := by
  obtain ⟨k, hik, hk, others, hnodup, hlength, hothers⟩ := h
  have hfull := faithful_after n (ops.take k)
  have hnot : id ∉ (after n (ops.take k)).ids := by
    intro hmem
    have hbounded := hfull.wellFormed.bounded
    have hcapacity := hfull.capacity
    have hmore : (id :: others).Nodup := List.nodup_cons.mpr ⟨fun hin => (hothers id hin).1 rfl, hnodup⟩
    have hsubset : id :: others ⊆ (after n (ops.take k)).ids :=
      List.cons_subset.mpr ⟨hmem, fun other hother => (hothers other hother).2.1⟩
    have hle := (hmore.subperm hsubset).length_le
    rw [size_eq_length_ids] at hbounded
    rw [List.length_cons] at hle
    omega
  have hrest : ∀ op ∈ ops.drop k, op.put? ≠ some id := by
    intro op hop hput
    obtain ⟨j, hj⟩ := List.getElem?_of_mem hop
    rw [List.getElem?_drop] at hj
    cases op with
    | put other b =>
      cases hput
      have := hlast.last (k + j) b hj
      omega
    | _ => cases hput
  have hsplit : after n ops = (ops.drop k).foldl Cache.apply (after n (ops.take k)) := by
    unfold after
    rw [← List.foldl_append, List.take_append_drop]
  rw [hsplit]
  exact not_mem_ids_foldl hnot hrest

/-- After any operations a cache holds at most as many ids as it was made for, each of them once and with what was put
last for it, in the order of these puts, and reading changes nothing. An id that was put and not dropped since is
missing exactly if it was crowded out. -/
theorem ids_follow_last_puts (n : Int) (ops : List (Operation α)) :
    let c := after n ops
    c.ids.Nodup ∧ (c.ids.length : Int) ≤ max 1 n ∧ c.ids.Pairwise (PutBefore ops) ∧
    (∀ id, (id ∈ c.ids → ∃ i a, LastPut ops id i a ∧ KeptSince ops id i ∧ c.get? id = some a) ∧
      (id ∉ c.ids → c.get? id = none) ∧ after n (ops ++ [.get id]) = c) ∧
    (∀ id i a, LastPut ops id i a → KeptSince ops id i → (id ∉ c.ids ↔ CrowdedOut n ops id i)) ∧
    ∀ id, (c.invalidate id).1 = true ↔ id ∈ c.ids := by
  intro c
  have h : Faithful n ops c := faithful_after n ops
  have hmissing : ∀ {id}, id ∉ c.ids → c.get? id = none := by
    intro id hid
    cases hget : c.get? id with
    | none => rfl
    | some a => exact absurd (Table.mem_keys_of_get? hget) hid
  refine ⟨h.wellFormed.nodup, ?_, h.ordered, fun id => ⟨h.exists_lastPut, hmissing, after_concat n ops _⟩, ?_, ?_⟩
  · have hbounded := h.wellFormed.bounded
    have hcapacity := h.capacity
    rw [size_eq_length_ids] at hbounded
    omega
  · intro id i a hlast hkept
    exact ⟨h.evicted id i a hlast hkept, not_mem_ids_of_crowdedOut hlast⟩
  · intro id
    show (c.get? id).isSome = true ↔ id ∈ c.ids
    constructor
    · intro hsome
      obtain ⟨a, ha⟩ := Option.isSome_iff_exists.mp hsome
      exact Table.mem_keys_of_get? ha
    · intro hid
      exact Option.isSome_iff_exists.mpr (Table.exists_get?_of_mem_keys hid)

end Cache

end Backpressure
