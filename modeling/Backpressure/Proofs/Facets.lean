import Backpressure.Proofs.Cache
import Backpressure.Proofs.Consistency

/-!
# What is held of one metric

* `Table.map`, `Cache.map` : a table and a cache with each value replaced by its image; the operations commute with it;
* `Analytics.facet`, `Reply.facet`, `Entry.facet` : the part of a value that is about one metric, with what is common to
  both;
* `Sources.AlikeIn` : surroundings that answer alike about one metric, `Entry.facet_of_compute` : entries that are
  computed in them from entries alike in it are alike in it.
-/

namespace Backpressure
open Number Time Trend

variable {K : Type}

/-! ## Values with one image -/

theorem Option.cases_of_map_eq {α β : Type} {f : α → β} {x y : Option α} (h : x.map f = y.map f) :
    x = none ∧ y = none ∨ ∃ a b, x = some a ∧ y = some b ∧ f a = f b := by
  cases x with
  | none => exact .inl ⟨rfl, Option.map_eq_none_iff.mp h.symm⟩
  | some a =>
    obtain ⟨b, hb, hab⟩ := Option.map_eq_some_iff.mp h.symm
    exact .inr ⟨a, b, rfl, hb, hab.symm⟩

theorem Except.cases_of_map_eq {ε α β : Type} {f : α → β} {x y : Except ε α} (h : x.map f = y.map f) :
    (∃ e, x = .error e ∧ y = .error e) ∨ ∃ a b, x = .ok a ∧ y = .ok b ∧ f a = f b := by
  cases x with
  | error e =>
    cases y with
    | error e' => exact .inl ⟨e, rfl, congrArg Except.error (Except.error.inj h).symm⟩
    | ok b => cases h
  | ok a =>
    obtain ⟨b, hb, hab⟩ := Except.map_eq_ok.mp h.symm
    exact .inr ⟨a, b, rfl, hb, hab.symm⟩

/-! ## Tables and caches -/

namespace Table

variable {α β : Type}

/-- The table with each value replaced by its image. -/
def map (f : α → β) (t : Table α) : Table β := ⟨t.entries.map fun e => (e.1, f e.2)⟩

theorem get?_map (f : α → β) (t : Table α) (key : String) : (t.map f).get? key = (t.get? key).map f := by
  obtain ⟨entries⟩ := t
  unfold map get?
  dsimp only
  induction entries with
  | nil => rfl
  | cons e rest ih =>
    rw [List.map_cons, List.lookup_cons, List.lookup_cons, ih]
    split <;> rfl

theorem map_erase (f : α → β) (t : Table α) (key : String) : (t.erase key).map f = (t.map f).erase key := by
  unfold erase map
  rw [List.filter_map]
  rfl

theorem map_insert (f : α → β) (t : Table α) (key : String) (a : α) :
    (t.insert key a).map f = (t.map f).insert key (f a) := by
  unfold insert
  rw [← map_erase]
  unfold map
  rw [List.map_append]
  rfl

theorem map_keepLast (f : α → β) (t : Table α) (n : Nat) : (t.keepLast n).map f = (t.map f).keepLast n := by
  unfold keepLast size map
  rw [List.map_drop, List.length_map]

end Table

namespace Cache

variable {α β : Type}

/-- The cache with each value replaced by its image. -/
def map (f : α → β) (c : Cache α) : Cache β := ⟨c.capacity, c.table.map f⟩

theorem get?_map (f : α → β) (c : Cache α) (id : String) : (c.map f).get? id = (c.get? id).map f :=
  c.table.get?_map f id

theorem map_put (f : α → β) (c : Cache α) (id : String) (a : α) : (c.put id a).map f = (c.map f).put id (f a) := by
  unfold put map
  rw [Table.map_keepLast, Table.map_insert]

theorem map_drop (f : α → β) (c : Cache α) (id : String) : (c.drop id).map f = (c.map f).drop id := by
  unfold drop map
  rw [Table.map_erase]

end Cache

/-! ## Facets -/

/-- What analytics say of one metric, and of the connection as a whole. -/
structure Facet (K : Type) where
  connection : String
  computedAt : Timestamp
  nextAt : Timestamp
  stale : Bool
  eta : Eta
  next : Option Int
  limit : Option Limit
  percentage : Option K
  /-- What stands under the name of the metric. -/
  scores : Option (Option (ScoreTable K))

def Analytics.facet (m : Metric) (a : Analytics K) : Facet K :=
  ⟨a.connection, a.computedAt, a.nextAt, a.stale, a.eta.get m, a.next.get m, a.limit.get m, a.percentage.get m,
    a.scores.lookup m.name⟩

/-- What a reply says of one metric, and where it comes from. -/
structure ReplyFacet (K : Type) where
  origin : Origin
  shown : Facet K

def Reply.facet (m : Metric) (reply : Reply K) : ReplyFacet K := ⟨reply.origin, reply.value.facet m⟩

/-- What an entry holds of one metric. -/
structure EntryFacet (K : Type) where
  shown : Facet K
  computedMonotonic : K
  live : Option (LiveModel K)

def Entry.facet (m : Metric) (entry : Entry K) : EntryFacet K :=
  ⟨entry.analytics.facet m, entry.computedMonotonic, entry.models.get m⟩

/-! ## Computations -/

/-- Surroundings that answer alike about a metric. -/
structure Sources.AlikeIn (m : Metric) (s s' : Sources K) : Prop where
  limits : ∀ id, (s.thresholds id).map (·.get m) = (s'.thresholds id).map (·.get m)
  history : ∀ id window, s.history id m window = s'.history id m window
  clock : s.clock = s'.clock
  monotonic : s.monotonic = s'.monotonic
  registry : s.registry = s'.registry

protected theorem Sources.AlikeIn.refl (m : Metric) (s : Sources K) : s.AlikeIn m s :=
  ⟨fun _ => rfl, fun _ _ => rfl, rfl, rfl, rfl⟩

namespace Entry

variable [Scalar K] {m : Metric} {s s' : Sources K} {config : EngineConfig K} {stopped stopped' : Bool} {id : String}
  {previous previous' : Option (Entry K)} {entry entry' : Entry K}

theorem Computation.facet_eq (c : Computation s config stopped id previous entry) (m : Metric) : entry.facet m =
    ⟨⟨id, c.now.toTimestamp, c.target.toTimestamp, false, (c.forecasts.get m).eta, (c.forecasts.get m).next,
      c.limits.get m, (c.forecasts.get m).percentage, some (c.scores.get m)⟩, s.monotonic, entry.models.get m⟩ := by
  unfold facet
  rw [c.analytics_eq, c.monotonic_eq]
  cases m <;> rfl

/-- Entries that are computed in surroundings alike in a metric, from entries alike in it, are alike in it. -/
theorem facet_of_compute (h : s.AlikeIn m s') (hprevious : previous.map (facet m) = previous'.map (facet m))
    (hentry : compute s config stopped id previous = .ok entry)
    (hentry' : compute s' config stopped' id previous' = .ok entry') : entry.facet m = entry'.facet m := by
  obtain ⟨c⟩ := exists_computation hentry
  obtain ⟨c'⟩ := exists_computation hentry'
  -- The two computations come by the same intermediate results, one after another.
  have hnow : c.now = c'.now := Except.ok.inj (c.now_eq.symm.trans (h.clock ▸ c'.now_eq))
  have hstart : c.start = c'.start := Except.ok.inj (c.start_eq.symm.trans (hnow ▸ c'.start_eq))
  have hwindow : c.window = c'.window := Except.ok.inj (c.window_eq.symm.trans (hstart ▸ c'.window_eq))
  have htarget : c.target = c'.target := Except.ok.inj (c.target_eq.symm.trans (hnow ▸ c'.target_eq))
  have hlimit : c.limits.get m = c'.limits.get m := by
    have hlimits := h.limits id
    rw [askThresholds_eq_ok.mp c.limits_eq, askThresholds_eq_ok.mp c'.limits_eq] at hlimits
    exact Except.ok.inj hlimits
  have hseries : c.series.get m = c'.series.get m := by
    obtain ⟨-, -, hsettled⟩ := settled_of_askHistory c.series_eq
    obtain ⟨-, -, hsettled'⟩ := settled_of_askHistory c'.series_eq
    have hm := hsettled m
    rw [h.history, hwindow, hsettled' m] at hm
    exact (Except.ok.inj hm).symm
  have hbefore : (previous.bind fun e => e.models.get m) = previous'.bind fun e => e.models.get m := by
    have hlive := congrArg (Option.bind · EntryFacet.live) hprevious
    rw [Option.bind_map, Option.bind_map] at hlive
    exact hlive
  have hlive : entry.models.get m = entry'.models.get m := by
    have htrain := c.train_eq m
    rw [h.registry, hseries, hbefore, c'.train_eq m] at htrain
    exact (Except.ok.inj htrain).symm
  have hforecast : c.forecasts.get m = c'.forecasts.get m := by
    have hforecast := c.forecast_eq m
    rw [hlive, hlimit, hnow, htarget, c'.forecast_eq m] at hforecast
    exact (Except.ok.inj hforecast).symm
  have hscores : c.scores.get m = c'.scores.get m :=
    Except.ok.inj ((c.scores_eq m).symm.trans (hlive ▸ c'.scores_eq m))
  rw [c.facet_eq, c'.facet_eq, hnow, htarget, hforecast, hlimit, hscores, h.monotonic, hlive]

end Entry

end Backpressure
