import Mathlib.Data.List.Dedup
import Backpressure.Proofs.Isolation
import Backpressure.Proofs.Reachable

/-!
# Passes in any order

* `Engine.Alike` : engines with the same of every connection and room for all of a list;
* `Engine.Alike.refresh_comm` : two connections can be refreshed in either order;
* `Pass.run_perm` : so can all connections of a pass, `Pass.counts_perm` : the counts do not depend on the order;
* `Installation.connections_are_independent` : runs of events in which one connection plays no part for another, and
  passes after them.
-/

namespace Backpressure
open Number Time Trend

variable {K : Type}

/-! ## Refreshing in either order -/

namespace Engine

/-- Engines that hold the same of every connection and have room for the ids of a list. -/
structure Alike (ids : List String) (e e' : Engine K) : Prop where
  agree : ∀ id, e.AgreeOn id e'
  left : e.cache.Within ids
  right : e'.cache.Within ids

theorem Alike.refl {ids : List String} {e : Engine K} (h : e.cache.Within ids) : e.Alike ids e :=
  ⟨fun id => .refl id e, h, h⟩

variable [Scalar K] {ids : List String} {id other : String} {e e' : Engine K}

theorem within_refresh (h : e.cache.Within ids) (hid : id ∈ ids) (s : Sources K) :
    (e.refresh s id).2.cache.Within ids := within_answer h ⟨id, true⟩ hid s

theorem agreeOn_refresh_of_ne (h : e.cache.Within ids) (hother : other ∈ ids) (hne : id ≠ other) (s : Sources K) :
    (e.refresh s other).2.AgreeOn id e := AgreeOn.answer_of_ne h ⟨other, true⟩ hother hne s

namespace Alike

theorem refresh (h : e.Alike ids e') (hid : id ∈ ids) (s : Sources K) :
    (e.refresh s id).1 = (e'.refresh s id).1 ∧ (e.refresh s id).2.Alike ids (e'.refresh s id).2 := by
  obtain ⟨houtcome, hself⟩ := (h.agree id).refresh h.left.wellFormed h.right.wellFormed (.refl id s)
  refine ⟨houtcome, fun other => ?_, within_refresh h.left hid s, within_refresh h.right hid s⟩
  by_cases hne : other = id
  · rw [hne]
    exact hself
  · exact ((agreeOn_refresh_of_ne h.left hid hne s).trans (h.agree other)).trans
      (agreeOn_refresh_of_ne h.right hid hne s).symm

/-- Two connections can be refreshed in either order. -/
theorem refresh_comm (h : e.Alike ids e') (hid : id ∈ ids) (hother : other ∈ ids) (hne : id ≠ other) (s : Sources K) :
    (e.refresh s id).1 = ((e'.refresh s other).2.refresh s id).1 ∧
      ((e.refresh s id).2.refresh s other).1 = (e'.refresh s other).1 ∧
      ((e.refresh s id).2.refresh s other).2.Alike ids ((e'.refresh s other).2.refresh s id).2 := by
  have hleft := within_refresh h.left hid s
  have hright := within_refresh h.right hother s
  -- the one refreshed second is as it was before the one refreshed first
  have hid' : e.AgreeOn id (e'.refresh s other).2 :=
    (h.agree id).trans (agreeOn_refresh_of_ne h.right hother hne s).symm
  have hother' : (e.refresh s id).2.AgreeOn other e' :=
    (agreeOn_refresh_of_ne h.left hid hne.symm s).trans (h.agree other)
  obtain ⟨hfirst, hafterId⟩ := hid'.refresh h.left.wellFormed hright.wellFormed (.refl id s)
  obtain ⟨hsecond, hafterOther⟩ := hother'.refresh hleft.wellFormed h.right.wellFormed (.refl other s)
  refine ⟨hfirst, hsecond, fun third => ?_, within_refresh hleft hother s, within_refresh hright hid s⟩
  by_cases hthird : third = id
  · rw [hthird]
    exact (agreeOn_refresh_of_ne hleft hother hne s).trans hafterId
  · by_cases hthird' : third = other
    · rw [hthird']
      exact hafterOther.trans (agreeOn_refresh_of_ne hright hid hne.symm s).symm
    · have hl := (agreeOn_refresh_of_ne hleft hother hthird' s).trans (agreeOn_refresh_of_ne h.left hid hthird s)
      have hr := (agreeOn_refresh_of_ne hright hid hthird s).trans (agreeOn_refresh_of_ne h.right hother hthird' s)
      exact (hl.trans (h.agree third)).trans hr.symm

end Alike

end Engine

/-! ## Passes -/

namespace Pass

theorem run_cons [Scalar K] (e : Engine K) (s : Sources K) (id : String) (rest : List String) :
    run e s (id :: rest) = (⟨⟨id, (e.refresh s id).1⟩ :: (run (e.refresh s id).2 s rest).1.refreshed⟩,
      (run (e.refresh s id).2 s rest).2) := rfl

theorem run_congr [Scalar K] {ids pass : List String} {e e' : Engine K} (h : e.Alike ids e') (s : Sources K)
    (hpass : pass ⊆ ids) : (run e s pass).1 = (run e' s pass).1 ∧ (run e s pass).2.Alike ids (run e' s pass).2 := by
  induction pass generalizing e e' with
  | nil => exact ⟨rfl, h⟩
  | cons id rest ih =>
    obtain ⟨hid, hrest⟩ := List.cons_subset.mp hpass
    obtain ⟨houtcome, hafter⟩ := h.refresh hid s
    obtain ⟨hrun, hend⟩ := ih hafter hrest
    rw [run_cons, run_cons, houtcome, hrun]
    exact ⟨rfl, hend⟩

/-- In whichever order the connections are refreshed, the same becomes of each of them. -/
theorem run_perm [Scalar K] {ids pass pass' : List String} {e e' : Engine K} (h : e.Alike ids e') (s : Sources K)
    (hperm : pass.Perm pass') (hpass : pass ⊆ ids) :
    (run e s pass).1.refreshed.Perm (run e' s pass').1.refreshed ∧
      (run e s pass).2.Alike ids (run e' s pass').2 := by
  induction hperm generalizing e e' with
  | nil => exact ⟨.nil, h⟩
  | cons id _ ih =>
    obtain ⟨hid, hrest⟩ := List.cons_subset.mp hpass
    obtain ⟨houtcome, hafter⟩ := h.refresh hid s
    obtain ⟨hrefreshed, hend⟩ := ih hafter hrest
    rw [run_cons, run_cons, houtcome]
    exact ⟨hrefreshed.cons _, hend⟩
  | swap first second rest =>
    by_cases hne : second = first
    · obtain ⟨hrun, hend⟩ := run_congr h s hpass
      rw [hne] at hrun hend ⊢
      exact ⟨.of_eq (congrArg refreshed hrun), hend⟩
    · obtain ⟨hsecond, htail⟩ := List.cons_subset.mp hpass
      obtain ⟨hfirst, hrest⟩ := List.cons_subset.mp htail
      obtain ⟨houtcome, houtcome', hafter⟩ := h.refresh_comm hsecond hfirst hne s
      obtain ⟨hrun, hend⟩ := run_congr hafter s hrest
      simp only [run_cons]
      rw [houtcome, houtcome', hrun]
      exact ⟨.swap _ _ _, hend⟩
  | trans hleft _ ih ih' =>
    obtain ⟨hrefreshed, hend⟩ := ih (.refl h.left) hpass
    obtain ⟨hrefreshed', hend'⟩ := ih' h (fun id hid => hpass (hleft.mem_iff.mpr hid))
    refine ⟨hrefreshed.trans hrefreshed', fun id => (hend.agree id).trans (hend'.agree id), hend.left, hend'.right⟩

/-- The counts of a pass that does not fail do not depend on the order. -/
theorem counts_perm {p p' : Pass K} (h : p.refreshed.Perm p'.refreshed) (hfatal : ∀ r ∈ p.refreshed, r.fatal? = none) :
    ∃ counts, p.counts = .ok counts ∧ p'.counts = .ok counts := by
  have hnone : p.refreshed.findSome? Refreshed.fatal? = none := List.findSome?_eq_none_iff.mpr hfatal
  have hnone' : p'.refreshed.findSome? Refreshed.fatal? = none :=
    List.findSome?_eq_none_iff.mpr fun r hr => hfatal r (h.mem_iff.mpr hr)
  refine ⟨_, by unfold counts; rw [hnone], ?_⟩
  unfold counts
  rw [hnone', h.length_eq, h.countP_eq, h.countP_eq]

end Pass

/-! ## Runs -/

namespace Installation

variable [Scalar K] {registry : Registry K} {config : EngineConfig K} {start : Installation K} {events : List (Event K)}

omit [Scalar K] in
theorem within_of_create (hcreate : Engine.create registry config = .ok start.engine) {ids : List String}
    (hroom : (ids.length : Int) ≤ max 1 config.maxCachedConnections) : start.engine.cache.Within ids := by
  unfold Engine.create at hcreate
  split at hcreate
  · rw [← Except.ok.inj hcreate]
    exact Cache.within_empty hroom
  · cases hcreate

omit [Scalar K] in
theorem scoped_of_asked {ids : List String} (hscope : ∀ event ∈ events, event.scope?.isSome = true)
    (hids : events.filterMap Event.asked? ⊆ ids) : Scoped ids events :=
  ⟨hscope, fun event hevent _ hasked => hids (List.mem_filterMap.mpr ⟨event, hevent, hasked⟩)⟩

/-- While the cache has room for all connections that are asked for, what becomes of one of them does not depend on what
happens to the others, and the order in which a pass refreshes them makes no difference. -/
theorem connections_are_independent (hcreate : Engine.create registry config = .ok start.engine)
    (hscope : ∀ event ∈ events, event.scope?.isSome = true)
    (hroom : ((events.filterMap Event.asked?).dedup.length : Int) ≤ max 1 config.maxCachedConnections) :
    (∀ id, (start.run (events.filter (Event.concerns id))).1 = start.answersAbout id events ∧
      (start.run (events.filter (Event.concerns id))).2.engine.cache.get? id =
        (start.run events).2.engine.cache.get? id) ∧
    ∀ pass pass' : List String, pass.Perm pass' →
      ((events.filterMap Event.asked? ++ pass).dedup.length : Int) ≤ max 1 config.maxCachedConnections →
      let refreshed := Pass.run (start.run events).2.engine (start.run events).2.site.sources
      (∀ r ∈ (refreshed pass).1.refreshed, r.fatal? = none) →
      (∃ counts, (refreshed pass).1.counts = .ok counts ∧ (refreshed pass').1.counts = .ok counts) ∧
        ∀ id, (refreshed pass).2.cache.get? id = (refreshed pass').2.cache.get? id := by
  constructor
  · intro id
    have hwithin := within_of_create hcreate hroom
    have hevents : Scoped _ events := scoped_of_asked hscope (List.subset_dedup _)
    obtain ⟨hanswers, hagree⟩ := run_filter_concerns hevents (AgreeOn.refl id start) hwithin hwithin
    exact ⟨hanswers, hagree.engine.entry.symm⟩
  · intro pass pass' hperm hroom refreshed hfatal
    have hasked : events.filterMap Event.asked? ++ pass ⊆ _ := List.subset_dedup _
    obtain ⟨hevents, hpass⟩ := List.append_subset.mp hasked
    have hwithin := within_run (scoped_of_asked hscope hevents) (within_of_create hcreate hroom)
    obtain ⟨hrefreshed, hend⟩ := Pass.run_perm (.refl hwithin) (start.run events).2.site.sources hperm hpass
    exact ⟨Pass.counts_perm hrefreshed hfatal, fun id => (hend.agree id).entry⟩

/-- An installation that nothing has happened to. -/
def untouched : Installation Float := ⟨.cold, Site.empty ⟨63839664000000000, some 0⟩ 0 Registry.standard⟩

/-- Events about two queues that grow, the second of which is forgotten in between. -/
def twoQueues : List (Event Float) :=
  let points : List (Timestamp × Reading × Reading) :=
    [(⟨63839663000000000, some 0⟩, .whole 10, .whole 1), (⟨63839663060000000, some 0⟩, .whole 20, .whole 1)]
  [.register "orders" (.whole 1000) none, .register "payments" (.whole 500) none, .record "orders" points,
    .get "orders", .record "payments" points, .get "payments", .remove "payments", .refresh "payments",
    .setMonotonic 100, .nextInterval "orders" .queuedBytes]

/-- Of two queues each is as it would be alone, and a pass fails for the forgotten one in either order. -/
theorem two_queues_are_independent :
    (untouched.run (twoQueues.filter (Event.concerns "orders"))).1 = untouched.answersAbout "orders" twoQueues ∧
      ((untouched.run (twoQueues.filter (Event.concerns "orders"))).2.engine.cache.get? "orders").isSome = true ∧
      let after := (untouched.run twoQueues).2
      (Pass.run after.engine after.site.sources ["orders", "payments"]).1.counts = .ok ⟨1, 0, 1⟩ ∧
        (Pass.run after.engine after.site.sources ["payments", "orders"]).1.counts = .ok ⟨1, 0, 1⟩ := by
  have hscope : ∀ event ∈ twoQueues, event.scope?.isSome = true := by
    have hall : twoQueues.all (fun event => event.scope?.isSome) = true := by decide +kernel
    exact List.all_eq_true.mp hall
  have hcreate : Engine.create Registry.standard EngineConfig.standard = .ok untouched.engine := Engine.create_cold
  obtain ⟨halone, hpasses⟩ := connections_are_independent hcreate hscope (by decide +kernel)
  obtain ⟨⟨counts, hcounts, hcounts'⟩, -⟩ := hpasses ["orders", "payments"] ["payments", "orders"] (.swap _ _ _)
    (by decide +kernel) (by decide +kernel)
  have hshown : (Pass.run (untouched.run twoQueues).2.engine (untouched.run twoQueues).2.site.sources
      ["orders", "payments"]).1.counts = .ok ⟨1, 0, 1⟩ := by decide +kernel
  refine ⟨(halone "orders").1, by decide +kernel, hshown, ?_⟩
  rw [hcounts', ← hcounts, hshown]

end Installation

end Backpressure
