import Backpressure.Proofs.Cache
import Backpressure.Proofs.Calls
import Backpressure.Proofs.Recording
import Backpressure.Run

/-!
# Connections by themselves

* `Sources.AgreeOn`, `Site.AgreeOn`, `Engine.AgreeOn` : surroundings and engines that hold the same of one connection,
  and of what all connections share;
* `Engine.AgreeOn.get`, `refresh` : a call sees no more than that, `answer_of_ne` : it changes nothing of another
  connection while the cache has room for both;
* `Event.scope?` : whether an event is about one connection or about all alike, `Installation.step_congr` and
  `agreeOn_step_of_ne` : the same two facts about events;
* `Installation.run_filter_concerns` : so the events about other connections can be left out of a run.
-/

namespace Backpressure
open Number Time Trend

variable {K : Type}

/-! ## Surroundings -/

/-- Surroundings that answer alike about a connection. -/
structure Sources.AgreeOn (id : String) (s s' : Sources K) : Prop where
  thresholds : s.thresholds id = s'.thresholds id
  history : s.history id = s'.history id
  clock : s.clock = s'.clock
  monotonic : s.monotonic = s'.monotonic
  registry : s.registry = s'.registry

protected theorem Sources.AgreeOn.refl (id : String) (s : Sources K) : s.AgreeOn id s := ⟨rfl, rfl, rfl, rfl, rfl⟩

theorem Entry.compute_congr [Scalar K] {id : String} {s s' : Sources K} (h : s.AgreeOn id s') (config : EngineConfig K)
    (stopped : Bool) (previous : Option (Entry K)) :
    compute s config stopped id previous = compute s' config stopped id previous := by
  unfold compute askThresholds askHistory
  rw [h.thresholds, h.history, h.clock, h.monotonic, h.registry]

namespace Site

/-- Surroundings that hold the same of a connection and of what is common to all. -/
structure AgreeOn (id : String) (s s' : Site K) : Prop where
  limits : s.directory.table.get? id = s'.directory.table.get? id
  snapshots : s.history.of id = s'.history.of id
  pinned : s.pinned.get? id = s'.pinned.get? id
  faults : s.faults = s'.faults
  clock : s.clock = s'.clock
  monotonic : s.monotonic = s'.monotonic
  registry : s.registry = s'.registry

namespace AgreeOn

variable {s s' s'' : Site K} {id other : String}

protected theorem refl (id : String) (s : Site K) : s.AgreeOn id s := ⟨rfl, rfl, rfl, rfl, rfl, rfl, rfl⟩

theorem trans (h : s.AgreeOn id s') (h' : s'.AgreeOn id s'') : s.AgreeOn id s'' :=
  ⟨h.limits.trans h'.limits, h.snapshots.trans h'.snapshots, h.pinned.trans h'.pinned, h.faults.trans h'.faults,
    h.clock.trans h'.clock, h.monotonic.trans h'.monotonic, h.registry.trans h'.registry⟩

theorem sources [Scalar K] (h : s.AgreeOn id s') : s.sources.AgreeOn id s'.sources where
  thresholds := by
    show s.thresholds id = s'.thresholds id
    unfold thresholds ThresholdDirectory.resolve
    rw [h.faults, h.limits]
  history := by
    funext metric window
    unfold Site.sources series pinned? History.fetch
    simp only [h.faults, h.pinned, h.snapshots]
  clock := h.clock
  monotonic := h.monotonic
  registry := h.registry

/-! ### Changes of one connection -/

theorem register_of_ne (h : id ≠ other) (s : Site K) (bytes : Reading) (count : Option Limit) :
    (s.register other bytes count).2.AgreeOn id s := by
  unfold register ThresholdDirectory.register
  cases DataSize.parse bytes with
  | error e => exact .refl id s
  | ok limit => exact { AgreeOn.refl id s with limits := (Table.get?_insert _ _ _ _).trans (if_neg h) }

theorem register (h : s.AgreeOn id s') (bytes : Reading) (count : Option Limit) :
    (s.register id bytes count).1 = (s'.register id bytes count).1 ∧
      (s.register id bytes count).2.AgreeOn id (s'.register id bytes count).2 := by
  unfold Site.register ThresholdDirectory.register
  cases DataSize.parse bytes with
  | error e => exact ⟨rfl, h⟩
  | ok limit =>
    refine ⟨rfl, { h with limits := ?_ }⟩
    exact (Table.get?_insert _ _ _ _).trans ((if_pos rfl).trans ((Table.get?_insert _ _ _ _).trans (if_pos rfl)).symm)

theorem remove_of_ne (h : id ≠ other) (s : Site K) : (s.remove other).AgreeOn id s :=
  { AgreeOn.refl id s with limits := Table.get?_erase_of_ne h _ }

theorem remove (h : s.AgreeOn id s') : (s.remove id).AgreeOn id (s'.remove id) :=
  { h with limits := (Table.get?_erase_self _ _).trans (Table.get?_erase_self _ _).symm }

theorem pin_of_ne {series : Series K} (h : id ≠ series.connection) (s : Site K) : (s.pin series).AgreeOn id s :=
  { AgreeOn.refl id s with pinned := (Table.get?_insert _ _ _ _).trans (if_neg h) }

theorem pin {series : Series K} (h : s.AgreeOn series.connection s') :
    (s.pin series).AgreeOn series.connection (s'.pin series) := by
  refine { h with pinned := ?_ }
  unfold Site.pin
  dsimp only
  rw [Table.get?_insert, Table.get?_insert, if_pos rfl, if_pos rfl, h.pinned]

end AgreeOn

end Site

/-! ## Recording -/

namespace History

variable {h h' : History} {id other : String}

theorem record_of_ne (hne : id ≠ other) (h : History) (t : Timestamp) (bytes count : Reading) :
    (h.record other t bytes count).2.of id = h.of id := by
  unfold record
  split
  · rfl
  · show ((h.snapshots.insert other _).get? id).getD [] = _
    rw [Table.get?_insert, if_neg hne]
    rfl

theorem record_congr (hof : h.of id = h'.of id) (t : Timestamp) (bytes count : Reading) :
    (h.record id t bytes count).1 = (h'.record id t bytes count).1 ∧
      (h.record id t bytes count).2.of id = (h'.record id t bytes count).2.of id := by
  unfold record
  rw [hof]
  split
  · exact ⟨rfl, hof⟩
  · refine ⟨rfl, ?_⟩
    show ((h.snapshots.insert id _).get? id).getD [] = ((h'.snapshots.insert id _).get? id).getD []
    rw [Table.get?_insert, Table.get?_insert, if_pos rfl, if_pos rfl]

end History

namespace Site.AgreeOn

variable {s s' : Site K} {id other : String}

theorem record_of_ne (h : id ≠ other) (s : Site K) (points : List (Timestamp × Reading × Reading)) :
    (s.record other points).2.AgreeOn id s := by
  induction points generalizing s with
  | nil => exact .refl id s
  | cons p rest ih =>
    have hof := s.history.record_of_ne h p.1 p.2.1 p.2.2
    unfold Site.record
    split
    · next history hrecord =>
      rw [hrecord] at hof
      exact (ih { s with history }).trans { AgreeOn.refl id s with snapshots := hof }
    · next history hrecord =>
      rw [hrecord] at hof
      exact { AgreeOn.refl id s with snapshots := hof }

theorem record (h : s.AgreeOn id s') (points : List (Timestamp × Reading × Reading)) :
    (s.record id points).1 = (s'.record id points).1 ∧ (s.record id points).2.AgreeOn id (s'.record id points).2 := by
  induction points generalizing s s' with
  | nil => exact ⟨rfl, h⟩
  | cons p rest ih =>
    obtain ⟨t, bytes, count⟩ := p
    obtain ⟨hanswer, hof⟩ := History.record_congr h.snapshots t bytes count
    unfold Site.record
    rcases hleft : s.history.record id t bytes count with ⟨left, history⟩
    rcases hright : s'.history.record id t bytes count with ⟨right, history'⟩
    rw [hleft, hright] at hanswer hof
    cases hanswer
    cases left with
    | ok _ =>
      have hrest : Site.AgreeOn id { s with history } { s' with history := history' } := { h with snapshots := hof }
      exact ih hrest
    | error e => exact ⟨rfl, { h with snapshots := hof }⟩

end Site.AgreeOn

/-! ## Engines -/

namespace Engine

/-- Engines that hold the same of a connection, apart from the counters and the slots. -/
structure AgreeOn (id : String) (e e' : Engine K) : Prop where
  config : e.config = e'.config
  stopped : e.stopped = e'.stopped
  entry : e.cache.get? id = e'.cache.get? id

namespace AgreeOn

variable {e e' e'' : Engine K} {id other : String} {s s' : Sources K}

protected theorem refl (id : String) (e : Engine K) : e.AgreeOn id e := ⟨rfl, rfl, rfl⟩

theorem symm (h : e.AgreeOn id e') : e'.AgreeOn id e := ⟨h.config.symm, h.stopped.symm, h.entry.symm⟩

theorem trans (h : e.AgreeOn id e') (h' : e'.AgreeOn id e'') : e.AgreeOn id e'' :=
  ⟨h.config.trans h'.config, h.stopped.trans h'.stopped, h.entry.trans h'.entry⟩

theorem conclude (h : e.AgreeOn id e') (hwell : e.cache.WellFormed) (hwell' : e'.cache.WellFormed)
    (previous : Option (Entry K)) (outcome : Except Error (Entry K)) :
    (e.conclude id previous outcome).1 = (e'.conclude id previous outcome).1 ∧
      (e.conclude id previous outcome).2.AgreeOn id (e'.conclude id previous outcome).2 := by
  have hdrop : (e.cache.drop id).get? id = (e'.cache.drop id).get? id := by
    rw [Cache.get?_drop, Cache.get?_drop, if_pos rfl, if_pos rfl]
  have hput (entry : Entry K) : (e.cache.put id entry).get? id = (e'.cache.put id entry).get? id :=
    (hwell.get?_put_self id entry).trans (hwell'.get?_put_self id entry).symm
  cases outcome with
  | ok entry => exact ⟨rfl, { h with entry := hput entry }⟩
  | error error =>
    cases error with
    | unknownConnection _ => exact ⟨rfl, { h with entry := hdrop }⟩
    | sourceFailed _ _ => cases previous <;> exact ⟨rfl, { h with }⟩
    | deadline _ _ => cases previous <;> exact ⟨rfl, { h with }⟩
    | _ => exact ⟨rfl, h⟩

variable [Scalar K]

theorem refresh (h : e.AgreeOn id e') (hwell : e.cache.WellFormed) (hwell' : e'.cache.WellFormed)
    (hs : s.AgreeOn id s') : (e.refresh s id).1 = (e'.refresh s' id).1 ∧
      (e.refresh s id).2.AgreeOn id (e'.refresh s' id).2 := by
  have hattempt : e.attempt s id = e'.attempt s' id := by
    unfold attempt
    rw [h.config, h.stopped, h.entry, Entry.compute_congr hs]
  have hconclude := h.conclude hwell hwell' (e'.cache.get? id) (e'.attempt s' id)
  rw [refresh_eq, refresh_eq]
  unfold concluded
  rw [hattempt, h.entry]
  exact ⟨hconclude.1, { hconclude.2 with }⟩

theorem fresh?_eq (h : e.AgreeOn id e') (hs : s.AgreeOn id s') : e.fresh? s id = e'.fresh? s' id := by
  unfold fresh? isFresh
  rw [h.entry, h.config, hs.monotonic]

theorem get (h : e.AgreeOn id e') (hwell : e.cache.WellFormed) (hwell' : e'.cache.WellFormed) (hs : s.AgreeOn id s') :
    (e.get s id).1 = (e'.get s' id).1 ∧ (e.get s id).2.AgreeOn id (e'.get s' id).2 := by
  have hfresh' := h.fresh?_eq hs
  cases hfresh : e.fresh? s id with
  | some value =>
    rw [get_of_hit hfresh, get_of_hit (hfresh'.symm.trans hfresh)]
    exact ⟨rfl, { h with }⟩
  | none =>
    rw [get_of_miss hfresh, get_of_miss (hfresh'.symm.trans hfresh)]
    exact h.refresh hwell hwell' hs

/-- A call for one connection changes nothing of another while the cache has room for both. -/
theorem answer_of_ne {ids : List String} (hcache : e.cache.Within ids) (call : Call) (hcall : call.id ∈ ids)
    (h : id ≠ call.id) (s : Sources K) : (e.answer s call).2.AgreeOn id e := by
  obtain ⟨hconfig, hstopped, hcases⟩ := e.answer_cases s call
  refine ⟨hconfig, hstopped, ?_⟩
  rcases hcases with ⟨entry, -, -, hput⟩ | ⟨-, hsame | hdrop⟩
  · rw [hput, hcache.get?_put hcall, if_neg h]
  · rw [hsame]
  · rw [hdrop, Cache.get?_drop_of_ne h]

end AgreeOn

theorem within_answer [Scalar K] {e : Engine K} {ids : List String} (hcache : e.cache.Within ids) (call : Call)
    (hcall : call.id ∈ ids) (s : Sources K) : (e.answer s call).2.cache.Within ids := by
  obtain ⟨-, -, hcases⟩ := e.answer_cases s call
  rcases hcases with ⟨entry, -, -, hput⟩ | ⟨-, hsame | hdrop⟩
  · rw [hput]
    exact hcache.put hcall entry
  · rw [hsame]
    exact hcache
  · rw [hdrop]
    exact hcache.drop call.id

end Engine

/-! ## Events -/

namespace Event

/-- What an event is about. -/
inductive Scope where
  | one (id : String)
  | every
  deriving DecidableEq

/-- What an event is about: one connection, or all of them alike. Events that call for connections in an order of their
own have no scope. -/
def scope? : Event K → Option Scope
  | .register id _ _ | .remove id | .record id _ | .get id | .refresh id | .timeToBackpressure id _ | .nextInterval id _
  | .invalidate id => some (.one id)
  | .pin series => some (.one series.connection)
  | .failHistory _ _ | .failThresholds _ | .failListing _ | .hold _ _ | .recover | .setClock _ | .setMonotonic _
  | .invalidateAll | .close => some .every
  | .pass _ | .request _ _ | .overlap _ => none

/-- Whether an event is about a connection, alone or with all others. -/
def concerns (id : String) (event : Event K) : Bool :=
  event.scope? = some (.one id) || event.scope? = some .every

/-- The connection whose analytics an event asks for. -/
def asked? : Event K → Option String
  | .get id | .refresh id | .timeToBackpressure id _ | .nextInterval id _ => some id
  | _ => none

end Event

namespace Installation

/-- Installations that hold the same of a connection, and of what is common to all. -/
structure AgreeOn (id : String) (i j : Installation K) : Prop where
  engine : i.engine.AgreeOn id j.engine
  site : i.site.AgreeOn id j.site

protected theorem AgreeOn.refl (id : String) (i : Installation K) : i.AgreeOn id i := ⟨.refl id _, .refl id _⟩

theorem AgreeOn.trans {i j k : Installation K} {id : String} (h : i.AgreeOn id j) (h' : j.AgreeOn id k) :
    i.AgreeOn id k := ⟨h.engine.trans h'.engine, h.site.trans h'.site⟩

variable [Scalar K] {i j : Installation K} {ids : List String} {id other : String} {event : Event K}

/-- An event that asks for none but the ids that there is room for leaves room for them. -/
theorem within_step (hcache : i.engine.cache.Within ids) (hscope : event.scope?.isSome = true)
    (hasked : ∀ id, event.asked? = some id → id ∈ ids) : (i.step event).2.engine.cache.Within ids := by
  cases event with
  | get id => exact Engine.within_answer hcache ⟨id, false⟩ (hasked id rfl) _
  | refresh id => exact Engine.within_answer hcache ⟨id, true⟩ (hasked id rfl) _
  | timeToBackpressure id m => exact Engine.within_answer hcache ⟨id, false⟩ (hasked id rfl) _
  | nextInterval id m => exact Engine.within_answer hcache ⟨id, false⟩ (hasked id rfl) _
  | invalidate id => exact hcache.drop id
  | invalidateAll => exact hcache.clear
  | pass _ => cases hscope
  | request _ _ => cases hscope
  | overlap _ => cases hscope
  | _ => exact hcache

/-- An event about one connection changes nothing of another while the cache has room. -/
theorem agreeOn_step_of_ne (hcache : i.engine.cache.Within ids) (hscope : event.scope? = some (.one other))
    (hasked : ∀ id, event.asked? = some id → id ∈ ids) (hne : id ≠ other) : (i.step event).2.AgreeOn id i := by
  have hengine := Engine.AgreeOn.refl id i.engine
  have hsite := Site.AgreeOn.refl id i.site
  have hanswer (forced : Bool) (hother : other ∈ ids) :
      (i.engine.answer i.site.sources ⟨other, forced⟩).2.AgreeOn id i.engine :=
    Engine.AgreeOn.answer_of_ne hcache ⟨other, forced⟩ hother hne _
  cases event with
  | register _ bytes count =>
    cases hscope
    exact ⟨hengine, .register_of_ne hne i.site bytes count⟩
  | remove _ =>
    cases hscope
    exact ⟨hengine, .remove_of_ne hne i.site⟩
  | record _ points =>
    cases hscope
    exact ⟨hengine, .record_of_ne hne i.site points⟩
  | pin series =>
    cases hscope
    exact ⟨hengine, .pin_of_ne hne i.site⟩
  | get _ =>
    cases hscope
    exact ⟨hanswer false (hasked _ rfl), hsite⟩
  | refresh _ =>
    cases hscope
    exact ⟨hanswer true (hasked _ rfl), hsite⟩
  | timeToBackpressure _ m =>
    cases hscope
    exact ⟨hanswer false (hasked _ rfl), hsite⟩
  | nextInterval _ m =>
    cases hscope
    exact ⟨hanswer false (hasked _ rfl), hsite⟩
  | invalidate _ =>
    cases hscope
    exact ⟨{ hengine with entry := Cache.get?_drop_of_ne hne _ }, hsite⟩
  | _ => cases hscope

/-- An event about a connection has one answer where there is the same of that connection, and leaves the same of it. -/
theorem step_congr_of_one (h : i.AgreeOn id j) (hwell : i.engine.cache.WellFormed) (hwell' : j.engine.cache.WellFormed)
    (hscope : event.scope? = some (.one id)) :
    (i.step event).1 = (j.step event).1 ∧ (i.step event).2.AgreeOn id (j.step event).2 := by
  obtain ⟨hengine, hsite⟩ := h
  have hget := hengine.get hwell hwell' hsite.sources
  have hrefresh := hengine.refresh hwell hwell' hsite.sources
  cases event with
  | register _ bytes count =>
    cases hscope
    obtain ⟨hanswer, hafter⟩ := hsite.register bytes count
    exact ⟨congrArg (Except.map Answer.thresholds) hanswer, hengine, hafter⟩
  | remove _ =>
    cases hscope
    exact ⟨rfl, hengine, hsite.remove⟩
  | record _ points =>
    cases hscope
    obtain ⟨hanswer, hafter⟩ := hsite.record points
    exact ⟨congrArg (Except.map fun _ => Answer.recorded points.length) hanswer, hengine, hafter⟩
  | pin series =>
    cases hscope
    exact ⟨rfl, hengine, hsite.pin⟩
  | get _ =>
    cases hscope
    exact ⟨congrArg (Except.map Answer.reply) hget.1, hget.2, hsite⟩
  | refresh _ =>
    cases hscope
    exact ⟨congrArg (Except.map Answer.reply) hrefresh.1, hrefresh.2, hsite⟩
  | timeToBackpressure _ m =>
    cases hscope
    refine ⟨?_, hget.2, hsite⟩
    show ((i.engine.get i.site.sources id).1.map _).map Answer.eta = ((j.engine.get j.site.sources id).1.map _).map _
    rw [hget.1]
  | nextInterval _ m =>
    cases hscope
    refine ⟨?_, hget.2, hsite⟩
    show ((i.engine.get i.site.sources id).1.map _).map Answer.size = ((j.engine.get j.site.sources id).1.map _).map _
    rw [hget.1]
  | invalidate _ =>
    cases hscope
    refine ⟨?_, { hengine with entry := ?_ }, hsite⟩
    · show Except.ok (Answer.dropped (i.engine.cache.get? id).isSome) = .ok (.dropped (j.engine.cache.get? id).isSome)
      rw [hengine.entry]
    · exact (Cache.get?_drop _ _ _).trans ((if_pos rfl).trans ((Cache.get?_drop _ _ _).trans (if_pos rfl)).symm)
  | _ => cases hscope

/-- So has an event about all connections. -/
theorem step_congr_of_every (h : i.AgreeOn id j) (hscope : event.scope? = some .every) :
    (i.step event).1 = (j.step event).1 ∧ (i.step event).2.AgreeOn id (j.step event).2 := by
  obtain ⟨hengine, hsite⟩ := h
  have hfaults (faults : Faults K → Faults K) : Site.AgreeOn id { i.site with faults := faults i.site.faults }
      { j.site with faults := faults j.site.faults } := { hsite with faults := congrArg faults hsite.faults }
  cases event with
  | failHistory e metrics =>
    exact ⟨rfl, hengine, hfaults fun f =>
      { f with history := metrics.foldl (fun h m => h.set m (some e)) f.history }⟩
  | failThresholds e => exact ⟨rfl, hengine, hfaults fun f => { f with thresholds := some e }⟩
  | failListing e => exact ⟨rfl, hengine, hfaults fun f => { f with listing := some e }⟩
  | hold seconds metrics =>
    exact ⟨rfl, hengine, hfaults fun f =>
      { f with held := metrics.foldl (fun h m => h.set m (some seconds)) f.held }⟩
  | recover => exact ⟨rfl, hengine, { hsite with faults := rfl }⟩
  | setClock t => exact ⟨rfl, hengine, { hsite with clock := rfl }⟩
  | setMonotonic x => exact ⟨rfl, hengine, { hsite with monotonic := rfl }⟩
  | invalidateAll => exact ⟨rfl, { hengine with entry := rfl }, hsite⟩
  | close => exact ⟨rfl, { hengine with stopped := rfl }, hsite⟩
  | _ => cases hscope

theorem step_congr (h : i.AgreeOn id j) (hwell : i.engine.cache.WellFormed) (hwell' : j.engine.cache.WellFormed)
    (hconcerns : event.concerns id = true) :
    (i.step event).1 = (j.step event).1 ∧ (i.step event).2.AgreeOn id (j.step event).2 := by
  have hscope : event.scope? = some (.one id) ∨ event.scope? = some .every := by
    simpa [Event.concerns] using hconcerns
  rcases hscope with hscope | hscope
  · exact step_congr_of_one h hwell hwell' hscope
  · exact step_congr_of_every h hscope

/-- The answers to those of the events that concern a connection. -/
def answersAbout (i : Installation K) (id : String) (events : List (Event K)) : List (Except Error (Answer K)) :=
  ((events.zip (i.run events).1).filter fun p => p.1.concerns id).map Prod.snd

theorem answersAbout_cons (i : Installation K) (id : String) (event : Event K) (rest : List (Event K)) :
    i.answersAbout id (event :: rest) =
      if event.concerns id = true then (i.step event).1 :: (i.step event).2.answersAbout id rest
      else (i.step event).2.answersAbout id rest := by
  show (((event, (i.step event).1) :: rest.zip ((i.step event).2.run rest).1).filter _).map Prod.snd = _
  rw [List.filter_cons]
  split <;> rfl

/-- Events that each have a scope and ask for none but the ids of a list. -/
structure Scoped (ids : List String) (events : List (Event K)) : Prop where
  scope : ∀ event ∈ events, event.scope?.isSome = true
  asked : ∀ event ∈ events, ∀ id, event.asked? = some id → id ∈ ids

omit [Scalar K] in
theorem Scoped.tail {rest : List (Event K)} (h : Scoped ids (event :: rest)) : Scoped ids rest :=
  ⟨fun e he => h.scope e (List.mem_cons_of_mem event he), fun e he => h.asked e (List.mem_cons_of_mem event he)⟩

theorem within_run {events : List (Event K)} (hevents : Scoped ids events) (hcache : i.engine.cache.Within ids) :
    (i.run events).2.engine.cache.Within ids := by
  induction events generalizing i with
  | nil => exact hcache
  | cons event rest ih =>
    exact ih hevents.tail (within_step hcache (hevents.scope event List.mem_cons_self)
      (hevents.asked event List.mem_cons_self))

/-- Without the events about other connections, the events that concern a connection have the answers that they have
among them, and leave the same of it. -/
theorem run_filter_concerns {events : List (Event K)} (hevents : Scoped ids events) (h : i.AgreeOn id j)
    (hcache : i.engine.cache.Within ids) (hcache' : j.engine.cache.Within ids) :
    (j.run (events.filter (Event.concerns id))).1 = i.answersAbout id events ∧
      (i.run events).2.AgreeOn id (j.run (events.filter (Event.concerns id))).2 := by
  induction events generalizing i j with
  | nil => exact ⟨rfl, h⟩
  | cons event rest ih =>
    have hscope := hevents.scope event List.mem_cons_self
    have hasked := hevents.asked event List.mem_cons_self
    have hafter := within_step hcache hscope hasked
    by_cases hconcerns : event.concerns id = true
    · obtain ⟨hanswer, hagree⟩ := step_congr h hcache.wellFormed hcache'.wellFormed hconcerns
      obtain ⟨hanswers, hend⟩ := ih hevents.tail hagree hafter (within_step hcache' hscope hasked)
      rw [List.filter_cons_of_pos hconcerns, answersAbout_cons, if_pos hconcerns]
      refine ⟨?_, hend⟩
      show (j.step event).1 :: ((j.step event).2.run (rest.filter (Event.concerns id))).1 = _
      rw [hanswers, hanswer]
    · obtain ⟨scope, hone⟩ := Option.isSome_iff_exists.mp hscope
      cases scope with
      | every => simp [Event.concerns, hone] at hconcerns
      | one other =>
        have hne : id ≠ other := by
          rintro rfl
          simp [Event.concerns, hone] at hconcerns
        have hagree := agreeOn_step_of_ne hcache hone hasked hne
        obtain ⟨hanswers, hend⟩ := ih hevents.tail (hagree.trans h) hafter hcache'
        rw [List.filter_cons_of_neg hconcerns, answersAbout_cons, if_neg hconcerns]
        exact ⟨hanswers, hend⟩

end Installation

end Backpressure
