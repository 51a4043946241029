import Backpressure.Proofs.Recomputation
import Backpressure.Run

/-!
# The calls of an event

* `Engine.answers` : the answers to calls one after another, and the engine after them;
* `Event.calls` : the calls that an event makes, `Event.alter` : what else it does to the engine;
* `Machine.known` : the answers that threads have come to know;
* `Installation.called` : the answers to the calls of an event and the engine after them, those of calls that overlap
  included, `engine_step` : what an event does to the engine;
* `Installation.outcomes` : the answers to all calls of a run.
-/

namespace Backpressure
open Number

variable {K : Type}

namespace Route

/-- The route that a method and a target reach. -/
def reached? (method target : String) : Option Route := (ofTarget? target).filter fun route => route.method = method

/-- The calls for the analytics of a connection that a route makes. -/
def calls : Route → List Call
  | connection id | backpressure id | nextInterval id => [⟨id, false⟩]
  | health | stats | cache _ => []

/-- What a route does to an engine apart from its calls. -/
def alter (route : Route) (e : Engine K) : Engine K :=
  match route with
  | cache id => (e.invalidate id).2
  | _ => e

end Route

namespace Event

/-- The calls that an event makes one after another. -/
def calls : Event K → List Call
  | get id | timeToBackpressure id _ | nextInterval id _ => [⟨id, false⟩]
  | refresh id => [⟨id, true⟩]
  | pass ids => ids.map fun id => ⟨id, true⟩
  | request method target => (Route.reached? method target).elim [] Route.calls
  | _ => []

/-- What an event does to the engine apart from its calls. -/
def alter (event : Event K) (e : Engine K) : Engine K :=
  match event with
  | invalidate id => (e.invalidate id).2
  | invalidateAll => e.invalidateAll
  | close => e.close
  | request method target => (Route.reached? method target).elim e fun route => route.alter e
  | _ => e

end Event

variable [Scalar K]

namespace Engine

/-- The answers to calls one after another and the engine after them. -/
def answers (e : Engine K) (s : Sources K) : List Call → List (Except Error (Reply K)) × Engine K
  | [] => ([], e)
  | call :: rest =>
    let (answer, e) := e.answer s call
    let (others, e) := answers e s rest
    (answer :: others, e)

/-- A pass of the runner makes a call for each connection. -/
theorem answers_eq_pass (e : Engine K) (s : Sources K) (ids : List String) :
    e.answers s (ids.map fun id => ⟨id, true⟩) =
      ((Pass.run e s ids).1.refreshed.map Refreshed.outcome, (Pass.run e s ids).2) := by
  induction ids generalizing e with
  | nil => rfl
  | cons id rest ih =>
    have hrest := ih (e.refresh s id).2
    show ((e.refresh s id).1 :: ((e.refresh s id).2.answers s (rest.map _)).1,
      ((e.refresh s id).2.answers s (rest.map _)).2) = _
    rw [hrest]
    rfl

theorem load_engine (e : Engine K) (s : Sources K) (id : String) (present : Analytics K → Response K) :
    (Api.load e s id present).2 = (e.get s id).2 := by
  unfold Api.load
  generalize e.get s id = result
  obtain ⟨answer, after⟩ := result
  cases answer <;> rfl

/-- A request that reaches a route makes the calls of the route. -/
theorem respond_engine (e : Engine K) (s : Sources K) (method target : String) :
    (Api.respond e s method target).2 = (Route.reached? method target).elim e fun route =>
      route.alter (e.answers s route.calls).2 := by
  unfold Api.respond Route.reached?
  cases Route.ofTarget? target with
  | none => rfl
  | some route =>
    by_cases hmethod : route.method = method
    · simp only [hmethod, Option.filter_some, decide_true, if_true, Option.elim_some]
      cases route with
      | connection id => exact load_engine e s id _
      | backpressure id => exact load_engine e s id _
      | nextInterval id => exact load_engine e s id _
      | _ => rfl
    · simp [hmethod, Option.filter_some]

end Engine

/-- The answers that the threads of a machine have come to know. -/
def Machine.known (m : Machine K) : List (Except Error (Reply K)) := m.threads.filterMap Thread.known?

namespace Installation

/-- The answers to the calls of an event and the engine after them. Of calls that overlap these are the answers that
their threads have come to know. -/
def called (i : Installation K) (event : Event K) : List (Except Error (Reply K)) × Engine K :=
  match event with
  | .overlap calls =>
    let m := (Machine.start i.engine i.site.sources).run (Machine.overlapping calls)
    (m.known, m.engine)
  | event => i.engine.answers i.site.sources event.calls

theorem engine_step (i : Installation K) (event : Event K) :
    (i.step event).2.engine = event.alter (i.called event).2 := by
  cases event with
  | pass ids => exact (congrArg Prod.snd (i.engine.answers_eq_pass i.site.sources ids)).symm
  | request method target =>
    let called := i.engine.answers i.site.sources ((Route.reached? method target).elim [] Route.calls)
    show (Api.respond i.engine i.site.sources method target).2 =
      (Route.reached? method target).elim called.2 fun route => route.alter called.2
    rw [Engine.respond_engine]
    dsimp only [called]
    cases Route.reached? method target <;> rfl
  | _ => rfl

/-- The answers to all calls of events one after another. -/
def outcomes (i : Installation K) : List (Event K) → List (Except Error (Reply K))
  | [] => []
  | event :: rest => (i.called event).1 ++ (i.step event).2.outcomes rest

end Installation

end Backpressure
