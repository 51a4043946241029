import Mathlib.Data.List.TakeWhile
import Backpressure.Api.Response
import Backpressure.Proofs.Decoding
import Backpressure.Proofs.Reachable

/-!
# The addresses of connections

* `Endpoint` : what can be asked of a connection over HTTP, `Endpoint.target` : the target that asks it, the id
  percent-encoded as one segment;
* `Endpoint.pathOf_target` : the path of such a target has the id itself in it;
* `Endpoint.ofPath?_of_not_mem` : its route is read from that path where the id has no slash,
  `Route.not_mem_of_ofPath?` : no route is ever read with an id that has one;
* `Endpoint.requests_reach_their_endpoint` : so it is the connections with ids without slashes that can be asked about.
-/

namespace Backpressure
open Number Text

/-- What can be asked of a connection. -/
inductive Endpoint where
  | analytics
  | backpressure
  | nextInterval
  | cache
  deriving DecidableEq, Repr

namespace Endpoint

def route : Endpoint → String → Route
  | analytics => .connection
  | backpressure => .backpressure
  | nextInterval => .nextInterval
  | cache => .cache

/-- What the path of a connection ends in. -/
def suffix : Endpoint → List Char
  | analytics => []
  | backpressure => "/backpressure".toList
  | nextInterval => "/next-interval".toList
  | cache => "/cache".toList

/-- What the path of a connection begins with. -/
def stem : List Char := "/analytics/connections/".toList

/-- The target of a request about a connection, its id percent-encoded as one segment. -/
def target (endpoint : Endpoint) (id : String) : String :=
  String.ofList (stem ++ (Percent.encode id.toList ++ endpoint.suffix))

theorem route_injective {endpoint endpoint' : Endpoint} {id id' : String}
    (h : endpoint.route id = endpoint'.route id') : endpoint = endpoint' ∧ id = id' := by
  cases endpoint <;> cases endpoint' <;> cases h <;> exact ⟨rfl, rfl⟩

/-! ## Paths -/

variable (endpoint : Endpoint) (id : String)

/-- A target has no part after its path. -/
theorem takeWhile_target : (endpoint.target id).toList.takeWhile (fun c => c != '?' && c != '#') =
    stem ++ (Percent.encode id.toList ++ endpoint.suffix) := by
  have hsuffix : endpoint.suffix.all (fun c => c != '?' && c != '#') = true := by cases endpoint <;> decide
  have hstem : stem.all (fun c => c != '?' && c != '#') = true := by decide
  unfold target
  rw [String.toList_ofList, List.takeWhile_eq_self_iff]
  intro c hc
  rcases List.mem_append.mp hc with hc | hc
  · exact List.all_eq_true.mp hstem c hc
  · rcases List.mem_append.mp hc with hc | hc
    · have hplain := Percent.isPlain_of_mem_encode hc
      have hquestion : c ≠ '?' := by
        rintro rfl
        exact absurd hplain (by decide)
      have hnumber : c ≠ '#' := by
        rintro rfl
        exact absurd hplain (by decide)
      simp [hquestion, hnumber]
    · exact List.all_eq_true.mp hsuffix c hc

/-- The path of a target has the id itself in it. -/
theorem pathOf_target : Route.pathOf (endpoint.target id).toList = stem ++ (id.toList ++ endpoint.suffix) := by
  have hstem : Percent.sign ∉ stem := by decide
  have hsuffix : Percent.sign ∉ endpoint.suffix := by cases endpoint <;> decide
  have hlast := Percent.toBytes_append hsuffix []
  have hempty : Percent.toBytes [] = [] := rfl
  rw [List.append_nil, hempty, List.append_nil] at hlast
  unfold Route.pathOf Percent.decode
  rw [takeWhile_target, Percent.toBytes_append hstem, Percent.toBytes_encode, hlast]
  have hencode (s t : List Char) : Utf8.encode s ++ Utf8.encode t = Utf8.encode (s ++ t) := List.flatMap_append.symm
  rw [hencode, hencode, Utf8.decode_encode]

end Endpoint

/-! ## Routes -/

namespace Route

/-- The connection that a route is about. -/
def id? : Route → Option String
  | health | stats => none
  | connection id | backpressure id | nextInterval id | cache id => some id

theorem segments_of_not_mem {s : List Char} (h : '/' ∉ s) : segments s = [s] := by
  refine List.splitOnP_eq_singleton fun c hc => beq_false_of_ne ?_
  rintro rfl
  exact h hc

theorem segments_append {s : List Char} (h : '/' ∉ s) (rest : List Char) :
    segments (s ++ '/' :: rest) = s :: segments rest := by
  refine List.splitOnP_append_cons_of_forall_mem (fun c hc => beq_false_of_ne ?_) '/' rfl rest
  rintro rfl
  exact h hc

theorem not_mem_of_mem_segments {path segment : List Char} (h : segment ∈ segments path) : '/' ∉ segment := by
  unfold segments at h
  induction path generalizing segment with
  | nil =>
    rw [List.splitOnP_nil, List.mem_singleton] at h
    rw [h]
    exact List.not_mem_nil
  | cons c rest ih =>
    rw [List.splitOnP_cons_eq_if_modifyHead] at h
    split at h
    · rcases List.mem_cons.mp h with rfl | h
      · exact List.not_mem_nil
      · exact ih h
    · next hc =>
      obtain ⟨first, others, heq⟩ := List.exists_cons_of_ne_nil (List.splitOnP_ne_nil (· == '/') rest)
      rw [heq, List.modifyHead_cons] at h
      rw [heq] at ih
      rcases List.mem_cons.mp h with rfl | h
      · refine List.not_mem_cons_of_ne_of_not_mem ?_ (ih List.mem_cons_self)
        rintro rfl
        exact hc rfl
      · exact ih (List.mem_cons_of_mem _ h)

/-- No route is read from a path with an id that has a slash. -/
theorem not_mem_of_ofPath? {path : List Char} {route : Route} {id : String} (h : ofPath? path = some route)
    (hid : route.id? = some id) : '/' ∉ id.toList := by
  have hsegment {segment : List Char} (hmem : segment ∈ segments path) (heq : String.ofList segment = id) :
      '/' ∉ id.toList := by
    rw [← heq, String.toList_ofList]
    exact not_mem_of_mem_segments hmem
  unfold ofPath? at h
  split at h
  · split at h <;> cases h
    cases hid
  · split at h <;> cases h
    cases hid
  · next hsegments =>
    split at h <;> cases h
    exact hsegment (hsegments ▸ by simp) (Option.some.inj hid)
  · next hsegments =>
    split at h
    · split at h
      · cases h
        exact hsegment (hsegments ▸ by simp) (Option.some.inj hid)
      · split at h
        · cases h
          exact hsegment (hsegments ▸ by simp) (Option.some.inj hid)
        · split at h <;> cases h
          exact hsegment (hsegments ▸ by simp) (Option.some.inj hid)
    · cases h
  · cases h

/-- A route of a target is read from a path, after redirections if there are any. -/
theorem exists_ofPath?_of_follow? {n : Nat} {target : List Char} {route : Route} (h : follow? n target = some route) :
    ∃ path, ofPath? path = some route := by
  induction n generalizing target with
  | zero =>
    unfold follow? at h
    dsimp only at h
    split at h
    · next hroute => exact ⟨_, hroute.trans h⟩
    · next heq => cases heq
    · cases h
  | succ n ih =>
    unfold follow? at h
    dsimp only at h
    split at h
    · next hroute => exact ⟨_, hroute.trans h⟩
    · next heq =>
      cases heq
      exact ih h
    · cases h

theorem ofTarget?_of_ofPath? {target : String} {route : Route} (h : ofPath? (pathOf target.toList) = some route) :
    ofTarget? target = some route := by
  unfold ofTarget? follow?
  dsimp only
  rw [h]

end Route

namespace Endpoint

theorem id?_route (endpoint : Endpoint) (id : String) : (endpoint.route id).id? = some id := by cases endpoint <;> rfl

/-- The segments of a path under the stem. -/
theorem segments_stem (rest : List Char) : Route.segments (stem ++ rest) =
    [] :: "analytics".toList :: "connections".toList :: Route.segments rest := by
  have hstem : stem ++ rest =
      [] ++ '/' :: ("analytics".toList ++ '/' :: ("connections".toList ++ '/' :: rest)) := rfl
  rw [hstem, Route.segments_append List.not_mem_nil, Route.segments_append (by decide),
    Route.segments_append (by decide)]

/-- The route of a connection whose id has no slash. -/
theorem ofPath?_of_not_mem (endpoint : Endpoint) {id : String} (hid : id ≠ "") (h : '/' ∉ id.toList) :
    Route.ofPath? (stem ++ (id.toList ++ endpoint.suffix)) = some (endpoint.route id) := by
  have hne : id.toList.isEmpty = false := by
    rw [List.isEmpty_eq_false_iff, Ne, String.toList_eq_nil_iff]
    exact hid
  have hlast (last : List Char) (hslash : '/' ∉ last) :
      Route.segments (id.toList ++ '/' :: last) = [id.toList, last] := by
    rw [Route.segments_append h, Route.segments_of_not_mem hslash]
  unfold Route.ofPath?
  rw [segments_stem]
  cases endpoint with
  | analytics =>
    rw [show id.toList ++ suffix .analytics = id.toList from List.append_nil _, Route.segments_of_not_mem h]
    simp [hne, route]
  | backpressure =>
    rw [show suffix .backpressure = '/' :: "backpressure".toList from rfl, hlast _ (by decide)]
    simp [hne, route, Route.isLast]
  | nextInterval =>
    rw [show suffix .nextInterval = '/' :: "next-interval".toList from rfl, hlast _ (by decide)]
    simp [hne, route, Route.isLast]
  | cache =>
    rw [show suffix .cache = '/' :: "cache".toList from rfl, hlast _ (by decide)]
    simp [hne, route, Route.isLast]

/-! ## Requests -/

variable (endpoint : Endpoint) {id : String}

/-- A request reaches its endpoint with its id just where the id has no slash. -/
theorem ofTarget?_target (hid : id ≠ "") :
    Route.ofTarget? (endpoint.target id) = some (endpoint.route id) ↔ '/' ∉ id.toList := by
  constructor
  · intro h
    obtain ⟨path, hpath⟩ := Route.exists_ofPath?_of_follow? h
    exact Route.not_mem_of_ofPath? hpath (id?_route endpoint id)
  · intro h
    refine Route.ofTarget?_of_ofPath? ?_
    rw [pathOf_target]
    exact ofPath?_of_not_mem endpoint hid h

/-- A connection whose id goes on like the path of an endpoint has the path of that endpoint, for a shorter id. -/
theorem ofTarget?_target_append (hid : id ≠ "") (h : '/' ∉ id.toList) :
    Route.ofTarget? (analytics.target (id ++ String.ofList endpoint.suffix)) = some (endpoint.route id) := by
  refine Route.ofTarget?_of_ofPath? ?_
  rw [pathOf_target, String.toList_append, String.toList_ofList]
  have hsuffix : suffix .analytics = [] := rfl
  rw [hsuffix, List.append_nil]
  exact ofPath?_of_not_mem endpoint hid h

/-- Every request for an id without a slash is answered by its own endpoint, for that id and no other. No request for an
id with a slash is, and where such an id goes on like the path of an endpoint after a shorter id, the connection of the
shorter id is served instead. -/
theorem requests_reach_their_endpoint {K : Type} [Scalar K] (e : Engine K) (s : Sources K) (hid : id ≠ "") :
    (Route.ofTarget? (endpoint.target id) = some (endpoint.route id) ↔ '/' ∉ id.toList) ∧
      ('/' ∉ id.toList →
        Api.respond e s (endpoint.route id).method (endpoint.target id) = Api.serve e s (endpoint.route id) ∧
        (∀ (endpoint' : Endpoint) (id' : String), id' ≠ "" → '/' ∉ id'.toList →
          Route.ofTarget? (endpoint'.target id') = Route.ofTarget? (endpoint.target id) →
          endpoint' = endpoint ∧ id' = id) ∧
        Route.ofTarget? (analytics.target (id ++ String.ofList endpoint.suffix)) = some (endpoint.route id)) := by
  refine ⟨ofTarget?_target endpoint hid, fun h => ?_⟩
  have hreached := (ofTarget?_target endpoint hid).mpr h
  refine ⟨?_, fun endpoint' id' hid' h' hsame => ?_, ofTarget?_target_append endpoint hid h⟩
  · unfold Api.respond
    rw [hreached]
    exact if_pos rfl
  · rw [(ofTarget?_target endpoint' hid').mpr h', hreached] at hsame
    exact route_injective (Option.some.inj hsame)

/-- The request for the etas of `a b?` reaches them, the one for the analytics of `a/backpressure` reaches the etas of
`a`. -/
theorem requests_for_two_ids :
    backpressure.target "a b?" = "/analytics/connections/a%20b%3F/backpressure" ∧
      Api.respond Engine.cold Sources.quiet "GET" "/analytics/connections/a%20b%3F/backpressure" =
        Api.serve Engine.cold Sources.quiet (.backpressure "a b?") ∧
      analytics.target "a/backpressure" = "/analytics/connections/a%2Fbackpressure" ∧
      Route.ofTarget? "/analytics/connections/a%2Fbackpressure" = some (.backpressure "a") := by
  have htarget : backpressure.target "a b?" = "/analytics/connections/a%20b%3F/backpressure" := by decide +kernel
  have htarget' : analytics.target "a/backpressure" = "/analytics/connections/a%2Fbackpressure" := by decide +kernel
  obtain ⟨hanswer, -⟩ := (requests_reach_their_endpoint backpressure Engine.cold Sources.quiet
    (show "a b?" ≠ "" by decide)).2 (by decide)
  obtain ⟨-, -, hlonger⟩ := (requests_reach_their_endpoint backpressure Engine.cold Sources.quiet
    (show "a" ≠ "" by decide)).2 (by decide)
  exact ⟨htarget, htarget ▸ hanswer, htarget', htarget' ▸ hlonger⟩

end Endpoint

end Backpressure
