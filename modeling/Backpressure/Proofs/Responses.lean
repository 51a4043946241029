import Backpressure.Proofs.Addresses
import Backpressure.Proofs.Consistency
import Backpressure.Proofs.Failures
import Backpressure.Proofs.Serving

/-!
# What requests about a connection are answered with

* `Endpoint.view` : what an endpoint shows of the document of some analytics;
* `Analytics.Stamped` : analytics of a connection with times in UTC, `ConnectionBody.encode_eq_view`,
  `BackpressureBody.encode_eq_view`, `NextIntervalBody.encode_eq_view` : the bodies taken from them are that view;
* `Analytics.Plain`, `Analytics.Short` : analytics whose numbers can be written, `ConnectionBody.isWritable_iff`;
* `Engine.TimesOut` : whether a fetch is not answered in time, `Response.Reports` : what a failed call is answered with;
* `Endpoint.requests_refine_calls` : a request about a connection does what the call of the engine does,
  `requests_differ_from_calls` : requests that do not.
-/

namespace Backpressure
open Number Time

variable {K : Type}

/-! ## Views of a document -/

namespace Document

/-- How a text writes the offset of UTC. -/
def offsetOfUtc : List Char := "+00:00".toList

/-- A time in UTC with its offset written `Z`; other documents stay as they are. -/
def zulu : Document K → Document K
  | text s =>
    if offsetOfUtc.isSuffixOf s.toList then
      text (String.ofList (s.toList.take (s.toList.length - offsetOfUtc.length) ++ ['Z']))
    else text s
  | d => d

/-- An object with the times in some of its fields written with a `Z`. -/
def withZulu (names : List String) : Document K → Document K
  | object fields => object (fields.map fun f => (f.1, if f.1 ∈ names then f.2.zulu else f.2))
  | d => d

/-- The value of a field of an object. -/
def field? (d : Document K) (name : String) : Option (Document K) :=
  match d with
  | object fields => fields.lookup name
  | _ => none

/-- An object of some of the fields of a document, given by their new names and their old ones. -/
def pick (d : Document K) (names : List (String × String)) : Document K :=
  object (names.filterMap fun n => (d.field? n.2).map fun value => (n.1, value))

theorem zulu_iso {t : Timestamp} (h : t.offset = some 0) : (text t.iso : Document K).zulu = text (Api.time t) := by
  have hiso : t.iso.toList = wallChars t.wall ++ offsetOfUtc := by
    unfold Timestamp.iso
    rw [h, String.toList_ofList]
    rfl
  have hmicros : t.utcMicros = t.wall := Timestamp.utcMicros_of_offset (by rw [h]; rfl)
  unfold zulu
  dsimp only
  rw [if_pos (List.isSuffixOf_iff_suffix.mpr (hiso ▸ List.suffix_append _ _)), hiso, List.length_append,
    Nat.add_sub_cancel, List.take_left]
  unfold Api.time Instant.isoZulu
  rw [hmicros]

end Document

/-- What an endpoint shows of the document of some analytics: all of it or some fields, with the times in UTC marked by
a `Z`. To drop the cached ones shows nothing of them. -/
def Endpoint.view (endpoint : Endpoint) (d : Document K) : Document K :=
  let shown := d.withZulu ["computed_at", "next_interval_at"]
  match endpoint with
  | analytics => shown
  | backpressure => shown.pick [("connection_id", "connection_id"), ("queued_bytes", "time_to_bytes_backpressure"),
      ("queued_count", "time_to_count_backpressure"), ("stale", "stale")]
  | nextInterval => shown.pick [("connection_id", "connection_id"), ("target_timestamp", "next_interval_at"),
      ("queued_bytes", "next_interval_bytes"), ("queued_count", "next_interval_count"), ("stale", "stale")]
  | cache => .null

/-! ## Analytics as they are sent -/

/-- Analytics of a connection with times in UTC. -/
structure Analytics.Stamped (id : String) (a : Analytics K) : Prop where
  connection : a.connection = id
  computedAt : a.computedAt.offset = some 0
  nextAt : a.nextAt.offset = some 0

/-- Analytics whose limits are numbers, where there are any, and whose percentages are finite. -/
structure Analytics.Plain [Scalar K] (a : Analytics K) : Prop where
  limit : ∀ m l, a.limit.get m = some l → ∃ n, l = .amount n
  percentage : ∀ m x, a.percentage.get m = some x → Scalar.isFinite x = true

/-- Analytics whose limits have no more digits than are written of an integer. -/
def Analytics.Short (a : Analytics K) : Prop :=
  ∀ m l, a.limit.get m = some l → l.toInt.natAbs < tenTo Api.ConnectionBody.maxDigits

namespace Api

variable {id : String} {a : Analytics K}

/-- The values of a body are written as those of a document. -/
theorem nullable_eq_optional {α : Type} (write : α → Document K) (value : Option α) :
    nullable write value = Document.optional write value := by
  cases value <;> rfl

theorem ofScores_eq : (Document.ofScores : Trend.ScoreTable K → Document K) =
    fun scores => .object (scores.map fun s => (s.1, nullable .real s.2)) := by
  funext scores
  simp only [Document.ofScores, nullable_eq_optional]

/-- A limit that is a number is the same one in a body as in a document. -/
theorem nullable_toInt {limit : Option Limit} (h : ∀ l, limit = some l → ∃ n, l = .amount n) :
    nullable .whole (limit.map Limit.toInt) = (Document.optional Document.ofLimit limit : Document K) := by
  cases limit with
  | none => rfl
  | some l =>
    obtain ⟨n, rfl⟩ := h l rfl
    rfl

theorem ConnectionBody.encode_eq_view [Scalar K] (h : a.Stamped id) (hplain : a.Plain) :
    (ConnectionBody.ofAnalytics a).encode = Endpoint.analytics.view a.document := by
  have hbytes := nullable_toInt (K := K) (hplain.limit .queuedBytes)
  have hcount := nullable_toInt (K := K) (hplain.limit .queuedCount)
  simp only [PerMetric.get] at hbytes hcount
  simp [ConnectionBody.ofAnalytics, ConnectionBody.encode, EtaBody.ofEta, EtaBody.encode, Endpoint.view,
    Analytics.document, ofScores_eq, Document.withZulu, Document.zulu_iso h.computedAt, Document.zulu_iso h.nextAt,
    hbytes, hcount, nullable_eq_optional]

theorem BackpressureBody.encode_eq_view (h : a.Stamped id) :
    (BackpressureBody.ofAnalytics id a).encode = Endpoint.backpressure.view a.document := by
  simp [BackpressureBody.ofAnalytics, BackpressureBody.encode, EtaBody.ofEta, EtaBody.encode, Endpoint.view,
    Analytics.document, Document.withZulu, Document.pick, Document.field?, List.lookup, h.connection,
    nullable_eq_optional]

theorem NextIntervalBody.encode_eq_view (h : a.Stamped id) :
    (NextIntervalBody.ofAnalytics id a).encode = Endpoint.nextInterval.view a.document := by
  simp [NextIntervalBody.ofAnalytics, NextIntervalBody.encode, Endpoint.view, Analytics.document, Document.withZulu,
    Document.pick, Document.field?, List.lookup, h.connection, Document.zulu_iso h.nextAt, nullable_eq_optional]

/-- The body of plain analytics can be written where their limits are short. -/
theorem ConnectionBody.isWritable_iff [Scalar K] (h : a.Plain) :
    (ConnectionBody.ofAnalytics a).isWritable = true ↔ a.Short := by
  have hbytes : a.percentage.bytes.all Scalar.isFinite = true := by
    rw [Option.all_eq_true]
    exact h.percentage .queuedBytes
  have hcount : a.percentage.count.all Scalar.isFinite = true := by
    rw [Option.all_eq_true]
    exact h.percentage .queuedCount
  simp only [isWritable, ofAnalytics, hbytes, hcount, Bool.true_and, Bool.and_eq_true, Option.all_eq_true,
    Option.map_eq_some_iff, forall_exists_index, and_imp, forall_apply_eq_imp_iff₂, decide_eq_true_eq]
  constructor
  · rintro ⟨hbytes, hcount⟩ m l hl
    cases m
    · exact hbytes l hl
    · exact hcount l hl
  · exact fun hshort => ⟨hshort .queuedBytes, hshort .queuedCount⟩

end Api

/-! ## Calls -/

variable [Scalar K]

/-- Whether an error says that the history has not answered in time. -/
def Error.isDeadline : Error → Bool
  | .deadline _ _ => true
  | _ => false

namespace Entry

variable {s : Sources K} {config : EngineConfig K} {stopped : Bool} {id : String} {previous : Option (Entry K)}
  {error : Error}

theorem exists_late_of_askHistory {w : Lookback} (hdeadline : error.isDeadline = true)
    (h : askHistory s config stopped id w = .error error) :
    stopped = false ∧ ¬ CannotWait s config id w ∧ ∃ m, Late s config id w m := by
  have hsettled : ∀ {m : Metric} {answer : Except Error (Series K)}, settle id m answer ≠ .error error := by
    intro m answer hsettle
    rcases settle_eq_error.mp hsettle with ⟨missing, -, rfl⟩ | ⟨cause, -, -, -, rfl⟩ <;> cases hdeadline
  cases stopped with
  | true =>
    cases h
    cases hdeadline
  | false =>
    have hheard := askHistory_spec s config id w
    rw [h] at hheard
    cases hheard with
    | stuck => cases hdeadline
    | @late m hwaits hlate => exact ⟨rfl, hwaits, m, hlate⟩
    | bytes _ hsettle => exact absurd hsettle hsettled
    | count _ _ hsettle => exact absurd hsettle hsettled

/-- A computation ends with a deadline just where a fetch that it asks for is late, unless making a model does. -/
theorem isDeadline_of_compute (h : compute s config stopped id previous = .error error) :
    error.isDeadline = true ↔
      (∃ w m, AsksFor s config stopped id w ∧ ¬ CannotWait s config id w ∧ Late s config id w m) ∨
      (error.isDeadline = true ∧ s.registry.create config.model.kind config.model = .error error) := by
  constructor
  · intro hdeadline
    have hdocumented : error.isDocumented = true := by cases error <;> first | rfl | cases hdeadline
    rcases compute_eq_documented hdocumented h with hlimits | ⟨limits, w, hlimits, hwindow, hask⟩ | hmade
    · unfold askThresholds at hlimits
      split at hlimits <;> cases hlimits <;> cases hdeadline
    · obtain ⟨hrunning, hwaits, m, hlate⟩ := exists_late_of_askHistory hdeadline hask
      exact .inl ⟨w, m, ⟨⟨limits, askThresholds_eq_ok.mp hlimits⟩, hwindow, hrunning⟩, hwaits, hlate⟩
    · exact .inr ⟨hdeadline, hmade⟩
  · rintro (⟨w, m, hasks, hwaits, hlate⟩ | ⟨hdeadline, -⟩)
    · cases hasks.running
      cases h.symm.trans (hasks.compute_eq (askHistory_of_late hwaits hlate))
      rfl
    · exact hdeadline

end Entry

namespace Engine

variable {e : Engine K} {s : Sources K} {id : String}

/-- Whether a call for the analytics of a connection that fails with this error has timed out: it asks for a fetch that
is not answered in time, or making a model has told so. -/
def TimesOut (e : Engine K) (s : Sources K) (id : String) (error : Error) : Prop :=
  (∃ w m, Entry.AsksFor s e.config e.stopped id w ∧ ¬ Entry.CannotWait s e.config id w ∧ Entry.Late s e.config id w m) ∨
    (error.isDeadline = true ∧ s.registry.create e.config.model.kind e.config.model = .error error)

theorem attempt_of_get_eq_error {error : Error} (h : (e.get s id).1 = .error error) :
    e.attempt s id = .error error := by
  cases hfresh : e.fresh? s id with
  | some value =>
    rw [get_of_hit hfresh] at h
    cases h
  | none =>
    rw [get_of_miss hfresh, refresh_eq] at h
    exact outcome_of_conclude_eq_error h

theorem stamped_of_compute {config : EngineConfig K} {stopped : Bool} {previous : Option (Entry K)} {entry : Entry K}
    (h : Entry.compute s config stopped id previous = .ok entry) : entry.analytics.Stamped id := by
  obtain ⟨c⟩ := Entry.exists_computation h
  rw [c.analytics_eq]
  exact ⟨rfl, rfl, rfl⟩

/-- Whatever a call returns is analytics of the connection that was asked about. -/
theorem stamped_of_get {m : Machine K} {allowed : Sources K → Prop} (h : m.Reachable allowed) {reply : Reply K}
    (hreply : (m.engine.get s id).1 = .ok reply) : reply.value.Stamped id := by
  have hinherited : Inherited allowed fun _ id (entry : Entry K) => entry.analytics.Stamped id :=
    fun _ _ _ _ _ _ _ _ hcompute => stamped_of_compute hcompute
  have hentries := (h.keeps hinherited).engine.entries id
  cases hfresh : m.engine.fresh? s id with
  | some value =>
    obtain ⟨entry, hget, -, rfl⟩ := fresh?_eq_some.mp hfresh
    rw [get_of_hit hfresh] at hreply
    cases hreply
    exact hentries entry hget
  | none =>
    rw [get_of_miss hfresh] at hreply
    obtain ⟨w, hne, hw⟩ : ∃ w : Way, w ≠ .cached ∧
        w.Describes m.engine s id (m.engine.refresh s id).1 (m.engine.refresh s id).2 := describes_refresh h.wellFormed
    rw [hreply] at hw
    cases w with
    | cached => exact absurd rfl hne
    | computed =>
      obtain ⟨entry, hattempt, hvalue, -⟩ := hw
      cases hvalue
      exact stamped_of_compute hattempt
    | stale =>
      obtain ⟨entry, error, hget, -, -, hvalue, -⟩ := hw
      cases hvalue
      exact ⟨(hentries entry hget).connection, (hentries entry hget).computedAt, (hentries entry hget).nextAt⟩
    | raised =>
      obtain ⟨error, herror⟩ := hw
      cases herror

end Engine

/-! ## Requests -/

/-- The response to a call that failed with an error, by its cause: the connection is unknown, the history has not
answered in time, the history or the directory has failed, or something else has. -/
inductive Response.Reports (e : Engine K) (s : Sources K) (id : String) (error : Error) : Response K → Prop
  | unknown (h : error.isUnknown = true) (hin : ¬ e.TimesOut s id error) :
      Reports e s id error ⟨404, .document (.object [("detail", .text "connection_id not found")])⟩
  | late (h : error.isUpstream = true) (hlate : e.TimesOut s id error) :
      Reports e s id error ⟨504, .document (.object [("detail", .text "history repository timeout")])⟩
  | upstream (h : error.isUpstream = true) (hin : ¬ e.TimesOut s id error) :
      Reports e s id error ⟨503, .document (.object [("detail", .text "analytics temporarily unavailable")])⟩
  | other (hunknown : error.isUnknown = false) (hupstream : error.isUpstream = false) (hin : ¬ e.TimesOut s id error) :
      Reports e s id error ⟨500, .text "Internal Server Error"⟩

theorem Response.reports_failure {e : Engine K} {s : Sources K} {id : String} {error : Error}
    (h : (e.get s id).1 = .error error) : Reports e s id error (failure error) := by
  have hlate : error.isDeadline = true ↔ e.TimesOut s id error :=
    Entry.isDeadline_of_compute (Engine.attempt_of_get_eq_error h)
  have hin : error.isDeadline = false → ¬ e.TimesOut s id error := by
    intro hfalse hlate'
    rw [hlate.mpr hlate'] at hfalse
    cases hfalse
  cases error with
  | unknownConnection missing => exact .unknown rfl (hin rfl)
  | deadline _ _ => exact .late rfl (hlate.mp rfl)
  | sourceFailed _ _ => exact .upstream rfl (hin rfl)
  | _ => exact .other rfl rfl (hin rfl)

namespace Endpoint

theorem respond_target (endpoint : Endpoint) {id : String} (hid : id ≠ "") (hslash : '/' ∉ id.toList) (e : Engine K)
    (s : Sources K) :
    Api.respond e s (endpoint.route id).method (endpoint.target id) = Api.serve e s (endpoint.route id) := by
  unfold Api.respond
  rw [(ofTarget?_target endpoint hid).mpr hslash]
  exact if_pos rfl

/-- What it means that a request does what a call of an engine for the analytics of a connection does: it leaves the
same engine, shows what the endpoint is to show of the analytics that the call returns, or tells why the call fails. All
analytics are shown where their numbers can be written. -/
structure Refines (endpoint : Endpoint) (e : Engine K) (s : Sources K) (id : String) (result : Response K × Engine K) :
    Prop where
  engine : result.2 = (e.get s id).2
  shown : ∀ reply, (e.get s id).1 = .ok reply → (endpoint = analytics → reply.value.Plain ∧ reply.value.Short) →
    result.1 = ⟨200, .document (endpoint.view reply.value.document)⟩
  unwritten : ∀ reply, (e.get s id).1 = .ok reply → endpoint = analytics → reply.value.Plain → ¬ reply.value.Short →
    result.1 = ⟨500, .text "Internal Server Error"⟩
  failed : ∀ error, (e.get s id).1 = .error error → Response.Reports e s id error result.1

theorem refines_load {endpoint : Endpoint} {m : Machine K} {allowed : Sources K → Prop} (h : m.Reachable allowed)
    (s : Sources K) (id : String) {present : Analytics K → Response K}
    (hshown : ∀ a : Analytics K, a.Stamped id → (endpoint = analytics → a.Plain ∧ a.Short) →
      present a = ⟨200, .document (endpoint.view a.document)⟩)
    (hunwritten : ∀ a : Analytics K, endpoint = analytics → a.Plain → ¬ a.Short →
      present a = ⟨500, .text "Internal Server Error"⟩) :
    endpoint.Refines m.engine s id (Api.load m.engine s id present) := by
  have hstamped : ∀ reply, (m.engine.get s id).1 = .ok reply → reply.value.Stamped id :=
    fun _ => Engine.stamped_of_get h
  have hreports : ∀ error, (m.engine.get s id).1 = .error error →
      Response.Reports m.engine s id error (Response.failure error) := fun _ => Response.reports_failure
  unfold Api.load
  cases hresult : m.engine.get s id with
  | mk answer after =>
    rw [hresult] at hstamped hreports
    cases answer with
    | ok reply =>
      refine ⟨by rw [hresult], fun reply' hreply hplain => ?_, fun reply' hreply hfull hplain hlong => ?_,
        fun error herror => ?_⟩
      · rw [hresult] at hreply
        cases hreply
        exact hshown reply.value (hstamped reply rfl) hplain
      · rw [hresult] at hreply
        cases hreply
        exact hunwritten reply.value hfull hplain hlong
      · rw [hresult] at herror
        cases herror
    | error error =>
      refine ⟨by rw [hresult], fun reply hreply _ => ?_, fun reply hreply _ _ _ => ?_, fun error' herror => ?_⟩
      · rw [hresult] at hreply
        cases hreply
      · rw [hresult] at hreply
        cases hreply
      · rw [hresult] at herror
        cases herror
        exact hreports error rfl

/-- A request for the analytics of a connection, its etas or its predicted sizes does what a call for the analytics
does, and a request to drop what is cached of a connection drops it. -/
theorem requests_refine_calls {m : Machine K} {allowed : Sources K → Prop} (h : m.Reachable allowed) (s : Sources K)
    {id : String} (hid : id ≠ "") (hslash : '/' ∉ id.toList) :
    (∀ endpoint : Endpoint, endpoint ≠ cache →
      endpoint.Refines m.engine s id (Api.respond m.engine s "GET" (endpoint.target id))) ∧
    Api.respond m.engine s "DELETE" (cache.target id) =
      let (present, after) := m.engine.invalidate id
      (⟨200, .document (.object [("invalidated", .flag present)])⟩, after) := by
  refine ⟨fun endpoint hendpoint => ?_, respond_target cache hid hslash m.engine s⟩
  have hrespond := respond_target endpoint hid hslash m.engine s
  cases endpoint with
  | analytics =>
    have hload : Api.respond m.engine s "GET" (analytics.target id) =
        Api.load m.engine s id Api.analyticsResponse := hrespond
    rw [hload]
    refine refines_load h s id (fun a hstamped hwritten => ?_) fun a _ hplain hlong => ?_
    · obtain ⟨hplain, hshort⟩ := hwritten rfl
      unfold Api.analyticsResponse
      dsimp only
      rw [if_pos ((Api.ConnectionBody.isWritable_iff hplain).mpr hshort),
        Api.ConnectionBody.encode_eq_view hstamped hplain]
      rfl
    · exact if_neg (mt (Api.ConnectionBody.isWritable_iff hplain).mp hlong)
  | backpressure =>
    have hload : Api.respond m.engine s "GET" (backpressure.target id) =
        Api.load m.engine s id fun a => .document (Api.BackpressureBody.ofAnalytics id a).encode := hrespond
    rw [hload]
    refine refines_load h s id (fun a hstamped _ => ?_) fun _ hother => ?_
    · exact congrArg Response.document (Api.BackpressureBody.encode_eq_view hstamped)
    · cases hother
  | nextInterval =>
    have hload : Api.respond m.engine s "GET" (nextInterval.target id) =
        Api.load m.engine s id fun a => .document (Api.NextIntervalBody.ofAnalytics id a).encode := hrespond
    rw [hload]
    refine refines_load h s id (fun a hstamped _ => ?_) fun _ hother => ?_
    · exact congrArg Response.document (Api.NextIntervalBody.encode_eq_view hstamped)
    · cases hother
  | cache => exact absurd rfl hendpoint

/-- A request for the etas of a queue shows those of its last analytics, as stale ones, while the history is late. -/
theorem request_for_orders_refines_call :
    let m : Machine Float := ⟨(Engine.cold.refresh .growing "orders").2, .growing, []⟩
    let late : Sources Float :=
      { Sources.growing with
        monotonic := Arithmetic.ofInt 60
        history := fun id metric w => .running (Arithmetic.ofInt 31) (Sources.growing.history id metric w).answer }
    let result := Api.respond m.engine late "GET" "/analytics/connections/orders/backpressure"
    m.Reachable (fun _ => True) ∧ "orders" ≠ "" ∧ '/' ∉ "orders".toList ∧
      backpressure.Refines m.engine late "orders" result ∧
      ∃ reply, (m.engine.get late "orders").1 = .ok reply ∧ reply.value.stale = true ∧
        result.1 = ⟨200, .document (backpressure.view reply.value.document)⟩ := by
  intro m late result
  have hreachable : m.Reachable fun _ => True :=
    .of_rest (.refresh (.create Engine.create_cold) trivial "orders") trivial
  have hid : "orders" ≠ "" := by decide
  have hslash : '/' ∉ "orders".toList := by decide
  have htarget : backpressure.target "orders" = "/analytics/connections/orders/backpressure" := by decide +kernel
  have hrefines := (requests_refine_calls hreachable late hid hslash).1 backpressure (by decide)
  rw [htarget] at hrefines
  have hstale : (m.engine.get late "orders").1.toOption.map (·.value.stale) = some true := by decide +kernel
  cases hanswer : (m.engine.get late "orders").1 with
  | error error =>
    rw [hanswer] at hstale
    cases hstale
  | ok reply =>
    rw [hanswer] at hstale
    exact ⟨hreachable, hid, hslash, hrefines, reply, rfl, Option.some.inj hstale, hrefines.shown reply hanswer nofun⟩

/-- Requests that do not do what a call does. A path with an id that is not percent-encoded asks about another
connection. A limit of 4301 digits cannot be written, though the call returns. The making of a model may raise the error
of a fetch that is late, though none is. -/
theorem requests_differ_from_calls :
    let cold : Machine Float := ⟨Engine.cold, .growing, []⟩
    let endless : Sources Float :=
      { Sources.growing with
        thresholds := fun _ => .ok ⟨some (.amount (tenTo 4300 : Nat)), none⟩
        history := fun id metric _ => .finished (.ok (Series.empty id metric)) }
    let strict : Sources Float :=
      { Sources.growing with registry := ⟨⟨[("linear", fun _ => .error (.deadline "orders" "2.5"))]⟩⟩ }
    let address := "/analytics/connections/orders"
    cold.Reachable (fun _ => True) ∧
    (Api.respond cold.engine .growing "GET" "/analytics/connections/orders%20eu").2 ≠
      (cold.engine.get .growing "orders%20eu").2 ∧
    (∃ reply, (cold.engine.get endless "orders").1 = .ok reply ∧ reply.value.Plain ∧
      (Api.respond cold.engine endless "GET" address).1.status = 500) ∧
    (cold.engine.get strict "orders").1 = .error (.deadline "orders" "2.5") ∧
      (∀ m w, (strict.history "orders" m w).isFinished = true) ∧
      (Api.respond cold.engine strict "GET" address).1.status = 504 := by
  intro cold endless strict address
  have hreachable : cold.Reachable fun _ => True := .of_rest (.create Engine.create_cold) trivial
  have hids : (Api.respond cold.engine .growing "GET" "/analytics/connections/orders%20eu").2.cachedIds ≠
      (cold.engine.get .growing "orders%20eu").2.cachedIds := by decide +kernel
  have hshown : (cold.engine.get endless "orders").1.toOption.map
      (fun reply => (reply.value.limit, reply.value.percentage)) =
      some (⟨some (.amount (tenTo 4300 : Nat)), none⟩, ⟨none, none⟩) := by decide +kernel
  refine ⟨hreachable, fun hsame => hids (congrArg Engine.cachedIds hsame), ?_, by decide +kernel, fun _ _ => rfl,
    by decide +kernel⟩
  cases hanswer : (cold.engine.get endless "orders").1 with
  | error error =>
    rw [hanswer] at hshown
    cases hshown
  | ok reply =>
    rw [hanswer] at hshown
    obtain ⟨hlimit, hpercentage⟩ := Prod.ext_iff.mp (Option.some.inj hshown)
    refine ⟨reply, rfl, ⟨fun m l hl => ?_, fun m x hx => ?_⟩, by decide +kernel⟩
    · rw [show reply.value.limit = _ from hlimit] at hl
      cases m <;> cases hl
      exact ⟨_, rfl⟩
    · rw [show reply.value.percentage = _ from hpercentage] at hx
      cases m <;> cases hx

end Endpoint

end Backpressure
