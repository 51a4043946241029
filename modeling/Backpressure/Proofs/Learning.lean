import Mathlib.Data.List.TakeWhile
import Backpressure.Forecast
import Backpressure.Proofs.Outcome

/-!
# What a live model has learned

* `Estimator.Fails` : why an estimator finds no line, `estimate_eq_error` : when it does not;
* `Model.fitOf`, `Model.learn_eq_ok` : what a model that accumulates is after a batch, `Model.learn_append` : two batches
  are one;
* `Learned` : the live model that learns the points of windows at once, each of them once;
* `LearnedFrom` : what the live model of a metric is after windows one after another, `LearnedFrom.train` : one more
  window keeps it so;
* `LineKind` : the kinds whose models accumulate;
* `LearnedFrom.trainFresh` : where each window begins as the last one, it is the model that learns the last one only.
-/

namespace Backpressure
open Number Time Trend

variable {K : Type} [Scalar K]

/-! ## Estimators -/

namespace Trend

/-- Whether a slope penalty is one that no line is estimated with: infinite, undefined or negative. -/
def RefusedPenalty (penalty : K) : Prop := Scalar.isFinite penalty = false ∨ Scalar.lt penalty Scalar.zero = true

theorem not_refusedPenalty {penalty : K} :
    ¬ RefusedPenalty penalty ↔ (Scalar.isFinite penalty && !Scalar.lt penalty Scalar.zero) = true := by
  unfold RefusedPenalty
  cases Scalar.isFinite penalty <;> cases Scalar.lt penalty Scalar.zero <;> simp

namespace Estimator

variable {e : Estimator K} {points : List (K × K)} {error : Error}

/-- Observations for which an estimator solves for numbers that are not finite, though they may be finite themselves. -/
def Overflows : Estimator K → List (K × K) → Prop
  | .leastSquares, points => Model.isCentred points = false
  | .ridge penalty, points => Model.isSolvable penalty points = false
  | _, _ => False

/-- Why an estimator finds no line of observations. -/
inductive Fails : Estimator K → List (K × K) → Error → Prop
  | refused {penalty : K} {points : List (K × K)} (h : RefusedPenalty penalty) :
      Fails (.ridge penalty) points (.penaltyOutOfRange (Scalar.text penalty))
  | unsolved {e : Estimator K} {points : List (K × K)}
      (haccepted : ∀ penalty, e = .ridge penalty → ¬ RefusedPenalty penalty) (hoverflows : e.Overflows points) :
      Fails e points .arrayNotFinite

theorem estimate_eq_error (he : e ≠ .inert) : Model.estimate e points = .error error ↔ e.Fails points error := by
  have hsolve (penalty : K) (solvable : Bool) : Model.solve penalty points solvable = .error error ↔
      solvable = false ∧ error = .arrayNotFinite := by
    unfold Model.solve
    cases solvable <;> simp [eq_comm]
  cases e with
  | leastSquares =>
    unfold Model.estimate
    dsimp only
    rw [hsolve]
    constructor
    · rintro ⟨hcentred, rfl⟩
      exact .unsolved nofun hcentred
    · rintro (_ | ⟨-, hcentred⟩)
      exact ⟨hcentred, rfl⟩
  | ridge penalty =>
    unfold Model.estimate
    dsimp only
    split
    · next haccepted =>
      rw [hsolve]
      constructor
      · rintro ⟨hsolvable, rfl⟩
        refine .unsolved (fun other heq => ?_) hsolvable
        cases heq
        exact not_refusedPenalty.mpr haccepted
      · rintro (hrefused | ⟨-, hsolvable⟩)
        · exact absurd hrefused (not_refusedPenalty.mpr haccepted)
        · exact ⟨hsolvable, rfl⟩
    · next hrefused =>
      have hrefused : RefusedPenalty penalty := Classical.byContradiction fun h => hrefused (not_refusedPenalty.mp h)
      constructor
      · intro h
        cases h
        exact .refused hrefused
      · rintro (_ | ⟨haccepted, -⟩)
        · rfl
        · exact absurd hrefused (haccepted penalty rfl)
  | given line =>
    constructor
    · intro h
      cases h
    · rintro (_ | ⟨-, hoverflows⟩)
      cases hoverflows
  | inert => exact absurd rfl he

/-- An estimator finds a line of observations, or there are fewer than two of them. -/
def Finds (e : Estimator K) (points : List (K × K)) : Prop :=
  2 ≤ points.length → ∃ line, Model.estimate e points = .ok line

end Estimator

end Trend

namespace Trend.Model

/-- The fit that an estimator finds; fewer than two observations have none. -/
def fitOf (e : Estimator K) (points : List (K × K)) : Except Error (Option (Fit K)) :=
  if points.length < 2 then .ok none else (estimate e points).map fun line => some (Fit.ofLine line points)

theorem exists_fitOf {e : Estimator K} {points : List (K × K)} :
    (∃ fit, fitOf e points = .ok fit) ↔ e.Finds points := by
  unfold fitOf Estimator.Finds
  split
  · next hshort => exact ⟨fun _ hmany => absurd hshort (by omega), fun _ => ⟨none, rfl⟩⟩
  · next hmany =>
    constructor
    · rintro ⟨fit, hfit⟩ -
      obtain ⟨line, hline, -⟩ := Except.map_eq_ok.mp hfit
      exact ⟨line, hline⟩
    · intro h
      obtain ⟨line, hline⟩ := h (by omega)
      rw [hline]
      exact ⟨_, rfl⟩

theorem fitOf_eq_error {e : Estimator K} (he : e ≠ .inert) {points : List (K × K)} {error : Error} :
    fitOf e points = .error error ↔ 2 ≤ points.length ∧ e.Fails points error := by
  rw [← Estimator.estimate_eq_error he]
  unfold fitOf
  split
  · next hshort => exact ⟨nofun, fun h => absurd h.1 (by omega)⟩
  · next hmany => cases estimate e points <;> simp [Except.map, Nat.le_of_not_lt hmany]

/-- A model that keeps what it has learned when it learns more. -/
structure Accumulates (m : Model K) : Prop where
  online : m.online = true
  keeps : m.clearOnLearn = false
  learns : m.estimator ≠ .inert

variable {m m' m'' : Model K} {xs ys xs' ys' : List K}

theorem refit_eq (m : Model K) : m.refit =
    match fitOf m.estimator m.points with
    | .ok fit => (.ok (), { m with fit })
    | .error e => (.error e, m) := by
  unfold refit fitOf
  split
  · rfl
  · cases estimate m.estimator m.points <;> rfl

theorem refit_eq_ok :
    m.refit = (.ok (), m') ↔ ∃ fit, fitOf m.estimator m.points = .ok fit ∧ m' = { m with fit } := by
  rw [refit_eq]
  cases fitOf m.estimator m.points <;> simp [eq_comm]

theorem refusal?_eq_none : refusal? xs ys = none ↔
    xs ≠ [] ∧ xs.length = ys.length ∧ (∀ x ∈ xs, Scalar.isFinite x = true) ∧ ∀ y ∈ ys, Scalar.isFinite y = true := by
  unfold refusal?
  split
  · next hempty => simp [List.isEmpty_iff.mp hempty]
  · next hne =>
    have hxs : xs ≠ [] := fun h => hne (List.isEmpty_iff.mpr h)
    split
    · next hlength => simp [hlength]
    · next hlength =>
      have hlength := Decidable.not_not.mp hlength
      split
      · next hfinite =>
        rw [Bool.and_eq_true, List.all_eq_true, List.all_eq_true] at hfinite
        exact ⟨fun _ => ⟨hxs, hlength, hfinite⟩, fun _ => rfl⟩
      · next hfinite =>
        rw [Bool.and_eq_true, List.all_eq_true, List.all_eq_true] at hfinite
        constructor
        · intro h
          cases h
        · intro h
          exact absurd h.2.2 hfinite

theorem learn_of_ne_inert (h : m.estimator ≠ .inert) : m.learn xs ys =
    match refusal? xs ys with
    | some e => (.error e, m)
    | none => (m.retain (xs.zip ys)).refit := by
  unfold learn
  split
  · next hinert => exact absurd hinert h
  · rfl

theorem learn_eq_ok (h : m.Accumulates) : m.learn xs ys = (.ok (), m') ↔ refusal? xs ys = none ∧
    ∃ fit, fitOf m.estimator (m.points ++ xs.zip ys) = .ok fit ∧
      m' = { m with points := m.points ++ xs.zip ys, fit } := by
  rw [learn_of_ne_inert h.learns]
  split
  · next e he => simp [he]
  · next hnone =>
    rw [refit_eq_ok]
    unfold retain
    rw [h.keeps]
    simp [hnone]

theorem Accumulates.of_learn (h : m.Accumulates) (hlearn : m.learn xs ys = (.ok (), m')) : m'.Accumulates := by
  obtain ⟨-, fit, -, rfl⟩ := (learn_eq_ok h).mp hlearn
  exact ⟨h.online, h.keeps, h.learns⟩

/-- Two batches one after the other are learned as the one that they make up. -/
theorem learn_append (h : m.Accumulates) (hfirst : m.learn xs ys = (.ok (), m'))
    (hsecond : m'.learn xs' ys' = (.ok (), m'')) : m.learn (xs ++ xs') (ys ++ ys') = (.ok (), m'') := by
  rw [learn_eq_ok (h.of_learn hfirst)] at hsecond
  obtain ⟨hrefusal, fit, -, rfl⟩ := (learn_eq_ok h).mp hfirst
  obtain ⟨hrefusal', fit', hfit', rfl⟩ := hsecond
  obtain ⟨hne, hlength, hxs, hys⟩ := refusal?_eq_none.mp hrefusal
  obtain ⟨-, hlength', hxs', hys'⟩ := refusal?_eq_none.mp hrefusal'
  have hzip : (xs ++ xs').zip (ys ++ ys') = xs.zip ys ++ xs'.zip ys' := List.zip_append hlength
  rw [learn_eq_ok h, hzip, ← List.append_assoc]
  refine ⟨refusal?_eq_none.mpr ⟨by simp [hne], by simp [hlength, hlength'], ?_, ?_⟩, fit', hfit', rfl⟩
  · exact List.forall_mem_append.mpr ⟨hxs, hxs'⟩
  · exact List.forall_mem_append.mpr ⟨hys, hys'⟩

theorem length_pos_of_learn (h : m.Accumulates) (hlearn : m.learn xs ys = (.ok (), m')) : 0 < m'.points.length := by
  obtain ⟨hrefusal, fit, -, rfl⟩ := (learn_eq_ok h).mp hlearn
  obtain ⟨hne, hlength, -⟩ := refusal?_eq_none.mp hrefusal
  have hpos := List.length_pos_iff.mpr hne
  rw [List.length_append, List.length_zip, ← hlength, Nat.min_self]
  omega

theorem fit_isSome_of_learn (h : m.Accumulates) (hlearn : m.learn xs ys = (.ok (), m'))
    (htwo : 2 ≤ m.points.length + xs.length) : m'.fit.isSome = true := by
  obtain ⟨hrefusal, fit, hfit, rfl⟩ := (learn_eq_ok h).mp hlearn
  obtain ⟨-, hlength, -⟩ := refusal?_eq_none.mp hrefusal
  have hmany : ¬ (m.points ++ xs.zip ys).length < 2 := by
    rw [List.length_append, List.length_zip, ← hlength, Nat.min_self]
    omega
  unfold fitOf at hfit
  rw [if_neg hmany] at hfit
  obtain ⟨line, -, rfl⟩ := Except.map_eq_ok.mp hfit
  rfl

end Trend.Model

namespace LiveModel

variable {m : Model K} {origin : Instant} {times : List Instant} {values : List K} {s : LiveModel K}

theorem learnAt_eq_some : learnAt m origin times values = .ok (some s) ↔
    m.learn (times.map (origin.millisTo ·)) values = (.ok (), s.model) ∧ s.model.fit.isSome = true ∧
      s.origin = origin ∧ times.getLast? = some s.last := by
  unfold learnAt
  rcases m.learn (times.map (origin.millisTo ·)) values with ⟨e | u, after⟩
  · simp
  · obtain ⟨model, start, last⟩ := s
    cases hfit : after.fit with
    | none =>
      simp only [hfit]
      constructor
      · intro h
        cases h
      · rintro ⟨h, hsome, -⟩
        cases h
        rw [hfit] at hsome
        cases hsome
    | some f =>
      cases hlast : times.getLast? with
      | none => simp [hfit]
      | some t =>
        simp only [hfit, Except.ok.injEq, Option.some.injEq, LiveModel.mk.injEq, Prod.mk.injEq, true_and]
        constructor
        · rintro ⟨rfl, rfl, rfl⟩
          exact ⟨rfl, by rw [hfit]; rfl, rfl, rfl⟩
        · rintro ⟨rfl, -, rfl, rfl⟩
          exact ⟨rfl, rfl, rfl⟩

/-- A batch that makes two observations or more leaves a model in use. -/
theorem exists_of_learnAt (h : m.Accumulates) (htwo : 2 ≤ m.points.length + times.length)
    {live : Option (LiveModel K)} (hlearn : learnAt m origin times values = .ok live) : ∃ s, live = some s := by
  unfold learnAt at hlearn
  rcases hm : m.learn (times.map (origin.millisTo ·)) values with ⟨e | u, after⟩
  · rw [hm] at hlearn
    cases hlearn
  · have hsome := Model.fit_isSome_of_learn h hm (by simpa using htwo)
    obtain ⟨hrefusal, -⟩ := (Model.learn_eq_ok h).mp hm
    obtain ⟨hne, -⟩ := Model.refusal?_eq_none.mp hrefusal
    obtain ⟨f, hf⟩ := Option.isSome_iff_exists.mp hsome
    have htimes : times ≠ [] := fun h => hne (by rw [h]; rfl)
    rw [hm] at hlearn
    simp only [hf, List.getLast?_eq_some_getLast htimes] at hlearn
    cases hlearn
    exact ⟨_, rfl⟩

end LiveModel

/-! ## Windows one after another -/

/-- Points whose times increase. -/
def Increasing (points : List (Instant × K)) : Prop := points.Pairwise fun p q => p.1.micros < q.1.micros

omit [Scalar K] in
theorem Increasing.eq_of_mem_iff {points others : List (Instant × K)} (h : Increasing points)
    (h' : Increasing others) (hmem : ∀ p, p ∈ points ↔ p ∈ others) : points = others := by
  have hnodup : ∀ {l : List (Instant × K)}, Increasing l → l.Nodup := fun hl =>
    hl.imp fun {p q} hlt heq => by
      rw [heq] at hlt
      omega
  have hperm := (List.perm_ext_iff_of_nodup (hnodup h) (hnodup h')).mpr hmem
  refine hperm.eq_of_pairwise (fun p q _ _ hpq hqp => ?_) h h'
  have := Int.lt_trans hpq hqp
  omega

omit [Scalar K] in
/-- The last of increasing points is the newest. -/
theorem Increasing.le_last {points : List (Instant × K)} (h : Increasing points) {last : Instant}
    (hlast : (points.map Prod.fst).getLast? = some last) {p : Instant × K} (hp : p ∈ points) :
    p.1.micros ≤ last.micros := by
  rw [List.getLast?_map, Option.map_eq_some_iff] at hlast
  obtain ⟨q, hq, rfl⟩ := hlast
  obtain ⟨front, rfl⟩ := List.getLast?_eq_some_iff.mp hq
  rcases List.mem_append.mp hp with hp | hp
  · have := (List.pairwise_append.mp h).2.2 p hp q List.mem_cons_self
    omega
  · cases List.mem_singleton.mp hp
    exact Int.le_refl _

/-- The windows from the first one on that has as many points as a model needs. -/
def sinceFirst (config : EngineConfig K) (windows : List (List (Instant × K))) : List (List (Instant × K)) :=
  windows.dropWhile fun w => (w.length : Int) < max 2 config.minPoints

/-- A live model is what a fresh model of the configured kind becomes when it learns the points of windows in one batch,
each point once and in the order of time, with the first point of the first window as its origin. -/
def Learned (registry : Registry K) (config : EngineConfig K) (windows : List (List (Instant × K)))
    (s : LiveModel K) : Prop :=
  ∃ fresh points, registry.create config.model.kind config.model = .ok fresh ∧ Increasing points ∧
    (∀ p, p ∈ points ↔ ∃ w ∈ windows, p ∈ w) ∧
    (windows.head?.bind List.head?).map Prod.fst = some s.origin ∧
    LiveModel.learnAt fresh s.origin (points.map Prod.fst) (points.map Prod.snd) = .ok (some s)

/-- What is in use of a metric after windows one after another: a live model of those from the first one on that has
points enough, none if there is no such window. -/
def LearnedFrom (registry : Registry K) (config : EngineConfig K) (windows : List (List (Instant × K))) :
    Option (LiveModel K) → Prop
  | none => sinceFirst config windows = []
  | some s => Learned registry config (sinceFirst config windows) s

/-- The models of the configured kind accumulate what they learn. -/
def Accumulating (registry : Registry K) (config : EngineConfig K) : Prop :=
  ∀ fresh, registry.create config.model.kind config.model = .ok fresh → fresh.Accumulates ∧ fresh.points = []

variable {registry : Registry K} {config : EngineConfig K} {windows : List (List (Instant × K))}

/-- A kind whose models are lines of least squares, with or without a penalty. -/
def LineKind (registry : Registry K) (config : EngineConfig K) : Prop :=
  registry.table.get? (normalKind config.model.kind) = some Registry.linear ∨
    registry.table.get? (normalKind config.model.kind) = some Registry.ridge

omit [Scalar K] in
theorem LineKind.accumulating (h : LineKind registry config) (hclear : config.model.clearOnLearn = false) :
    Accumulating registry config := by
  intro fresh hfresh
  unfold Registry.create at hfresh
  rcases h with h | h
  · rw [h] at hfresh
    cases hfresh
    exact ⟨⟨rfl, hclear, nofun⟩, rfl⟩
  · rw [h] at hfresh
    cases hfresh
    exact ⟨⟨rfl, hclear, nofun⟩, rfl⟩

omit [Scalar K] in
theorem LineKind.learns (h : LineKind registry config) {fresh : Model K}
    (hfresh : registry.create config.model.kind config.model = .ok fresh) : fresh.estimator ≠ .inert := by
  unfold Registry.create at hfresh
  rcases h with h | h <;> rw [h] at hfresh <;> cases hfresh <;> nofun

omit [Scalar K] in
theorem sinceFirst_concat (w : List (Instant × K)) : sinceFirst config (windows ++ [w]) =
    if sinceFirst config windows = [] then
      if (w.length : Int) < max 2 config.minPoints then [] else [w]
    else sinceFirst config windows ++ [w] := by
  unfold sinceFirst
  rw [List.dropWhile_append]
  simp only [List.isEmpty_iff, List.dropWhile_cons, List.dropWhile_nil, decide_eq_true_eq]

omit [Scalar K] in
theorem mem_sinceFirst_concat {w : List (Instant × K)} (h : sinceFirst config (windows ++ [w]) ≠ []) :
    w ∈ sinceFirst config (windows ++ [w]) := by
  rw [sinceFirst_concat] at h ⊢
  split at h
  · split at h
    · exact absurd rfl h
    · next hnil hlong =>
      rw [if_pos hnil, if_neg hlong]
      exact List.mem_singleton_self w
  · next hne =>
    rw [if_neg hne]
    exact List.mem_append_right _ (List.mem_singleton_self w)

omit [Scalar K] in
theorem le_length_of_sinceFirst {first : List (Instant × K)} {rest : List (List (Instant × K))}
    (h : sinceFirst config windows = first :: rest) : max 2 config.minPoints ≤ (first.length : Int) := by
  have hhead := List.head?_dropWhile_not (fun w => decide ((w.length : Int) < max 2 config.minPoints)) windows
  unfold sinceFirst at h
  rw [h] at hhead
  have hnot := decide_eq_false_iff_not.mp hhead
  omega

/-- A fresh model of one window. -/
theorem learnedFrom_of_trainFresh (haccum : Accumulating registry config) {w : List (Instant × K)}
    (hw : Increasing w) (hnone : sinceFirst config windows = []) {live : Option (LiveModel K)}
    (htrain : LiveModel.trainFresh registry config (w.map Prod.fst) (w.map Prod.snd) = .ok live) :
    LearnedFrom registry config (windows ++ [w]) live := by
  have hconcat : sinceFirst config (windows ++ [w]) = if (w.length : Int) < max 2 config.minPoints then [] else [w] := by
    rw [sinceFirst_concat, if_pos hnone]
  cases w with
  | nil =>
    cases htrain
    show sinceFirst config (windows ++ [[]]) = []
    have hshort : (([] : List (Instant × K)).length : Int) < max 2 config.minPoints := by
      rw [List.length_nil]
      omega
    rw [hconcat, if_pos hshort]
  | cons p rest =>
    unfold LiveModel.trainFresh at htrain
    simp only [List.map_cons, List.length_cons, List.length_map] at htrain
    by_cases hshort : ((rest.length + 1 : Nat) : Int) < max 2 config.minPoints
    · rw [if_pos hshort] at htrain
      cases htrain
      show sinceFirst config _ = []
      rw [hconcat, if_pos (by simpa using hshort)]
    · rw [if_neg hshort] at htrain
      obtain ⟨fresh, hfresh, hlearn⟩ := Except.bind_eq_ok.mp htrain
      obtain ⟨haccumulates, hpoints⟩ := haccum fresh hfresh
      obtain ⟨s, rfl⟩ := LiveModel.exists_of_learnAt haccumulates (by simp; omega) hlearn
      have horigin := (LiveModel.learnAt_eq_some.mp hlearn).2.2.1
      show Learned registry config (sinceFirst config _) s
      rw [hconcat, if_neg (by simpa using hshort)]
      refine ⟨fresh, p :: rest, hfresh, hw, fun q => by simp, by simp [horigin], ?_⟩
      rw [horigin]
      exact hlearn

/-- The live model after the newer points of one more window. -/
theorem Learned.extend (haccum : Accumulating registry config) {w : List (Instant × K)} (hw : Increasing w)
    {s : LiveModel K} (h : Learned registry config windows s)
    (hold : ∀ p ∈ w, p.1.micros ≤ s.last.micros → ∃ w' ∈ windows, p ∈ w') {live : Option (LiveModel K)}
    (htrain : s.extend (w.map Prod.fst) (w.map Prod.snd) = .ok live) :
    ∃ s', live = some s' ∧ Learned registry config (windows ++ [w]) s' := by
  obtain ⟨fresh, points, hfresh, hpoints, hmem, horigin, hlearn⟩ := h
  obtain ⟨haccumulates, hempty⟩ := haccum fresh hfresh
  obtain ⟨hfirst, -, -, hlast⟩ := LiveModel.learnAt_eq_some.mp hlearn
  have hhead : ((windows ++ [w]).head?.bind List.head?).map Prod.fst = some s.origin := by
    cases windows with
    | nil => cases horigin
    | cons first rest => exact horigin
  unfold LiveModel.extend at htrain
  rw [← List.zip_of_prod rfl rfl] at htrain
  dsimp only at htrain
  generalize hnewer : (w.filter fun p => decide (s.last.micros < p.1.micros)) = newer at htrain
  have hmemNewer : ∀ p, p ∈ newer ↔ p ∈ w ∧ s.last.micros < p.1.micros := by
    intro p
    rw [← hnewer, List.mem_filter, decide_eq_true_eq]
  -- The union of the windows is what was learned before and the newer points.
  have hunion : ∀ p, p ∈ points ++ newer ↔ ∃ w' ∈ windows ++ [w], p ∈ w' := by
    intro p
    simp only [List.mem_append, List.mem_singleton, or_and_right, exists_or, exists_eq_left, hmem, hmemNewer]
    constructor
    · rintro (hp | ⟨hp, -⟩)
      · exact .inl hp
      · exact .inr hp
    · rintro (hp | hp)
      · exact .inl hp
      · by_cases hle : p.1.micros ≤ s.last.micros
        · exact .inl (hold p hp hle)
        · exact .inr ⟨hp, by omega⟩
  have hincreasing : Increasing (points ++ newer) := by
    refine List.pairwise_append.mpr ⟨hpoints, ?_, fun p hp q hq => ?_⟩
    · rw [← hnewer]
      exact hw.filter _
    · have hle := hpoints.le_last hlast hp
      have hlt := ((hmemNewer q).mp hq).2
      omega
  by_cases hno : newer.isEmpty = true
  · rw [if_pos hno] at htrain
    cases htrain
    rw [List.isEmpty_iff.mp hno, List.append_nil] at hunion
    exact ⟨s, rfl, fresh, points, hfresh, hpoints, hunion, hhead, hlearn⟩
  · rw [if_neg hno] at htrain
    have htwo : 2 ≤ s.model.points.length + (newer.map Prod.fst).length := by
      have hone := Model.length_pos_of_learn haccumulates hfirst
      have hmore := List.length_pos_iff.mpr fun h => hno (List.isEmpty_iff.mpr h)
      rw [List.length_map]
      omega
    obtain ⟨s', rfl⟩ := LiveModel.exists_of_learnAt (haccumulates.of_learn hfirst) htwo htrain
    obtain ⟨hsecond, hsome, horigin', hlast'⟩ := LiveModel.learnAt_eq_some.mp htrain
    refine ⟨s', rfl, fresh, points ++ newer, hfresh, hincreasing, hunion, horigin' ▸ hhead, ?_⟩
    have happend := Model.learn_append haccumulates hfirst hsecond
    refine LiveModel.learnAt_eq_some.mpr ⟨?_, hsome, rfl, ?_⟩
    · rw [horigin', List.map_append, List.map_append, List.map_append]
      exact happend
    · rw [List.map_append, List.getLast?_append, hlast']
      rfl

theorem Learned.continues (haccum : Accumulating registry config) {s : LiveModel K}
    (h : Learned registry config windows s) : s.continues = true := by
  obtain ⟨fresh, points, hfresh, -, -, -, hlearn⟩ := h
  obtain ⟨hlearned, -⟩ := LiveModel.learnAt_eq_some.mp hlearn
  have haccumulates := (haccum fresh hfresh).1.of_learn hlearned
  simp [LiveModel.continues, haccumulates.online, haccumulates.keeps]

/-- One more window keeps what the live model is. Of a window no point may be new to it that is not newer than all it has
learned. -/
theorem LearnedFrom.train (haccum : Accumulating registry config) {previous live : Option (LiveModel K)}
    (h : LearnedFrom registry config windows previous) {w : List (Instant × K)} (hw : Increasing w)
    (hold : ∀ s, previous = some s → ∀ p ∈ w, p.1.micros ≤ s.last.micros → ∃ w' ∈ sinceFirst config windows, p ∈ w')
    {series : Series K} (htimes : series.timestamps.mapM Timestamp.toInstant = .ok (w.map Prod.fst))
    (hvalues : series.values = w.map Prod.snd) (htrain : LiveModel.train registry config series previous = .ok live) :
    LearnedFrom registry config (windows ++ [w]) live := by
  unfold LiveModel.train at htrain
  rw [htimes, hvalues] at htrain
  cases previous with
  | none => exact learnedFrom_of_trainFresh haccum hw h htrain
  | some s =>
    replace htrain : (if s.continues = true then s.extend (w.map Prod.fst) (w.map Prod.snd)
      else LiveModel.trainFresh registry config (w.map Prod.fst) (w.map Prod.snd)) = .ok live := htrain
    rw [if_pos (Learned.continues haccum h)] at htrain
    obtain ⟨s', rfl, hs'⟩ := Learned.extend haccum hw h (hold s rfl) htrain
    show Learned registry config (sinceFirst config (windows ++ [w])) s'
    have hne : sinceFirst config windows ≠ [] := by
      intro hnil
      obtain ⟨-, -, -, -, -, horigin, -⟩ := h
      rw [hnil] at horigin
      cases horigin
    rw [sinceFirst_concat, if_neg hne]
    exact hs'

/-- Where every window is the beginning of the last one, the live model is what the last one alone makes of a fresh
model. -/
theorem LearnedFrom.trainFresh {live : Option (LiveModel K)} {w : List (Instant × K)}
    (h : LearnedFrom registry config (windows ++ [w]) live) (hw : Increasing w) (hbegins : ∀ w' ∈ windows, w' <+: w) :
    LiveModel.trainFresh registry config (w.map Prod.fst) (w.map Prod.snd) = .ok live := by
  unfold LiveModel.trainFresh
  cases live with
  | none =>
    have hshort := List.dropWhile_eq_nil_iff.mp h w (by simp)
    cases w with
    | nil => rfl
    | cons p rest =>
      simp only [List.map_cons, List.length_cons, List.length_map]
      rw [if_pos (by simpa using hshort)]
  | some s =>
    obtain ⟨fresh, points, hfresh, hpoints, hmem, horigin, hlearn⟩ := h
    have hall : ∀ w' ∈ sinceFirst config (windows ++ [w]), w' <+: w := by
      intro w' hw'
      rcases List.mem_append.mp ((List.dropWhile_suffix _).subset hw') with hw' | hw'
      · exact hbegins w' hw'
      · cases List.mem_singleton.mp hw'
        exact List.prefix_refl _
    have hne : sinceFirst config (windows ++ [w]) ≠ [] := by
      intro hnil
      rw [hnil] at horigin
      cases horigin
    have heq : points = w := by
      refine hpoints.eq_of_mem_iff hw fun p => ?_
      rw [hmem]
      exact ⟨fun ⟨w', hw', hp⟩ => (hall w' hw').subset hp, fun hp => ⟨w, mem_sinceFirst_concat hne, hp⟩⟩
    subst heq
    obtain ⟨first, rest, hfirst⟩ := List.exists_cons_of_ne_nil hne
    have hlong := le_length_of_sinceFirst hfirst
    have hle := hall first (by simp [hfirst])
    rw [hfirst] at horigin
    cases first with
    | nil => cases horigin
    | cons p front =>
      obtain ⟨back, rfl⟩ := hle
      have hp : p.1 = s.origin := Option.some.inj horigin
      simp only [List.cons_append, List.map_cons, List.length_cons, List.length_append, List.length_map] at hlong ⊢
      rw [if_neg (by omega), hfresh, hp]
      simpa [bind, Except.bind, hp] using hlearn

end Backpressure
