import Backpressure.Engine.Recompute
import Backpressure.Proofs.Learning
import Backpressure.Proofs.Nearest

/-!
# Training on doubles

* `Fit.Scored` : a fit with the scores of its line, all of which can be shown;
* `PenaltyRefused` : the ridge lines of which none is found, `LineKind.estimate_cases` : how a line kind finds its
  lines;
* `LiveModel.fitted?` : the observations that training fits a line to;
* `LiveModel.Sound` : a live model that can go on learning;
* `LiveModel.Trained` : what becomes of training on points that can be learned, as `trained_train` shows.
-/

namespace Backpressure
open Number Time Trend

/-! ## Scores -/

theorem Number.Binary64.positive_sum {xs : List Float} (h : ∀ x ∈ xs, Positive x) : Positive (Arithmetic.sum xs) := by
  have hfold : ∀ acc : Float, Positive acc → Positive (xs.foldl (· + ·) acc) := by
    induction xs with
    | nil => exact fun acc hacc => hacc
    | cons x rest ih =>
      rw [List.forall_mem_cons] at h
      exact fun acc hacc => ih h.2 (acc + x) (hacc.add h.1)
  exact hfold _ (positive_ofInt (Int.le_refl 0))

namespace Trend

/-- A fit with the scores of its line. -/
def Fit.Scored (f : Fit Float) : Prop := ∃ line points, f = Fit.ofLine line points

theorem Fit.positive_residuals (line : Line Float) (points : List (Float × Float)) :
    Binary64.Positive (residuals line points) := by
  refine Binary64.positive_sum fun x hx => ?_
  obtain ⟨p, -, rfl⟩ := List.mem_map.mp hx
  exact Binary64.Positive.mul_self _

/-- A mean of squares is not negative, so it has a root where it is finite. -/
theorem Fit.Scored.exists_root {f : Fit Float} (h : f.Scored) : ∃ root, f.rootMeanSquareError = .ok root := by
  obtain ⟨line, points, rfl⟩ := h
  unfold rootMeanSquareError
  cases hmean : (ofLine line points).meanSquareError with
  | none => exact ⟨none, rfl⟩
  | some mean =>
    have hpositive : Binary64.Positive mean := by
      have hsome : (if 2 < points.length then some (residuals (settledLine line points) points /
          Arithmetic.ofInt ((points.length : Int) - 2)) else none) = some mean := hmean
      split at hsome
      · next hlong =>
        cases hsome
        exact (positive_residuals _ _).div (Binary64.positive_ofInt (by omega))
      · cases hsome
    dsimp only
    rw [hpositive.not_lt_zero]
    split
    · exact ⟨none, rfl⟩
    · exact ⟨_, rfl⟩

theorem Fit.Scored.exists_scores {f : Fit Float} (h : f.Scored) : ∃ scores, Scores.ofFit f = .ok scores := by
  obtain ⟨root, hroot⟩ := h.exists_root
  unfold Scores.ofFit
  rw [hroot]
  exact ⟨_, rfl⟩

end Trend

/-! ## Estimating -/

/-- Models are lines with a slope penalty that no line is estimated with: a negative, infinite or undefined one. -/
structure PenaltyRefused (registry : Registry Float) (config : EngineConfig Float) : Prop where
  kind : registry.table.get? (normalKind config.model.kind) = some Registry.ridge
  refused : RefusedPenalty config.model.ridgePenalty

variable {registry : Registry Float} {config : EngineConfig Float}

/-- How a model of a line kind finds a line of observations: there is one unless the slope penalty is refused or what it
solves for overflows. -/
inductive Estimated (registry : Registry Float) (config : EngineConfig Float) (e : Estimator Float)
    (points : List (Float × Float)) : Except Error (Line Float) → Prop
  | refused (h : PenaltyRefused registry config) :
      Estimated registry config e points (.error (.penaltyOutOfRange (Scalar.text config.model.ridgePenalty)))
  | unsolved (h : ¬ PenaltyRefused registry config) (hoverflows : e.Overflows points) :
      Estimated registry config e points (.error .arrayNotFinite)
  | found (h : ¬ PenaltyRefused registry config) (hsolved : ¬ e.Overflows points) (line : Line Float) :
      Estimated registry config e points (.ok line)

/-- A fresh model of a line kind. -/
theorem LineKind.exists_create (h : LineKind registry config) : ∃ fresh,
    registry.create config.model.kind config.model = .ok fresh ∧ fresh.points = [] ∧ fresh.estimator ≠ .inert := by
  unfold Registry.create
  rcases h with h | h <;> rw [h] <;> exact ⟨_, rfl, rfl, nofun⟩

theorem LineKind.estimate_cases (h : LineKind registry config) {fresh : Model Float}
    (hfresh : registry.create config.model.kind config.model = .ok fresh) (points : List (Float × Float)) :
    Estimated registry config fresh.estimator points (Model.estimate fresh.estimator points) := by
  have hkind : (fresh.estimator = .leastSquares ∧ ¬ PenaltyRefused registry config) ∨
      (fresh.estimator = .ridge config.model.ridgePenalty ∧
        (PenaltyRefused registry config ↔ RefusedPenalty config.model.ridgePenalty)) := by
    unfold Registry.create at hfresh
    rcases h with hlinear | hridge
    · rw [hlinear] at hfresh
      cases hfresh
      refine .inl ⟨rfl, fun hrefused => ?_⟩
      have hmake := congrArg (· (⟨"", false, 0⟩ : ModelConfig Float))
        (Option.some.inj (hlinear.symm.trans hrefused.kind))
      cases hmake
    · rw [hridge] at hfresh
      cases hfresh
      exact .inr ⟨rfl, fun hrefused => hrefused.refused, fun hrefused => ⟨hridge, hrefused⟩⟩
  have hne : fresh.estimator ≠ .inert := by
    rcases hkind with ⟨heq, -⟩ | ⟨heq, -⟩ <;> rw [heq] <;> nofun
  generalize fresh.estimator = e at hkind hne ⊢
  cases hline : Model.estimate e points with
  | error error =>
    cases (Estimator.estimate_eq_error hne).mp hline with
    | refused hpenalty =>
      rcases hkind with ⟨heq, -⟩ | ⟨heq, hiff⟩
      · cases heq
      · cases heq
        exact .refused (hiff.mpr hpenalty)
    | unsolved haccepted hoverflows =>
      refine .unsolved ?_ hoverflows
      rcases hkind with ⟨-, hnot⟩ | ⟨heq, hiff⟩
      · exact hnot
      · exact fun hrefused => haccepted _ heq (hiff.mp hrefused)
  | ok line =>
    have hfound (error : Error) : ¬ e.Fails points error := fun hfails => by
      cases hline.symm.trans ((Estimator.estimate_eq_error hne).mpr hfails)
    refine .found ?_ (fun hoverflows => hfound _ (.unsolved ?_ hoverflows)) line
    · rcases hkind with ⟨-, hnot⟩ | ⟨rfl, hiff⟩
      · exact hnot
      · exact fun hrefused => hfound _ (.refused (hiff.mp hrefused))
    · rintro penalty rfl hpenalty
      exact hfound _ (.refused hpenalty)

/-! ## Live models -/

/-- Points of which a model can learn the times and values. -/
def Learnable (points : List (Instant × Float)) : Prop :=
  ∀ p ∈ points, inRange p.1.micros = true ∧ p.2.isFinite = true

/-- Points as observations, their times counted from an origin. -/
def timed (origin : Instant) (points : List (Instant × Float)) : List (Float × Float) :=
  points.map fun p => (origin.millisTo p.1, p.2)

namespace LiveModel

/-- The points of a series that are newer than all that a live model has learned. -/
def newer (s : LiveModel Float) (points : List (Instant × Float)) : List (Instant × Float) :=
  points.filter fun p => s.last.micros < p.1.micros

/-- The observations that training fits a line to: those of a live model that goes on learning with the newer ones, or
else those of the whole series. Without newer ones, or with too few in all, no line is fitted. -/
def fitted? (config : EngineConfig Float) (points : List (Instant × Float)) (previous : Option (LiveModel Float)) :
    Option (List (Float × Float)) :=
  match previous.filter continues, points with
  | some s, points => if s.newer points = [] then none else some (s.model.points ++ timed s.origin (s.newer points))
  | none, [] => none
  | none, p :: rest =>
    if ((p :: rest).length : Int) < max 2 config.minPoints then none else some (timed p.1 (p :: rest))

/-- Whether training fits a line to observations of which none is found. -/
def Unsolved (registry : Registry Float) (config : EngineConfig Float) (points : List (Instant × Float))
    (previous : Option (LiveModel Float)) : Prop :=
  ∃ fresh observations, registry.create config.model.kind config.model = .ok fresh ∧
    fitted? config points previous = some observations ∧ fresh.estimator.Overflows observations

/-- A live model that can go on learning and whose scores can be shown. -/
structure Sound (registry : Registry Float) (config : EngineConfig Float) (s : LiveModel Float) : Prop where
  origin : inRange s.origin.micros = true
  kind : ∃ fresh, registry.create config.model.kind config.model = .ok fresh ∧ s.model.estimator = fresh.estimator
  many : 2 ≤ s.model.points.length
  accepted : ¬ PenaltyRefused registry config
  scored : ∀ f, s.model.fit = some f → f.Scored

/-- The live models of both metrics can go on learning. -/
def AllSound (registry : Registry Float) (config : EngineConfig Float) (models : PerMetric (Option (LiveModel Float))) :
    Prop :=
  ∀ m live, models.get m = some live → live.Sound registry config

variable {registry : Registry Float} {config : EngineConfig Float} {m fresh : Model Float} {origin : Instant}
  {points : List (Instant × Float)} {previous : Option (LiveModel Float)} {series : Series Float}

theorem refusal?_eq_none (horigin : inRange origin.micros = true) (hpoints : Learnable points) (hne : points ≠ []) :
    Model.refusal? ((points.map Prod.fst).map (origin.millisTo ·)) (points.map Prod.snd) = none := by
  refine Model.refusal?_eq_none.mpr ⟨by simpa using hne, by simp, ?_, ?_⟩
  · intro x hx
    obtain ⟨t, ht, rfl⟩ := List.mem_map.mp hx
    obtain ⟨p, hp, rfl⟩ := List.mem_map.mp ht
    exact Binary64.isFinite_millisTo horigin (hpoints p hp).1
  · intro y hy
    obtain ⟨p, hp, rfl⟩ := List.mem_map.mp hy
    exact (hpoints p hp).2

/-- Learning points fits a line to the observations that are then retained, which are two at least. -/
theorem learnAt_eq (hlearns : m.estimator ≠ .inert) (horigin : inRange origin.micros = true)
    (hpoints : Learnable points) (hne : points ≠ []) (hmany : 2 ≤ (m.retain (timed origin points)).points.length) :
    learnAt m origin (points.map Prod.fst) (points.map Prod.snd) =
      (Model.estimate m.estimator (m.retain (timed origin points)).points).map fun line =>
        some ⟨{ m.retain (timed origin points) with
          fit := some (Fit.ofLine line (m.retain (timed origin points)).points) }, origin, (points.getLast hne).1⟩ := by
  have hzip : ((points.map Prod.fst).map (origin.millisTo ·)).zip (points.map Prod.snd) = timed origin points := by
    rw [List.map_map, List.zip_map', timed]
    rfl
  have hlast : (points.map Prod.fst).getLast? = some (points.getLast hne).1 := by
    rw [List.getLast?_map, List.getLast?_eq_some_getLast hne]
    rfl
  unfold learnAt
  rw [Model.learn_of_ne_inert hlearns, refusal?_eq_none horigin hpoints hne, hzip]
  dsimp only
  unfold Model.refit
  rw [if_neg (by omega), show (m.retain (timed origin points)).estimator = m.estimator from rfl]
  cases Model.estimate m.estimator (m.retain (timed origin points)).points with
  | error e => rfl
  | ok line =>
    dsimp only
    rw [hlast]
    rfl

/-- What becomes of training on points: it fails where a line is to be fitted and none is found, and otherwise leaves a
live model that can go on learning, if there is one. -/
inductive Trained (registry : Registry Float) (config : EngineConfig Float) (points : List (Instant × Float))
    (previous : Option (LiveModel Float)) : Except Error (Option (LiveModel Float)) → Prop
  | refused (h : PenaltyRefused registry config) (hfits : (fitted? config points previous).isSome = true) :
      Trained registry config points previous
        (.error (.penaltyOutOfRange (Scalar.text config.model.ridgePenalty)))
  | unsolved (h : ¬ PenaltyRefused registry config) (hunsolved : Unsolved registry config points previous) :
      Trained registry config points previous (.error .arrayNotFinite)
  | trained {live : Option (LiveModel Float)} (hsound : ∀ s, live = some s → s.Sound registry config)
      (hrefused : PenaltyRefused registry config → fitted? config points previous = none)
      (hsolved : ¬ Unsolved registry config points previous) : Trained registry config points previous (.ok live)

namespace Trained

theorem of_none {live : Option (LiveModel Float)} (hfitted : fitted? config points previous = none)
    (hsound : ∀ s, live = some s → s.Sound registry config) : Trained registry config points previous (.ok live) := by
  refine .trained hsound (fun _ => hfitted) ?_
  rintro ⟨_, _, -, hsome, -⟩
  cases hfitted.symm.trans hsome

/-- Where a line is fitted, it is up to the estimator what becomes of training. -/
theorem of_some (hkind : LineKind registry config)
    (hfresh : registry.create config.model.kind config.model = .ok fresh) {observations : List (Float × Float)}
    (hfitted : fitted? config points previous = some observations) (live : Line Float → LiveModel Float)
    (hsound : ∀ line, ¬ PenaltyRefused registry config → (live line).Sound registry config) :
    Trained registry config points previous
      ((Model.estimate fresh.estimator observations).map fun line => some (live line)) := by
  have hestimated := hkind.estimate_cases hfresh observations
  generalize Model.estimate fresh.estimator observations = outcome at hestimated ⊢
  cases hestimated with
  | refused h => exact .refused h (by rw [hfitted]; rfl)
  | unsolved h hoverflows => exact .unsolved h ⟨fresh, observations, hfresh, hfitted, hoverflows⟩
  | found h hsolved line =>
    refine .trained (fun s hs => ?_) (fun hrefused => absurd hrefused h) ?_
    · cases hs
      exact hsound line h
    · rintro ⟨_, _, hfresh', hsome, hoverflows⟩
      cases hfresh.symm.trans hfresh'
      cases hfitted.symm.trans hsome
      exact hsolved hoverflows

end Trained

theorem trained_trainFresh (hkind : LineKind registry config) (hpoints : Learnable points)
    (hprevious : previous.filter continues = none) :
    Trained registry config points previous
      (trainFresh registry config (points.map Prod.fst) (points.map Prod.snd)) := by
  obtain ⟨fresh, hfresh, hempty, hlearns⟩ := hkind.exists_create
  cases points with
  | nil =>
    refine .of_none ?_ fun s hs => by cases hs
    unfold fitted?
    rw [hprevious]
  | cons p rest =>
    have hfitted : fitted? config (p :: rest) previous =
        if ((p :: rest).length : Int) < max 2 config.minPoints then none else some (timed p.1 (p :: rest)) := by
      unfold fitted?
      rw [hprevious]
    unfold trainFresh
    simp only [List.map_cons, List.length_cons, List.length_map]
    split
    · next hshort => exact .of_none (hfitted.trans (if_pos hshort)) fun s hs => by cases hs
    · next hlong =>
      have hretained : (fresh.retain (timed p.1 (p :: rest))).points = timed p.1 (p :: rest) := by
        unfold Model.retain
        rw [hempty, List.nil_append, ite_self]
      have hmany : 2 ≤ (fresh.retain (timed p.1 (p :: rest))).points.length := by
        rw [hretained, timed, List.length_map, List.length_cons]
        omega
      have horigin := (hpoints p List.mem_cons_self).1
      have hlearn := learnAt_eq hlearns horigin hpoints (List.cons_ne_nil p rest) hmany
      rw [hfresh]
      show Trained _ _ _ _ (learnAt fresh p.1 ((p :: rest).map Prod.fst) ((p :: rest).map Prod.snd))
      rw [hlearn, hretained]
      refine .of_some hkind hfresh (hfitted.trans (if_neg hlong)) _ fun line haccepted => ?_
      exact ⟨horigin, ⟨fresh, hfresh, rfl⟩, hmany, haccepted, fun f hf => ⟨line, _, (Option.some.inj hf).symm⟩⟩

theorem Sound.trained_extend {s : LiveModel Float} (hkind : LineKind registry config) (hs : s.Sound registry config)
    (hcontinues : s.continues = true) (hpoints : Learnable points) :
    Trained registry config points (some s) (s.extend (points.map Prod.fst) (points.map Prod.snd)) := by
  have hfitted : fitted? config points (some s) =
      if s.newer points = [] then none else some (s.model.points ++ timed s.origin (s.newer points)) := by
    unfold fitted?
    rw [Option.filter_some, if_pos hcontinues]
  unfold extend
  rw [← List.zip_of_prod rfl rfl]
  show Trained _ _ _ _ (if (s.newer points).isEmpty = true then _ else
    learnAt s.model s.origin ((s.newer points).map Prod.fst) ((s.newer points).map Prod.snd))
  split
  · next hempty =>
    refine .of_none (hfitted.trans (if_pos (List.isEmpty_iff.mp hempty))) fun s' hs' => ?_
    cases hs'
    exact hs
  · next hnewer =>
    have hne : s.newer points ≠ [] := fun hnil => hnewer (List.isEmpty_iff.mpr hnil)
    obtain ⟨fresh, hfresh, hsame⟩ := hs.kind
    obtain ⟨fresh', hfresh', -, hlearns⟩ := hkind.exists_create
    cases hfresh.symm.trans hfresh'
    have hkeeps : s.model.clearOnLearn = false := by
      unfold continues at hcontinues
      rw [Bool.and_eq_true, Bool.not_eq_true'] at hcontinues
      exact hcontinues.2
    have hretained : (s.model.retain (timed s.origin (s.newer points))).points =
        s.model.points ++ timed s.origin (s.newer points) := by
      unfold Model.retain
      rw [hkeeps]
      rfl
    have hmany : 2 ≤ (s.model.retain (timed s.origin (s.newer points))).points.length := by
      rw [hretained, List.length_append]
      exact hs.many.trans (Nat.le_add_right _ _)
    have hlearnable : Learnable (s.newer points) := fun p hp => hpoints p (List.mem_filter.mp hp).1
    have hlearn := learnAt_eq (hsame ▸ hlearns) hs.origin hlearnable hne hmany
    rw [hlearn, hretained, hsame]
    refine .of_some hkind hfresh (hfitted.trans (if_neg hne)) _ fun line haccepted => ?_
    exact ⟨hs.origin, ⟨fresh, hfresh, hsame⟩, hmany, haccepted, fun f hf => ⟨line, _, (Option.some.inj hf).symm⟩⟩

theorem trained_train (hkind : LineKind registry config)
    (hprevious : ∀ s, previous = some s → s.Sound registry config)
    (htimes : series.timestamps.mapM Timestamp.toInstant = .ok (points.map Prod.fst))
    (hvalues : series.values = points.map Prod.snd) (hpoints : Learnable points) :
    Trained registry config points previous (train registry config series previous) := by
  unfold train
  rw [htimes, hvalues]
  cases previous with
  | none => exact trained_trainFresh hkind hpoints rfl
  | some s =>
    show Trained _ _ _ _ (if s.continues = true then s.extend (points.map Prod.fst) (points.map Prod.snd)
      else trainFresh registry config (points.map Prod.fst) (points.map Prod.snd))
    split
    · next hcontinues => exact (hprevious s rfl).trained_extend hkind hcontinues hpoints
    · next hrestarts => exact trained_trainFresh hkind hpoints (by rw [Option.filter_some, if_neg hrestarts])

end LiveModel

end Backpressure
