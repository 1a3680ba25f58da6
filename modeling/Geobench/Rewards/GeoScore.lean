import Geobench.Rewards.GeoFormat
import Geobench.Rewards.TruthCoordinates
import Mathlib.Algebra.Order.Field.Basic
import Mathlib.Tactic.Linarith

/-!
# The distance reward

`GeoScoreAccuracy` geocodes the answer of a completion, looks for the true coordinates in the
columns, then in the solution, and at last geocodes the answer of the solution. The score falls
with the distance between the two places. What goes wrong on the way scores 0.

Coordinates of the columns are only taken when they are on the globe. Those of a solution are
taken as they are, so that a distance can be NaN, or one between places that are not there.
**`scoresSafely_iff`** says which of them do no harm: an infinite coordinate raises in the sine,
and a distance from `max_distance` on scores 0.
-/

namespace Geobench.Rewards

open Library

/-! ## Arithmetic -/

namespace PyFloat

/-- A function of finite numbers that keeps infinite ones. -/
def onFinite (f : ℚ → ℚ) : PyFloat → PyFloat
  | .finite value => .finite (f value)
  | other => other

def sub : PyFloat → PyFloat → PyFloat
  | .finite first, .finite second => .finite (first - second)
  | .infinity, .finite _ | .infinity, .negInfinity | .finite _, .negInfinity => .infinity
  | .negInfinity, .finite _ | .negInfinity, .infinity | .finite _, .infinity => .negInfinity
  | _, _ => .nan

/-- An operation on numbers that are finite or NaN. -/
def combine (f : ℚ → ℚ → ℚ) : PyFloat → PyFloat → PyFloat
  | .finite first, .finite second => .finite (f first second)
  | _, _ => .nan

def IsInfinite (value : PyFloat) : Prop := value = .infinity ∨ value = .negInfinity

end PyFloat

/-- The functions of `math` on finite numbers. Of the exponential, those that a score needs. -/
structure MathModule where
  radians : ℚ → ℚ
  sin : ℚ → ℚ
  cos : ℚ → ℚ
  sqrt : ℚ → ℚ
  asin : ℚ → ℚ
  exp : ℚ → ℚ
  sqrt_nonneg : ∀ value, 0 ≤ value → 0 ≤ sqrt value
  asin_nonneg : ∀ value, 0 ≤ value → value ≤ 1 → 0 ≤ asin value
  exp_pos : ∀ value, -10 ≤ value → 0 < exp value
  exp_le_one : ∀ value, value ≤ 0 → exp value ≤ 1

namespace MathModule

variable (math : MathModule)

/-- `math.sin` or `math.cos`, which raise on infinite numbers. -/
def periodic (f : ℚ → ℚ) : PyFloat → Option PyFloat
  | .finite value => some (.finite (f value))
  | .nan => some .nan
  | _ => none

/-- `math.sqrt` -/
def rootOf : PyFloat → Option PyFloat
  | .finite value => if value < 0 then none else some (.finite (math.sqrt value))
  | .negInfinity => none
  | other => some other

/-- `math.asin` -/
def arcOf : PyFloat → Option PyFloat
  | .finite value => if value < -1 ∨ 1 < value then none else some (.finite (math.asin value))
  | .nan => some .nan
  | _ => none

end MathModule

/-! ## The reward -/

/-- A latitude and a longitude. -/
abbrev Coordinates := PyFloat × PyFloat

/-- What is read of the result of a lookup. -/
structure PredResult where
  isSuccess : Bool
  latitude : Option PyFloat
  longitude : Option PyFloat

/-- The coordinates of a success, when both are there. -/
def PredResult.coordinates (result : PredResult) : Option Coordinates :=
  if result.isSuccess then
    match result.latitude, result.longitude with
    | some lat, some lon => some (lat, lon)
    | _, _ => none
  else none

/-- Of the two lookups of a sample, the one of the prediction and the one of the truth. -/
inductive Side where
  | prediction
  | truth
  deriving DecidableEq

/-- What the lookups of each sample give. -/
abbrev Geocoder := ℕ → Side → CodePoints → PredResult

/-- What does not change between calls. -/
structure GeoScoreReward where
  interpreter : Interpreter
  python : Conversions
  str : JsonValue → Text
  math : MathModule
  maxDistance : ℚ

namespace GeoScoreReward

variable (reward : GeoScoreReward)

/-- The distance, unless a function of `math` raises. -/
def calculateDistance (first second : Coordinates) : Option PyFloat := do
  let math := reward.math
  let lat1 := first.1.onFinite math.radians
  let lon1 := first.2.onFinite math.radians
  let lat2 := second.1.onFinite math.radians
  let lon2 := second.2.onFinite math.radians
  let dlat := lat2.sub lat1
  let dlon := lon2.sub lon1
  let sinLat ← MathModule.periodic math.sin (dlat.onFinite (· / 2))
  let cosLat1 ← MathModule.periodic math.cos lat1
  let cosLat2 ← MathModule.periodic math.cos lat2
  let sinLon ← MathModule.periodic math.sin (dlon.onFinite (· / 2))
  let a := (sinLat.onFinite (· ^ 2)).combine (· + ·)
    ((cosLat1.combine (· * ·) cosLat2).combine (· * ·) (sinLon.onFinite (· ^ 2)))
  let arc ← (math.rootOf a).bind math.arcOf
  some (arc.onFinite fun arc => 2 * arc * 6371)

/-- The score of a distance. Dividing by 0 raises, which only a distance does that is NaN. -/
def calculateGeoscore : PyFloat → Option PyFloat
  | .finite distance =>
    if reward.maxDistance ≤ distance then some (.finite 0)
    else if reward.maxDistance = 0 then none
    else some (.finite (reward.math.exp (-10 * (distance / reward.maxDistance))))
  | .infinity => some (.finite 0)
  | .negInfinity =>
    if reward.maxDistance = 0 then none
    else some (if 0 < reward.maxDistance then .infinity else .finite 0)
  | .nan => if reward.maxDistance = 0 then none else some .nan

variable (geocode : Geocoder)

/-- The true coordinates of a sample, from the columns, the solution or its address. -/
def locateTruth (kwargs : List (CodePoints × List JsonValue)) (index : ℕ) (sol : JsonValue) :
    Option Coordinates :=
  match getGtCoordinates reward.python index kwargs with
  | .error _ => none
  | .ok (some coordinates) => some coordinates
  | .ok none =>
    match getGtCoordinatesFromSolution reward.python sol with
    | .error _ => none
    | .ok (some coordinates) => some coordinates
    | .ok none =>
      (geocodedAddress reward.interpreter (reward.str sol)).bind fun gtAnswer =>
        (geocode index .truth gtAnswer).coordinates

def locatePrediction (index : ℕ) (completion : Text) : Option Coordinates :=
  (geocodedAddress reward.interpreter completion).bind fun predAnswer =>
    (geocode index .prediction predAnswer).coordinates

/-- The two places that are passed to the distance formula, if the sample comes so far. -/
def passed (kwargs : List (CodePoints × List JsonValue)) (index : ℕ) (completion : Text)
    (sol : JsonValue) : Option (Coordinates × Coordinates) :=
  (reward.locatePrediction geocode index completion).bind fun pred =>
    (reward.locateTruth geocode kwargs index sol).map fun truth => (pred, truth)

/-- The score of two places. An exception scores 0. -/
def scoreBetween (pred truth : Coordinates) : PyFloat :=
  ((reward.calculateDistance pred truth).bind reward.calculateGeoscore).getD (.finite 0)

def sampleReward (kwargs : List (CodePoints × List JsonValue)) (index : ℕ) (completion : Text)
    (sol : JsonValue) : PyFloat :=
  ((reward.passed geocode kwargs index completion sol).map fun places =>
    reward.scoreBetween places.1 places.2).getD (.finite 0)

/-- `GeoScoreAccuracy.__call__`. A single value stands for a list of it. -/
def call (completions : List Text) (solution : Option (List JsonValue))
    (kwargs : List (CodePoints × List JsonValue)) : List PyFloat :=
  ((completions.zip (solutionsOf solution completions.length)).zipIdx).map fun sample =>
    reward.sampleReward geocode kwargs sample.2 sample.1.1 sample.1.2

end GeoScoreReward

/-! ## Safe scores -/

/-- Both coordinates are finite and in their range. -/
def OnGlobe (place : Coordinates) : Prop :=
  ∃ lat lon, place = (.finite lat, .finite lon) ∧ InRange lat lon

/-- A number from 0 to 1. -/
def InUnit (score : PyFloat) : Prop := ∃ value, score = .finite value ∧ 0 ≤ value ∧ value ≤ 1

def GeocodesOnGlobe (geocode : Geocoder) : Prop :=
  ∀ index side address place, (geocode index side address).coordinates = some place → OnGlobe place

namespace GeoScoreReward

variable (reward : GeoScoreReward) (geocode : Geocoder)

/-- The places of one sample that are passed to the distance formula are on the globe or score 0,
and the score is a number from 0 to 1. -/
def SafeSample (kwargs : List (CodePoints × List JsonValue)) (index : ℕ) (completion : Text)
    (sol : JsonValue) (score : PyFloat) : Prop :=
  (∀ pred truth, reward.passed geocode kwargs index completion sol = some (pred, truth) →
    (OnGlobe pred ∧ OnGlobe truth) ∨ score = .finite 0) ∧ InUnit score

/-- All samples of a batch are scored safely. -/
def ScoresSafely (completions : List Text) (solution : Option (List JsonValue))
    (kwargs : List (CodePoints × List JsonValue)) : Prop :=
  ∀ index completion sol score,
    (completions.zip (solutionsOf solution completions.length))[index]? = some (completion, sol) →
    (reward.call geocode completions solution kwargs)[index]? = some score →
      reward.SafeSample geocode kwargs index completion sol score

/-! ## The condition -/

/-- A solution that is an object, or the text of one. -/
def SolutionHas (sol : JsonValue) (members : List (CodePoints × JsonValue)) : Prop :=
  sol = .object members ∨
    ∃ text, sol = .string text ∧ reward.python.loads text = some (.object members)

/-- The haversine of the angle between two places. -/
def haversine (first second : ℚ × ℚ) : ℚ :=
  let math := reward.math
  math.sin ((math.radians second.1 - math.radians first.1) / 2) ^ 2 +
    math.cos (math.radians first.1) * math.cos (math.radians second.1) *
      math.sin ((math.radians second.2 - math.radians first.2) / 2) ^ 2

/-- The root or the arc of the haversine is not defined, or the distance reaches the maximum. -/
def Far (first second : ℚ × ℚ) : Prop :=
  let haversine := reward.haversine first second
  haversine < 0 ∨ 1 < reward.math.sqrt haversine ∨
    reward.maxDistance ≤ 2 * reward.math.asin (reward.math.sqrt haversine) * 6371

/-- True coordinates that do no harm, with a prediction at the given place: they are on the
globe, far away or infinite, or NaN where the maximal distance is 0. -/
def Harmless (pred : ℚ × ℚ) (lat lon : PyFloat) : Prop :=
  match lat, lon with
  | .finite lat, .finite lon => InRange lat lon ∨ reward.Far pred (lat, lon)
  | .nan, .nan | .nan, .finite _ | .finite _, .nan => reward.maxDistance = 0
  | _, _ => True

def latitudeNames : List CodePoints := [codes "latitude".toList, codes "gt_latitude".toList]

def longitudeNames : List CodePoints :=
  [codes "longitude".toList, codes "gt_longitude".toList, codes "lng".toList]

/-- Where the prediction is found and the columns give nothing, the coordinates of the solution
do no harm. -/
def HarmlessSolution (kwargs : List (CodePoints × List JsonValue)) (index : ℕ)
    (completion : Text) (sol : JsonValue) : Prop :=
  ∀ answer pred, geocodedAddress reward.interpreter completion = some answer →
    (geocode index .prediction answer).coordinates = some (.finite pred.1, .finite pred.2) →
    judge (keyReading reward.python kwargs index latKeys)
        (keyReading reward.python kwargs index lonKeys) = .ok none →
    ∀ members lat lon, reward.SolutionHas sol members →
      reward.python.float (getFirst members latitudeNames) = .ok lat →
      reward.python.float (getFirst members longitudeNames) = .ok lon →
        reward.Harmless pred lat lon

/-! ## The coordinates of a solution -/

theorem toFloat_eq_some (python : Conversions) (value : JsonValue) (number : PyFloat) :
    toFloat python value = .ok (some number) ↔ python.float value = .ok number := by
  cases value with
  | null => simp [toFloat, python.float_null]
  | _ =>
    rw [toFloat]
    · cases python.float _ with
      | ok found => simp
      | error error => cases error <;> simp
    · rintro ⟨⟩

theorem objectCoordinates_eq_some (python : Conversions) (members : List (CodePoints × JsonValue))
    (lat lon : PyFloat) :
    objectCoordinates python members = .ok (some (lat, lon)) ↔
      python.float (getFirst members latitudeNames) = .ok lat ∧
        python.float (getFirst members longitudeNames) = .ok lon := by
  rw [← toFloat_eq_some, ← toFloat_eq_some, objectCoordinates, latitudeNames, longitudeNames]
  cases toFloat python (getFirst members [codes "latitude".toList, codes "gt_latitude".toList]) with
  | error error => simp [bind, Except.bind]
  | ok foundLat =>
    cases toFloat python (getFirst members
      [codes "longitude".toList, codes "gt_longitude".toList, codes "lng".toList]) with
    | error error => simp [bind, Except.bind]
    | ok foundLon => cases foundLat <;> cases foundLon <;> simp [bind, Except.bind]

/-- A solution gives what its object has under the names. -/
theorem getGtCoordinatesFromSolution_eq_some (sol : JsonValue) (lat lon : PyFloat) :
    getGtCoordinatesFromSolution reward.python sol = .ok (some (lat, lon)) ↔
      ∃ members, reward.SolutionHas sol members ∧
        reward.python.float (getFirst members latitudeNames) = .ok lat ∧
          reward.python.float (getFirst members longitudeNames) = .ok lon := by
  simp only [← objectCoordinates_eq_some, SolutionHas]
  cases sol with
  | object members => simp [getGtCoordinatesFromSolution]
  | string text =>
    rw [getGtCoordinatesFromSolution]
    cases isLoaded : reward.python.loads text with
    | none => simp [isLoaded]
    | some data =>
      cases data with
      | object members =>
        cases isFound : objectCoordinates reward.python members with
        | ok found => simp [isLoaded, isFound]
        | error error => simp [isLoaded, isFound]
      | _ => simp [isLoaded]
  | _ => simp [getGtCoordinatesFromSolution]

/-! ## The score of two places -/

theorem calculateDistance_finite (lat1 lon1 lat2 lon2 : ℚ) :
    reward.calculateDistance (.finite lat1, .finite lon1) (.finite lat2, .finite lon2) =
      ((reward.math.rootOf (.finite (reward.haversine (lat1, lon1) (lat2, lon2)))).bind
        reward.math.arcOf).map fun arc => arc.onFinite fun arc => 2 * arc * 6371 := by
  have same : reward.math.sin ((reward.math.radians lat2 - reward.math.radians lat1) / 2) ^ 2 +
      reward.math.cos (reward.math.radians lat1) * reward.math.cos (reward.math.radians lat2) *
        reward.math.sin ((reward.math.radians lon2 - reward.math.radians lon1) / 2) ^ 2 =
      reward.haversine (lat1, lon1) (lat2, lon2) := rfl
  simp only [calculateDistance, PyFloat.onFinite, PyFloat.sub, MathModule.periodic,
    PyFloat.combine, bind, Option.bind_some, same, Option.map_eq_bind]
  rfl

theorem scoreBetween_of_far {pred truth : ℚ × ℚ} (far : reward.Far pred truth) :
    reward.scoreBetween (.finite pred.1, .finite pred.2) (.finite truth.1, .finite truth.2) =
      .finite 0 := by
  rw [scoreBetween, calculateDistance_finite, MathModule.rootOf]
  rcases far with negative | outside | atLeast
  · rw [if_pos negative]
    rfl
  · split
    · rfl
    · rw [Option.bind_some, MathModule.arcOf, if_pos (.inr outside)]
      rfl
  · split
    · rfl
    · rw [Option.bind_some, MathModule.arcOf]
      split
      · rfl
      · rw [Option.map_some, PyFloat.onFinite, Option.bind_some, calculateGeoscore,
          if_pos atLeast, Option.getD_some]

theorem scoreBetween_of_not_far {pred truth : ℚ × ℚ} (near : ¬ reward.Far pred truth) :
    ∃ score, reward.scoreBetween (.finite pred.1, .finite pred.2)
      (.finite truth.1, .finite truth.2) = .finite score ∧ 0 < score ∧ score ≤ 1 := by
  unfold Far at near
  rw [scoreBetween, calculateDistance_finite, MathModule.rootOf]
  generalize reward.haversine (pred.1, pred.2) (truth.1, truth.2) = square at near ⊢
  dsimp only at near
  push Not at near
  obtain ⟨nonneg, atMost, below⟩ := near
  have root := reward.math.sqrt_nonneg square nonneg
  have arc := reward.math.asin_nonneg _ root atMost
  have distance_nonneg : 0 ≤ 2 * reward.math.asin (reward.math.sqrt square) * 6371 := by linarith
  rw [if_neg (not_lt.mpr nonneg), Option.bind_some, MathModule.arcOf,
    if_neg (by push Not; exact ⟨by linarith, atMost⟩), Option.map_some, PyFloat.onFinite,
    Option.bind_some, calculateGeoscore]
  generalize 2 * reward.math.asin (reward.math.sqrt square) * 6371 = distance
    at below distance_nonneg ⊢
  have positive : 0 < reward.maxDistance := lt_of_le_of_lt distance_nonneg below
  have ratio_nonneg : 0 ≤ distance / reward.maxDistance := div_nonneg distance_nonneg positive.le
  have ratio_le : distance / reward.maxDistance ≤ 1 := (div_le_one positive).mpr below.le
  rw [if_neg (not_le.mpr below), if_neg positive.ne', Option.getD_some]
  exact ⟨_, rfl, reward.math.exp_pos _ (by linarith), reward.math.exp_le_one _ (by linarith)⟩

variable {lat lon : PyFloat}

variable (pred : ℚ × ℚ)

/-- The sine of an infinite number raises. -/
theorem scoreBetween_of_infinite (infinite : lat.IsInfinite ∨ lon.IsInfinite) :
    reward.scoreBetween (.finite pred.1, .finite pred.2) (lat, lon) = .finite 0 := by
  have raises : reward.calculateDistance (.finite pred.1, .finite pred.2) (lat, lon) = none := by
    rcases infinite with (rfl | rfl) | (rfl | rfl)
    · rfl
    · rfl
    · cases lat <;> rfl
    · cases lat <;> rfl
  rw [scoreBetween, raises, Option.bind_none, Option.getD_none]

/-- NaN goes through all functions, as long as there is nothing infinite. -/
theorem scoreBetween_of_nan (isNan : lat = .nan ∨ lon = .nan)
    (noneInfinite : ¬ (lat.IsInfinite ∨ lon.IsInfinite)) :
    reward.scoreBetween (.finite pred.1, .finite pred.2) (lat, lon) =
      if reward.maxDistance = 0 then .finite 0 else .nan := by
  have distance : reward.calculateDistance (.finite pred.1, .finite pred.2) (lat, lon) =
      some .nan := by
    cases lat <;> cases lon <;> simp_all [PyFloat.IsInfinite] <;> rfl
  rw [scoreBetween, distance, Option.bind_some, calculateGeoscore]
  split <;> rfl

/-! ## Safe samples -/

omit reward in
theorem inUnit_zero : InUnit (.finite 0) := ⟨0, rfl, le_refl 0, by norm_num⟩

omit reward in
theorem onGlobe_finite_iff (lat lon : ℚ) : OnGlobe (.finite lat, .finite lon) ↔ InRange lat lon := by
  constructor
  · rintro ⟨_, _, same, inside⟩
    cases same
    exact inside
  · exact fun inside => ⟨lat, lon, rfl, inside⟩

theorem harmless_of_infinite (infinite : lat.IsInfinite ∨ lon.IsInfinite) :
    reward.Harmless pred lat lon := by
  rcases infinite with (rfl | rfl) | (rfl | rfl)
  · trivial
  · trivial
  · cases lat <;> trivial
  · cases lat <;> trivial

theorem harmless_of_nan_iff (isNan : lat = .nan ∨ lon = .nan)
    (noneInfinite : ¬ (lat.IsInfinite ∨ lon.IsInfinite)) :
    reward.Harmless pred lat lon ↔ reward.maxDistance = 0 := by
  cases lat <;> cases lon <;> simp_all [PyFloat.IsInfinite, Harmless]

/-- The score of a true place is safe exactly when the place does no harm. -/
theorem safe_iff_harmless (lat lon : PyFloat) :
    (OnGlobe (lat, lon) ∨
        reward.scoreBetween (.finite pred.1, .finite pred.2) (lat, lon) = .finite 0) ∧
      InUnit (reward.scoreBetween (.finite pred.1, .finite pred.2) (lat, lon)) ↔
      reward.Harmless pred lat lon := by
  by_cases infinite : lat.IsInfinite ∨ lon.IsInfinite
  · rw [reward.scoreBetween_of_infinite pred infinite]
    exact iff_of_true ⟨.inr rfl, inUnit_zero⟩ (reward.harmless_of_infinite pred infinite)
  by_cases isNan : lat = .nan ∨ lon = .nan
  · rw [reward.scoreBetween_of_nan pred isNan infinite,
      reward.harmless_of_nan_iff pred isNan infinite]
    split
    case isTrue isZero => exact iff_of_true ⟨.inr rfl, inUnit_zero⟩ isZero
    case isFalse notZero =>
      refine iff_of_false ?_ notZero
      rintro ⟨-, _, isFinite, -⟩
      cases isFinite
  cases lat with
  | finite lat =>
    cases lon with
    | finite lon =>
      rw [onGlobe_finite_iff]
      by_cases far : reward.Far pred (lat, lon)
      · rw [reward.scoreBetween_of_far far]
        exact iff_of_true ⟨.inr rfl, inUnit_zero⟩ (.inr far)
      · obtain ⟨score, isScore, positive, atMost⟩ := reward.scoreBetween_of_not_far far
        rw [isScore]
        constructor
        · rintro ⟨inside | isZero, -⟩
          · exact .inl inside
          · exact absurd (PyFloat.finite.inj isZero) positive.ne'
        · rintro (inside | isFar)
          · exact ⟨.inl inside, score, rfl, positive.le, atMost⟩
          · exact absurd isFar far
    | nan => exact absurd (.inr rfl) isNan
    | infinity => exact absurd (.inr (.inl rfl)) infinite
    | negInfinity => exact absurd (.inr (.inr rfl)) infinite
  | nan => exact absurd (.inl rfl) isNan
  | infinity => exact absurd (.inl (.inl rfl)) infinite
  | negInfinity => exact absurd (.inl (.inr rfl)) infinite

/-- Where the prediction is not found, nothing is asked of the solution. -/
theorem harmlessSolution_of_not_located {kwargs : List (CodePoints × List JsonValue)} {index : ℕ}
    {completion : Text} (notLocated : reward.locatePrediction geocode index completion = none)
    (sol : JsonValue) : reward.HarmlessSolution geocode kwargs index completion sol := by
  intro answer pred isAnswer isPlace
  rw [locatePrediction, isAnswer, Option.bind_some, isPlace] at notLocated
  cases notLocated

theorem harmlessSolution_iff_of_located {kwargs : List (CodePoints × List JsonValue)} {index : ℕ}
    {completion : Text}
    (located : reward.locatePrediction geocode index completion =
      some (.finite pred.1, .finite pred.2)) (sol : JsonValue) :
    reward.HarmlessSolution geocode kwargs index completion sol ↔
      (getGtCoordinates reward.python index kwargs = .ok none →
        ∀ lat lon, getGtCoordinatesFromSolution reward.python sol = .ok (some (lat, lon)) →
          reward.Harmless pred lat lon) := by
  obtain ⟨answer, isAnswer, isPlace⟩ := Option.bind_eq_some_iff.mp located
  rw [getGtCoordinates_eq_judge]
  constructor
  · intro harmless unsettled lat lon isTruth
    obtain ⟨members, has, isLat, isLon⟩ :=
      (reward.getGtCoordinatesFromSolution_eq_some sol lat lon).mp isTruth
    exact harmless answer pred isAnswer isPlace unsettled members lat lon has isLat isLon
  · intro harmless other place isOther isAlso unsettled members lat lon has isLat isLon
    have same : place = pred := by
      rw [isAnswer] at isOther
      cases isOther
      have samePlace := Option.some.inj (isAlso.symm.trans isPlace)
      exact Prod.ext (PyFloat.finite.inj (congrArg Prod.fst samePlace))
        (PyFloat.finite.inj (congrArg Prod.snd samePlace))
    subst same
    exact harmless unsettled lat lon
      ((reward.getGtCoordinatesFromSolution_eq_some sol lat lon).mpr ⟨members, has, isLat, isLon⟩)

omit reward in
theorem onGlobe_of_columns {python : Conversions} {kwargs : List (CodePoints × List JsonValue)}
    {index : ℕ} {place : Coordinates}
    (isPlace : getGtCoordinates python index kwargs = .ok (some place)) : OnGlobe place := by
  rw [getGtCoordinates_eq_judge] at isPlace
  generalize keyReading python kwargs index latKeys = lat at isPlace
  generalize keyReading python kwargs index lonKeys = lon at isPlace
  cases lat <;> cases lon <;> simp only [judge, reduceCtorEq, Except.ok.injEq] at isPlace
  split at isPlace
  case isTrue inside =>
    cases isPlace
    exact ⟨_, _, rfl, inside⟩
  case isFalse => cases isPlace

/-- A sample that is scored between its prediction and a true place. -/
theorem sampleReward_of_passed {kwargs : List (CodePoints × List JsonValue)} {index : ℕ}
    {completion : Text} {sol : JsonValue} {pred truth : Coordinates}
    (isPassed : reward.passed geocode kwargs index completion sol = some (pred, truth)) :
    reward.sampleReward geocode kwargs index completion sol = reward.scoreBetween pred truth := by
  rw [sampleReward, isPassed]
  rfl

theorem sampleReward_of_not_passed {kwargs : List (CodePoints × List JsonValue)} {index : ℕ}
    {completion : Text} {sol : JsonValue}
    (notPassed : reward.passed geocode kwargs index completion sol = none) :
    reward.sampleReward geocode kwargs index completion sol = .finite 0 := by
  rw [sampleReward, notPassed]
  rfl

theorem safeSample_of_not_passed {kwargs : List (CodePoints × List JsonValue)} {index : ℕ}
    {completion : Text} {sol : JsonValue}
    (notPassed : reward.passed geocode kwargs index completion sol = none) :
    reward.SafeSample geocode kwargs index completion sol
      (reward.sampleReward geocode kwargs index completion sol) := by
  rw [reward.sampleReward_of_not_passed geocode notPassed]
  exact ⟨fun _ _ _ => .inr rfl, inUnit_zero⟩

theorem safeSample_iff_harmless {kwargs : List (CodePoints × List JsonValue)} {index : ℕ}
    {completion : Text} {sol : JsonValue} (predOnGlobe : OnGlobe (.finite pred.1, .finite pred.2))
    (isPassed : reward.passed geocode kwargs index completion sol =
      some ((.finite pred.1, .finite pred.2), lat, lon)) :
    reward.SafeSample geocode kwargs index completion sol
        (reward.sampleReward geocode kwargs index completion sol) ↔
      reward.Harmless pred lat lon := by
  rw [← reward.safe_iff_harmless, reward.sampleReward_of_passed geocode isPassed, SafeSample,
    isPassed]
  refine and_congr_left fun _ => ⟨fun safe => ?_, fun safe => ?_⟩
  · exact (safe _ _ rfl).imp_left And.right
  · rintro _ _ ⟨⟩
    exact safe.imp_left fun onGlobe => ⟨predOnGlobe, onGlobe⟩

/-- The coordinates come from the solution. -/
def FromSolution (kwargs : List (CodePoints × List JsonValue)) (index : ℕ) (sol : JsonValue)
    (lat lon : PyFloat) : Prop :=
  getGtCoordinates reward.python index kwargs = .ok none ∧
    getGtCoordinatesFromSolution reward.python sol = .ok (some (lat, lon))

theorem locateTruth_of_fromSolution {kwargs : List (CodePoints × List JsonValue)} {index : ℕ}
    {sol : JsonValue} (fromSolution : reward.FromSolution kwargs index sol lat lon) :
    reward.locateTruth geocode kwargs index sol = some (lat, lon) := by
  rw [locateTruth, fromSolution.1]
  dsimp only
  rw [fromSolution.2]

variable {geocode} in
/-- Coordinates from elsewhere than the solution are on the globe. -/
theorem onGlobe_of_locateTruth (onGlobe : GeocodesOnGlobe geocode)
    {kwargs : List (CodePoints × List JsonValue)} {index : ℕ} {sol : JsonValue}
    (notSolution : ∀ lat lon, ¬ reward.FromSolution kwargs index sol lat lon)
    {truth : Coordinates}
    (isTruth : reward.locateTruth geocode kwargs index sol = some truth) : OnGlobe truth := by
  rw [locateTruth] at isTruth
  split at isTruth
  · cases isTruth
  · rename_i place columns
    cases isTruth
    exact onGlobe_of_columns columns
  · rename_i columns
    split at isTruth
    · cases isTruth
    · rename_i place solution
      exact absurd ⟨columns, solution⟩ (notSolution place.1 place.2)
    · obtain ⟨gtAnswer, -, isPlace⟩ := Option.bind_eq_some_iff.mp isTruth
      exact onGlobe _ _ _ _ isPlace

variable {geocode} in
/-- A sample is safe exactly when its solution does no harm. -/
theorem safeSample_iff (onGlobe : GeocodesOnGlobe geocode)
    (kwargs : List (CodePoints × List JsonValue)) (index : ℕ) (completion : Text)
    (sol : JsonValue) :
    reward.SafeSample geocode kwargs index completion sol
        (reward.sampleReward geocode kwargs index completion sol) ↔
      reward.HarmlessSolution geocode kwargs index completion sol := by
  cases located : reward.locatePrediction geocode index completion with
  | none =>
    have notPassed : reward.passed geocode kwargs index completion sol = none := by
      rw [passed, located, Option.bind_none]
    exact iff_of_true (reward.safeSample_of_not_passed geocode notPassed)
      (reward.harmlessSolution_of_not_located geocode located sol)
  | some pred =>
    have predOnGlobe : OnGlobe pred := by
      obtain ⟨_, -, isPlace⟩ := Option.bind_eq_some_iff.mp located
      exact onGlobe _ _ _ _ isPlace
    obtain ⟨predLat, predLon, rfl, -⟩ := id predOnGlobe
    have passed_eq : reward.passed geocode kwargs index completion sol =
        (reward.locateTruth geocode kwargs index sol).map
          fun truth => ((.finite predLat, .finite predLon), truth) := by
      rw [passed, located, Option.bind_some]
    rw [reward.harmlessSolution_iff_of_located geocode (predLat, predLon) located]
    by_cases fromSolution : ∃ lat lon, reward.FromSolution kwargs index sol lat lon
    · obtain ⟨lat, lon, fromSolution⟩ := fromSolution
      rw [reward.locateTruth_of_fromSolution geocode fromSolution, Option.map_some] at passed_eq
      rw [reward.safeSample_iff_harmless geocode (predLat, predLon) predOnGlobe passed_eq]
      obtain ⟨columns, solution⟩ := fromSolution
      constructor
      · intro harmless _ lat' lon' isTruth
        rw [solution] at isTruth
        cases isTruth
        exact harmless
      · exact fun harmless => harmless columns lat lon solution
    · push Not at fromSolution
      refine iff_of_true ?_ fun columns lat lon solution =>
        absurd ⟨columns, solution⟩ (fromSolution lat lon)
      cases isTruth : reward.locateTruth geocode kwargs index sol with
      | none =>
        rw [isTruth, Option.map_none] at passed_eq
        exact reward.safeSample_of_not_passed geocode passed_eq
      | some truth =>
        have truthOnGlobe := reward.onGlobe_of_locateTruth onGlobe fromSolution isTruth
        obtain ⟨lat, lon, rfl, inside⟩ := truthOnGlobe
        rw [isTruth, Option.map_some] at passed_eq
        exact (reward.safeSample_iff_harmless geocode (predLat, predLon) predOnGlobe
          passed_eq).mpr (.inl inside)

theorem call_getElem? (completions : List Text) (solution : Option (List JsonValue))
    (kwargs : List (CodePoints × List JsonValue)) (index : ℕ) :
    (reward.call geocode completions solution kwargs)[index]? =
      ((completions.zip (solutionsOf solution completions.length))[index]?).map fun sample =>
        reward.sampleReward geocode kwargs index sample.1 sample.2 := by
  rw [call, List.getElem?_map, List.getElem?_zipIdx, Option.map_map, Nat.zero_add]
  rfl

variable {geocode} in
/-- **A batch is scored safely exactly when no solution does harm**: where a prediction is found
and the columns give nothing, the coordinates of the solution are on the globe, far away or
infinite, or NaN where the maximal distance is 0. -/
theorem scoresSafely_iff (onGlobe : GeocodesOnGlobe geocode) (completions : List Text)
    (solution : Option (List JsonValue)) (kwargs : List (CodePoints × List JsonValue)) :
    reward.ScoresSafely geocode completions solution kwargs ↔
      ∀ index completion sol,
        (completions.zip (solutionsOf solution completions.length))[index]? =
            some (completion, sol) →
          reward.HarmlessSolution geocode kwargs index completion sol := by
  refine forall_congr' fun index => forall_congr' fun completion => forall_congr' fun sol => ?_
  rw [call_getElem?]
  constructor
  · intro safe isSample
    refine (reward.safeSample_iff onGlobe kwargs index completion sol).mp (safe _ isSample ?_)
    rw [isSample, Option.map_some]
  · intro harmless score isSample isScore
    rw [isSample, Option.map_some] at isScore
    cases isScore
    exact (reward.safeSample_iff onGlobe kwargs index completion sol).mpr (harmless isSample)

end GeoScoreReward

/-! ## A solution without a latitude -/

/-- Whole numbers as they are written, and NaN as a text. -/
def numbersAndNan : Conversions where
  float value :=
    match value with
    | .string text => if text = codes "nan".toList then .ok .nan else .error .valueError
    | value => wholeNumbers.float value
  float_null := rfl
  loads _ := none

/-- The functions at 0, or at 1 for the root and the arc. -/
def nearZero : MathModule where
  radians := id
  sin := id
  cos _ := 1
  sqrt := id
  asin := id
  exp _ := 1
  sqrt_nonneg _ nonneg := nonneg
  asin_nonneg _ nonneg _ := nonneg
  exp_pos _ _ := one_pos
  exp_le_one _ _ := le_refl 1

def originReward : GeoScoreReward where
  interpreter := plainPython
  python := numbersAndNan
  str value :=
    match value with
    | .string text => text.map Char.ofNat
    | _ => "None".toList
  math := nearZero
  maxDistance := 2000

/-- Every address is where the equator meets the meridian. -/
def originGeocoder : Geocoder := fun _ _ _ => ⟨true, some (.finite 0), some (.finite 0)⟩

def answered : Text := "<answer>A</answer>".toList

def solutionAt (latitude : JsonValue) : JsonValue :=
  .object [(codes "latitude".toList, latitude), (codes "longitude".toList, .number "0".toList)]

theorem geocodesOnGlobe_origin : GeocodesOnGlobe originGeocoder := by
  rintro _ _ _ _ ⟨⟩
  exact ⟨0, 0, rfl, by decide⟩

theorem geocodedAddress_answered : geocodedAddress plainPython answered = some [65] := by
  decide +kernel

theorem scoresSafely_origin :
    originReward.ScoresSafely originGeocoder [answered] (some [solutionAt (.number "0".toList)])
      [] := by
  refine (originReward.scoresSafely_iff geocodesOnGlobe_origin _ _ _).mpr ?_
  intro index completion sol isSample
  cases index with
  | succ index => cases isSample
  | zero =>
    cases isSample
    rintro answer pred - - - members lat lon (isObject | ⟨text, isText, -⟩) isLat isLon
    · cases isObject
      cases isLat
      cases isLon
      exact .inl (by decide)
    · cases isText

/-- **A latitude that is NaN gives a score that is NaN.** -/
theorem not_scoresSafely_nan :
    ¬ ∀ (reward : GeoScoreReward) (geocode : Geocoder), GeocodesOnGlobe geocode →
      ∀ completions solution kwargs,
        reward.ScoresSafely geocode completions solution kwargs := by
  intro always
  have safe := always originReward originGeocoder geocodesOnGlobe_origin [answered]
    (some [solutionAt (.string (codes "nan".toList))]) []
  have isNan : originReward.sampleReward originGeocoder [] 0 answered
      (solutionAt (.string (codes "nan".toList))) = .nan := by
    have isAnswer : geocodedAddress originReward.interpreter answered = some [65] :=
      geocodedAddress_answered
    rw [GeoScoreReward.sampleReward, GeoScoreReward.passed, GeoScoreReward.locatePrediction,
      isAnswer]
    rfl
  have safeNan := safe 0 answered (solutionAt (.string (codes "nan".toList))) .nan rfl
    (by rw [GeoScoreReward.call_getElem?, ← isNan]; rfl)
  obtain ⟨-, value, isFinite, -⟩ := safeNan
  cases isFinite

end Geobench.Rewards
