import Geobench.Library.Regex
import Geobench.Rewards.GeoFormat
import Geobench.Rewards.TruthCoordinates

/-!
# Coordinates in the output of a model

`extractLatlon` looks for coordinates in a JSON object of the answer block, in one of the whole
output, in named fields, in pairs of numbers of three forms, and in the first two numbers at all.
Fields and bare numbers are only taken when they are on the globe. Those of an object or of a pair
are taken as they are.

**`extractsOnGlobe_iff`** says when all that is extracted is on the globe.
-/

namespace Geobench.DataClean

open Library Rewards

/-! ## Parts of the output -/

/-- The interpreter: how JSON is decoded, how values become numbers, and which characters are
digits. -/
structure OutputReader where
  interpreter : Interpreter
  conversions : Conversions
  isDigit : Char → Bool

inductive ExtractError where
  | decoding (error : RewardError)
  | overflowError
  deriving DecidableEq

def anyChar (_ : Char) : Bool := true

/-- `<answer>\s*(.*?)\s*</answer>` -/
def answerRegex : Regex :=
  .sequence [.caseless "<answer>".toList, .star isBlank, .group (.lazy anyChar), .star isBlank,
    .caseless "</answer>".toList]

def extractAnswerBlock (rawOutput : Text) : Option Text :=
  (answerRegex.search rawOutput).bind fun groups =>
    groups.head?.map (strip isBlank)

/-- `(\{.*?\})` -/
def bracesRegex : Regex := .group (.sequence [.word ['{'], .lazy anyChar, .word ['}']])

/-- `(?:json)?\s*(\{.*?\})\s*` between two fences of three backticks -/
def fencedRegex : Regex :=
  let fence : Text := List.replicate 3 (Char.ofNat 96)
  .sequence [.word fence, .opt (.word "json".toList), .star isBlank, bracesRegex, .star isBlank,
    .word fence]

variable (python : OutputReader)

/-- The first candidate that is a JSON object. -/
def extractJsonBlock (rawText : Text) : Except ExtractError (Option JsonValue) :=
  let candidates := (fencedRegex.search rawText).getD [] ++ (bracesRegex.findall rawText).flatten
  match firstObject python.interpreter candidates with
  | .ok found => .ok found
  | .error error => .error (.decoding error)

/-! ## Numbers -/

/-- `maybe_float` -/
def maybeFloat (value : JsonValue) : Except ExtractError (Option PyFloat) :=
  match value with
  | .null => .ok none
  | .string [] => .ok none
  | value =>
    match python.conversions.float value with
    | .ok number => .ok (some number)
    | .error .overflowError => .error .overflowError
    | .error _ => .ok none

/-- `maybe_float` of a text with digits, for which no overflow is raised. -/
def maybeFloatText (text : Text) : Option PyFloat :=
  match python.conversions.float (.string (codes text)) with
  | .ok number => some number
  | .error _ => none

/-- `-?\d+(?:\.\d+)?` -/
def numberRegex : Regex :=
  .sequence [.opt (.word ['-']), .plus python.isDigit,
    .opt (.seq (.word ['.']) (.plus python.isDigit))]

def isQuote (char : Char) : Bool := char = '"' || char = '\''

def isAssign (char : Char) : Bool := char = ':' || char = '='

/-- `\s*[:=]\s*` -/
def assignRegex : Regex := .sequence [.star isBlank, .one isAssign, .star isBlank]

def fieldRegex (fieldName : Text) : Regex :=
  .sequence [.opt (.one isQuote), .caseless fieldName, .opt (.one isQuote), assignRegex,
    .group (numberRegex python)]

def extractNumericField (rawText : Text) (fieldNames : List Text) : Option PyFloat :=
  fieldNames.findSome? fun fieldName =>
    ((fieldRegex python fieldName).search rawText).bind fun groups =>
      groups.head?.bind (maybeFloatText python)

def latitudeNames : List Text := ["latitude".toList, "lat".toList]

def longitudeNames : List Text := ["longitude".toList, "lon".toList, "lng".toList]

/-- Two named numbers with something without digits between them. -/
def namedPairRegex (latitude : Text) (longitude : Regex) : Regex :=
  .sequence [.caseless latitude, assignRegex, .group (numberRegex python),
    .plus fun char => !python.isDigit char, longitude, assignRegex, .group (numberRegex python)]

def pairPatterns : List Regex :=
  [namedPairRegex python "latitude".toList (.caseless "longitude".toList),
    namedPairRegex python "lat".toList
      (.seq (.caseless "lon".toList) (.opt (.caseless "gitude".toList))),
    .sequence [.word ['('], .star isBlank, .group (numberRegex python), .star isBlank,
      .word [','], .star isBlank, .group (numberRegex python), .star isBlank, .word [')']]]

/-! ## Coordinates -/

/-- A latitude and a longitude, each of which may be missing. -/
abbrev LatLon := Option PyFloat × Option PyFloat

def objectLatLon : JsonValue → Except ExtractError LatLon
  | .object members => do
      let lat ← maybeFloat python
        (getFirst members [codes "latitude".toList, codes "lat".toList])
      let lon ← maybeFloat python
        (getFirst members [codes "longitude".toList, codes "lon".toList, codes "lng".toList])
      .ok (lat, lon)
  | _ => .ok (none, none)

/-- The first of some objects with both coordinates. -/
def firstLatLon : List (Option JsonValue) → Except ExtractError (Option (PyFloat × PyFloat))
  | [] => .ok none
  | source :: sources => do
      match ← objectLatLon python (source.getD .null) with
      | (some lat, some lon) => .ok (some (lat, lon))
      | _ => firstLatLon sources

/-- The objects of the answer block and of the whole output. -/
def jsonSources (rawOutput : Text) : Except ExtractError (List (Option JsonValue)) := do
  let jsonBlock ← extractJsonBlock python rawOutput
  let answerJson ← extractJsonBlock python ((extractAnswerBlock rawOutput).getD [])
  .ok [answerJson, jsonBlock]

/-- The answer block, or the whole output where there is nothing in it. -/
def outputText (rawOutput : Text) : Text :=
  match extractAnswerBlock rawOutput with
  | some (char :: block) => char :: block
  | _ => rawOutput

/-- The numbers in the named fields. -/
def fieldLatLon (text : Text) : LatLon :=
  (extractNumericField python text latitudeNames, extractNumericField python text longitudeNames)

/-- The numbers of the first form of pair that matches. -/
def pairLatLon (text : Text) : Option LatLon :=
  ((pairPatterns python).findSome? fun pattern => pattern.search text).map fun groups =>
    (groups[0]?.bind (maybeFloatText python), groups[1]?.bind (maybeFloatText python))

/-- The first two numbers. -/
def bareLatLon (text : Text) : LatLon :=
  let numeric := ((Regex.group (numberRegex python)).findall text).flatten
  if 2 ≤ numeric.length then
    (numeric[0]?.bind (maybeFloatText python), numeric[1]?.bind (maybeFloatText python))
  else (none, none)

/-- Coordinates that are only taken when they are on the globe. -/
def checked (pair : LatLon) : Option LatLon :=
  (onGlobe pair.1 pair.2).map fun found => (some found.1, some found.2)

/-- What the text gives where no object has both coordinates. -/
def textLatLon (text : Text) : LatLon :=
  match checked (fieldLatLon python text) with
  | some pair => pair
  | none =>
    match pairLatLon python text with
    | some pair => pair
    | none => (checked (bareLatLon python text)).getD (none, none)

/-- `extract_latlon` -/
def extractLatlon (rawOutput : Text) : Except ExtractError LatLon := do
  let sources ← jsonSources python rawOutput
  let found ← firstLatLon python sources
  match found with
  | some (lat, lon) => .ok (some lat, some lon)
  | none => .ok (textLatLon python (outputText rawOutput))

/-! ## Coordinates on the globe -/

/-- Finite numbers, with the latitude in [-90, 90] and the longitude in [-180, 180]. -/
def InBounds (pair : LatLon) : Prop :=
  ∃ lat lon : ℚ, pair = (some (.finite lat), some (.finite lon)) ∧
    (-90 ≤ lat ∧ lat ≤ 90) ∧ -180 ≤ lon ∧ lon ≤ 180

def Usable (pair : LatLon) : Prop := pair = (none, none) ∨ InBounds pair

theorem between_eq_true_iff {low high : ℚ} {number : PyFloat} :
    number.between low high = true ↔
      ∃ value : ℚ, number = .finite value ∧ low ≤ value ∧ value ≤ high := by
  cases number with
  | finite value => simp [PyFloat.between]
  | infinity => simp [PyFloat.between]
  | negInfinity => simp [PyFloat.between]
  | nan => simp [PyFloat.between]

variable {pair : LatLon}

/-- The check lets through what is on the globe, as it is. -/
theorem checked_eq_some_iff {found : LatLon} :
    checked pair = some found ↔ found = pair ∧ InBounds pair := by
  obtain ⟨lat, lon⟩ := pair
  constructor
  · intro isFound
    obtain ⟨both, isBoth, rfl⟩ := Option.map_eq_some_iff.mp isFound
    cases lat with
    | none => cases isBoth
    | some lat =>
      cases lon with
      | none => cases isBoth
      | some lon =>
        rw [onGlobe] at isBoth
        split at isBoth
        · rename_i inside
          cases isBoth
          rw [Bool.and_eq_true, between_eq_true_iff, between_eq_true_iff] at inside
          obtain ⟨⟨latValue, rfl, latIn⟩, lonValue, rfl, lonIn⟩ := inside
          exact ⟨rfl, latValue, lonValue, rfl, latIn, lonIn⟩
        · cases isBoth
  · rintro ⟨rfl, latValue, lonValue, same, latIn, lonIn⟩
    cases same
    have inside : (PyFloat.finite latValue).between (-90) 90 &&
        (PyFloat.finite lonValue).between (-180) 180 := by
      rw [Bool.and_eq_true, between_eq_true_iff, between_eq_true_iff]
      exact ⟨⟨latValue, rfl, latIn⟩, lonValue, rfl, lonIn⟩
    rw [checked, onGlobe, if_pos inside]
    rfl

theorem checked_eq_none (isNone : checked pair = none) : ¬ InBounds pair := by
  intro inside
  rw [checked_eq_some_iff.mpr ⟨rfl, inside⟩] at isNone
  cases isNone

/-- All that is taken unchecked is on the globe: the coordinates of the first object with both,
and, where there is none and the fields are not on the globe either, the numbers of the first form
of pair that matches. Nothing raises. -/
def Guarded (rawOutput : Text) : Prop :=
  ∃ sources found, jsonSources python rawOutput = .ok sources ∧
    firstLatLon python sources = .ok found ∧
    (∀ pair, found = some pair → InBounds (some pair.1, some pair.2)) ∧
    (found = none → InBounds (fieldLatLon python (outputText rawOutput)) ∨
      ∀ pair, pairLatLon python (outputText rawOutput) = some pair → Usable pair)

theorem usable_textLatLon_iff (text : Text) :
    Usable (textLatLon python text) ↔ InBounds (fieldLatLon python text) ∨
      ∀ pair, pairLatLon python text = some pair → Usable pair := by
  rw [textLatLon]
  cases fields : checked (fieldLatLon python text) with
  | some pair =>
    obtain ⟨rfl, inside⟩ := checked_eq_some_iff.mp fields
    exact iff_of_true (.inr inside) (.inl inside)
  | none =>
    dsimp only
    rw [or_iff_right (checked_eq_none fields)]
    cases isPair : pairLatLon python text with
    | some pair => simp
    | none =>
      refine iff_of_true ?_ fun pair isSome => by cases isSome
      cases bare : checked (bareLatLon python text) with
      | none => exact .inl rfl
      | some pair =>
        obtain ⟨rfl, inside⟩ := checked_eq_some_iff.mp bare
        exact .inr inside

/-- Where nothing raises, the coordinates of an object are extracted, or those of the text. -/
theorem extractLatlon_eq_ok_iff {rawOutput : Text} :
    extractLatlon python rawOutput = .ok pair ↔ ∃ sources found,
      jsonSources python rawOutput = .ok sources ∧ firstLatLon python sources = .ok found ∧
        pair = found.elim (textLatLon python (outputText rawOutput))
          fun both => (some both.1, some both.2) := by
  rw [extractLatlon]
  constructor
  · intro isOk
    obtain ⟨sources, areSources, isOk⟩ := bind_eq_ok.mp isOk
    obtain ⟨found, isFound, isOk⟩ := bind_eq_ok.mp isOk
    refine ⟨sources, found, areSources, isFound, ?_⟩
    cases found with
    | none => exact (Except.ok.inj isOk).symm
    | some both => exact (Except.ok.inj isOk).symm
  · rintro ⟨sources, found, areSources, isFound, rfl⟩
    refine bind_eq_ok.mpr ⟨sources, areSources, bind_eq_ok.mpr ⟨found, isFound, ?_⟩⟩
    cases found with
    | none => rfl
    | some both => rfl

/-- **What is extracted is on the globe, or nothing is**, exactly when what is taken unchecked is. -/
theorem extractsOnGlobe_iff (rawOutput : Text) :
    (∃ pair, extractLatlon python rawOutput = .ok pair ∧ Usable pair) ↔
      Guarded python rawOutput := by
  constructor
  · rintro ⟨pair, isOk, usable⟩
    obtain ⟨sources, found, areSources, isFound, rfl⟩ := (extractLatlon_eq_ok_iff python).mp isOk
    refine ⟨sources, found, areSources, isFound, fun both isBoth => ?_, fun isNone => ?_⟩
    · subst isBoth
      exact usable.resolve_left fun none => by cases none
    · subst isNone
      exact (usable_textLatLon_iff python _).mp usable
  · rintro ⟨sources, found, areSources, isFound, inside, otherwise⟩
    refine ⟨_, (extractLatlon_eq_ok_iff python).mpr ⟨sources, found, areSources, isFound, rfl⟩, ?_⟩
    cases found with
    | none => exact (usable_textLatLon_iff python _).mpr (otherwise rfl)
    | some both => exact .inr (inside both rfl)

/-- An output with an object whose latitude is too large. -/
def farNorth : Text := "\x7b\"latitude\": 200, \"longitude\": 0\x7d".toList

def plainReader : OutputReader := ⟨plainPython, wholeNumbers, Char.isDigit⟩

/-- **An object with a latitude of 200 is taken as it is.** -/
theorem not_usable_farNorth :
    ¬ ∃ pair, extractLatlon plainReader farNorth = .ok pair ∧ Usable pair := by
  have taken : extractLatlon plainReader farNorth =
      .ok (some (.finite 200), some (.finite 0)) := by decide +kernel
  rintro ⟨pair, isOk, usable⟩
  rw [taken] at isOk
  cases isOk
  obtain ⟨lat, lon, same, latIn, _⟩ := usable.resolve_left fun none => by cases none
  cases same
  exact absurd latIn.2 (by norm_num)

end Geobench.DataClean
