import Geobench.Library.ListSlices
import Geobench.Library.Records
import Geobench.Library.Scan
import Geobench.Template.ContextList

/-!
# The scale of the loss along a response

`calculateLossScale` cuts a response into segments with weights. A map with delimiters (two
weights) cuts it at them: a delimiter has its first weight, the text up to the next one its second.
Otherwise the regular expressions of the map (one weight) cut it, and each piece is matched again,
on its own, to find the pattern it is from.

**`scales_iff`**: the weights are those of the leftmost scan exactly where each piece, cut out of
the response, is matched by a pattern of its weight. A pattern with `^` looks around it: it matches
at the start of every piece.
-/

set_option autoImplicit false
set_option linter.unusedSectionVars false

namespace Geobench.Loss

open Library List
open Template (pairsOf splitAtDelimiters)

variable {K : Type}

/-! ## The source -/

/-- `response_loss_scale_map`. If it has an entry for the text after no delimiter, this has one or
two weights, as the loop asserts. -/
structure LossScaleMap (K : Type) extends Record Text (List K) where
  emptyKey : ∀ weights, toRecord.get? [] = some weights → weights.length = 1 ∨ weights.length = 2

/-- The keys with a number of weights. -/
def LossScaleMap.keysWith (map : LossScaleMap K) (count : ℕ) : List Text :=
  (map.fields.filter (·.2.length = count)).map Prod.fst

def LossScaleMap.delimiters (map : LossScaleMap K) : List Text := map.keysWith 2

def LossScaleMap.regexDelimiters (map : LossScaleMap K) : List Text := map.keysWith 1

/-- The patterns of delimiters, each under its own text. The source writes a delimiter that is no
regular expression with `re.escape`. -/
def matchersOf (compile : Text → Matcher) (regexMode : Bool) (delimiters : List Text) :
    List (Text × Matcher) :=
  delimiters.map fun delimiter =>
    (delimiter, if regexMode then compile delimiter else Matcher.literal delimiter)

/-- `_split_str_by_regex` -/
def splitStrByRegex (matchers : List (Text × Matcher)) (text : Text) : List Text :=
  match (scan matchers text).texts with
  | [] :: rest => rest
  | parts => [] :: parts

/-- `split_str_parts_by` -/
def splitStrPartsBy (compile : Text → Matcher) (text : Text) (delimiters : List Text)
    (regexMode : Bool) : List (Text × Text) :=
  let parts := if delimiters = [] then [[], text]
    else splitStrByRegex (matchersOf compile regexMode delimiters) text
  if regexMode then
    (parts.filter (· ≠ [])).map fun part =>
      ((delimiters.find? fun delimiter => (compile delimiter).isMatch part).getD [], part)
  else pairsOf parts

section Weights

variable [One K]

def weighPart (map : LossScaleMap K) (part : Text × Text) : Option (List Text × List K) :=
  match map.get? part.1 with
  | none => some ([part.2], [1])
  | some [weight] => some ([part.2], [weight])
  | some [first, second] => some ([part.1, part.2], [first, second])
  | some _ => none

/-- The weights of the first text of a map that is part of the query. -/
def queryWeights (query : Text) (queryMap : List (Text × List K)) : Option (List K) :=
  (queryMap.find? fun entry => decide (entry.1 <:+: query)).map Prod.snd

/-- `calculate_loss_scale`, for patterns that are compiled -/
def calculateLossScale (compile : Text → Matcher) (query response : Text) (map : LossScaleMap K)
    (queryMap : List (Text × List K)) : Option (List Text × List K) :=
  match queryWeights query queryMap with
  | some weights => weights.head?.map fun weight => ([response], [weight])
  | none => do
      let agentParts :=
        if map.delimiters ≠ [] then splitStrPartsBy compile response map.delimiters false
        else splitStrPartsBy compile response map.regexDelimiters true
      let weighed ← agentParts.mapM (weighPart map)
      some (weighed.flatMap Prod.fst, weighed.flatMap Prod.snd)

/-! ## The weights of the leftmost scan -/

/-- Every character with the weight of its piece. -/
def spread (pieces : List (Text × K)) : List (Char × K) :=
  pieces.flatMap fun piece => piece.1.map (·, piece.2)

def LossScaleMap.firstWeight (map : LossScaleMap K) (key : Text) : K :=
  ((map.get? key).bind List.head?).getD 1

def LossScaleMap.lastWeight (map : LossScaleMap K) (key : Text) : K :=
  ((map.get? key).bind List.getLast?).getD 1

/-- The pieces of a scan with the weights of the spans and of what follows them. -/
def weighScan (scanned : Scan Text) (span following : Text → K) : List (Text × K) :=
  (scanned.leading, 1) ::
    scanned.found.flatMap fun item => [(item.2.1, span item.1), (item.2.2, following item.1)]

def LossScaleMap.pieces (map : LossScaleMap K) (compile : Text → Matcher) (response : Text) :
    List (Text × K) :=
  if map.delimiters ≠ [] then
    weighScan (scan (matchersOf compile false map.delimiters) response)
      map.firstWeight map.lastWeight
  else
    weighScan (scan (matchersOf compile true map.regexDelimiters) response)
      map.lastWeight fun _ => 1

/-- There are as many weights as segments, the segments make the response, and each character has
the weight that the leftmost scan gives it. -/
def Scales (compile : Text → Matcher) (query response : Text) (map : LossScaleMap K) : Prop :=
  ∃ segments weights, calculateLossScale compile query response map [] = some (segments, weights) ∧
    weights.length = segments.length ∧ segments.flatten = response ∧
      spread (segments.zip weights) = spread (map.pieces compile response)

/-- The weight of the first pattern that matches a text on its own. -/
def LossScaleMap.aloneWeight (map : LossScaleMap K) (compile : Text → Matcher) (text : Text) : K :=
  map.lastWeight
    ((map.regexDelimiters.find? fun delimiter => (compile delimiter).isMatch text).getD [])

/-- The pieces are found again. With delimiters only the text before the first one is looked up,
under the empty key. -/
def MatchesAlone (compile : Text → Matcher) (map : LossScaleMap K) (response : Text) : Prop :=
  if map.delimiters ≠ [] then
    response = [] ∨ (∃ delimiter ∈ map.delimiters, delimiter <+: response) ∨
      map.lastWeight [] = 1
  else ∀ piece ∈ map.pieces compile response, piece.1 ≠ [] →
    map.aloneWeight compile piece.1 = piece.2

/-! ## Parts -/

variable {key : Text}

theorem get?_of_mem_keysWith {map : LossScaleMap K} {count : ℕ} (isKey : key ∈ map.keysWith count) :
    ∃ weights, map.get? key = some weights ∧ weights.length = count := by
  obtain ⟨field, isField, rfl⟩ := List.mem_map.mp isKey
  obtain ⟨isField, isCount⟩ := List.mem_filter.mp isField
  exact ⟨field.2, (map.get?_eq_some_iff _ _).mpr isField, of_decide_eq_true isCount⟩

theorem mem_keysWith {map : LossScaleMap K} {weights : List K}
    (isWeights : map.get? key = some weights) : key ∈ map.keysWith weights.length :=
  List.mem_map.mpr ⟨(key, weights), List.mem_filter.mpr
    ⟨(map.get?_eq_some_iff _ _).mp isWeights, decide_eq_true rfl⟩, rfl⟩

/-- A key without two weights names one segment. -/
theorem weighPart_of_one {map : LossScaleMap K} (content : Text)
    (one : ∀ weights, map.get? key = some weights → weights.length = 1) :
    weighPart map (key, content) = some ([content], [map.lastWeight key]) := by
  rw [weighPart, LossScaleMap.lastWeight]
  cases isWeights : map.get? key with
  | none => rfl
  | some weights =>
    obtain ⟨weight, rfl⟩ := List.length_eq_one_iff.mp (one weights isWeights)
    rfl

theorem weighPart_of_two {map : LossScaleMap K} (content : Text) (isKey : key ∈ map.delimiters) :
    weighPart map (key, content) =
      some ([key, content], [map.firstWeight key, map.lastWeight key]) := by
  obtain ⟨weights, isWeights, two⟩ := get?_of_mem_keysWith isKey
  obtain ⟨first, second, rfl⟩ := List.length_eq_two.mp two
  rw [weighPart, LossScaleMap.firstWeight, LossScaleMap.lastWeight, isWeights]
  rfl

theorem filter_splitStrByRegex (matchers : List (Text × Matcher)) (text : Text) :
    (splitStrByRegex matchers text).filter (· ≠ []) =
      (scan matchers text).texts.filter (· ≠ []) := by
  rw [splitStrByRegex]
  split
  · rename_i isTexts
    rw [isTexts]
    rfl
  · rfl

theorem pairsOf_found (found : List (Text × Text × Text)) :
    pairsOf (found.flatMap fun item => [item.2.1, item.2.2]) = found.map Prod.snd := by
  induction found with
  | nil => rfl
  | cons item rest ih =>
    rw [flatMap_cons, map_cons, ← ih]
    rfl

/-- The text before the first delimiter is a part where there is some. -/
theorem pairsOf_splitStrByRegex (matchers : List (Text × Matcher)) (text : Text) :
    pairsOf (splitStrByRegex matchers text) =
      (if (scan matchers text).leading = [] then [] else [([], (scan matchers text).leading)]) ++
        (scan matchers text).found.map Prod.snd := by
  rw [splitStrByRegex, Scan.texts]
  split
  · rename_i rest isTexts
    obtain ⟨noText, rfl⟩ := List.cons.inj isTexts
    rw [if_pos noText, pairsOf_found]
    rfl
  · rename_i some
    rw [if_neg fun none => some _ (congrArg (· :: _) none), ← pairsOf_found]
    rfl

/-! ## With regular expressions -/

/-- Without patterns nothing is found. -/
theorem scanFrom_nil (fuel : ℕ) (before after : Text) :
    scanFrom ([] : List (Text × Matcher)) fuel before after = ⟨after, []⟩ := by
  induction fuel generalizing before after with
  | zero => rfl
  | succ fuel ih =>
    cases after with
    | nil => rfl
    | cons char rest =>
      rw [scanFrom, scanStep]
      exact congrArg (Scan.skip char) (ih (before ++ [char]) rest)

theorem map_fst_weighScan (scanned : Scan Text) (span following : Text → K) :
    (weighScan scanned span following).map Prod.fst = scanned.texts := by
  rw [weighScan, map_cons, map_flatMap]
  rfl

section RegexMode

variable {compile : Text → Matcher} {map : LossScaleMap K} (noDelimiters : map.delimiters = [])

def LossScaleMap.regexSegments (map : LossScaleMap K) (compile : Text → Matcher)
    (response : Text) : List Text :=
  ((map.pieces compile response).map Prod.fst).filter (· ≠ [])

include noDelimiters

/-- Without delimiters a pattern has one weight, and so has the empty key. -/
theorem length_of_noDelimiters {key : Text} (isKey : key ∈ map.regexDelimiters ∨ key = [])
    (weights : List K) (isWeights : map.get? key = some weights) : weights.length = 1 := by
  rcases isKey with isKey | rfl
  · obtain ⟨weights', isWeights', one⟩ := get?_of_mem_keysWith isKey
    rw [isWeights] at isWeights'
    exact Option.some.inj isWeights' ▸ one
  · rcases map.emptyKey weights isWeights with one | two
    · exact one
    · have isDelimiter := mem_keysWith isWeights
      rw [two, ← LossScaleMap.delimiters, noDelimiters] at isDelimiter
      exact absurd isDelimiter not_mem_nil

theorem pieces_eq (response : Text) : map.pieces compile response =
    weighScan (scan (matchersOf compile true map.regexDelimiters) response)
      map.lastWeight fun _ => 1 :=
  if_neg fun some => some noDelimiters

theorem splitStrPartsBy_regex (response : Text) :
    splitStrPartsBy compile response map.regexDelimiters true =
      (map.regexSegments compile response).map fun part =>
        ((map.regexDelimiters.find? fun delimiter =>
          (compile delimiter).isMatch part).getD [], part) := by
  have texts : (if map.regexDelimiters = [] then [[], response]
      else splitStrByRegex (matchersOf compile true map.regexDelimiters) response).filter
        (· ≠ []) = map.regexSegments compile response := by
    rw [LossScaleMap.regexSegments, pieces_eq noDelimiters, map_fst_weighScan]
    split
    · rename_i none
      rw [none, matchersOf, map_nil, scan, scanFrom_nil]
      rfl
    · exact filter_splitStrByRegex _ response
  rw [splitStrPartsBy, texts]
  rfl

theorem calculateLossScale_regex (query response : Text) :
    calculateLossScale compile query response map [] =
      some (map.regexSegments compile response,
        (map.regexSegments compile response).map (map.aloneWeight compile)) := by
  have weighed : ((map.regexSegments compile response).map fun part =>
      ((map.regexDelimiters.find? fun delimiter => (compile delimiter).isMatch part).getD [],
        part)).mapM (weighPart map) =
      some ((map.regexSegments compile response).map fun part =>
        ([part], [map.aloneWeight compile part])) := by
    refine mapM_map_eq_some fun part _ => weighPart_of_one part ?_
    refine length_of_noDelimiters noDelimiters ?_
    cases isFound : map.regexDelimiters.find? fun delimiter => (compile delimiter).isMatch part with
    | none => exact Or.inr rfl
    | some key => exact Or.inl (mem_of_find?_eq_some isFound)
  rw [calculateLossScale, queryWeights]
  dsimp only [find?_nil, Option.map_none]
  rw [if_neg fun some => some noDelimiters, splitStrPartsBy_regex noDelimiters, weighed]
  simp only [Option.bind_eq_bind, Option.bind_some, flatMap_map]
  rw [List.flatMap_singleton', ← map_eq_flatMap]

end RegexMode

theorem spread_cons (piece : Text × K) (rest : List (Text × K)) :
    spread (piece :: rest) = piece.1.map (·, piece.2) ++ spread rest := flatMap_cons

/-- The weights agree where each piece with characters has its own. -/
theorem spread_eq_iff {pieces : List (Text × K)} {weight : Text → K} :
    spread (((pieces.map Prod.fst).filter (· ≠ [])).zip
        (((pieces.map Prod.fst).filter (· ≠ [])).map weight)) = spread pieces ↔
      ∀ piece ∈ pieces, piece.1 ≠ [] → weight piece.1 = piece.2 := by
  induction pieces with
  | nil => simp [spread]
  | cons piece rest ih =>
    rw [forall_mem_cons, ← ih, map_cons]
    by_cases none : piece.1 = []
    · rw [filter_cons_of_neg (by simp [none]), spread_cons, none, map_nil,
        nil_append]
      exact ⟨fun same => ⟨fun some => absurd rfl some, same⟩, fun both => both.2⟩
    · rw [filter_cons_of_pos (by simp [none]), map_cons, zip_cons_cons,
        spread_cons, spread_cons]
      obtain ⟨char, text, isText⟩ := exists_cons_of_ne_nil none
      constructor
      · intro same
        obtain ⟨own, later⟩ := append_inj same (by simp)
        rw [isText, map_cons, map_cons] at own
        have isOwn := (Prod.mk.inj (List.cons.inj own).1).2
        exact ⟨fun _ => isText ▸ isOwn, later⟩
      · rintro ⟨own, later⟩
        rw [own none, later]

/-! ## With delimiters -/

/-- The segments of parts lie side by side. -/
theorem spread_flatMap {weighed : List (List Text × List K)}
    (lengths : ∀ part ∈ weighed, part.1.length = part.2.length) :
    spread ((weighed.flatMap Prod.fst).zip (weighed.flatMap Prod.snd)) =
      weighed.flatMap fun part => spread (part.1.zip part.2) := by
  induction weighed with
  | nil => rfl
  | cons part rest ih =>
    rw [forall_mem_cons] at lengths
    rw [flatMap_cons, flatMap_cons, flatMap_cons, zip_append lengths.1,
      spread, flatMap_append, ← ih lengths.2]
    rfl

section PlainMode

variable (compile : Text → Matcher) {map : LossScaleMap K}

theorem span_of_mem_found {delimiters : List Text} {response : Text} {item : Text × Text × Text}
    (isFound : item ∈ (scan (matchersOf compile false delimiters) response).found) :
    item.2.1 = item.1 ∧ item.1 ∈ delimiters := by
  obtain ⟨mustAdvance, before, after, count, isFirst, isSpan, -⟩ := foundAt_of_mem _ isFound
  obtain ⟨matcher, isMatcher, isLabel, isMatch⟩ := exists_of_firstMatch _ isFirst
  obtain ⟨delimiter, isDelimiter, rfl⟩ := List.mem_map.mp isMatcher
  obtain rfl : delimiter = item.1 := isLabel
  refine ⟨?_, isDelimiter⟩
  simp only [Bool.false_eq_true, if_false, Matcher.literal] at isMatch
  split at isMatch
  · rename_i starts
    rw [isSpan, ← Option.some.inj isMatch]
    exact (List.prefix_iff_eq_take.mp starts.1).symm
  · cases isMatch

theorem leading_eq_nil_iff {delimiters : List Text} {response : Text} :
    (scan (matchersOf compile false delimiters) response).leading = [] ↔
      response = [] ∨ ∃ delimiter ∈ delimiters, delimiter <+: response := by
  rw [leading_scan_eq_nil_iff, firstMatch, findSome?_isSome_iff]
  refine or_congr_right ⟨?_, ?_⟩
  · rintro ⟨item, isItem, isMatch⟩
    obtain ⟨delimiter, isDelimiter, rfl⟩ := List.mem_map.mp isItem
    refine ⟨delimiter, isDelimiter, ?_⟩
    by_contra elsewhere
    simp [Matcher.literal, elsewhere] at isMatch
  · rintro ⟨delimiter, isDelimiter, starts⟩
    refine ⟨_, mem_map_of_mem isDelimiter, ?_⟩
    simp [Matcher.literal, starts]

variable (someDelimiter : map.delimiters ≠ [])

include someDelimiter

/-- The text before the first delimiter has the last weight of the empty key. -/
theorem exists_weighPart_nil (text : Text) : ∃ part, weighPart map ([], text) = some part ∧
    part.1.length = part.2.length ∧ spread (part.1.zip part.2) =
      text.map (·, map.lastWeight []) := by
  by_cases isDelimiter : [] ∈ map.delimiters
  · exact ⟨_, weighPart_of_two text isDelimiter, rfl, by simp [spread]⟩
  · refine ⟨_, weighPart_of_one text fun weights isWeights => ?_, rfl, by simp [spread]⟩
    rcases map.emptyKey weights isWeights with one | two
    · exact one
    · have isKey := mem_keysWith isWeights
      rw [two] at isKey
      exact absurd isKey isDelimiter

theorem calculateLossScale_plain (query response : Text) : ∃ segments weights,
    calculateLossScale compile query response map [] = some (segments, weights) ∧
      weights.length = segments.length ∧
        spread (segments.zip weights) =
          (scan (matchersOf compile false map.delimiters) response).leading.map
            (·, map.lastWeight []) ++ spread (map.pieces compile response).tail := by
  let scanned := scan (matchersOf compile false map.delimiters) response
  obtain ⟨part, isPart, partLength, partSpread⟩ :=
    exists_weighPart_nil someDelimiter scanned.leading
  have first : ((if scanned.leading = [] then [] else [([], scanned.leading)]).mapM
      (weighPart map)) = some (if scanned.leading = [] then [] else [part]) := by
    split
    · rfl
    · rw [mapM_cons, isPart]
      rfl
  have found : (scanned.found.map Prod.snd).mapM (weighPart map) =
      some (scanned.found.map fun item =>
        ([item.2.1, item.2.2], [map.firstWeight item.1, map.lastWeight item.1])) := by
    refine mapM_map_eq_some fun item isItem => ?_
    obtain ⟨isSpan, isDelimiter⟩ := span_of_mem_found compile isItem
    rw [← isSpan] at isDelimiter ⊢
    exact weighPart_of_two item.2.2 isDelimiter
  have parts : splitStrPartsBy compile response map.delimiters false =
      (if scanned.leading = [] then [] else [([], scanned.leading)]) ++
        scanned.found.map Prod.snd := by
    rw [splitStrPartsBy, if_neg someDelimiter]
    exact pairsOf_splitStrByRegex _ response
  obtain ⟨weighed, isWeighed⟩ : ∃ weighed, weighed =
      (if scanned.leading = [] then [] else [part]) ++ scanned.found.map fun item =>
        ([item.2.1, item.2.2], [map.firstWeight item.1, map.lastWeight item.1]) := ⟨_, rfl⟩
  have lengths : ∀ part ∈ weighed, part.1.length = part.2.length := by
    intro other isOther
    rcases List.mem_append.mp (isWeighed ▸ isOther) with isFirst | isFound
    · split at isFirst
      · exact absurd isFirst not_mem_nil
      · exact List.mem_singleton.mp isFirst ▸ partLength
    · obtain ⟨item, -, rfl⟩ := List.mem_map.mp isFound
      rfl
  refine ⟨weighed.flatMap Prod.fst, weighed.flatMap Prod.snd, ?_, ?_, ?_⟩
  · rw [calculateLossScale, queryWeights]
    dsimp only [find?_nil, Option.map_none]
    rw [if_pos someDelimiter, parts, mapM_append, first, found, isWeighed]
    rfl
  · rw [length_flatMap, length_flatMap]
    exact congrArg sum (map_congr_left fun part isPart => (lengths part isPart).symm)
  · rw [spread_flatMap lengths, isWeighed, flatMap_append, flatMap_map,
      LossScaleMap.pieces,
      if_pos someDelimiter, weighScan, tail_cons, spread, flatMap_assoc]
    refine congrArg₂ (· ++ ·) ?_ (congrArg scanned.found.flatMap (funext fun item => ?_))
    · split
      · rename_i none
        exact (congrArg (List.map _) none).symm
      · rw [flatMap_singleton, partSpread]
    · simp [spread]

end PlainMode

/-! ## The scale of a response -/

theorem map_fst_spread (pieces : List (Text × K)) :
    (spread pieces).map Prod.fst = (pieces.map Prod.fst).flatten := by
  induction pieces with
  | nil => rfl
  | cons piece rest ih =>
    rw [spread_cons, map_append, ih, map_cons, flatten_cons, map_map]
    exact congrArg (· ++ _) (map_id piece.1)

theorem flatten_pieces (compile : Text → Matcher) (map : LossScaleMap K) (response : Text) :
    ((map.pieces compile response).map Prod.fst).flatten = response := by
  rw [LossScaleMap.pieces]
  split <;> rw [map_fst_weighScan, flatten_scan]

/-- The segments agree with the leftmost scan where the pieces are found again. -/
theorem exists_calculated (compile : Text → Matcher) (query response : Text)
    (map : LossScaleMap K) : ∃ segments weights,
      calculateLossScale compile query response map [] = some (segments, weights) ∧
        weights.length = segments.length ∧
          (spread (segments.zip weights) = spread (map.pieces compile response) ↔
            MatchesAlone compile map response) := by
  by_cases noDelimiters : map.delimiters = []
  · refine ⟨_, _, calculateLossScale_regex noDelimiters query response, length_map _, ?_⟩
    rw [MatchesAlone, if_neg fun some => some noDelimiters, ← spread_eq_iff]
    rfl
  · obtain ⟨segments, weights, calculated, counts, isSpread⟩ :=
      calculateLossScale_plain compile noDelimiters query response
    refine ⟨segments, weights, calculated, counts, ?_⟩
    have isPieces : map.pieces compile response =
        ((scan (matchersOf compile false map.delimiters) response).leading, 1) ::
          (map.pieces compile response).tail := by
      rw [LossScaleMap.pieces, if_pos noDelimiters]
      rfl
    rw [isSpread, isPieces, spread_cons, tail_cons, append_left_inj, map_inj_left,
      MatchesAlone, if_pos noDelimiters, ← or_assoc, ← leading_eq_nil_iff compile]
    cases (scan (matchersOf compile false map.delimiters) response).leading with
    | nil => simp
    | cons char text => simpa using fun same _ _ => same

theorem matchesAlone_of_scales {compile : Text → Matcher} {query response : Text}
    {map : LossScaleMap K} (scales : Scales compile query response map) :
    MatchesAlone compile map response := by
  obtain ⟨segments, weights, isResult, -, -, same⟩ := scales
  obtain ⟨segments', weights', calculated, -, agrees⟩ :=
    exists_calculated compile query response map
  obtain ⟨rfl, rfl⟩ := Prod.mk.inj (Option.some.inj (calculated.symm.trans isResult))
  exact agrees.mp same

/-- **The characters of a response have the weights of the leftmost scan if and only if each piece,
cut out of the response, is matched by a pattern of its weight.** -/
theorem scales_iff (compile : Text → Matcher) (query response : Text) (map : LossScaleMap K) :
    Scales compile query response map ↔ MatchesAlone compile map response := by
  refine ⟨matchesAlone_of_scales, fun alone => ?_⟩
  obtain ⟨segments, weights, calculated, counts, agrees⟩ :=
    exists_calculated compile query response map
  have same := agrees.mpr alone
  refine ⟨segments, weights, calculated, counts, ?_, same⟩
  rw [← flatten_pieces compile map response, ← map_fst_spread, ← same, map_fst_spread,
    List.map_fst_zip (Nat.le_of_eq counts.symm)]

end Weights

/-! ## Thinking that is left empty -/

def thinkKey : Text := "^<think>\\s*</think>\\s*".toList

def endOfThinkKey : Text := "^</think>\\s*".toList

/-- Two of the patterns of `ignore_empty_think.json`. -/
def ignoreEmptyThink : LossScaleMap ℕ where
  fields := [(thinkKey, [0]), (endOfThinkKey, [0])]
  nodup_keys := by decide +kernel
  emptyKey := by decide +kernel

/-- The patterns of the map. -/
def compileThink (key : Text) : Matcher :=
  let endOfThink := [Regex.word "</think>".toList, .star isBlank]
  .atStart (.ofRegex (.sequence (if key = thinkKey then
    Regex.word "<think>".toList :: .star isBlank :: endOfThink else endOfThink)))

/-- An answer behind a second end of the thinking matches the pattern of the third key, on its own,
and has no weight. -/
theorem not_scales_secondEnd : ¬ Scales compileThink [] "<think></think></think>42".toList
    ignoreEmptyThink := by
  intro scales
  have alone := matchesAlone_of_scales scales
  have noDelimiters : ignoreEmptyThink.delimiters = [] := by decide +kernel
  rw [MatchesAlone, if_neg fun some => some noDelimiters] at alone
  revert alone
  decide +kernel

end Geobench.Loss
