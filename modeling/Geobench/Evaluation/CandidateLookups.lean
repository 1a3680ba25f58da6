import Geobench.Rewards.CacheCollisions
import Geobench.Rewards.StatusTable

/-!
# Geocoding an answer by its prefixes

The evaluation splits an answer at semicolons and looks its prefixes up, the longest one first,
until one has coordinates. Each of these lookups is the one of the reward, which drops parts on its
own when there are no results, and whose cache is shared by all of them.

The prefixes of an answer are a ladder: dropping the last part of one gives the next one.

**`findsLongest`**: where no usage limit is met, the coordinates are those of the longest prefix
that has some. The reward on its own may stop before it, at a prefix that is refused.
-/

namespace Geobench.Evaluation.TrainingGeoScoreGeocoder

open Library Rewards List

/-! ## The prefixes of an answer -/

def isSemicolon (char : Char) : Bool := char = ';' || char = '；'

/-- The parts of an answer between semicolons of both widths, without blank ones. -/
def splitAddressParts (unicode : UnicodeData) (finalAnswer : Text) : List Text :=
  (((strip unicode.isSpace finalAnswer).splitOnP isSemicolon).map (strip unicode.isSpace)).filter
    fun part => !part.isEmpty

/-- All parts, and then fewer and fewer of them, without the last ones. -/
def buildGeocodeCandidates (unicode : UnicodeData) (finalAnswer : Text) : List Text :=
  let parts := splitAddressParts unicode finalAnswer
  (List.range parts.length).foldl (fun candidates dropped =>
    let candidate := strip unicode.isSpace
      ("; ".toList.intercalate (parts.take (parts.length - dropped)))
    if candidate ≠ [] ∧ candidate ∉ candidates then candidates ++ [candidate] else candidates) []

/-! ## The lookups -/

/-- What is recorded of an attempt: a result, and the address that it names or else the
candidate. -/
structure Attempt where
  result : GeocodingResult
  address : Text

def attemptRecord (candidate : Text) (result : GeocodingResult) : Attempt :=
  match result with
  | .success .. => ⟨result, candidate⟩
  | .error _ _ address => ⟨result, address⟩

/-- A result with what is added to it. -/
structure Geocoded where
  result : GeocodingResult
  resolvedFrom : Option Text
  originalFinalAnswer : Option Text
  fallbackAttempts : Option (List Attempt)

section Lookups

variable {σ : Type} (reward : GeoScoreAccuracy) (respond : σ → Text → Option (Reply × σ))
  (fuel : ℕ) (finalAnswer : Text)

def lastAttempt (attempts : List Attempt) : Geocoded :=
  ⟨(attempts.getLast?.map Attempt.result).getD (.error none [] []), none, some finalAnswer,
    some attempts⟩

/-- The result with coordinates. A broader address than the answer is recorded with it. -/
def resolved (candidate : Text) (attempts : List Attempt) (result : GeocodingResult) : Geocoded :=
  if candidate ≠ finalAnswer then ⟨result, some candidate, some finalAnswer, some attempts⟩
  else ⟨result, none, none, none⟩

/-- Look the candidates up until one has coordinates. -/
def tryCandidates (attempts : List Attempt) (state : GeocoderState σ) :
    List Text → Option (Geocoded × GeocoderState σ)
  | [] => some (lastAttempt finalAnswer attempts, state)
  | candidate :: broader => do
      let (result, state) ← reward.callOpencageGeocoding respond fuel candidate 0 state
      let attempts := attempts ++ [attemptRecord candidate result]
      if result.coordinates.isSome then some (resolved finalAnswer candidate attempts result, state)
      else tryCandidates attempts state broader

/-- `geocode`. The result is `none` when the fuel or the replies run out. -/
def geocode (state : GeocoderState σ) : Option (Geocoded × GeocoderState σ) :=
  match buildGeocodeCandidates reward.unicode finalAnswer with
  | [] =>
    some (⟨.error none "invalid geocoding query".toList finalAnswer, none, none, none⟩, state)
  | candidates => tryCandidates reward respond fuel finalAnswer [] state candidates

end Lookups

/-! ## Ladders -/

/-- Stripped addresses, each of which is the one before without its last part. -/
def Ladder (unicode : UnicodeData) : List Text → Prop
  | [] => True
  | address :: broader => strip unicode.isSpace address = address ∧
      dropLastPart ';' address = broader.head? ∧ Ladder unicode broader

theorem dropLastPart_append {last : Text} (free : ';' ∉ last) (shorter : Text) :
    dropLastPart ';' (shorter ++ ';' :: last) = some shorter := by
  have parts : (shorter ++ ';' :: last).splitOn ';' = shorter.splitOn ';' ++ [last] := by
    rw [splitOn_append_cons_self, splitOn_eq_singleton free]
  have some : 0 < (shorter.splitOn ';').length := length_pos_iff.mpr (splitOn_ne_nil _ _)
  rw [dropLastPart, parts, dropLast_concat, length_append, length_singleton,
    if_pos (by omega), intercalate_splitOn]

variable {text : Text}

theorem dropLastPart_of_free (free : ';' ∉ text) : dropLastPart ';' text = none := by
  rw [dropLastPart, splitOn_eq_singleton free]
  rfl

/-- A part of an answer: it is not blank at its ends, and has no semicolon. -/
structure IsPart (unicode : UnicodeData) (part : Text) : Prop where
  stripped : strip unicode.isSpace part = part
  some : part ≠ []
  free : ';' ∉ part

theorem free_of_mem_splitOnP {p : Char → Bool} {part : Text} (isPart : part ∈ text.splitOnP p) :
    ∀ char ∈ part, p char = false := by
  induction text generalizing part with
  | nil =>
    rw [splitOnP_nil, mem_singleton] at isPart
    subst isPart
    intro char isChar
    cases isChar
  | cons first text ih =>
    obtain ⟨head, rest, isSplit⟩ := exists_cons_of_ne_nil (splitOnP_ne_nil p text)
    rw [splitOnP_cons_eq_if_modifyHead, isSplit] at isPart
    have freeHead := ih (isSplit ▸ mem_cons_self)
    split at isPart
    · rcases mem_cons.mp isPart with rfl | isPart
      · intro char isChar
        cases isChar
      · exact ih (isSplit ▸ isPart)
    · rename_i notSeparator
      rcases mem_cons.mp isPart with rfl | isPart
      · rw [forall_mem_cons]
        exact ⟨by simpa using notSeparator, freeHead⟩
      · exact ih (isSplit ▸ mem_cons_of_mem _ isPart)

theorem isPart_of_mem {unicode : UnicodeData} {finalAnswer part : Text}
    (isPart : part ∈ splitAddressParts unicode finalAnswer) : IsPart unicode part := by
  obtain ⟨isPart, some⟩ := mem_filter.mp isPart
  obtain ⟨piece, isPiece, rfl⟩ := mem_map.mp isPart
  refine ⟨strip_strip _ _, by simpa using some, fun isSemi => ?_⟩
  have notSemi := free_of_mem_splitOnP isPiece ';' ((strip_sublist _ _).mem isSemi)
  cases notSemi

/-- The prefixes of some parts, the longest one first. -/
def joinedPrefixes (parts : List Text) : List Text :=
  (List.range parts.length).map fun dropped =>
    "; ".toList.intercalate (parts.take (parts.length - dropped))

theorem joinedPrefixes_concat (parts : List Text) (last : Text) :
    joinedPrefixes (parts ++ [last]) =
      "; ".toList.intercalate (parts ++ [last]) :: joinedPrefixes parts := by
  rw [joinedPrefixes, length_append, length_singleton, range_succ_eq_map,
    map_cons, map_map, joinedPrefixes]
  congr 1
  · rw [Nat.sub_zero, take_of_length_le]
    rw [length_append, length_singleton]
  · apply map_congr_left
    intro dropped _
    rw [Function.comp_apply, Nat.succ_eq_add_one, Nat.add_sub_add_right,
      take_append_of_le_length (Nat.sub_le _ _)]

variable {parts : List Text}

theorem head?_joinedPrefixes (several : parts ≠ []) :
    (joinedPrefixes parts).head? = some ("; ".toList.intercalate parts) := by
  obtain ⟨first, last, rfl⟩ := (eq_nil_or_concat' parts).resolve_left several
  rw [joinedPrefixes_concat]
  rfl

theorem intercalate_concat' (separator : Text) (several : parts ≠ []) (last : Text) :
    separator.intercalate (parts ++ [last]) =
      separator.intercalate parts ++ (separator ++ last) := by
  induction parts with
  | nil => exact absurd rfl several
  | cons first rest ih =>
    cases rest with
    | nil =>
      rw [singleton_append, intercalate_cons_cons, intercalate_singleton,
        intercalate_singleton, append_assoc]
    | cons second rest =>
      rw [cons_append, cons_append, intercalate_cons_cons, ← cons_append,
        ih (cons_ne_nil _ _), intercalate_cons_cons]
      simp only [append_assoc]

theorem ladder_joinedPrefixes {unicode : UnicodeData}
    (areParts : ∀ part ∈ parts, IsPart unicode part) : Ladder unicode (joinedPrefixes parts) := by
  induction parts using List.reverseRecOn with
  | nil => trivial
  | append_singleton parts last ih =>
    have whole : strip unicode.isSpace ("; ".toList.intercalate (parts ++ [last])) =
        "; ".toList.intercalate (parts ++ [last]) :=
      strip_intercalate_of_ne_nil (fun part isPart => (areParts part isPart).some)
        fun part isPart => (areParts part isPart).stripped
    have isLast := areParts last (by simp)
    rw [joinedPrefixes_concat]
    refine ⟨whole, ?_, ih fun part isPart => areParts part (mem_append_left _ isPart)⟩
    by_cases none : parts = []
    · subst none
      rw [nil_append, intercalate_singleton, dropLastPart_of_free isLast.free]
      rfl
    · have free : ';' ∉ ' ' :: last := by
        rw [mem_cons, not_or]
        exact ⟨by decide, isLast.free⟩
      rw [intercalate_concat' _ none, head?_joinedPrefixes none]
      exact dropLastPart_append free _

theorem Ladder.pairwise {unicode : UnicodeData} {addresses : List Text}
    (ladder : Ladder unicode addresses) :
    addresses.Pairwise fun address broader => ∃ more, address = broader ++ ';' :: more := by
  induction addresses with
  | nil => exact .nil
  | cons address broader ih =>
    obtain ⟨-, dropped, later⟩ := ladder
    refine .cons ?_ (ih later)
    intro other isOther
    cases broader with
    | nil => cases isOther
    | cons next broader =>
      obtain ⟨last, isWhole⟩ := eq_append_of_dropLastPart dropped
      rcases mem_cons.mp isOther with rfl | isOther
      · exact ⟨last, isWhole⟩
      · obtain ⟨more, isNext⟩ := (pairwise_cons.mp (ih later)).1 other isOther
        refine ⟨more ++ ';' :: last, ?_⟩
        rw [isWhole, isNext, append_assoc, cons_append]

/-- Candidates that are new and not empty are all kept. -/
theorem foldl_candidates {α : Type} (candidate : α → Text) {items : List α} {candidates : List Text}
    (filled : ∀ item ∈ items, candidate item ≠ [])
    (different : (candidates ++ items.map candidate).Nodup) :
    items.foldl (fun candidates item =>
      if candidate item ≠ [] ∧ candidate item ∉ candidates then candidates ++ [candidate item]
      else candidates) candidates = candidates ++ items.map candidate := by
  induction items generalizing candidates with
  | nil => exact (append_nil _).symm
  | cons item items ih =>
    rw [map_cons, append_cons] at different
    have isNew : candidate item ∉ candidates := by
      intro isOld
      have first := List.Nodup.of_append_left different
      exact (nodup_append.mp first).2.2 _ isOld _ mem_cons_self rfl
    rw [foldl_cons, if_pos ⟨filled item mem_cons_self, isNew⟩,
      ih (fun other isOther => filled other (mem_cons_of_mem _ isOther)) different,
      map_cons, append_assoc, singleton_append]

theorem intercalate_ne_nil {unicode : UnicodeData} (areParts : ∀ part ∈ parts, IsPart unicode part)
    (several : parts ≠ []) (separator : Text) : separator.intercalate parts ≠ [] := by
  obtain ⟨first, rest, rfl⟩ := exists_cons_of_ne_nil several
  obtain ⟨more, isMore⟩ := exists_intercalate_cons separator first rest
  rw [isMore]
  exact append_ne_nil_of_left_ne_nil (areParts first mem_cons_self).some _

theorem buildGeocodeCandidates_eq (unicode : UnicodeData) (finalAnswer : Text) :
    buildGeocodeCandidates unicode finalAnswer =
      joinedPrefixes (splitAddressParts unicode finalAnswer) := by
  have areParts := @isPart_of_mem unicode finalAnswer
  rw [buildGeocodeCandidates]
  generalize splitAddressParts unicode finalAnswer = parts at areParts
  have areTaken (count : ℕ) : ∀ part ∈ parts.take count, IsPart unicode part :=
    fun part isPart => areParts (mem_of_mem_take isPart)
  have same : ((range parts.length).map fun dropped => strip unicode.isSpace
      ("; ".toList.intercalate (parts.take (parts.length - dropped)))) = joinedPrefixes parts := by
    refine map_congr_left fun dropped _ => ?_
    exact strip_intercalate_of_ne_nil (fun part isPart => (areTaken _ part isPart).some)
      fun part isPart => (areTaken _ part isPart).stripped
  have different : (joinedPrefixes parts).Nodup := by
    refine (ladder_joinedPrefixes fun part isPart => areParts isPart).pairwise.imp ?_
    rintro address broader ⟨more, rfl⟩ isSame
    have lengths := congrArg length isSame
    rw [length_append, length_cons] at lengths
    omega
  have filled : ∀ dropped ∈ range parts.length, strip unicode.isSpace
      ("; ".toList.intercalate (parts.take (parts.length - dropped))) ≠ [] := by
    intro dropped inside
    rw [mem_range] at inside
    rw [strip_intercalate_of_ne_nil (fun part isPart => (areTaken _ part isPart).some)
      fun part isPart => (areTaken _ part isPart).stripped]
    refine intercalate_ne_nil (areTaken _) (fun isNil => ?_) _
    have lengths := congrArg length isNil
    rw [length_take, length_nil] at lengths
    omega
  rw [← same] at different ⊢
  exact foldl_candidates _ filled different

/-! ## Queries and keys of a ladder -/

/-- What the tables say of the separators: a comma is not blank, a semicolon is no digit, and a
text has as many commas in lower case. -/
structure SeparatorLaws (unicode : UnicodeData) : Prop where
  isSpace_comma : unicode.isSpace ',' = false
  isDecimal_semicolon : unicode.isDecimal ';' = false
  count_lower : ∀ text, (unicode.lower text).count ',' = text.count ','

variable {unicode : UnicodeData}

theorem count_trimCommas (laws : SeparatorLaws unicode) {blanks : Text}
    (noComma : ',' ∉ blanks) (afterComma : Bool) (text : Text) :
    (trimCommas unicode.isSpace blanks afterComma text).count ',' = text.count ',' := by
  induction text generalizing blanks afterComma with
  | nil =>
    rw [trimCommas]
    split
    · rfl
    · exact count_eq_zero.mpr noComma
  | cons char rest ih =>
    rw [trimCommas]
    split
    · rename_i isSpace
      have notComma : char ≠ ',' := by
        rintro rfl
        rw [laws.isSpace_comma] at isSpace
        cases isSpace
      rw [ih, count_cons_of_ne notComma]
      rw [mem_append, not_or, mem_singleton]
      exact ⟨noComma, notComma.symm⟩
    · split
      · rename_i isComma
        rw [isComma, count_cons_self, count_cons_self, ih not_mem_nil]
      · rename_i notComma
        have held : (if afterComma then [] else blanks).count ',' = 0 := by
          split
          · rfl
          · exact count_eq_zero.mpr noComma
        rw [count_append, held, count_cons_of_ne notComma,
          count_cons_of_ne notComma, ih not_mem_nil, Nat.zero_add]

theorem count_collapseSpaces (laws : SeparatorLaws unicode) (afterSpace : Bool) (text : Text) :
    (collapseSpaces unicode.isSpace afterSpace text).count ',' = text.count ',' := by
  induction text generalizing afterSpace with
  | nil => rfl
  | cons char rest ih =>
    rw [collapseSpaces]
    split
    · rename_i isSpace
      have notComma : char ≠ ',' := by
        rintro rfl
        rw [laws.isSpace_comma] at isSpace
        cases isSpace
      rw [count_cons_of_ne notComma]
      split
      · exact ih true
      · rw [count_cons_of_ne (by decide), ih]
    · rw [count_cons, count_cons, ih]

theorem count_strip (laws : SeparatorLaws unicode) (text : Text) :
    (strip unicode.isSpace text).count ',' = text.count ',' := by
  obtain ⟨before, after, blankBefore, blankAfter, isText⟩ := exists_of_strip unicode.isSpace text
  have noComma {blanks : Text} (blank : ∀ char ∈ blanks, unicode.isSpace char = true) :
      blanks.count ',' = 0 := by
    refine count_eq_zero.mpr fun isComma => ?_
    have isSpace := blank ',' isComma
    rw [laws.isSpace_comma] at isSpace
    cases isSpace
  conv_rhs => rw [isText, count_append, count_append, noComma blankBefore,
    noComma blankAfter, Nat.zero_add, Nat.add_zero]

/-- A key has as many commas as the query. -/
theorem count_cacheKey (laws : SeparatorLaws unicode) (address : Text) :
    (cacheKey unicode address).count ',' = (commaSeparated address).count ',' := by
  rw [cacheKey, laws.count_lower, count_strip laws, count_collapseSpaces laws,
    count_trimCommas laws not_mem_nil]

theorem count_commaSeparated_lt (broader more : Text) :
    (commaSeparated broader).count ',' < (commaSeparated (broader ++ ';' :: more)).count ',' := by
  have split : commaSeparated (broader ++ ';' :: more) =
      commaSeparated broader ++ ',' :: commaSeparated more := by
    simp [commaSeparated, replaceChar]
  rw [split, count_append, count_cons_self]
  omega

theorem Ladder.stripped {addresses : List Text} (ladder : Ladder unicode addresses) :
    ∀ address ∈ addresses, strip unicode.isSpace address = address := by
  induction addresses with
  | nil =>
    intro address isAddress
    cases isAddress
  | cons first broader ih =>
    rw [forall_mem_cons]
    exact ⟨ladder.1, ih ladder.2.2⟩

def queryOf (unicode : UnicodeData) (address : Text) : Text :=
  commaSeparated (strip unicode.isSpace address)

theorem count_lookupKey (laws : SeparatorLaws unicode) (address : Text) :
    (lookupKey unicode address).count ',' = (queryOf unicode address).count ',' :=
  count_cacheKey laws _

variable {address : Text} {broader : List Text}

/-- The addresses of a ladder have more and more commas in their queries. -/
theorem Ladder.count_lt (ladder : Ladder unicode (address :: broader)) : ∀ other ∈ broader,
      (queryOf unicode other).count ',' < (queryOf unicode address).count ',' := by
  intro other isOther
  obtain ⟨more, isWhole⟩ := (pairwise_cons.mp ladder.pairwise).1 other isOther
  rw [queryOf, queryOf, ladder.1, ladder.stripped other (mem_cons_of_mem _ isOther), isWhole]
  exact count_commaSeparated_lt other more

theorem Ladder.query_ne (ladder : Ladder unicode (address :: broader)) : ∀ other ∈ broader,
      queryOf unicode other ≠ queryOf unicode address := by
  intro other isOther same
  have fewer := ladder.count_lt other isOther
  rw [same] at fewer
  exact Nat.lt_irrefl _ fewer

theorem Ladder.key_ne (laws : SeparatorLaws unicode)
    (ladder : Ladder unicode (address :: broader)) :
    ∀ other ∈ broader,
      lookupKey unicode other ≠ lookupKey unicode address := by
  intro other isOther same
  have fewer := ladder.count_lt other isOther
  rw [← count_lookupKey laws, ← count_lookupKey laws, same] at fewer
  exact Nat.lt_irrefl _ fewer

theorem isNumber_of_semicolon (laws : SeparatorLaws unicode) (isSemi : ';' ∈ text) :
    isNumber unicode text = false := by
  have unsigned : ';' ∈ dropSign text := by
    rw [dropSign.eq_def]
    split
    · exact (mem_cons.mp isSemi).resolve_left (by decide)
    · exact (mem_cons.mp isSemi).resolve_left (by decide)
    · exact isSemi
  have behind : ';' ∈ (dropSign text).dropWhile unicode.isDecimal := by
    rw [← takeWhile_append_dropWhile (p := unicode.isDecimal) (l := dropSign text),
      mem_append] at unsigned
    refine unsigned.resolve_left fun isDigit => ?_
    have decimal := mem_takeWhile_imp isDigit
    rw [laws.isDecimal_semicolon] at decimal
    cases decimal
  rw [isNumber, Bool.and_eq_false_iff]
  right
  split
  · rename_i isNil
    rw [isNil] at behind
    cases behind
  · rename_i fraction isFraction
    rw [isFraction] at behind
    have inFraction := (mem_cons.mp behind).resolve_left (by decide)
    rw [Bool.and_eq_false_iff]
    right
    rw [all_eq_false]
    exact ⟨';', inFraction, by rw [laws.isDecimal_semicolon]; decide⟩
  · rfl

/-- An address with a semicolon is sent to the service. -/
theorem askable_of_semicolon (laws : SeparatorLaws unicode)
    (stripped : strip unicode.isSpace address = address) (isSemi : ';' ∈ address) :
    Askable unicode address := by
  rw [Askable, stripped, invalidQuery, isNumber_of_semicolon laws isSemi, Bool.or_false,
    isEmpty_eq_false_iff]
  exact ne_nil_of_mem isSemi

/-- The chain of the first address of a ladder has the queries of those that are sent. -/
theorem Ladder.queryChain_eq (laws : SeparatorLaws unicode)
    (ladder : Ladder unicode (address :: broader)) :
    queryChain unicode address =
      ((address :: broader).filter fun other => Askable unicode other).map (queryOf unicode) := by
  induction broader generalizing address with
  | nil =>
    obtain ⟨stripped, dropped, -⟩ := ladder
    by_cases askable : Askable unicode address
    · have chain := @queryChain_of_askable ⟨unicode, []⟩ address askable
      rw [show strip _ address = address from stripped, dropped] at chain
      rw [filter_cons_of_pos (by simpa using askable), map_cons, queryOf, stripped]
      exact chain
    · rw [Geobench.Rewards.queryChain_eq, if_pos (by simpa [Askable] using askable),
        filter_cons_of_neg (by simpa using askable)]
      rfl
  | cons next broader ih =>
    obtain ⟨stripped, dropped, later⟩ := ladder
    obtain ⟨last, isWhole⟩ := eq_append_of_dropLastPart dropped
    have askable : Askable unicode address := by
      refine askable_of_semicolon laws stripped ?_
      rw [isWhole]
      exact mem_append_right _ mem_cons_self
    have chain := @queryChain_of_askable ⟨unicode, []⟩ address askable
    rw [show strip _ address = address from stripped, dropped] at chain
    rw [filter_cons_of_pos (by simpa using askable), map_cons, ← ih later, queryOf, stripped]
    exact chain

/-! ## What a lookup visits -/

section Visits

variable (reward : GeoScoreAccuracy) (geocoder : Text → Reply)

def kindFor (address : Text) : ReplyKind := (geocoder (queryOf reward.unicode address)).kind

/-- The place that the service has for an address, if it is sent. -/
def placeFor (address : Text) : Option (ℚ × ℚ) :=
  if Askable reward.unicode address then (kindFor reward geocoder address).coordinates else none

/-- How often a query is sent: again and again only while it fails. -/
def requestBound (query : Text) : ℕ := if (geocoder query).kind = .retried then 6 else 1

/-- Nothing of an address is in the cache, and the service has not been asked for it. -/
structure Unasked (address : Text) (store : GeocodingCache) (queries : List Text) : Prop where
  absent : ¬ store.Present (lookupKey reward.unicode address)
  unasked : queryOf reward.unicode address ∉ queries

/-- What a lookup leaves that has visited some addresses and not the rest of the ladder. -/
structure Visit (visited rest : List Text) (store : GeocodingCache) (queries : List Text)
    (result : GeocodingResult) (state' : GeocoderState (List Text)) : Prop where
  some : visited ≠ []
  coordinates : result.coordinates = visited.findSome? (placeFor reward geocoder)
  unlimited : ∀ address ∈ visited, Askable reward.unicode address →
    kindFor reward geocoder address ≠ .usageLimit
  unasked : ∀ address ∈ rest, Unasked reward address state'.store state'.service
  backed : state'.store.Backed
  keeps : ∀ key, store.Present key → state'.store.Present key
  present : ∀ address ∈ visited, Askable reward.unicode address →
    state'.store.Present (lookupKey reward.unicode address)
  entries : ∀ key cached, state'.store.Holds key cached → store.Holds key cached ∨ cached = result
  requested : ∀ query ∈ state'.service, query ∈ queries ∨
    ∃ address ∈ visited, Askable reward.unicode address ∧ query = queryOf reward.unicode address
  counts : ∀ query, state'.service.count query ≤ requestBound geocoder query ∨
    state'.service.count query = queries.count query

variable {reward geocoder}

variable {address : Text} {retryCount : ℕ} {result : GeocodingResult}

/-- A lookup that is not answered from the cache returns only without a usage limit. -/
theorem unlimited_of_lookedUp {state state' : GeocoderState (List Text)}
    (lookedUp : LookedUp reward geocoder address retryCount state result state')
    (absent : ¬ state.store.Present (lookupKey reward.unicode address))
    (askable : Askable reward.unicode address) : kindFor reward geocoder address ≠ .usageLimit := by
  have cases_of (kind : kindFor reward geocoder address = .usageLimit) (retryCount : ℕ) :
      reward.react (strip reward.unicode.isSpace address) retryCount
        (replyTo reward geocoder address) = .askAgain := by
    have allowed := reward.react_allowed (strip reward.unicode.isSpace address) retryCount
      (replyTo reward geocoder address)
    rw [show (replyTo reward geocoder address).kind = .usageLimit from kind] at allowed
    exact allowed
  induction lookedUp with
  | invalid invalid => exact absurd askable invalid
  | @cached address state result store _ read =>
    have reads := state.store.getCachedGeocoding_holds (lookupKey reward.unicode address)
    rw [read] at reads
    exact absurd ⟨result, reads.1 result rfl⟩ absent
  | paused _ _ _ ih => exact ih absent askable cases_of
  | again _ _ _ ih => exact ih absent askable cases_of
  | @finish _ retryCount _ _ _ reacts =>
    intro kind
    cases reacts.symm.trans (cases_of kind retryCount)
  | @shorten _ _ retryCount _ _ _ _ reacts _ _ =>
    intro kind
    cases reacts.symm.trans (cases_of kind retryCount)

variable {visited rest : List Text} {store : GeocodingCache}

/-- What has been asked for already may be counted with the visit. -/
theorem Visit.of_asked {queries : List Text} {state' : GeocoderState (List Text)}
    (visit : Visit reward geocoder visited rest store
      (queries ++ [queryOf reward.unicode address]) result state') (member : address ∈ visited)
    (askable : Askable reward.unicode address)
    (few : queries.count (queryOf reward.unicode address) + 1 ≤
      requestBound geocoder (queryOf reward.unicode address)) :
    Visit reward geocoder visited rest store queries result state' := by
  refine { visit with requested := fun query isQuery => ?_, counts := fun query => ?_ }
  · rcases visit.requested query isQuery with earlier | now
    · rcases mem_append.mp earlier with earlier | isLast
      · exact .inl earlier
      · exact .inr ⟨address, member, askable, mem_singleton.mp isLast⟩
    · exact .inr now
  · rcases visit.counts query with few | same
    · exact .inl few
    · rw [count_append] at same
      by_cases isQuery : query = queryOf reward.unicode address
      · subst isQuery
        rw [count_singleton_self] at same
        exact .inl (same ▸ few)
      · have none : [queryOf reward.unicode address].count query = 0 :=
          count_eq_zero.mpr fun isLast => isQuery (mem_singleton.mp isLast)
        rw [none, Nat.add_zero] at same
        exact .inr same

theorem Unasked.write {other key : Text} {queries : List Text}
    (unasked : Unasked reward other store queries)
    (different : lookupKey reward.unicode other ≠ key) (result : GeocodingResult) :
    Unasked reward other (store.writeCacheOnce key result) queries := by
  refine ⟨?_, unasked.unasked⟩
  rintro ⟨cached, holds⟩
  rcases store.writeCacheOnce_holds key result holds with earlier | ⟨same, -⟩
  · exact unasked.absent ⟨cached, earlier⟩
  · exact different same

theorem Unasked.asked {other : Text} {queries : List Text}
    (unasked : Unasked reward other store queries)
    (different : queryOf reward.unicode other ≠ queryOf reward.unicode address) :
    Unasked reward other store (queries ++ [queryOf reward.unicode address]) := by
  refine ⟨unasked.absent, fun isQuery => ?_⟩
  rcases mem_append.mp isQuery with earlier | isLast
  · exact unasked.unasked earlier
  · exact different (mem_singleton.mp isLast)

theorem few_of_tried {queries : List Text}
    (tried : queries.count (queryOf reward.unicode address) ≤
      if kindFor reward geocoder address = .retried then min retryCount 5 else 0) :
    queries.count (queryOf reward.unicode address) + 1 ≤
      requestBound geocoder (queryOf reward.unicode address) := by
  rw [kindFor] at tried
  rw [requestBound]
  split
  · rename_i isRetried
    rw [if_pos isRetried] at tried
    omega
  · rename_i notRetried
    rw [if_neg notRetried] at tried
    omega

theorem visit_of_lookedUp (laws : SeparatorLaws reward.unicode)
    {state state' : GeocoderState (List Text)}
    (lookedUp : LookedUp reward geocoder address retryCount state result state')
    {broader : List Text} (ladder : Ladder reward.unicode (address :: broader))
    (backed : state.store.Backed)
    (absent : ¬ state.store.Present (lookupKey reward.unicode address))
    (unasked : ∀ other ∈ broader, Unasked reward other state.store state.service)
    (tried : state.service.count (queryOf reward.unicode address) ≤
      if kindFor reward geocoder address = .retried then min retryCount 5 else 0) :
    ∃ visited rest, address :: broader = visited ++ rest ∧
      Visit reward geocoder visited rest state.store state.service result state' := by
  induction lookedUp generalizing broader with
  | @invalid address _ state message invalid =>
    have noPlace : placeFor reward geocoder address = none := if_neg invalid
    refine ⟨[address], broader, rfl, ?_⟩
    constructor
    · exact cons_ne_nil _ _
    · rw [findSome?_cons, noPlace]
      rfl
    · intro other isOther askable
      obtain rfl := mem_singleton.mp isOther
      exact absurd askable invalid
    · exact unasked
    · exact backed
    · exact fun key present => present
    · intro other isOther askable
      obtain rfl := mem_singleton.mp isOther
      exact absurd askable invalid
    · exact fun key cached holds => .inl holds
    · exact fun query isQuery => .inl isQuery
    · exact fun query => .inr rfl
  | @cached address state result store _ read =>
    have reads := state.store.getCachedGeocoding_holds (lookupKey reward.unicode address)
    rw [read] at reads
    exact absurd ⟨result, reads.1 result rfl⟩ absent
  | @paused address retryCount state state' result sends _ _ ih =>
    have more : state.service.count (queryOf reward.unicode address) ≤
        if kindFor reward geocoder address = .retried then min (retryCount + 1) 5 else 0 := by
      refine tried.trans ?_
      split <;> omega
    obtain ⟨visited, rest, isWhole, visit⟩ := ih ladder backed absent unasked more
    exact ⟨visited, rest, isWhole, visit⟩
  | @again address retryCount state state' result sends reacts later ih =>
    obtain ⟨isRetried, left⟩ := (kind_of_askAgain reacts).resolve_left
      (unlimited_of_lookedUp later absent sends.askable)
    have few := few_of_tried tried
    have more : (state.asked reward address).service.count (queryOf reward.unicode address) ≤
        if kindFor reward geocoder address = .retried then min (retryCount + 1) 5 else 0 := by
      rw [show kindFor reward geocoder address = .retried from isRetried, if_pos rfl] at tried ⊢
      change (state.service ++ [queryOf reward.unicode address]).count _ ≤ _
      rw [count_append, count_singleton_self]
      omega
    obtain ⟨visited, rest, isWhole, visit⟩ := ih ladder backed absent
      (fun other isOther => (unasked other isOther).asked (ladder.query_ne other isOther)) more
    obtain ⟨first, others, rfl⟩ := exists_cons_of_ne_nil visit.some
    obtain rfl := head_eq_of_cons_eq isWhole
    exact ⟨_, rest, isWhole, visit.of_asked mem_cons_self sends.askable few⟩
  | @finish address retryCount state result sends reacts =>
    have unlimited := unlimited_of_lookedUp (.finish sends reacts) absent sends.askable
    have place : placeFor reward geocoder address = result.coordinates :=
      (if_pos sends.askable).trans (coordinates_of_finish reacts).symm
    have written := GeocodingCache.Backed.write backed (lookupKey reward.unicode address) result
    refine ⟨[address], broader, rfl, ?_⟩
    refine Visit.of_asked ?_ mem_cons_self sends.askable (few_of_tried tried)
    constructor
    · exact cons_ne_nil _ _
    · rw [findSome?_cons, place]
      cases result.coordinates <;> rfl
    · intro other isOther _
      obtain rfl := mem_singleton.mp isOther
      exact unlimited
    · intro other isOther
      exact ((unasked other isOther).asked (ladder.query_ne other isOther)).write
        (ladder.key_ne laws other isOther) result
    · exact written.1
    · exact written.2.2
    · intro other isOther _
      obtain rfl := mem_singleton.mp isOther
      exact written.2.1
    · intro key cached holds
      exact (state.store.writeCacheOnce_holds _ result holds).imp_right And.right
    · exact fun query isQuery => .inl isQuery
    · exact fun query => .inr rfl
  | @shorten address shorterAddress retryCount state state' result sends reacts later ih =>
    have unlimited := unlimited_of_lookedUp (.shorten sends reacts later) absent sends.askable
    obtain ⟨kind, dropped⟩ := dropped_of_shorten reacts
    rw [ladder.1, ladder.2.1] at dropped
    obtain ⟨next, others, rfl⟩ : ∃ next others, broader = next :: others := by
      cases broader with
      | nil => cases dropped
      | cons next others => exact ⟨next, others, rfl⟩
    obtain rfl := Option.some.inj dropped
    have asked : ∀ other ∈ next :: others, Unasked reward other state.store
        (state.service ++ [queryOf reward.unicode address]) :=
      fun other isOther => (unasked other isOther).asked (ladder.query_ne other isOther)
    have untried : (state.asked reward address).service.count (queryOf reward.unicode next) ≤
        if kindFor reward geocoder next = .retried then min retryCount 5 else 0 := by
      change (state.service ++ [queryOf reward.unicode address]).count _ ≤ _
      rw [count_eq_zero.mpr (asked next mem_cons_self).unasked]
      exact Nat.zero_le _
    obtain ⟨visited, rest, isWhole, visit⟩ := ih ladder.2.2 backed
      (asked next mem_cons_self).absent
      (fun other isOther => asked other (mem_cons_of_mem _ isOther)) untried
    have noPlace : placeFor reward geocoder address = none := by
      rw [placeFor, if_pos sends.askable,
        show kindFor reward geocoder address = .shortened from kind]
      rfl
    have written := GeocodingCache.Backed.write visit.backed (lookupKey reward.unicode address)
      result
    refine ⟨address :: visited, rest, by rw [isWhole, cons_append], ?_⟩
    refine Visit.of_asked ?_ mem_cons_self sends.askable (few_of_tried tried)
    constructor
    · exact cons_ne_nil _ _
    · rw [findSome?_cons, noPlace]
      exact visit.coordinates
    · rw [forall_mem_cons]
      exact ⟨fun _ => unlimited, visit.unlimited⟩
    · intro other isOther
      have member : other ∈ next :: others := by
        rw [isWhole]
        exact mem_append_right _ isOther
      exact (visit.unasked other isOther).write (ladder.key_ne laws other member) result
    · exact written.1
    · exact fun key present => written.2.2 key (visit.keeps key present)
    · rw [forall_mem_cons]
      exact ⟨fun _ => written.2.1, fun other isOther askable =>
        written.2.2 _ (visit.present other isOther askable)⟩
    · intro key cached holds
      rcases state'.store.writeCacheOnce_holds _ result holds with earlier | ⟨-, now⟩
      · exact visit.entries key cached earlier
      · exact .inr now
    · intro query isQuery
      refine (visit.requested query isQuery).imp_right ?_
      rintro ⟨other, isOther, askable, isQuery⟩
      exact ⟨other, mem_cons_of_mem _ isOther, askable, isQuery⟩
    · exact visit.counts

/-! ## The loop -/

theorem Ladder.of_append {first : List Text} (ladder : Ladder unicode (first ++ rest)) :
    Ladder unicode rest := by
  induction first with
  | nil => exact ladder
  | cons address first ih => exact ih ladder.2.2

variable (reward) in
/-- Between two lookups: the candidates that are known to fail, and those that have not been asked
for. -/
structure Progress (known pending : List Text) (state : GeocoderState (List Text)) : Prop where
  ladder : Ladder reward.unicode pending
  backed : state.store.Backed
  failing : ∀ key result, state.store.Holds key result → result.coordinates = none
  present : ∀ address ∈ known, Askable reward.unicode address →
    state.store.Present (lookupKey reward.unicode address)
  unasked : ∀ address ∈ pending, Unasked reward address state.store state.service

/-- A candidate that is known fails again without a request. -/
theorem Progress.known {address : Text} {known pending : List Text}
    {state state' : GeocoderState (List Text)} {result : GeocodingResult}
    (progress : Progress reward (address :: known) pending state)
    (lookedUp : LookedUp reward geocoder address 0 state result state') :
    result.coordinates = none ∧ state'.service = state.service ∧
      Progress reward known pending state' := by
  have later := fun other isOther => progress.present other (mem_cons_of_mem _ isOther)
  by_cases askable : Askable reward.unicode address
  · have present := progress.present address mem_cons_self askable
    obtain ⟨cached, isCached⟩ := GeocodingCache.exists_read_of_present present
    cases lookedUp with
    | invalid invalid => exact absurd askable invalid
    | @cached _ _ _ store _ read =>
      have reads := state.store.getCachedGeocoding_holds (lookupKey reward.unicode address)
      have kept := progress.backed.read (lookupKey reward.unicode address)
      rw [read] at reads kept
      refine ⟨progress.failing _ _ (reads.1 result rfl), rfl, ?_⟩
      constructor
      · exact progress.ladder
      · exact kept.1
      · exact fun key other holds => progress.failing key other (reads.2 key other holds)
      · exact fun other isOther askable => kept.2 _ (later other isOther askable)
      · intro other isOther
        refine ⟨?_, (progress.unasked other isOther).unasked⟩
        rintro ⟨entry, holds⟩
        exact (progress.unasked other isOther).absent ⟨entry, reads.2 _ _ holds⟩
    | paused sends _ _ => cases (sends.missed rfl).symm.trans isCached
    | again sends _ _ => cases (sends.missed rfl).symm.trans isCached
    | finish sends _ => cases (sends.missed rfl).symm.trans isCached
    | shorten sends _ _ => cases (sends.missed rfl).symm.trans isCached
  · cases lookedUp with
    | invalid _ => exact ⟨rfl, rfl, ⟨progress.ladder, progress.backed, progress.failing, later,
        progress.unasked⟩⟩
    | cached isAskable _ => exact absurd isAskable askable
    | paused sends _ _ => exact absurd sends.askable askable
    | again sends _ _ => exact absurd sends.askable askable
    | finish sends _ => exact absurd sends.askable askable
    | shorten sends _ _ => exact absurd sends.askable askable

/-- A candidate that is new visits itself and some that are broader. -/
theorem Progress.pending (laws : SeparatorLaws reward.unicode) {broader : List Text}
    {state state' : GeocoderState (List Text)}
    (progress : Progress reward [] (address :: broader) state)
    (lookedUp : LookedUp reward geocoder address 0 state result state') :
    ∃ visited rest, broader = visited ++ rest ∧
      Visit reward geocoder (address :: visited) rest state.store state.service result state' ∧
        (result.coordinates = none → Progress reward visited rest state') := by
  have first := progress.unasked address mem_cons_self
  have untried : state.service.count (queryOf reward.unicode address) ≤
      if kindFor reward geocoder address = .retried then min 0 5 else 0 := by
    rw [count_eq_zero.mpr first.unasked]
    exact Nat.zero_le _
  obtain ⟨visited, rest, isWhole, visit⟩ := visit_of_lookedUp laws lookedUp progress.ladder
    progress.backed first.absent
    (fun other isOther => progress.unasked other (mem_cons_of_mem _ isOther)) untried
  obtain ⟨head, visited, rfl⟩ := exists_cons_of_ne_nil visit.some
  obtain ⟨rfl, isBroader⟩ := List.cons.inj isWhole
  refine ⟨visited, rest, isBroader, visit, fun noPlace => ?_⟩
  constructor
  · exact Ladder.of_append (isWhole ▸ progress.ladder)
  · exact visit.backed
  · intro key entry holds
    rcases visit.entries key entry holds with earlier | rfl
    · exact progress.failing key entry earlier
    · exact noPlace
  · exact fun other isOther => visit.present other (mem_cons_of_mem _ isOther)
  · exact visit.unasked

variable (reward geocoder) in
/-- What the candidates come to: the first place in the ladder, and the requests for it. -/
structure Ran (pending queries : List Text) (coordinates : Option (ℚ × ℚ))
    (state' : GeocoderState (List Text)) : Prop where
  coordinates : coordinates = pending.findSome? (placeFor reward geocoder)
  unlimited : ∀ address ∈ pending.takeWhile fun other => (placeFor reward geocoder other).isNone,
    Askable reward.unicode address → kindFor reward geocoder address ≠ .usageLimit
  requested : ∀ query ∈ state'.service, query ∈ queries ∨
    ∃ address ∈ pending, Askable reward.unicode address ∧ query = queryOf reward.unicode address
  counts : ∀ query, state'.service.count query ≤ requestBound geocoder query ∨
    state'.service.count query = queries.count query

theorem mem_takeWhile_append {p : Text → Bool} {first : List Text}
    (member : address ∈ (first ++ rest).takeWhile p) :
    address ∈ first ∨ (∀ other ∈ first, p other = true) ∧ address ∈ rest.takeWhile p := by
  rw [takeWhile_append] at member
  split at member
  · rename_i whole
    rcases mem_append.mp member with isFirst | isRest
    · exact .inl isFirst
    · refine .inr ⟨fun other isOther => ?_, isRest⟩
      have same := List.Sublist.eq_of_length (takeWhile_sublist p) whole
      exact mem_takeWhile_imp (same ▸ isOther)
  · exact .inl ((takeWhile_sublist p).mem member)

/-- A visit that finds a place ends the loop. -/
theorem Visit.ran {queries : List Text} {state' : GeocoderState (List Text)}
    (visit : Visit reward geocoder visited rest store queries result state')
    (isPlace : result.coordinates ≠ none) :
    Ran reward geocoder (visited ++ rest) queries result.coordinates state' := by
  constructor
  · rw [findSome?_append, ← visit.coordinates]
    cases isSome : result.coordinates with
    | none => exact absurd isSome isPlace
    | some place => rfl
  · intro address member askable
    rcases mem_takeWhile_append member with isVisited | ⟨noPlaces, -⟩
    · exact visit.unlimited address isVisited askable
    · rw [visit.coordinates] at isPlace
      refine absurd (findSome?_eq_none_iff.mpr fun other isOther => ?_) isPlace
      exact Option.isNone_iff_eq_none.mp (noPlaces other isOther)
  · intro query isQuery
    refine (visit.requested query isQuery).imp_right ?_
    rintro ⟨address, isAddress, askable, isQuery⟩
    exact ⟨address, mem_append_left _ isAddress, askable, isQuery⟩
  · exact visit.counts

theorem Visit.ran_rest {queries : List Text} {next state' : GeocoderState (List Text)}
    {coordinates : Option (ℚ × ℚ)}
    (visit : Visit reward geocoder visited rest store queries result next)
    (noPlace : result.coordinates = none)
    (ran : Ran reward geocoder rest next.service coordinates state') :
    Ran reward geocoder (visited ++ rest) queries coordinates state' := by
  constructor
  · rw [findSome?_append, ← visit.coordinates, noPlace]
    exact ran.coordinates
  · intro address member askable
    rcases mem_takeWhile_append member with isVisited | ⟨-, isRest⟩
    · exact visit.unlimited address isVisited askable
    · exact ran.unlimited address isRest askable
  · intro query isQuery
    rcases ran.requested query isQuery with earlier | ⟨address, isAddress, askable, isQuery⟩
    · refine (visit.requested query earlier).imp_right ?_
      rintro ⟨address, isAddress, askable, isQuery⟩
      exact ⟨address, mem_append_left _ isAddress, askable, isQuery⟩
    · exact .inr ⟨address, mem_append_right _ isAddress, askable, isQuery⟩
  · intro query
    rcases ran.counts query with few | same
    · exact .inl few
    · rw [same]
      exact visit.counts query

theorem result_resolved (finalAnswer candidate : Text) (attempts : List Attempt)
    (result : GeocodingResult) :
    (resolved finalAnswer candidate attempts result).result = result := by
  rw [resolved]
  split <;> rfl

variable {candidates : List Text} {attempts : List Attempt}

/-- The loop over the candidates, of which some are known to fail. -/
theorem ran_of_tryCandidates (laws : SeparatorLaws reward.unicode) {fuel : ℕ} {finalAnswer : Text}
    {known pending : List Text} (isWhole : candidates = known ++ pending)
    {state state' : GeocoderState (List Text)} {geocoded : Geocoded}
    (progress : Progress reward known pending state)
    (failed : ∀ attempt ∈ attempts, attempt.result.coordinates = none)
    (returns : tryCandidates reward (loggedService geocoder) fuel finalAnswer attempts state
      candidates = some (geocoded, state')) :
    Ran reward geocoder pending state.service geocoded.result.coordinates state' := by
  induction candidates generalizing known pending attempts state with
  | nil =>
    obtain ⟨rfl, rfl⟩ := append_eq_nil_iff.mp isWhole.symm
    cases returns
    have noPlace : (lastAttempt finalAnswer attempts).result.coordinates = none := by
      rw [lastAttempt]
      cases isLast : attempts.getLast? with
      | none => rfl
      | some attempt => exact failed attempt (mem_of_getLast? isLast)
    rw [noPlace]
    refine ⟨rfl, fun address isAddress => ?_, fun query isQuery => .inl isQuery,
      fun query => .inr rfl⟩
    cases isAddress
  | cons candidate broader ih =>
    rw [tryCandidates] at returns
    obtain ⟨⟨result, next⟩, found, returns⟩ := Option.bind_eq_some_iff.mp returns
    have lookedUp := lookedUp_of_lookup found
    dsimp only at returns
    have more (noPlace : result.coordinates = none) : ∀ attempt ∈
        attempts ++ [attemptRecord candidate result], attempt.result.coordinates = none := by
      intro attempt isAttempt
      rcases mem_append.mp isAttempt with earlier | isLast
      · exact failed attempt earlier
      · rw [mem_singleton.mp isLast]
        cases result with
        | success => cases noPlace
        | error => rfl
    cases known with
    | cons first known =>
      obtain ⟨rfl, isRest⟩ := List.cons.inj isWhole
      obtain ⟨noPlace, same, later⟩ := progress.known lookedUp
      rw [noPlace, if_neg (by decide)] at returns
      rw [← same]
      exact ih isRest later (more noPlace) returns
    | nil =>
      obtain rfl : pending = candidate :: broader := isWhole.symm
      obtain ⟨visited, rest, isRest, visit, later⟩ := progress.pending laws lookedUp
      have whole : candidate :: broader = (candidate :: visited) ++ rest := by
        rw [isRest, cons_append]
      rw [whole]
      cases place : result.coordinates with
      | none =>
        rw [place, if_neg (by decide)] at returns
        exact visit.ran_rest place (ih isRest (later place) (more place) returns)
      | some coordinates =>
        rw [place, if_pos Option.isSome_some] at returns
        cases returns
        rw [result_resolved]
        exact visit.ran (by rw [place]; exact Option.some_ne_none _)

/-! ## Loops that end -/

theorem tryCandidates_mono {fuel more : ℕ} (enough : fuel ≤ more) {finalAnswer : Text}
    {state : GeocoderState (List Text)} {outcome : Geocoded × GeocoderState (List Text)}
    (returns : tryCandidates reward (loggedService geocoder) fuel finalAnswer attempts state
      candidates = some outcome) :
    tryCandidates reward (loggedService geocoder) more finalAnswer attempts state candidates =
      some outcome := by
  induction candidates generalizing attempts state with
  | nil => exact returns
  | cons candidate broader ih =>
    rw [tryCandidates] at returns ⊢
    obtain ⟨⟨result, next⟩, found, returns⟩ := Option.bind_eq_some_iff.mp returns
    refine Option.bind_eq_some_iff.mpr ⟨⟨result, next⟩, lookup_mono enough found, ?_⟩
    dsimp only at returns ⊢
    split
    · rename_i isPlace
      rw [if_pos isPlace] at returns
      exact returns
    · rename_i noPlace
      rw [if_neg noPlace] at returns
      exact ih returns

theorem exists_lookup_known {state : GeocoderState (List Text)}
    (present : Askable reward.unicode address →
      state.store.Present (lookupKey reward.unicode address)) :
    ∃ found, reward.callOpencageGeocoding (loggedService geocoder) 1 address 0 state =
      some found := by
  rcases callStep_cases reward (loggedService geocoder) (strip reward.unicode.isSpace address) 0
    state with ⟨-, message, step⟩ | ⟨-, -, result, store, -, step⟩ | ⟨askable, missed, -⟩
  · exact ⟨_, by rw [callOpencageGeocoding_succ, step]⟩
  · exact ⟨_, by rw [callOpencageGeocoding_succ, step]⟩
  · obtain ⟨cached, isCached⟩ := GeocodingCache.exists_read_of_present (present askable)
    cases (missed rfl).symm.trans isCached

/-- Without a usage limit before the first place, the chain of a ladder decides something. -/
theorem chainVerdict_of_unlimited {pending : List Text}
    (unlimited : ∀ address ∈ pending.takeWhile fun other => (placeFor reward geocoder other).isNone,
      Askable reward.unicode address → kindFor reward geocoder address ≠ .usageLimit) :
    ∃ observed, chainVerdict geocoder ((pending.filter fun other =>
      Askable reward.unicode other).map (queryOf reward.unicode)) = some observed := by
  induction pending with
  | nil => exact ⟨_, rfl⟩
  | cons address broader ih =>
    have later (noPlace : placeFor reward geocoder address = none) := ih fun other isOther =>
      unlimited other (by
        rw [takeWhile_cons_of_pos (by rw [noPlace]; rfl)]
        exact mem_cons_of_mem _ isOther)
    by_cases askable : Askable reward.unicode address
    · have place : placeFor reward geocoder address =
          (kindFor reward geocoder address).coordinates := if_pos askable
      rw [filter_cons_of_pos (by simpa using askable), map_cons, chainVerdict]
      cases kind : (geocoder (queryOf reward.unicode address)).kind with
      | usageLimit =>
        have noPlace : placeFor reward geocoder address = none := by
          rw [place, kindFor, kind]
          rfl
        refine absurd kind (unlimited address ?_ askable)
        rw [takeWhile_cons_of_pos (by rw [noPlace]; rfl)]
        exact mem_cons_self
      | shortened => exact later (by rw [place, kindFor, kind]; rfl)
      | retried => exact ⟨_, rfl⟩
      | found latitude longitude => exact ⟨_, rfl⟩
      | refused => exact ⟨_, rfl⟩
    · rw [filter_cons_of_neg (by simpa using askable)]
      exact later (if_neg askable)

/-- The loop ends without a usage limit before the first place. -/
theorem exists_tryCandidates (laws : SeparatorLaws reward.unicode) {finalAnswer : Text}
    {known pending : List Text} (isWhole : candidates = known ++ pending)
    {state : GeocoderState (List Text)} (progress : Progress reward known pending state)
    (unlimited : ∀ address ∈ pending.takeWhile fun other => (placeFor reward geocoder other).isNone,
      Askable reward.unicode address → kindFor reward geocoder address ≠ .usageLimit) :
    ∃ fuel outcome, tryCandidates reward (loggedService geocoder) fuel finalAnswer attempts state
      candidates = some outcome := by
  induction candidates generalizing known pending attempts state with
  | nil => exact ⟨0, _, rfl⟩
  | cons candidate broader ih =>
    -- One lookup and what follows it, with fuel for both.
    have step {fuel : ℕ} {result : GeocodingResult} {next : GeocoderState (List Text)}
        (found : reward.callOpencageGeocoding (loggedService geocoder) fuel candidate 0 state =
          some (result, next))
        (later : result.coordinates = none → ∃ fuel outcome, tryCandidates reward
          (loggedService geocoder) fuel finalAnswer
            (attempts ++ [attemptRecord candidate result]) next broader = some outcome) :
        ∃ fuel outcome, tryCandidates reward (loggedService geocoder) fuel finalAnswer attempts
          state (candidate :: broader) = some outcome := by
      cases place : result.coordinates with
      | some coordinates =>
        refine ⟨fuel, (resolved finalAnswer candidate
          (attempts ++ [attemptRecord candidate result]) result, next), ?_⟩
        rw [tryCandidates]
        refine Option.bind_eq_some_iff.mpr ⟨_, found, ?_⟩
        dsimp only
        rw [place, if_pos Option.isSome_some]
      | none =>
        obtain ⟨more, outcome, returns⟩ := later place
        refine ⟨max fuel more, outcome, ?_⟩
        rw [tryCandidates]
        refine Option.bind_eq_some_iff.mpr
          ⟨_, lookup_mono (Nat.le_max_left fuel more) found, ?_⟩
        dsimp only
        rw [place, if_neg (by decide)]
        exact tryCandidates_mono (Nat.le_max_right fuel more) returns
    cases known with
    | cons first known =>
      obtain ⟨rfl, isRest⟩ := List.cons.inj isWhole
      obtain ⟨⟨result, next⟩, found⟩ := exists_lookup_known
        (progress.present candidate mem_cons_self)
      refine step found fun _ => ?_
      exact ih isRest (progress.known (lookedUp_of_lookup found)).2.2 unlimited
    | nil =>
      obtain rfl : pending = candidate :: broader := isWhole.symm
      obtain ⟨observed, decided⟩ := chainVerdict_of_unlimited unlimited
      rw [← progress.ladder.queryChain_eq laws] at decided
      obtain ⟨fuel, ⟨result, next⟩, found⟩ := exists_lookup_logged decided 0 state
      obtain ⟨visited, rest, isRest, visit, later⟩ :=
        progress.pending laws (lookedUp_of_lookup found)
      refine step found fun noPlace => ih isRest (later noPlace) fun address isAddress => ?_
      refine unlimited address ?_
      have whole : candidate :: broader = (candidate :: visited) ++ rest := by
        rw [isRest, cons_append]
      have noPlaces := findSome?_eq_none_iff.mp (visit.coordinates.symm.trans noPlace)
      rw [whole, takeWhile_append_of_pos fun other isOther => by
        rw [noPlaces other isOther]
        rfl]
      exact mem_append_right _ isAddress

/-! ## The lookup of the reward -/

/-- The candidates that are sent before one has a place. -/
def askedBefore (reward : GeoScoreAccuracy) (geocoder : Text → Reply) (pending : List Text) :
    List Text :=
  (pending.takeWhile fun address => (placeFor reward geocoder address).isNone).filter
    fun address => Askable reward.unicode address

theorem mem_askedBefore {pending : List Text} :
    address ∈ askedBefore reward geocoder pending ↔
      address ∈ (pending.takeWhile fun other => (placeFor reward geocoder other).isNone) ∧
        Askable reward.unicode address := by
  rw [askedBefore, mem_filter, decide_eq_true_iff]

/-- A failure agrees only with a failure, unless there were no results. -/
theorem failed_agrees_iff {place : Option (ℚ × ℚ)} {kind : ReplyKind} {later : Prop}
    (decides : kind ≠ .shortened) :
    failed.1 = place ↔ place = none ∨ kind = .shortened ∧ later := by
  constructor
  · intro same
    exact .inl same.symm
  · rintro (noPlace | ⟨isShortened, -⟩)
    · exact noPlace.symm
    · exact absurd isShortened decides

/-- A chain decides for the first place when there are no results for what is before it. -/
theorem chainVerdict_agrees_iff {pending : List Text} {observed : Observed}
    (decided : chainVerdict geocoder ((pending.filter fun other =>
      Askable reward.unicode other).map (queryOf reward.unicode)) = some observed) :
    observed.1 = pending.findSome? (placeFor reward geocoder) ↔
      pending.findSome? (placeFor reward geocoder) = none ∨
        ∀ address ∈ askedBefore reward geocoder pending,
          kindFor reward geocoder address = .shortened := by
  induction pending with
  | nil =>
    cases decided
    exact iff_of_true rfl (.inl rfl)
  | cons address broader ih =>
    by_cases askable : Askable reward.unicode address
    · have place : placeFor reward geocoder address =
          (kindFor reward geocoder address).coordinates := if_pos askable
      have skipped (noPlace : placeFor reward geocoder address = none) :
          askedBefore reward geocoder (address :: broader) =
            address :: askedBefore reward geocoder broader := by
        rw [askedBefore, takeWhile_cons_of_pos (by rw [noPlace]; rfl),
          filter_cons_of_pos (by simpa using askable), askedBefore]
      rw [filter_cons_of_pos (by simpa using askable), map_cons, chainVerdict] at decided
      rw [findSome?_cons]
      cases kind : (geocoder (queryOf reward.unicode address)).kind with
      | usageLimit =>
        rw [kind] at decided
        cases decided
      | shortened =>
        have noPlace : placeFor reward geocoder address = none := by
          rw [place, kindFor, kind]
          rfl
        rw [kind] at decided
        rw [noPlace, skipped noPlace, forall_mem_cons, kindFor, kind]
        simpa using ih decided
      | retried =>
        have noPlace : placeFor reward geocoder address = none := by
          rw [place, kindFor, kind]
          rfl
        rw [kind] at decided
        cases decided
        rw [noPlace, skipped noPlace, forall_mem_cons, kindFor, kind]
        exact failed_agrees_iff (by decide)
      | found latitude longitude =>
        have isPlace : placeFor reward geocoder address = some (latitude, longitude) := by
          rw [place, kindFor, kind]
          rfl
        have first : askedBefore reward geocoder (address :: broader) = [] := by
          rw [askedBefore, takeWhile_cons_of_neg (by rw [isPlace]; exact Bool.false_ne_true)]
          rfl
        rw [kind] at decided
        cases decided
        rw [isPlace, first]
        exact iff_of_true rfl (.inr fun other isOther => absurd isOther not_mem_nil)
      | refused =>
        have noPlace : placeFor reward geocoder address = none := by
          rw [place, kindFor, kind]
          rfl
        rw [kind] at decided
        cases decided
        rw [noPlace, skipped noPlace, forall_mem_cons, kindFor, kind]
        exact failed_agrees_iff (by decide)
    · have noPlace : placeFor reward geocoder address = none := if_neg askable
      rw [filter_cons_of_neg (by simpa using askable)] at decided
      have same : askedBefore reward geocoder (address :: broader) =
          askedBefore reward geocoder broader := by
        rw [askedBefore, takeWhile_cons_of_pos (by rw [noPlace]; rfl),
          filter_cons_of_neg (by simpa using askable), askedBefore]
      rw [findSome?_cons, noPlace, same]
      exact ih decided

end Visits

/-! ## The longest prefix with a place -/

section Geocoding

variable (reward : GeoScoreAccuracy) (geocoder : Text → Reply) (start : Start) (finalAnswer : Text)

/-- From an empty cache the answer is looked up with a result, after some requests. -/
def Geocodes (geocoded : Geocoded) (queries : List Text) : Prop :=
  ∃ fuel state, geocode reward (loggedService geocoder) fuel finalAnswer start.state =
    some (geocoded, state) ∧ state.service = queries

/-- The reward itself comes to some coordinates for the whole answer. -/
def RewardFinds (coordinates : Option (ℚ × ℚ)) : Prop :=
  ∃ fuel result state, reward.callOpencageGeocoding (loggedService geocoder) fuel finalAnswer 0
    start.state = some (result, state) ∧ result.coordinates = coordinates

/-- The longest prefix with a place is found. -/
structure FindsLongest : Prop where
  returns_iff : (∃ geocoded queries, Geocodes reward geocoder start finalAnswer geocoded queries) ↔
    ∀ prefixText ∈ askedBefore reward geocoder (buildGeocodeCandidates reward.unicode finalAnswer),
      kindFor reward geocoder prefixText ≠ .usageLimit
  longest : ∀ geocoded queries, Geocodes reward geocoder start finalAnswer geocoded queries →
    geocoded.result.coordinates =
      (buildGeocodeCandidates reward.unicode finalAnswer).findSome? (placeFor reward geocoder)
  fails_iff : ∀ geocoded queries, Geocodes reward geocoder start finalAnswer geocoded queries →
    (geocoded.result.status = .error ↔
      ∀ prefixText ∈ buildGeocodeCandidates reward.unicode finalAnswer,
        placeFor reward geocoder prefixText = none)
  requested : ∀ geocoded queries, Geocodes reward geocoder start finalAnswer geocoded queries →
    ∀ query ∈ queries, ∃ prefixText ∈ buildGeocodeCandidates reward.unicode finalAnswer,
      Askable reward.unicode prefixText ∧ query = queryOf reward.unicode prefixText
  counts : ∀ geocoded queries, Geocodes reward geocoder start finalAnswer geocoded queries →
    ∀ query, queries.count query ≤ requestBound geocoder query
  agrees_iff : strip reward.unicode.isSpace finalAnswer =
      "; ".toList.intercalate (splitAddressParts reward.unicode finalAnswer) →
    ∀ geocoded queries, Geocodes reward geocoder start finalAnswer geocoded queries →
      (RewardFinds reward geocoder start finalAnswer geocoded.result.coordinates ↔
        geocoded.result.coordinates = none ∨
          ∀ prefixText ∈ askedBefore reward geocoder
              (buildGeocodeCandidates reward.unicode finalAnswer),
            kindFor reward geocoder prefixText = .shortened)

variable {reward geocoder start finalAnswer}

theorem progress_start (reward : GeoScoreAccuracy) (start : Start) (finalAnswer : Text) :
    Progress reward [] (buildGeocodeCandidates reward.unicode finalAnswer) start.state := by
  have nothing := start.holdsNothing
  constructor
  · rw [buildGeocodeCandidates_eq]
    exact ladder_joinedPrefixes fun part => isPart_of_mem
  · intro file _ key result inCache
    exact absurd (.inl inCache) (nothing key result)
  · exact fun key result holds => absurd holds (nothing key result)
  · exact fun address isKnown => absurd isKnown not_mem_nil
  · intro address _
    refine ⟨?_, not_mem_nil⟩
    rintro ⟨result, holds⟩
    exact nothing _ result holds

/-- A lookup that returns has run through the candidates. -/
theorem Geocodes.ran (laws : SeparatorLaws reward.unicode) {geocoded : Geocoded}
    {queries : List Text} (geocodes : Geocodes reward geocoder start finalAnswer geocoded queries) :
    ∃ state, state.service = queries ∧
      Ran reward geocoder (buildGeocodeCandidates reward.unicode finalAnswer) []
        geocoded.result.coordinates state := by
  obtain ⟨fuel, state, returns, isService⟩ := geocodes
  refine ⟨state, isService, ?_⟩
  have progress := progress_start reward start finalAnswer
  rw [geocode] at returns
  cases isCandidates : buildGeocodeCandidates reward.unicode finalAnswer with
  | nil =>
    rw [isCandidates] at returns
    cases returns
    refine ⟨rfl, fun address isAddress => ?_, fun query isQuery => .inl isQuery,
      fun query => .inr rfl⟩
    cases isAddress
  | cons candidate broader =>
    rw [isCandidates] at returns progress
    exact ran_of_tryCandidates laws rfl progress
      (fun attempt isAttempt => absurd isAttempt not_mem_nil) returns

theorem exists_geocodes (laws : SeparatorLaws reward.unicode)
    (unlimited : ∀ address ∈ askedBefore reward geocoder
        (buildGeocodeCandidates reward.unicode finalAnswer),
      kindFor reward geocoder address ≠ .usageLimit) :
    ∃ geocoded queries, Geocodes reward geocoder start finalAnswer geocoded queries := by
  have progress := progress_start reward start finalAnswer
  cases isCandidates : buildGeocodeCandidates reward.unicode finalAnswer with
  | nil =>
    refine ⟨⟨.error none "invalid geocoding query".toList finalAnswer, none, none, none⟩, [], 0,
      start.state, ?_, rfl⟩
    rw [geocode, isCandidates]
  | cons candidate broader =>
    rw [isCandidates] at progress unlimited
    obtain ⟨fuel, ⟨geocoded, state⟩, returns⟩ :=
      @exists_tryCandidates reward geocoder _ [] laws finalAnswer [] _ rfl _ progress
        fun address isBefore askable =>
          unlimited address (mem_askedBefore.mpr ⟨isBefore, askable⟩)
    refine ⟨geocoded, _, fuel, state, ?_, rfl⟩
    rw [geocode, isCandidates]
    exact returns

theorem queryChain_of_joined (laws : SeparatorLaws reward.unicode)
    (joined : strip reward.unicode.isSpace finalAnswer =
      "; ".toList.intercalate (splitAddressParts reward.unicode finalAnswer)) :
    queryChain reward.unicode finalAnswer =
      ((buildGeocodeCandidates reward.unicode finalAnswer).filter fun other =>
        Askable reward.unicode other).map (queryOf reward.unicode) := by
  have ladder := (progress_start reward ⟨none, rfl, 0⟩ finalAnswer).ladder
  rw [← queryChain_strip, joined]
  rw [buildGeocodeCandidates_eq] at ladder ⊢
  by_cases none : splitAddressParts reward.unicode finalAnswer = []
  · rw [none, queryChain_eq]
    rfl
  · have first := head?_joinedPrefixes none
    cases isPrefixes : joinedPrefixes (splitAddressParts reward.unicode finalAnswer) with
    | nil =>
      rw [isPrefixes] at first
      cases first
    | cons whole broader =>
      rw [isPrefixes] at first ladder
      rw [← Option.some.inj first]
      exact ladder.queryChain_eq laws

/-- What the reward finds is decided by the chain of the answer. -/
theorem rewardFinds_iff (coordinates : Option (ℚ × ℚ)) :
    RewardFinds reward geocoder start finalAnswer coordinates ↔
      ∃ observed, chainVerdict geocoder (queryChain reward.unicode finalAnswer) = some observed ∧
        observed.1 = coordinates := by
  have faithful : Faithful reward geocoder finalAnswer (start.state.mapService fun _ => ()) :=
    fun fallback _ _ result holds => absurd holds (start.holdsNothing _ result)
  have sound {fuel : ℕ} {result : GeocodingResult} {state : GeocoderState (List Text)}
      (found : reward.callOpencageGeocoding (loggedService geocoder) fuel finalAnswer 0
        start.state = some (result, state)) :
      chainVerdict geocoder (queryChain reward.unicode finalAnswer) = some result.observed := by
    have foundWithout : reward.callOpencageGeocoding (deterministicService geocoder) fuel
        finalAnswer 0 (start.state.mapService fun _ => ()) =
          some (result, state.mapService fun _ => ()) := by
      rw [lookup_logged, found]
      rfl
    exact (lookup_sound faithful foundWithout).1
  constructor
  · rintro ⟨fuel, result, state, found, rfl⟩
    exact ⟨_, sound found, rfl⟩
  · rintro ⟨observed, decided, rfl⟩
    obtain ⟨fuel, ⟨result, state⟩, found⟩ := exists_lookup_logged decided 0 start.state
    refine ⟨fuel, result, state, found, ?_⟩
    rw [← Option.some.inj ((sound found).symm.trans decided)]
    rfl

theorem status_eq_error_iff (result : GeocodingResult) :
    result.status = .error ↔ result.coordinates = none := by
  cases result with
  | success => exact iff_of_false (by rintro ⟨⟩) (by rintro ⟨⟩)
  | error => exact iff_of_true rfl rfl

end Geocoding

theorem toLower_eq_comma_iff (char : Char) : char.toLower = ',' ↔ char = ',' := by
  constructor
  · intro isComma
    unfold Char.toLower at isComma
    split at isComma
    · rename_i upper
      have lowest := UInt32.le_iff_toNat_le.mp upper.1
      have highest := UInt32.le_iff_toNat_le.mp upper.2
      have code := congrArg UInt32.toNat (congrArg Char.val isComma)
      simp at lowest highest code
      omega
    · exact isComma
  · rintro rfl
    rfl

theorem separatorLaws_ascii : SeparatorLaws asciiReward.unicode := by
  refine ⟨by decide, by decide, fun text => ?_⟩
  change (text.map Char.toLower).count ',' = text.count ','
  induction text with
  | nil => rfl
  | cons char rest ih =>
    rw [map_cons, count_cons, count_cons, ih]
    simp only [beq_iff_eq, toLower_eq_comma_iff]

def emptyStart : Start := ⟨none, rfl, 0⟩

/-- A service that refuses one query and has a place for every other one. -/
def refusesOnly (refused : Text) (query : Text) : Reply :=
  .http 200 [] (.json (if query = refused then 400 else 200) [] [somePlace])

/-- An answer is looked up with some coordinates and some requests. -/
def Finds (geocoder : Text → Reply) (finalAnswer : Text) (coordinates : Option (ℚ × ℚ))
    (queries : List Text) : Prop :=
  ∃ geocoded, Geocodes asciiReward geocoder emptyStart finalAnswer geocoded queries ∧
    geocoded.result.coordinates = coordinates

theorem finds_of_geocode {geocoder : Text → Reply} {finalAnswer : Text}
    {coordinates : Option (ℚ × ℚ)} {queries : List Text} (fuel : ℕ)
    (isFound : (geocode asciiReward (loggedService geocoder) fuel finalAnswer emptyStart.state).map
      (fun found => (found.1.result.coordinates, found.2.service)) = some (coordinates, queries)) :
    Finds geocoder finalAnswer coordinates queries := by
  obtain ⟨⟨geocoded, state⟩, returns, same⟩ := Option.map_eq_some_iff.mp isFound
  obtain ⟨isPlace, isService⟩ := Prod.mk.inj same
  exact ⟨geocoded, ⟨fuel, state, returns, isService⟩, isPlace⟩

end Geobench.Evaluation.TrainingGeoScoreGeocoder
