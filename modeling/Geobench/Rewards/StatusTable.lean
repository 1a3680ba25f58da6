import Geobench.Rewards.RequestLog

/-!
# The status table of the lookup

The lookup has a branch for each status code that a body can have: a part of the address is dropped
at 410, a request is repeated at 408, and 403 ends the lookup. Before it reads the body it raises
for the status of the response, and an exception of the request is repeated and then given the code
0, whatever the status is.

A service that gives the response the status of its body never comes to these branches.
**`followsTable_iff`**: the table is followed exactly when none of the three statuses is given. That
a lookup ends after a bounded number of requests, unless there are usage limits, is always so.
-/

namespace Geobench.Rewards

open Library

/-- An answer with one status for the response and for its body. The error is the text of the
exception that the status raises. -/
structure Answer where
  status : ℕ
  error : Text
  message : Text
  results : List Place

def Answer.reply (answer : Answer) : Reply :=
  .http answer.status answer.error (.json answer.status answer.message answer.results)

/-- A state in which nothing is cached. -/
structure Start where
  cacheFile : Option Cache
  empty : cacheFile.getD ∅ = ∅
  queryCount : ℕ

def Start.state (start : Start) : GeocoderState (List Text) :=
  ⟨⟨∅, start.cacheFile⟩, start.queryCount, []⟩

section Table

variable (reward : GeoScoreAccuracy) (answers : Text → Answer) (start : Start)

/-- The lookup of an address returns a result after a number of requests. -/
def Outcome (address : Text) (result : GeocodingResult) (requests : ℕ) : Prop :=
  ∃ fuel state, reward.callOpencageGeocoding (loggedService fun query => (answers query).reply) fuel
    address 0 start.state = some (result, state) ∧ state.service.length = requests

def answerTo (address : Text) : Answer :=
  answers (commaSeparated (strip reward.unicode.isSpace address))

/-- The service is asked for an address, and gives a status. -/
def Gets (address : Text) (status : ℕ) : Prop :=
  Askable reward.unicode address ∧ (answerTo reward answers address).status = status

structure FollowsTable (address : Text) : Prop where
  tooLong : Gets reward answers address 410 →
    match dropLastPart ';' (strip reward.unicode.isSpace address) with
    | some shorterAddress => ∀ result,
        (∃ requests, Outcome reward answers start address result requests) ↔
          ∃ requests, Outcome reward answers start shorterAddress result requests
    | none => ∃ requests, Outcome reward answers start address
        (.error (some 410) (answerTo reward answers address).message
          (strip reward.unicode.isSpace address)) requests
  timeout : Gets reward answers address 408 → ∃ requests ≤ 6, Outcome reward answers start address
    (.error (some 408) (answerTo reward answers address).message
      (strip reward.unicode.isSpace address)) requests
  forbidden : Gets reward answers address 403 → Outcome reward answers start address
    (.error (some 403) (answerTo reward answers address).message
      (strip reward.unicode.isSpace address)) 1
  ends : (∀ query, isUsageLimitStatus (answers query).status = false) →
    ∃ result requests, Outcome reward answers start address result requests ∧
      requests ≤ address.count ';' + 6

end Table

variable {reward : GeoScoreAccuracy} {answers : Text → Answer} {start : Start}

/-! ## Lookups that end -/

theorem length_queryChain_le (unicode : UnicodeData) (address : Text) :
    (queryChain unicode address).length ≤ address.count ';' + 1 := by
  induction length : address.length using Nat.strongRecOn generalizing address with
  | ind bound ih =>
    have stripped := length_strip_le unicode.isSpace address
    have fewer := (strip_sublist unicode.isSpace address).count_le ';'
    rw [queryChain_eq]
    split
    · exact Nat.zero_le _
    · cases dropped : dropLastPart ';' (strip unicode.isSpace address) with
      | none => exact Nat.le_add_left _ _
      | some shorterAddress =>
        have shorter := length_lt_of_dropLastPart dropped
        obtain ⟨last, isWhole⟩ := eq_append_of_dropLastPart dropped
        rw [isWhole, List.count_append, List.count_cons_self] at fewer
        have rest := ih shorterAddress.length (by omega) shorterAddress rfl
        rw [List.length_cons]
        dsimp only
        omega

variable {answer : Answer}

theorem kind_ne_usageLimit (noLimit : isUsageLimitStatus answer.status = false) :
    answer.reply.kind ≠ .usageLimit := by
  intro isLimit
  rw [Answer.reply, Reply.kind, if_neg (by rw [noLimit]; decide)] at isLimit
  split at isLimit
  · cases isLimit
  · unfold statusKind at isLimit
    split at isLimit
    · cases results : answer.results <;> rw [results] at isLimit <;> cases isLimit
    · rw [if_neg (by rw [noLimit]; decide)] at isLimit
      split at isLimit
      · cases isLimit
      · split at isLimit <;> cases isLimit

/-- Without usage limits a lookup ends, after a request for each part and five more. -/
theorem exists_outcome (noLimit : ∀ query, isUsageLimitStatus (answers query).status = false)
    (address : Text) : ∃ result requests, Outcome reward answers start address result requests ∧
      requests ≤ address.count ';' + 6 := by
  have unlimited : NoLimit reward (fun query => (answers query).reply) address :=
    fun query _ => kind_ne_usageLimit (noLimit query)
  obtain ⟨observed, decided⟩ := chainVerdict_of_noLimit unlimited
  obtain ⟨fuel, ⟨result, state⟩, found⟩ := exists_lookup_logged decided 0 start.state
  refine ⟨result, _, ⟨fuel, state, found, rfl⟩, ?_⟩
  have few := (lookedUp_of_lookup found).requests_le unlimited
  have parts := length_queryChain_le reward.unicode address
  have none : start.state.service.length = 0 := rfl
  omega

/-! ## Statuses that raise -/

/-- A status that the response raises for, and that is no usage limit. -/
def Raises (status : ℕ) : Prop :=
  isUsageLimitStatus status = false ∧ 400 ≤ status ∧ status < 600

/-- What is left of an answer that raises once there are no retries. -/
def raisedError (reward : GeoScoreAccuracy) (answer : Answer) (address : Text) : GeocodingResult :=
  .error (some 0) (sanitizeApiError reward.unicode reward.apiList answer.error) address

theorem react_of_raises (raises : Raises answer.status) (address : Text) (retryCount : ℕ) :
    reward.react address retryCount answer.reply =
      retryOrFail retryCount (raisedError reward answer address) := by
  rw [Answer.reply, GeoScoreAccuracy.react, if_neg (by rw [raises.1]; decide), if_pos raises.2]
  rfl

theorem kind_of_raises (raises : Raises answer.status) : answer.reply.kind = .retried := by
  rw [Answer.reply, Reply.kind, if_neg (by rw [raises.1]; decide), if_pos raises.2]

variable {retryCount : ℕ} {result : GeocodingResult}

theorem finish_of_retryOrFail {failure : GeocodingResult}
    (reacts : retryOrFail retryCount failure = .finish result) : result = failure := by
  rw [retryOrFail] at reacts
  split at reacts
  · cases reacts
  · exact (Reaction.finish.inj reacts).symm

theorem retryOrFail_ne_shorten (retryCount : ℕ) (failure : GeocodingResult)
    (shorterAddress : Text) : retryOrFail retryCount failure ≠ .shorten shorterAddress := by
  rw [retryOrFail]
  split <;> exact Reaction.noConfusion

variable {address : Text}

theorem finish_of_shortenOrFail {failure : GeocodingResult}
    (reacts : shortenOrFail address failure = .finish result) : result = failure := by
  rw [shortenOrFail] at reacts
  split at reacts
  · cases reacts
  · exact (Reaction.finish.inj reacts).symm

/-- A store without entries. -/
def HoldsNothing (store : GeocodingCache) : Prop := ∀ key result, ¬ store.Holds key result

theorem Start.holdsNothing (start : Start) : HoldsNothing start.state.store := by
  rintro key result (inCache | inFile)
  · cases inCache
  · rw [show start.state.store.cacheFile = start.cacheFile from rfl, start.empty] at inFile
    cases inFile

/-- An address whose answer raises has the code 0, after all retries. -/
theorem LookedUp.eq_raisedError {state state' : GeocoderState (List Text)}
    (lookedUp : LookedUp reward (fun query => (answers query).reply) address retryCount state result
      state') (nothing : HoldsNothing state.store) (askable : Askable reward.unicode address)
    (raises : Raises (answerTo reward answers address).status) :
    result = raisedError reward (answerTo reward answers address)
      (strip reward.unicode.isSpace address) := by
  induction lookedUp with
  | invalid invalid => exact absurd askable invalid
  | @cached address state result store _ read =>
    have reads := state.store.getCachedGeocoding_holds (lookupKey reward.unicode address)
    rw [read] at reads
    exact absurd (reads.1 result rfl) (nothing _ _)
  | paused _ _ _ ih => exact ih nothing askable raises
  | again _ _ _ ih => exact ih nothing askable raises
  | finish _ reacts =>
    exact finish_of_retryOrFail ((react_of_raises raises _ _).symm.trans reacts)
  | shorten _ reacts _ _ =>
    exact absurd ((react_of_raises raises _ _).symm.trans reacts) (retryOrFail_ne_shorten _ _ _)

variable {other message : Text} {code : Option ℤ}

theorem address_of_reactToStatus {text : Text} {bodyCode : ℤ} {results : List Place}
    (reacts : reactToStatus address retryCount bodyCode text results =
      .finish (.error code message other)) : other = address := by
  unfold reactToStatus at reacts
  dsimp only at reacts
  split at reacts
  · split at reacts
    · cases finish_of_shortenOrFail reacts
      rfl
    · cases reacts
  · split at reacts
    · cases reacts
    · split at reacts
      · cases finish_of_shortenOrFail reacts
        rfl
      · split at reacts
        · cases finish_of_retryOrFail reacts
          rfl
        · cases reacts
          rfl

theorem address_of_react {reply : Reply}
    (reacts : reward.react address retryCount reply = .finish (.error code message other)) :
    other = address := by
  cases reply with
  | requestException error =>
    cases finish_of_retryOrFail reacts
    rfl
  | otherException error =>
    cases reacts
    rfl
  | http status error body =>
    unfold GeoScoreAccuracy.react at reacts
    dsimp only at reacts
    split at reacts
    · cases reacts
    · split at reacts
      · cases finish_of_retryOrFail reacts
        rfl
      · cases body with
        | undecodable reason =>
          cases finish_of_retryOrFail reacts
          rfl
        | malformed reason =>
          cases reacts
          rfl
        | json bodyCode text results => exact address_of_reactToStatus reacts

/-- The error of a lookup names an address that is no longer. -/
theorem LookedUp.length_le {geocoder : Text → Reply} {state state' : GeocoderState (List Text)}
    (lookedUp : LookedUp reward geocoder address retryCount state result state')
    (nothing : HoldsNothing state.store) (isError : result = .error code message other) :
    other.length ≤ address.length := by
  induction lookedUp with
  | @invalid address _ _ _ _ =>
    cases isError
    exact length_strip_le _ _
  | @cached address state result store _ read =>
    have reads := state.store.getCachedGeocoding_holds (lookupKey reward.unicode address)
    rw [read] at reads
    exact absurd (reads.1 result rfl) (nothing _ _)
  | paused _ _ _ ih => exact ih nothing isError
  | again _ _ _ ih => exact ih nothing isError
  | @finish address _ _ _ _ reacts =>
    rw [isError] at reacts
    rw [address_of_react reacts]
    exact length_strip_le _ _
  | @shorten address shorterAddress _ _ _ _ _ reacts _ ih =>
    have shorter := length_lt_of_dropLastPart (dropped_of_shorten reacts).2
    have stripped := length_strip_le reward.unicode.isSpace address
    have rest := ih nothing isError
    omega

/-! ## The table -/

/-- The statuses of the table that a response raises for. -/
def tableErrors : List ℕ := [403, 408, 410]

theorem raises_of_mem {status : ℕ} (member : status ∈ tableErrors) : Raises status := by
  simp only [tableErrors, List.mem_cons, List.not_mem_nil, or_false] at member
  rcases member with rfl | rfl | rfl <;> exact ⟨by decide, by decide, by decide⟩

/-- An address that gets such a status has an outcome, with the code 0. -/
theorem exists_outcome_of_raises (askable : Askable reward.unicode address)
    (raises : Raises (answerTo reward answers address).status) :
    ∃ requests, Outcome reward answers start address
      (raisedError reward (answerTo reward answers address)
        (strip reward.unicode.isSpace address)) requests := by
  have decided : chainVerdict (fun query => (answers query).reply)
      (queryChain reward.unicode address) = some failed := by
    rw [chainVerdict_queryChain reward _ askable, replyKind]
    have kind : (answers (commaSeparated (strip reward.unicode.isSpace address))).reply.kind =
        .retried := kind_of_raises raises
    rw [kind]
  obtain ⟨fuel, ⟨result, state⟩, found⟩ := exists_lookup_logged decided 0 start.state
  have isError := (lookedUp_of_lookup found).eq_raisedError start.holdsNothing askable raises
  exact ⟨_, fuel, state, isError ▸ found, rfl⟩

theorem eq_raisedError_of_outcome {requests : ℕ}
    (outcome : Outcome reward answers start address result requests)
    (askable : Askable reward.unicode address)
    (raises : Raises (answerTo reward answers address).status) :
    result = raisedError reward (answerTo reward answers address)
      (strip reward.unicode.isSpace address) := by
  obtain ⟨fuel, state, found, -⟩ := outcome
  exact (lookedUp_of_lookup found).eq_raisedError start.holdsNothing askable raises

theorem not_followsTable {status : ℕ} (member : status ∈ tableErrors)
    (gets : Gets reward answers address status) : ¬ FollowsTable reward answers start address := by
  intro follows
  have askable := gets.1
  have raises : Raises (answerTo reward answers address).status := gets.2 ▸ raises_of_mem member
  have given {result : GeocodingResult} {requests : ℕ} :=
    @eq_raisedError_of_outcome reward answers start result address requests
  simp only [tableErrors, List.mem_cons, List.not_mem_nil, or_false] at member
  rcases member with rfl | rfl | rfl
  · have zero := given (follows.forbidden gets) askable raises
    cases zero
  · obtain ⟨requests, -, outcome⟩ := follows.timeout gets
    have zero := given outcome askable raises
    cases zero
  · have tooLong := follows.tooLong gets
    cases dropped : dropLastPart ';' (strip reward.unicode.isSpace address) with
    | none =>
      rw [dropped] at tooLong
      obtain ⟨requests, outcome⟩ := tooLong
      have zero := given outcome askable raises
      cases zero
    | some shorterAddress =>
      -- The error of the shorter address cannot name this one.
      rw [dropped] at tooLong
      obtain ⟨requests, fuel, state, found, -⟩ :=
        (tooLong _).mp (exists_outcome_of_raises askable raises)
      have short := (lookedUp_of_lookup found).length_le start.holdsNothing rfl
      exact absurd (length_lt_of_dropLastPart dropped) (Nat.not_lt_of_le short)

/-- **The table is followed exactly where none of its three errors is given.** -/
theorem followsTable_iff (reward : GeoScoreAccuracy) (answers : Text → Answer) (start : Start)
    (address : Text) : FollowsTable reward answers start address ↔
      ∀ status ∈ tableErrors, ¬ Gets reward answers address status := by
  constructor
  · intro follows status member gets
    exact not_followsTable member gets follows
  · intro free
    refine ⟨fun gets => ?_, fun gets => ?_, fun gets => ?_, fun noLimit => ?_⟩
    · exact absurd gets (free 410 (by decide))
    · exact absurd gets (free 408 (by decide))
    · exact absurd gets (free 403 (by decide))
    · exact exists_outcome noLimit address

/-- A service that forbids everything. -/
def forbids (_ : Text) : Answer :=
  ⟨403, "403 Client Error: Forbidden".toList, "suspended".toList, []⟩

/-- **A forbidden address does not get the code 403.** -/
theorem not_followsTable_forbids :
    ¬ FollowsTable ⟨asciiUnicode, []⟩ forbids ⟨none, rfl, 0⟩ "Paris".toList := by
  have gets : Gets ⟨asciiUnicode, []⟩ forbids "Paris".toList 403 := ⟨by decide +kernel, rfl⟩
  exact not_followsTable (by decide) gets

end Geobench.Rewards
