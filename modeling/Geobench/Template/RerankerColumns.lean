import Geobench.Library.ListSlices
import Geobench.Template.Reranker

/-!
# When the collator of a reranker gives back the encodings

The collator reads the columns of a sample at the place of a candidate. A column has the values of
those candidates that carry its key, so this is the candidate's own value only where none of the
candidates before it lacks the key, or where the value found is the same.

**`collates_iff`**: the collator gives back the groups of the candidates drawn, for every choice,
exactly when this is so at each place that may be drawn and no limit in use is negative. Where all
candidates may be drawn this says that all of them carry the same keys (`keepsPlaces_iff`).
-/

namespace Geobench.Template

open Library List

variable {α σ : Type}

/-! ## What the collator is for -/

/-- A dictionary of features has the values of a record that are not empty, and no others. -/
def IsHeldBy (record : Record Text (Option α)) (features : List (Text × α)) : Prop :=
  ∀ key, valueAt features key = (record.get? key).join

/-- The features are those of the candidate at a place. -/
def Candidates.Holds (candidates : Candidates α) (place : ℕ) (features : List (Text × α)) : Prop :=
  ∃ record, candidates.records[place]? = some record ∧ IsHeldBy record features

/-- The groups of a sample have different positives, each with different negatives, as many as the
limits allow. -/
structure WellDrawn (limits : SampleLimits) (candidates : Candidates α) (groups : List (Group ℕ)) :
    Prop where
  count : (groups.length : ℤ) = min (candidates.positives.length : ℤ) limits.maxPositiveSamples
  positives : (groups.map Group.positive).Nodup
  isPositive : ∀ group ∈ groups, group.positive < candidates.positives.length
  negativeCount : ∀ group ∈ groups,
    (group.negatives.length : ℤ) = min (candidates.negatives.length : ℤ) limits.maxNegativeSamples
  negatives : ∀ group ∈ groups, group.negatives.Nodup
  isNegative : ∀ group ∈ groups, ∀ place ∈ group.negatives,
    candidates.positives.length ≤ place ∧ place < candidates.records.length

def placesInOrder (places : List (Candidates α × List (Group ℕ))) : List (Candidates α × ℕ) :=
  places.flatMap fun drawn => drawn.2.flatMap fun group => group.members.map (drawn.1, ·)

/-- The collator gives the groups that the random choices determine, with the features of the
candidates in them, and labels that mark the positives. -/
def Collates (sampler : Sampler σ) (limits : SampleLimits) (batch : List (Candidates α))
    (state : σ) : Prop :=
  ∃ collated places next,
    rerankerDataCollator sampler limits (batch.map rerankerEncode) state = .ok (collated, next) ∧
      drawnPlaces sampler limits batch state = .ok (places, next) ∧
      places.map Prod.fst = batch ∧
      (∀ drawn ∈ places, WellDrawn limits drawn.1 drawn.2) ∧
      List.Forall₂ (fun place features => place.1.Holds place.2 features) (placesInOrder places)
        collated.newBatch ∧
      collated.labelsList = places.flatMap fun drawn => drawn.2.flatMap Group.labels

/-! ## The condition -/

/-- For each key of the sample, the candidate at this place of those that carry the key has the
value of the candidate at this place. -/
def Candidates.KeepsPlace (candidates : Candidates α) (place : ℕ) : Prop :=
  ∀ record, candidates.records[place]? = some record →
    ∀ key, (∃ other ∈ candidates.records, other.Carries key) →
      ∃ other, (candidates.records.filter (·.Carries key))[place]? = some other ∧
        (other.get? key).join = (record.get? key).join

/-- The limits and the sample allow a group with the place. -/
def Candidates.Drawable (limits : SampleLimits) (candidates : Candidates α) (place : ℕ) : Prop :=
  1 ≤ limits.maxPositiveSamples ∧ candidates.positives ≠ [] ∧
    (place < candidates.positives.length ∨
      1 ≤ limits.maxNegativeSamples ∧ place < candidates.records.length)

/-- No limit in use is negative, and places that may be drawn are kept. -/
structure Candidates.Aligned (limits : SampleLimits) (candidates : Candidates α) : Prop where
  maxPositive : 0 ≤ limits.maxPositiveSamples
  maxNegative : 1 ≤ limits.maxPositiveSamples → candidates.positives ≠ [] →
    0 ≤ limits.maxNegativeSamples
  places : ∀ place, candidates.Drawable limits place → candidates.KeepsPlace place

/-- All places are kept exactly when all candidates carry the same keys. -/
theorem keepsPlaces_iff (candidates : Candidates α) :
    (∀ place < candidates.records.length, candidates.KeepsPlace place) ↔
      ∀ record ∈ candidates.records, ∀ other ∈ candidates.records, ∀ key,
        other.Carries key → record.Carries key := by
  constructor
  · intro keeps record isRecord other isOther key carries
    have inside : candidates.records.length - 1 < candidates.records.length :=
      Nat.sub_one_lt (ne_nil_of_mem isRecord <| length_eq_zero_iff.mp ·)
    obtain ⟨_, isPlaced, -⟩ :=
      keeps _ inside _ (getElem?_eq_getElem inside) key ⟨other, isOther, carries⟩
    have placed := (List.getElem?_eq_some_iff.mp isPlaced).1
    have few := length_filter_le (decide <| ·.Carries key) candidates.records
    exact of_decide_eq_true (length_filter_eq_length_iff.mp (few.antisymm (by omega)) record isRecord)
  · rintro same place - record isRecord key ⟨other, isOther, carries⟩
    refine ⟨record, ?_, rfl⟩
    rwa [filter_eq_self.mpr fun record isRecord =>
      decide_eq_true (same record isRecord other isOther key carries)]

/-! ## The columns at a place -/

variable {place : ℕ}

theorem Column.fieldAt_list_eq_ok {key : Text} {values : List (Option α)}
    {field : Option (Text × α)} :
    Column.fieldAt place (key, .list values) = .ok field ↔
      ∃ value, values[place]? = some value ∧ field = value.map (key, ·) := by
  simp only [Column.fieldAt]
  cases values[place]? with
  | none => simp
  | some value => simp [eq_comm]

def placedField (place : ℕ) (entry : Text × List (Option α)) : Option (Text × α) :=
  entry.2[place]?.join.map (entry.1, ·)

variable {candidates : Candidates α}

/-- The features at a place are the values that are there, if each column reaches it. -/
theorem featuresAt_eq_ok {features : List (Text × α)} :
    (rerankerEncode candidates).featuresAt place = .ok features ↔
      (∀ entry ∈ transpose candidates.records, place < entry.2.length) ∧
        features = (transpose candidates.records).filterMap (placedField place) := by
  have atEntry : ∀ entry : Text × List (Option α), place < entry.2.length →
      Column.fieldAt place (entry.1, .list entry.2) = .ok (placedField place entry) := by
    intro entry reached
    refine Column.fieldAt_list_eq_ok.mpr ⟨_, getElem?_eq_getElem reached, ?_⟩
    simp [placedField, getElem?_eq_getElem reached]
  have allReached : (∀ entry ∈ transpose candidates.records, place < entry.2.length) →
      (rerankerEncode candidates).featuresAt place =
        .ok ((transpose candidates.records).filterMap (placedField place)) := by
    intro reached
    refine map_eq_ok.mpr ⟨(transpose candidates.records).map (placedField place), ?_, ?_⟩
    · refine mapM_eq_ok_iff.mpr ?_
      rw [rerankerEncode, forall₂_map_left_iff, forall₂_map_right_iff, forall₂_same]
      exact fun entry isEntry => atEntry entry (reached entry isEntry)
    · change ((transpose candidates.records).map (placedField place)).filterMap id = _
      rw [filterMap_map]
      rfl
  constructor
  · intro isOk
    have reached : ∀ entry ∈ transpose candidates.records, place < entry.2.length := by
      intro entry isEntry
      obtain ⟨fields, areFields, -⟩ := map_eq_ok.mp isOk
      obtain ⟨field, isField⟩ :=
        succeeds_of_mapM_eq_ok areFields (mem_map_of_mem isEntry)
      obtain ⟨value, isValue, -⟩ := Column.fieldAt_list_eq_ok.mp isField
      exact (List.getElem?_eq_some_iff.mp isValue).1
    exact ⟨reached, Except.ok.inj (isOk.symm.trans (allReached reached))⟩
  · rintro ⟨reached, rfl⟩
    exact allReached reached

theorem valueAt_placedFields {columns : List (Text × List (Option α))}
    (different : (columns.map Prod.fst).Nodup) (place : ℕ) (key : Text) :
    valueAt (columns.filterMap (placedField place)) key = (column columns key)[place]?.join := by
  induction columns with
  | nil => simp [column, valueAt]
  | cons first rest ih =>
    rw [map_cons, nodup_cons] at different
    rw [column_cons, filterMap_cons]
    by_cases isKey : key = first.1
    · have noOther : valueAt (rest.filterMap (placedField place)) key = none := by
        rw [ih different.2, column, valueAt_eq_none (isKey ▸ different.1)]
        rfl
      rw [if_pos isKey, placedField]
      cases first.2[place]?.join with
      | none => exact noOther
      | some value => rw [Option.map_some, valueAt_cons, if_pos isKey]
    · rw [if_neg isKey, ← ih different.2, placedField]
      cases first.2[place]?.join with
      | none => rfl
      | some value => rw [Option.map_some, valueAt_cons, if_neg isKey]

/-- The candidate at a place is given back exactly if its place is kept. -/
theorem exists_featuresAt_iff (inside : place < candidates.records.length) :
    (∃ features, (rerankerEncode candidates).featuresAt place = .ok features ∧
        candidates.Holds place features) ↔ candidates.KeepsPlace place := by
  have value_eq : ∀ key, valueAt
      ((transpose candidates.records).filterMap (placedField place)) key =
        ((candidates.records.filter (·.Carries key))[place]?.bind (·.get? key)).join := by
    intro key
    rw [valueAt_placedFields (nodup_keys_transpose _), column_transpose, getElem?_filterMap_get?]
  constructor
  · rintro ⟨features, isOk, record, isRecord, holds⟩ other isOther key carried
    obtain rfl := Option.some.inj (isRecord.symm.trans isOther)
    obtain ⟨reached, rfl⟩ := featuresAt_eq_ok.mp isOk
    have enough := forall_reached_iff.mp reached key carried
    refine ⟨_, getElem?_eq_getElem enough, ?_⟩
    rw [← holds key, value_eq, getElem?_eq_getElem enough]
    rfl
  · intro kept
    have isRecord := getElem?_eq_getElem inside
    refine ⟨_, featuresAt_eq_ok.mpr ⟨forall_reached_iff.mpr fun key carried => ?_, rfl⟩,
      _, isRecord, fun key => ?_⟩
    · obtain ⟨other, isOther, -⟩ := kept _ isRecord key carried
      exact (List.getElem?_eq_some_iff.mp isOther).1
    · rw [value_eq]
      by_cases carried : ∃ other ∈ candidates.records, other.Carries key
      · obtain ⟨other, isOther, same⟩ := kept _ isRecord key carried
        rw [isOther, ← same]
        rfl
      · have lacks : ∀ other ∈ candidates.records, ¬ other.Carries key :=
          fun other isOther carries => carried ⟨other, isOther, carries⟩
        have none_carry : candidates.records.filter (·.Carries key) = [] := by
          rw [filter_eq_nil_iff]
          simpa using lacks
        have own : candidates.records[place].get? key = none := by
          simpa [Record.Carries] using lacks _ (getElem_mem inside)
        rw [none_carry, own]
        rfl

/-! ## The groups drawn -/

section Drawing

variable {β : Type} {sampler : Sampler σ} {limits : SampleLimits}

variable {limit : ℤ} {state : σ}

theorem randomSample_eq_ok {population : ℕ} {found : List ℕ × σ} :
    randomSample sampler population (min (population : ℤ) limit) state = .ok found ↔
      0 ≤ limit ∧ found = sampler.draw population (min (population : ℤ) limit).toNat state := by
  rw [randomSample]
  split
  · simp only [Except.ok.injEq, eq_comm (a := found), iff_and_self]
    omega
  · simp only [reduceCtorEq, false_iff, not_and]
    omega

theorem randomSample_succeeds (population : ℕ) (nonneg : 0 ≤ limit) (state : σ) :
    ∃ drawn, randomSample sampler population (min (population : ℤ) limit) state = .ok drawn :=
  ⟨_, randomSample_eq_ok.mpr ⟨nonneg, rfl⟩⟩

/-- What is drawn are different positions, as many as the limit allows. -/
theorem randomSample_spec {population : ℕ} {found : List ℕ × σ}
    (drawn : randomSample sampler population (min (population : ℤ) limit) state = .ok found) :
    (found.1.length : ℤ) = min (population : ℤ) limit ∧ found.1.Nodup ∧
      ∀ place ∈ found.1, place < population := by
  obtain ⟨nonneg, rfl⟩ := randomSample_eq_ok.mp drawn
  have enough : (min (population : ℤ) limit).toNat ≤ population := by omega
  refine ⟨?_, sampler.nodup_draw enough state, sampler.lt_of_mem_draw enough⟩
  rw [sampler.length_draw enough state]
  omega

variable {positiveNum negativeNum place : ℕ} {featuresAt : ℕ → Except CollatorError β}

theorem drawGroup_eq_ok {found : Group β × σ} :
    drawGroup sampler limits positiveNum negativeNum featuresAt place state = .ok found ↔
      ∃ positive drawn negatives, featuresAt place = .ok positive ∧
        randomSample sampler negativeNum (min (negativeNum : ℤ) limits.maxNegativeSamples) state =
          .ok drawn ∧
        (drawn.1.mapM fun place => featuresAt (place + positiveNum)) = .ok negatives ∧
        found = (⟨positive, negatives⟩, drawn.2) := by
  rw [drawGroup, bind_eq_ok]
  constructor
  · rintro ⟨positive, isPositive, rest⟩
    obtain ⟨drawn, isDrawn, rest⟩ := bind_eq_ok.mp rest
    obtain ⟨negatives, areNegatives, same⟩ := bind_eq_ok.mp rest
    exact ⟨positive, drawn, negatives, isPositive, isDrawn, areNegatives,
      (Except.ok.inj same).symm⟩
  · rintro ⟨positive, drawn, negatives, isPositive, isDrawn, areNegatives, rfl⟩
    exact ⟨positive, isPositive,
      bind_eq_ok.mpr ⟨drawn, isDrawn, bind_eq_ok.mpr ⟨negatives, areNegatives, rfl⟩⟩⟩

/-- A group of places is the place of its positive with places drawn for its negatives. -/
theorem drawGroup_ok_eq_ok {found : Group ℕ × σ} :
    drawGroup sampler limits positiveNum negativeNum .ok place state = .ok found ↔
      ∃ drawn, randomSample sampler negativeNum
          (min (negativeNum : ℤ) limits.maxNegativeSamples) state = .ok drawn ∧
        found = (⟨place, drawn.1.map (· + positiveNum)⟩, drawn.2) := by
  have negatives_eq : ∀ drawn : List ℕ,
      (drawn.mapM fun place => (.ok (place + positiveNum) : Except CollatorError ℕ)) =
        .ok (drawn.map (· + positiveNum)) := fun drawn => mapM_eq_ok_map fun _ _ => rfl
  rw [drawGroup_eq_ok]
  constructor
  · rintro ⟨positive, drawn, negatives, isPositive, isDrawn, areNegatives, rfl⟩
    obtain rfl := Except.ok.inj isPositive
    obtain rfl := Except.ok.inj ((negatives_eq drawn.1).symm.trans areNegatives)
    exact ⟨drawn, isDrawn, rfl⟩
  · rintro ⟨drawn, isDrawn, rfl⟩
    exact ⟨place, drawn, _, rfl, isDrawn, negatives_eq drawn.1, rfl⟩

/-- What a group of features is at a group of places. -/
structure Group.At (featuresAt : ℕ → Except CollatorError β) (places : Group ℕ)
    (features : Group β) : Prop where
  members : List.Forall₂ (fun place found => featuresAt place = .ok found) places.members
    features.members
  labels : features.labels = places.labels

theorem drawGroup_places {found : Group β × σ}
    (isOk : drawGroup sampler limits positiveNum negativeNum featuresAt place state = .ok found) :
    ∃ places, drawGroup sampler limits positiveNum negativeNum .ok place state =
        .ok (places, found.2) ∧ Group.At featuresAt places found.1 := by
  obtain ⟨positive, drawn, negatives, isPositive, isDrawn, areNegatives, rfl⟩ :=
    drawGroup_eq_ok.mp isOk
  have each := mapM_eq_ok_iff.mp areNegatives
  refine ⟨_, drawGroup_ok_eq_ok.mpr ⟨drawn, isDrawn, rfl⟩, ⟨?_, ?_⟩⟩
  · exact .cons isPositive ((forall₂_map_left_iff).mpr each)
  · simp only [Group.labels, List.map_const', length_map, each.length_eq]

theorem drawGroups_eq_ok {found : List (Group β) × σ} :
    drawGroups sampler limits positiveNum negativeNum featuresAt state = .ok found ↔
      ∃ drawn, randomSample sampler positiveNum
          (min (positiveNum : ℤ) limits.maxPositiveSamples) state = .ok drawn ∧
        mapAccumM (drawGroup sampler limits positiveNum negativeNum featuresAt) drawn.1 drawn.2 =
          .ok found := by
  rw [drawGroups, bind_eq_ok]

/-- The features of a sample's groups are those at the places drawn. -/
theorem drawGroups_places {found : List (Group β) × σ}
    (isOk : drawGroups sampler limits positiveNum negativeNum featuresAt state = .ok found) :
    ∃ places, drawGroups sampler limits positiveNum negativeNum .ok state = .ok (places, found.2) ∧
      List.Forall₂ (Group.At featuresAt) places found.1 := by
  obtain ⟨drawn, isDrawn, ran⟩ := drawGroups_eq_ok.mp isOk
  rw [← map_id drawn.1] at ran
  obtain ⟨places, ranPlaces, related⟩ := mapAccumM_of_ok id
    (fun _ _ _ _ isOk => drawGroup_places isOk) ran
  exact ⟨places, drawGroups_eq_ok.mpr ⟨drawn, isDrawn, ranPlaces⟩, related⟩

variable {candidates : Candidates α}

/-- The groups of places have different positives, and different negatives each. -/
theorem wellDrawn_of_drawGroups {found : List (Group ℕ) × σ}
    (isOk : drawGroups sampler limits candidates.positives.length candidates.negatives.length .ok
      state = .ok found) : WellDrawn limits candidates found.1 := by
  obtain ⟨drawn, isDrawn, ran⟩ := drawGroups_eq_ok.mp isOk
  obtain ⟨count, different, inside⟩ := randomSample_spec isDrawn
  have positives_eq : found.1.map Group.positive = drawn.1 := by
    refine map_eq_of_mapAccumM (fun place _ state found isGroup => ?_) ran
    obtain ⟨_, _, rfl⟩ := drawGroup_ok_eq_ok.mp isGroup
    rfl
  have ofGroup : ∀ group ∈ found.1, ∃ between places,
      randomSample sampler candidates.negatives.length
        (min (candidates.negatives.length : ℤ) limits.maxNegativeSamples) between = .ok places ∧
        group.negatives = places.1.map (· + candidates.positives.length) := by
    intro group isGroup
    obtain ⟨place, _, between, result, atPlace, rfl⟩ := exists_item_of_mapAccumM ran isGroup
    obtain ⟨places, arePlaces, rfl⟩ := drawGroup_ok_eq_ok.mp atPlace
    exact ⟨between, places, arePlaces, rfl⟩
  constructor
  case count => rw [← count, ← positives_eq, length_map]
  case positives => rwa [positives_eq]
  case isPositive =>
    intro group isGroup
    exact inside _ (positives_eq ▸ mem_map_of_mem isGroup)
  case negativeCount =>
    intro group isGroup
    obtain ⟨_, places, arePlaces, negatives_eq⟩ := ofGroup group isGroup
    rw [negatives_eq, length_map]
    exact (randomSample_spec arePlaces).1
  case negatives =>
    intro group isGroup
    obtain ⟨_, places, arePlaces, negatives_eq⟩ := ofGroup group isGroup
    rw [negatives_eq]
    exact (randomSample_spec arePlaces).2.1.map (add_left_injective _)
  case isNegative =>
    intro group isGroup place isNegative
    obtain ⟨_, places, arePlaces, negatives_eq⟩ := ofGroup group isGroup
    rw [negatives_eq] at isNegative
    obtain ⟨drawnPlace, isDrawnPlace, rfl⟩ := List.mem_map.mp isNegative
    have below := (randomSample_spec arePlaces).2.2 drawnPlace isDrawnPlace
    have length_eq : candidates.records.length =
        candidates.positives.length + candidates.negatives.length := by
      simp [Candidates.records, Candidates.encoded]
    omega

theorem WellDrawn.drawable {groups : List (Group ℕ)}
    (wellDrawn : WellDrawn limits candidates groups) {group : Group ℕ} (isGroup : group ∈ groups)
    (isMember : place ∈ group.members) : candidates.Drawable limits place := by
  have someGroup := length_pos_of_mem isGroup
  have count := wellDrawn.count
  have below := wellDrawn.isPositive group isGroup
  refine ⟨by omega, ne_nil_of_length_pos (by omega), ?_⟩
  rcases List.mem_cons.mp isMember with rfl | isNegative
  · exact .inl below
  · have someNegative := length_pos_of_mem isNegative
    have negativeCount := wellDrawn.negativeCount group isGroup
    exact .inr ⟨by omega, (wellDrawn.isNegative group isGroup place isNegative).2⟩

/-! ## The batch -/

theorem groups_rerankerEncode (candidates : Candidates α) (state : σ) :
    (rerankerEncode candidates).groups sampler limits state =
      drawGroups sampler limits candidates.positives.length candidates.negatives.length
        (rerankerEncode candidates).featuresAt state := by
  have sum_eq : (rerankerEncode candidates).labels.sum = candidates.positives.length := by
    simp [rerankerEncode]
  have length_eq : (rerankerEncode candidates).labels.length =
      candidates.positives.length + candidates.negatives.length := by
    simp [rerankerEncode]
  rw [Sample.groups, sum_eq, length_eq, Nat.add_sub_cancel_left]

theorem forall₂_placesInOrder {places : List (Candidates α × List (Group ℕ))}
    {groups : List (List (Group (List (Text × α))))}
    (related : List.Forall₂ (fun drawn groups =>
      List.Forall₂ (Group.At (rerankerEncode drawn.1).featuresAt) drawn.2 groups) places groups) :
    List.Forall₂ (fun place features => (rerankerEncode place.1).featuresAt place.2 = .ok features)
        (placesInOrder places) (groups.flatten.flatMap Group.members) ∧
      groups.flatten.flatMap Group.labels =
        places.flatMap fun drawn => drawn.2.flatMap Group.labels := by
  induction related with
  | nil => exact ⟨.nil, rfl⟩
  | @cons drawn found _ _ first _ ih =>
    rw [placesInOrder, flatMap_cons, flatMap_cons, flatten_cons,
      flatMap_append, flatMap_append]
    have atFirst : List.Forall₂
        (fun place features => (rerankerEncode place.1).featuresAt place.2 = .ok features)
        (drawn.2.flatMap fun group => group.members.map (drawn.1, ·))
        (found.flatMap Group.members) := by
      refine rel_flatMap first fun places features isAt => ?_
      exact List.forall₂_map_left_iff.mpr isAt.members
    have labels_eq : found.flatMap Group.labels = drawn.2.flatMap Group.labels := by
      refine forall₂_eq_eq_eq ▸ rel_flatMap first.flip fun features places isAt => ?_
      exact forall₂_eq_eq_eq ▸ isAt.labels
    exact ⟨rel_append atFirst ih.1, by rw [labels_eq, ih.2]⟩

theorem collator_places {batch : List (Candidates α)} {next : σ} {collated : Collated α}
    (isOk : rerankerDataCollator sampler limits (batch.map rerankerEncode) state =
      .ok (collated, next)) :
    ∃ places, drawnPlaces sampler limits batch state = .ok (places, next) ∧
      List.Forall₂
        (fun place features => (rerankerEncode place.1).featuresAt place.2 = .ok features)
        (placesInOrder places) collated.newBatch ∧
      collated.labelsList = places.flatMap fun drawn => drawn.2.flatMap Group.labels := by
  obtain ⟨found, ran, same⟩ := map_eq_ok.mp isOk
  obtain ⟨rfl, rfl⟩ := Prod.mk.inj same
  have follows : ∀ candidates ∈ batch, ∀ state found,
      (rerankerEncode candidates).groups sampler limits state = .ok found →
        ∃ drawn, (drawGroups sampler limits candidates.positives.length
            candidates.negatives.length .ok state).map
              (fun found => ((candidates, found.1), found.2)) = .ok (drawn, found.2) ∧
          List.Forall₂ (Group.At (rerankerEncode drawn.1).featuresAt) drawn.2 found.1 := by
    intro candidates _ state found isGroups
    rw [groups_rerankerEncode] at isGroups
    obtain ⟨places, arePlaces, related⟩ := drawGroups_places isGroups
    exact ⟨(candidates, places), map_eq_ok.mpr ⟨_, arePlaces, rfl⟩, related⟩
  obtain ⟨places, ranPlaces, related⟩ := mapAccumM_of_ok rerankerEncode follows ran
  exact ⟨places, ranPlaces, forall₂_placesInOrder related⟩

theorem wellDrawn_of_drawnPlaces {batch : List (Candidates α)}
    {found : List (Candidates α × List (Group ℕ)) × σ}
    (isOk : drawnPlaces sampler limits batch state = .ok found) :
    found.1.map Prod.fst = batch ∧ ∀ drawn ∈ found.1, WellDrawn limits drawn.1 drawn.2 := by
  constructor
  · refine map_eq_of_mapAccumM (fun candidates _ state found isDrawn => ?_) isOk
    obtain ⟨_, _, rfl⟩ := map_eq_ok.mp isDrawn
    rfl
  · intro drawn isDrawn
    obtain ⟨candidates, _, _, _, atSample, rfl⟩ := exists_item_of_mapAccumM isOk isDrawn
    obtain ⟨groups, areGroups, rfl⟩ := map_eq_ok.mp atSample
    exact wellDrawn_of_drawGroups areGroups

/-! ## The exact condition -/

theorem Candidates.length_records (candidates : Candidates α) :
    candidates.records.length = candidates.positives.length + candidates.negatives.length := by
  simp [Candidates.records, Candidates.encoded]

theorem Candidates.Drawable.inside {candidates : Candidates α} {place : ℕ}
    (drawable : candidates.Drawable limits place) : place < candidates.records.length := by
  have length_eq := candidates.length_records
  rcases drawable.2.2 with below | ⟨-, inside⟩
  · omega
  · exact inside

theorem Candidates.Aligned.groups_succeed (aligned : candidates.Aligned limits) (state : σ) :
    ∃ found, (rerankerEncode candidates).groups sampler limits state = .ok found := by
  have records_eq := candidates.length_records
  have featuresAt_succeeds : ∀ place, candidates.Drawable limits place →
      ∃ features, (rerankerEncode candidates).featuresAt place = .ok features := by
    intro place drawable
    obtain ⟨features, isOk, -⟩ :=
      (exists_featuresAt_iff drawable.inside).mpr (aligned.places place drawable)
    exact ⟨features, isOk⟩
  rw [groups_rerankerEncode]
  obtain ⟨drawn, isDrawn⟩ :=
    randomSample_succeeds candidates.positives.length aligned.maxPositive state
  obtain ⟨count, -, positive⟩ := randomSample_spec isDrawn
  have eachGroup : ∀ place ∈ drawn.1, ∀ state, ∃ found, drawGroup sampler limits
      candidates.positives.length candidates.negatives.length
      (rerankerEncode candidates).featuresAt place state = .ok found := by
    intro place isPlace state
    have somePlace := length_pos_of_mem isPlace
    have below := positive place isPlace
    have limitPos : 1 ≤ limits.maxPositiveSamples := by omega
    have somePositive : candidates.positives ≠ [] := ne_nil_of_length_pos (by omega)
    obtain ⟨features, isFeatures⟩ :=
      featuresAt_succeeds place ⟨limitPos, somePositive, .inl below⟩
    obtain ⟨negatives, areNegatives⟩ := randomSample_succeeds candidates.negatives.length
      (aligned.maxNegative limitPos somePositive) state
    obtain ⟨negativeCount, -, negative⟩ := randomSample_spec areNegatives
    have eachNegative : ∀ place ∈ negatives.1, ∃ features,
        (rerankerEncode candidates).featuresAt (place + candidates.positives.length) =
          .ok features := by
      intro place isNegative
      have someNegative := length_pos_of_mem isNegative
      have inside := negative place isNegative
      exact featuresAt_succeeds _ ⟨limitPos, somePositive, .inr ⟨by omega, by omega⟩⟩
    obtain ⟨others, areOthers⟩ := exists_mapM_eq_ok eachNegative
    exact ⟨_, drawGroup_eq_ok.mpr
      ⟨features, negatives, others, isFeatures, areNegatives, areOthers, rfl⟩⟩
  obtain ⟨result, ran⟩ := mapAccumM_succeeds eachGroup drawn.2
  exact ⟨result, drawGroups_eq_ok.mpr ⟨drawn, isDrawn, ran⟩⟩

end Drawing

/-- The collator gives the candidates drawn if their places are kept. -/
theorem collates_of_aligned (sampler : Sampler σ) {limits : SampleLimits}
    {batch : List (Candidates α)} (aligned : ∀ candidates ∈ batch, candidates.Aligned limits)
    (state : σ) : Collates sampler limits batch state := by
  have succeeds : ∀ sample ∈ batch.map rerankerEncode, ∀ state,
      ∃ found, sample.groups sampler limits state = .ok found := by
    intro sample isSample state
    obtain ⟨candidates, isCandidates, rfl⟩ := List.mem_map.mp isSample
    exact (aligned candidates isCandidates).groups_succeed state
  obtain ⟨found, ran⟩ := mapAccumM_succeeds succeeds state
  obtain ⟨collated, next, isOk⟩ : ∃ collated next,
      rerankerDataCollator sampler limits (batch.map rerankerEncode) state =
        .ok (collated, next) := ⟨_, _, map_eq_ok.mpr ⟨found, ran, rfl⟩⟩
  obtain ⟨places, arePlaces, features, labels_eq⟩ := collator_places isOk
  obtain ⟨samples_eq, wellDrawn⟩ := wellDrawn_of_drawnPlaces arePlaces
  have kept : ∀ place ∈ placesInOrder places, ∃ features,
      (rerankerEncode place.1).featuresAt place.2 = .ok features ∧
        place.1.Holds place.2 features := by
    intro place isPlace
    obtain ⟨drawn, isDrawn, inDrawn⟩ := List.mem_flatMap.mp isPlace
    obtain ⟨group, isGroup, inGroup⟩ := List.mem_flatMap.mp inDrawn
    obtain ⟨member, isMember, rfl⟩ := List.mem_map.mp inGroup
    have drawable := (wellDrawn drawn isDrawn).drawable isGroup isMember
    have isSample : drawn.1 ∈ batch := samples_eq ▸ mem_map_of_mem isDrawn
    exact (exists_featuresAt_iff drawable.inside).mpr
      ((aligned drawn.1 isSample).places member drawable)
  refine ⟨collated, places, next, isOk, arePlaces, samples_eq, wellDrawn, ?_, labels_eq⟩
  refine ((forall₂_and_left _ _).mpr ⟨kept, features⟩).imp ?_
  rintro place found ⟨⟨features, isFeatures, holds⟩, isFound⟩
  obtain rfl := Except.ok.inj (isFeatures.symm.trans isFound)
  exact holds

theorem drawGroups_rotating {limits : SampleLimits} {shift : ℕ} {found : List (Group ℕ) × Unit}
    (isOk : drawGroups (rotating shift) limits candidates.positives.length
      candidates.negatives.length .ok () = .ok found) :
    0 ≤ limits.maxPositiveSamples ∧
      (1 ≤ limits.maxPositiveSamples → candidates.positives ≠ [] →
        0 ≤ limits.maxNegativeSamples) ∧
      ∀ place, candidates.Drawable limits place →
        (place < candidates.positives.length ∧ place = shift) ∨
            place = candidates.positives.length + shift →
          ∃ group ∈ found.1, place ∈ group.members := by
  obtain ⟨drawn, isDrawn, ran⟩ := drawGroups_eq_ok.mp isOk
  obtain ⟨count, -, -⟩ := randomSample_spec isDrawn
  obtain ⟨nonneg, rfl⟩ := randomSample_eq_ok.mp isDrawn
  have ofPlace : ∀ place ∈ ((rotating shift).draw candidates.positives.length
      (min (candidates.positives.length : ℤ) limits.maxPositiveSamples).toNat ()).1,
      ∃ negatives, randomSample (rotating shift) candidates.negatives.length
          (min (candidates.negatives.length : ℤ) limits.maxNegativeSamples) () = .ok negatives ∧
        ⟨place, negatives.1.map (· + candidates.positives.length)⟩ ∈ found.1 := by
    intro place isPlace
    obtain ⟨_, group, isGroup, isFound⟩ := exists_value_of_mapAccumM ran isPlace
    obtain ⟨negatives, areNegatives, rfl⟩ := drawGroup_ok_eq_ok.mp isGroup
    exact ⟨negatives, areNegatives, isFound⟩
  have somePlace : 1 ≤ limits.maxPositiveSamples → candidates.positives ≠ [] →
      ∃ place, place ∈ ((rotating shift).draw candidates.positives.length
        (min (candidates.positives.length : ℤ) limits.maxPositiveSamples).toNat ()).1 := by
    intro limitPos somePositive
    have := length_pos_of_ne_nil somePositive
    exact exists_mem_of_length_pos (by omega)
  refine ⟨nonneg, fun limitPos somePositive => ?_, fun place drawable isShift => ?_⟩
  · obtain ⟨place, isPlace⟩ := somePlace limitPos somePositive
    obtain ⟨negatives, areNegatives, -⟩ := ofPlace place isPlace
    exact (randomSample_eq_ok.mp areNegatives).1
  · have inside := drawable.inside
    obtain ⟨limitPos, somePositive, allowed⟩ := drawable
    rcases isShift with ⟨below, rfl⟩ | rfl
    · obtain ⟨_, _, isGroup⟩ := ofPlace place (mem_draw_rotating below (by omega))
      exact ⟨_, isGroup, mem_cons_self⟩
    · obtain ⟨place, isPlace⟩ := somePlace limitPos somePositive
      obtain ⟨negatives, areNegatives, isGroup⟩ := ofPlace place isPlace
      obtain ⟨-, rfl⟩ := randomSample_eq_ok.mp areNegatives
      rw [candidates.length_records] at inside allowed
      refine ⟨_, isGroup, mem_cons_of_mem _ (List.mem_map.mpr ⟨shift, ?_, ?_⟩)⟩
      · exact mem_draw_rotating (by omega) (by omega)
      · exact Nat.add_comm _ _

/-- **The collator gives the candidates drawn, for every choice, exactly if their places are
kept and no limit in use is negative.** -/
theorem collates_iff (limits : SampleLimits) (batch : List (Candidates α)) :
    (∀ (σ : Type) (sampler : Sampler σ) (state : σ), Collates sampler limits batch state) ↔
      ∀ candidates ∈ batch, candidates.Aligned limits := by
  constructor
  · intro collates candidates isSample
    -- The groups of the sample that a source starting at a position draws, and their features.
    have atShift : ∀ shift, ∃ groups, drawGroups (rotating shift) limits
        candidates.positives.length candidates.negatives.length .ok () = .ok (groups, ()) ∧
        ∀ group ∈ groups, ∀ place ∈ group.members, candidates.KeepsPlace place := by
      intro shift
      obtain ⟨collated, places, next, isOk, arePlaces, -, wellDrawn, holds, -⟩ :=
        collates Unit (rotating shift) ()
      obtain ⟨_, areSame, features, -⟩ := collator_places isOk
      obtain ⟨rfl, -⟩ := Prod.mk.inj (Except.ok.inj (arePlaces.symm.trans areSame))
      obtain ⟨_, found, isFound, inPlaces⟩ := exists_value_of_mapAccumM arePlaces isSample
      obtain ⟨⟨groups, _⟩, areGroups, rfl⟩ := map_eq_ok.mp isFound
      refine ⟨groups, areGroups, fun group isGroup place isMember => ?_⟩
      have isPlace : (candidates, place) ∈ placesInOrder places :=
        List.mem_flatMap.mpr ⟨_, inPlaces, List.mem_flatMap.mpr
          ⟨group, isGroup, List.mem_map_of_mem isMember⟩⟩
      have drawable := (wellDrawn _ inPlaces).drawable isGroup isMember
      obtain ⟨found, isFeatures, isHeld⟩ := exists_both_of_forall₂ features holds isPlace
      exact (exists_featuresAt_iff drawable.inside).mp ⟨found, isFeatures, isHeld⟩
    constructor
    case maxPositive =>
      obtain ⟨_, areGroups, -⟩ := atShift 0
      exact (drawGroups_rotating areGroups).1
    case maxNegative =>
      obtain ⟨_, areGroups, -⟩ := atShift 0
      exact (drawGroups_rotating areGroups).2.1
    case places =>
      intro place drawable
      rcases Nat.lt_or_ge place candidates.positives.length with below | above
      · obtain ⟨_, areGroups, kept⟩ := atShift place
        obtain ⟨group, isGroup, isMember⟩ :=
          (drawGroups_rotating areGroups).2.2 place drawable (.inl ⟨below, rfl⟩)
        exact kept group isGroup place isMember
      · obtain ⟨_, areGroups, kept⟩ := atShift (place - candidates.positives.length)
        obtain ⟨group, isGroup, isMember⟩ :=
          (drawGroups_rotating areGroups).2.2 place drawable (.inr (by omega))
        exact kept group isGroup place isMember
  · exact fun aligned _ sampler state => collates_of_aligned sampler aligned state

/-! ## A sample with one image -/

def withImage : Encoded ℕ where
  fields := [("input_ids".toList, some 0), ("pixel_values".toList, some 1)]
  nodup_keys := by decide
  no_labels := by decide

def textOnly : Encoded ℕ where
  fields := [("input_ids".toList, some 2)]
  nodup_keys := by decide
  no_labels := by decide

/-- The negative of text only has no place in the column of the images. -/
theorem textOnly_raises :
    ¬ ∀ (limits : SampleLimits) (batch : List (Candidates ℕ)) (σ : Type) (sampler : Sampler σ)
      (state : σ), Collates sampler limits batch state := by
  intro collates
  obtain ⟨_, _, _, isOk, -⟩ := collates {} [⟨[withImage], [textOnly]⟩] Unit (rotating 0) ()
  have raises : rerankerDataCollator (rotating 0) {}
      ([⟨[withImage], [textOnly]⟩].map rerankerEncode) () =
        .error (.indexError "list index out of range") := by
    decide +kernel
  rw [raises] at isOk
  cases isOk

end Geobench.Template
