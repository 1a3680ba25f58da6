import Geobench.Rollout.FlattenedBucket

/-!
# Parameters sent to the workers of a server

After a step of training the parameters go to the workers of the server, one by one, or in buckets
with one flat tensor each. The trainer gives a flat tensor the type of the first parameter of its
bucket, and a worker receives it in a buffer with the type of the last one.

Both trainers put the parameters into buckets in their order (`bucketsFrom_spec`).
**`sync_flattened_iff`**: where the first and the last parameter of each bucket have one type, the
workers load of the buckets what they load of the parameters one by one, exactly when every value
survives the type of the first parameter of its bucket.
-/

namespace Geobench.Rollout

open Library List

variable {β : Type}

/-! ## Buckets of parameters -/

/-- The state of a loop over the parameters. -/
structure Bucketing (β : Type) where
  buckets : List (List (Text × Tensor β))
  currentBucket : List (Text × Tensor β)
  currentSize : ℕ

section Loops

variable (elementSize : Dtype → ℕ)

def paramSize (entry : Text × Tensor β) : ℕ := entry.2.numel * elementSize entry.2.dtype

namespace Bucketing

def start : Bucketing β := ⟨[], [], 0⟩

def close (state : Bucketing β) : Bucketing β := ⟨state.buckets ++ [state.currentBucket], [], 0⟩

def add (state : Bucketing β) (entry : Text × Tensor β) : Bucketing β where
  buckets := state.buckets
  currentBucket := state.currentBucket ++ [entry]
  currentSize := state.currentSize + paramSize elementSize entry

/-- What remains in the current bucket is a bucket as well. -/
def finish (state : Bucketing β) : List (List (Text × Tensor β)) :=
  if state.currentBucket ≠ [] then state.buckets ++ [state.currentBucket] else state.buckets

end Bucketing

/-- The buckets of a loop with the given turn. -/
def bucketsFrom (turn : Bucketing β → Text × Tensor β → Bucketing β)
    (namedParams : List (Text × Tensor β)) : List (List (Text × Tensor β)) :=
  (namedParams.foldl turn .start).finish

variable (bucketSizeMb : ℤ)

/-- A turn of the loop of `_create_parameter_buckets`, which closes a bucket before a parameter
that would exceed the limit. -/
def createStep (state : Bucketing β) (entry : Text × Tensor β) : Bucketing β :=
  let exceeds := bucketSizeMb * 1024 * 1024 < ↑(state.currentSize + paramSize elementSize entry)
  let state := if exceeds ∧ state.currentBucket ≠ [] then state.close else state
  state.add elementSize entry

/-- `_create_parameter_buckets` -/
def createParameterBuckets : List (Text × Tensor β) → List (List (Text × Tensor β)) :=
  bucketsFrom (createStep elementSize bucketSizeMb)

/-- A turn of the loop of `_load_weights_to_server_in_buckets` of the Megatron trainer, which closes
a bucket that exceeds the limit. -/
def serverStep (state : Bucketing β) (entry : Text × Tensor β) : Bucketing β :=
  let state := state.add elementSize entry
  if bucketSizeMb * 1024 * 1024 < state.currentSize ∧ state.currentBucket ≠ [] then state.close
  else state

/-- The buckets that `_load_weights_to_server_in_buckets` sends. -/
def serverBuckets : List (Text × Tensor β) → List (List (Text × Tensor β)) :=
  bucketsFrom (serverStep elementSize bucketSizeMb)

end Loops

/-! ## The workers -/

section Workers

variable (cast : Conversion β) (memory : ℕ → β) (mixed : Dtype → Dtype → List β → ℕ → β)

/-- What a buffer holds after a broadcast: what was sent in it, if the type and the length agree. -/
def broadcast (source : Dtype) (sent : List β) (dtype : Dtype) (length : ℕ) : List β :=
  if source = dtype ∧ sent.length = length then sent
  else (range length).map (mixed source dtype sent)

theorem length_broadcast (source : Dtype) (sent : List β) (dtype : Dtype) (length : ℕ) :
    (broadcast mixed source sent dtype length).length = length := by
  unfold broadcast
  split
  · rename_i agree
    exact agree.2
  · simp

/-- What a worker loads in `update_named_param`, if it does not raise. -/
def updateNamedParam (name : Text) (weights : Tensor β) : Option (List (Text × Tensor β)) := do
  let dtype ← Dtype.getattr (weights.dtype.str.rtakeWhile (· ≠ '.'))
  some [(name, {
    shape := weights.shape
    dtype := dtype
    values := broadcast mixed weights.dtype weights.values dtype weights.shape.prod
    same := length_broadcast mixed _ _ _ _ })]

/-- What a worker loads in `update_flattened_params`. -/
def updateFlattenedParams (bucket : FlattenedTensorBucket β) : Option (List (Text × Tensor β)) := do
  let last ← bucket.metadata.getLast?
  let dtype ← Dtype.getattr (last.dtype.rtakeWhile (· ≠ '.'))
  (FlattenedTensorBucket.reconstructTensors cast { bucket with
    dtype := dtype
    flattenedTensor := broadcast mixed bucket.dtype bucket.flattenedTensor dtype
      last.endIdx }).toOption

/-- `_process_bucket_with_flattened_tensor`, and `_sync_bucket_to_server` of the Megatron
trainer. -/
def syncBucket (bucketParams : List (Text × Tensor β)) : Option (List (Text × Tensor β)) :=
  if bucketParams = [] then some []
  else (ofNamedTensors cast memory bucketParams).toOption.bind (updateFlattenedParams cast mixed)

/-- What the workers load, parameter by parameter. -/
def syncParams (stateDict : List (Text × Tensor β)) : Option (List (Text × Tensor β)) :=
  (stateDict.mapM fun entry => updateNamedParam mixed entry.1 entry.2).map flatten

/-- What the workers load, bucket by bucket. -/
def syncBuckets (buckets : List (List (Text × Tensor β))) : Option (List (Text × Tensor β)) :=
  (buckets.mapM (syncBucket cast memory mixed)).map flatten

end Workers

/-! ## The parameters of the buckets -/

section Contents

variable {elementSize : Dtype → ℕ} {bucketSizeMb : ℤ}

/-- What a loop has done with the parameters: they are in the buckets in their order, and each
bucket has some. -/
structure Bucketing.Holds (params : List (Text × Tensor β)) (state : Bucketing β) : Prop where
  contents : state.buckets.flatten ++ state.currentBucket = params
  closed : [] ∉ state.buckets

namespace Bucketing.Holds

variable {params : List (Text × Tensor β)} {state : Bucketing β}

theorem start : Bucketing.start.Holds ([] : List (Text × Tensor β)) where
  contents := rfl
  closed := not_mem_nil

theorem close (holds : state.Holds params) (isSome : state.currentBucket ≠ []) :
    state.close.Holds params where
  contents := by simpa [Bucketing.close] using holds.contents
  closed := by simpa [Bucketing.close, isSome.symm] using holds.closed

theorem add (holds : state.Holds params) (entry : Text × Tensor β) :
    (state.add elementSize entry).Holds (params ++ [entry]) where
  contents := by rw [Bucketing.add, ← append_assoc, holds.contents]
  closed := holds.closed

theorem finish (holds : state.Holds params) :
    state.finish.flatten = params ∧ [] ∉ state.finish := by
  unfold Bucketing.finish
  split
  · rename_i isSome
    have closed := holds.close isSome
    exact ⟨by simpa [Bucketing.close] using closed.contents, closed.closed⟩
  · rename_i isNil
    have contents := holds.contents
    rw [not_not.mp isNil, append_nil] at contents
    exact ⟨contents, holds.closed⟩

theorem createStep (holds : state.Holds params) (entry : Text × Tensor β) :
    (createStep elementSize bucketSizeMb state entry).Holds (params ++ [entry]) := by
  refine add ?_ entry
  split
  · rename_i closes
    exact holds.close closes.2
  · exact holds

theorem serverStep (holds : state.Holds params) (entry : Text × Tensor β) :
    (serverStep elementSize bucketSizeMb state entry).Holds (params ++ [entry]) := by
  rw [Rollout.serverStep]
  split
  · rename_i closes
    exact (holds.add entry).close closes.2
  · exact holds.add entry

theorem foldl {turn : Bucketing β → Text × Tensor β → Bucketing β}
    (puts : ∀ {params state} entry, Holds params state → (turn state entry).Holds (params ++ [entry]))
    (params : List (Text × Tensor β)) : (params.foldl turn .start).Holds params := by
  induction params using List.reverseRecOn with
  | nil => exact start
  | append_singleton params entry ih =>
    rw [foldl_append, foldl_cons, foldl_nil]
    exact puts entry ih

end Bucketing.Holds

/-- The buckets are the parameters in their order, and none of them is empty. -/
theorem bucketsFrom_spec {turn : Bucketing β → Text × Tensor β → Bucketing β}
    (puts : ∀ {params state} entry, Bucketing.Holds params state →
      (turn state entry).Holds (params ++ [entry])) (params : List (Text × Tensor β)) :
    (bucketsFrom turn params).flatten = params ∧ [] ∉ bucketsFrom turn params :=
  (Bucketing.Holds.foldl puts params).finish

end Contents

/-! ## What the workers load -/

section Loaded

variable {cast : Conversion β} {memory : ℕ → β} {mixed : Dtype → Dtype → List β → ℕ → β}

/-- A parameter that is sent alone is loaded as it is. -/
theorem updateNamedParam_eq (entry : Text × Tensor β) :
    updateNamedParam mixed entry.1 entry.2 = some [entry] := by
  obtain ⟨name, shape, dtype, values, same⟩ := entry
  simp only [updateNamedParam, Dtype.getattr_str, Option.bind_eq_bind, Option.bind_some, broadcast,
    same, and_self, if_true]

theorem syncParams_eq (stateDict : List (Text × Tensor β)) :
    syncParams mixed stateDict = some stateDict := by
  have alone : (stateDict.mapM fun entry => updateNamedParam mixed entry.1 entry.2) =
      some (stateDict.map fun entry => [entry]) := by
    exact Library.mapM_eq_some fun entry _ => updateNamedParam_eq entry
  rw [syncParams, alone]
  simp [← flatMap_def]

/-- The metadata end with those of the last parameter, at the end of the flat tensor. -/
theorem getLast?_metadataFrom {entries : List (Text × Tensor β)} {last : Text × Tensor β}
    (isLast : entries.getLast? = some last) (start : ℕ) :
    ∃ metadata, (metadataFrom start entries).getLast? = some metadata ∧
      metadata.dtype = last.2.dtype.str ∧
      metadata.endIdx = start + (entries.map fun entry => entry.2.numel).sum := by
  induction entries generalizing start with
  | nil => cases isLast
  | cons entry rest ih =>
    cases rest with
    | nil =>
      cases isLast
      exact ⟨_, rfl, rfl, by simp [metadataFrom]⟩
    | cons next rest =>
      rw [getLast?_cons_cons] at isLast
      obtain ⟨metadata, isMetadata, type, place⟩ := ih isLast (start + entry.2.numel)
      refine ⟨metadata, ?_, type, ?_⟩
      · rw [metadataFrom]
        exact (getLast?_cons_cons ..).trans isMetadata
      · rw [place, Nat.add_assoc]
        rfl

/-- What the workers load of a bucket. -/
def returnedBucket (cast : Conversion β) (bucket : List (Text × Tensor β)) :
    List (Text × Tensor β) :=
  match bucket with
  | [] => []
  | (_, firstTensor) :: _ =>
    bucket.map fun entry => (entry.1, entry.2.returned cast firstTensor.dtype)

/-- The first and the last parameter of a bucket have one type. -/
def EndsAgree (bucket : List (Text × Tensor β)) : Prop :=
  ∀ first ∈ bucket.head?, ∀ last ∈ bucket.getLast?, first.2.dtype = last.2.dtype

/-- Every value of a bucket survives the type of the first parameter. -/
def KeepsValues (cast : Conversion β) (bucket : List (Text × Tensor β)) : Prop :=
  ∀ first ∈ bucket.head?, ∀ entry ∈ bucket, ∀ value ∈ entry.2.values,
    Survives cast first.2.dtype entry.2.dtype value

theorem returnedBucket_eq_iff (bucket : List (Text × Tensor β)) :
    returnedBucket cast bucket = bucket ↔ KeepsValues cast bucket := by
  cases bucket with
  | nil => simp [returnedBucket, KeepsValues]
  | cons first rest =>
    have keeps : KeepsValues cast (first :: rest) ↔ ∀ entry ∈ first :: rest,
        entry.2.returned cast first.2.dtype = entry.2 := by
      simp only [KeepsValues, head?_cons, Option.mem_some_iff, forall_eq', returned_eq_iff]
    rw [keeps, returnedBucket]
    conv_lhs => rhs; rw [← map_id (first :: rest)]
    rw [map_inj_left]
    refine forall₂_congr fun entry _ => ?_
    exact ⟨fun same => congrArg Prod.snd same, fun same => by rw [same]; rfl⟩

theorem ofNamedTensors_eq (cast : Conversion β) (memory : ℕ → β) (first : Text × Tensor β)
    (rest : List (Text × Tensor β)) :
    ofNamedTensors cast memory (first :: rest) = .ok {
      dtype := first.2.dtype
      flattenedTensor := ((first :: rest).map fun entry => stored cast first.2.dtype entry.2).flatten
      metadata := metadataFrom 0 (first :: rest) } := by
  have flat := foldl_copyInto cast first.2.dtype (first :: rest) []
    ((range ((first :: rest).map fun entry => entry.2.numel).sum).map memory) (by simp)
  rw [nil_append, nil_append] at flat
  rw [← flat]
  rfl

/-- A bucket is loaded with the values converted twice. -/
theorem syncBucket_eq {bucket : List (Text × Tensor β)} (endsAgree : EndsAgree bucket)
    (distinct : (bucket.map Prod.fst).Nodup) :
    syncBucket cast memory mixed bucket = some (returnedBucket cast bucket) := by
  cases bucket with
  | nil => rfl
  | cons first rest =>
    obtain ⟨last, isLast⟩ := Option.isSome_iff_exists.mp
      (getLast?_isSome.mpr (cons_ne_nil first rest))
    obtain ⟨metadata, isMetadata, type, place⟩ := getLast?_metadataFrom isLast 0
    have received : broadcast mixed first.2.dtype
        ((first :: rest).map fun entry => stored cast first.2.dtype entry.2).flatten
        first.2.dtype metadata.endIdx =
          ((first :: rest).map fun entry => stored cast first.2.dtype entry.2).flatten := by
      refine if_pos ⟨rfl, ?_⟩
      rw [place, length_flatten, map_map, Nat.zero_add]
      exact congrArg sum (map_congr_left fun entry _ => length_stored cast first.2.dtype entry.2)
    have keys : ((first :: rest).map fun other =>
        (other.1, other.2.returned cast first.2.dtype)).map Prod.fst =
          (first :: rest).map Prod.fst := by
      rw [map_map]
      rfl
    have returned := roundTrip_eq cast memory first rest
    rw [storeAll_of_nodup (by rwa [keys]), ofNamedTensors_eq] at returned
    rw [syncBucket, if_neg (cons_ne_nil first rest), ofNamedTensors_eq]
    simp only [Except.toOption, Option.bind_some, updateFlattenedParams, isMetadata, type,
      Option.bind_eq_bind, ← endsAgree first rfl last isLast, Dtype.getattr_str, received]
    exact congrArg Except.toOption returned

/-- What is loaded of the buckets are their parameters if all values survive. -/
theorem syncBuckets_eq_iff {buckets : List (List (Text × Tensor β))}
    (endsAgree : ∀ bucket ∈ buckets, EndsAgree bucket)
    (distinct : (buckets.flatten.map Prod.fst).Nodup) :
    syncBuckets cast memory mixed buckets = some buckets.flatten ↔
      ∀ bucket ∈ buckets, KeepsValues cast bucket := by
  have loaded : buckets.mapM (syncBucket cast memory mixed) =
      some (buckets.map (returnedBucket cast)) := by
    refine Library.mapM_eq_some fun bucket isBucket => ?_
    refine syncBucket_eq (endsAgree bucket isBucket) (distinct.sublist ?_)
    exact (sublist_flatten_of_mem isBucket).map Prod.fst
  have lengths : (buckets.map (returnedBucket cast)).map length = buckets.map length := by
    rw [map_map]
    refine map_congr_left fun bucket _ => ?_
    cases bucket with
    | nil => rfl
    | cons first rest => simp [returnedBucket]
  have flat : (buckets.map (returnedBucket cast)).flatten = buckets.flatten ↔
      buckets.map (returnedBucket cast) = buckets :=
    ⟨fun same => eq_iff_flatten_eq.mpr ⟨same, lengths⟩, congrArg flatten⟩
  rw [syncBuckets, loaded, Option.map_some, Option.some.injEq, flat]
  conv_lhs => rhs; rw [← map_id buckets]
  rw [map_inj_left]
  exact forall₂_congr fun bucket _ => returnedBucket_eq_iff bucket

/-- **The workers load of the buckets what they load of the parameters alone exactly when every
value survives the type of the first parameter of its bucket**, if the two ends of each bucket have
one type. -/
theorem sync_flattened_iff (cast : Conversion β) (memory : ℕ → β)
    (mixed : Dtype → Dtype → List β → ℕ → β) (elementSize : Dtype → ℕ) (bucketSizeMb : ℤ)
    {stateDict : List (Text × Tensor β)} (distinct : (stateDict.map Prod.fst).Nodup)
    {buckets : List (List (Text × Tensor β))}
    (isBuckets : buckets = createParameterBuckets elementSize bucketSizeMb stateDict ∨
      buckets = serverBuckets elementSize bucketSizeMb stateDict)
    (endsAgree : ∀ bucket ∈ buckets, EndsAgree bucket) :
    syncBuckets cast memory mixed buckets = syncParams mixed stateDict ↔
      ∀ bucket ∈ buckets, KeepsValues cast bucket := by
  have contents : buckets.flatten = stateDict := by
    rcases isBuckets with rfl | rfl
    · exact (bucketsFrom_spec (fun entry holds => holds.createStep entry) stateDict).1
    · exact (bucketsFrom_spec (fun entry holds => holds.serverStep entry) stateDict).1
  rw [syncParams_eq, ← contents]
  exact syncBuckets_eq_iff endsAgree (contents ▸ distinct)

def scalarTensor (dtype : Dtype) (value : ℕ) : Tensor ℕ := ⟨[1], dtype, [value], rfl⟩

/-- A number in `float32` between two in `bfloat16`. -/
def betweenTypes : List (Text × Tensor ℕ) :=
  [("a".toList, scalarTensor .bfloat16 0x3F80), ("b".toList, scalarTensor .float32 0x3F800000),
    ("c".toList, scalarTensor .bfloat16 0x4000)]

theorem sync_flattened_betweenTypes :
    syncBuckets roundBits (fun _ => 0) (fun _ _ _ _ => 0)
        (createParameterBuckets (fun _ => 4) 512 betweenTypes) =
      syncParams (fun _ _ _ _ => 0) betweenTypes :=
  (sync_flattened_iff roundBits _ _ (fun _ => 4) 512 (by decide) (.inl rfl)
    (by simp only [EndsAgree]; decide +kernel)).mpr
    (by simp only [KeepsValues, Survives]; decide +kernel)

end Loaded

end Geobench.Rollout
