import Geobench.Library.Records
import Geobench.Library.Text
import Geobench.Library.Zigzag

/-!
# Parameters flattened into one tensor

Named tensors are sent as one flat tensor and a list of metadata. The flat tensor has the type of
the first of them, and the values of the others are converted to it; when the tensors are taken out
of the flat one again, the values are converted back.

**`roundTrips_iff`**: the tensors come back as they were exactly when there is one, their names are
different, and every value survives the conversion to the type of the first tensor and back.
-/

namespace Geobench.Rollout

open Library List

variable {β : Type}

/-! ## Tensors -/

/-- The types of tensor elements. -/
inductive Dtype where
  | float64 | float32 | float16 | bfloat16
  | float8_e4m3fn | float8_e5m2 | float8_e4m3fnuz | float8_e5m2fnuz
  | complex64 | complex128
  | int64 | int32 | int16 | int8 | uint64 | uint32 | uint16 | uint8 | bool
  deriving DecidableEq, Repr

namespace Dtype

/-- The name of a type in the module `torch`. -/
def name : Dtype → Text
  | float64 => "float64".toList
  | float32 => "float32".toList
  | float16 => "float16".toList
  | bfloat16 => "bfloat16".toList
  | float8_e4m3fn => "float8_e4m3fn".toList
  | float8_e5m2 => "float8_e5m2".toList
  | float8_e4m3fnuz => "float8_e4m3fnuz".toList
  | float8_e5m2fnuz => "float8_e5m2fnuz".toList
  | complex64 => "complex64".toList
  | complex128 => "complex128".toList
  | int64 => "int64".toList
  | int32 => "int32".toList
  | int16 => "int16".toList
  | int8 => "int8".toList
  | uint64 => "uint64".toList
  | uint32 => "uint32".toList
  | uint16 => "uint16".toList
  | uint8 => "uint8".toList
  | bool => "bool".toList

/-- `str(dtype)` -/
def str (dtype : Dtype) : Text := "torch.".toList ++ dtype.name

/-- `getattr(torch, text)` -/
def getattr (text : Text) : Option Dtype :=
  [float64, float32, float16, bfloat16, float8_e4m3fn, float8_e5m2, float8_e4m3fnuz,
    float8_e5m2fnuz, complex64, complex128, int64, int32, int16, int8, uint64, uint32, uint16,
    uint8, bool].find? fun dtype => dtype.name = text

/-- A type is found under the last part of its text. -/
theorem getattr_str (dtype : Dtype) : getattr (dtype.str.rtakeWhile (· ≠ '.')) = some dtype := by
  cases dtype <;> decide +kernel

end Dtype

/-- A tensor of elements given by their bits. -/
structure Tensor (β : Type) where
  shape : List ℕ
  dtype : Dtype
  values : List β
  same : values.length = shape.prod
  deriving DecidableEq

def Tensor.numel (tensor : Tensor β) : ℕ := tensor.shape.prod

/-- The conversions between two types. -/
abbrev Conversion (β : Type) : Type := Dtype → Dtype → β → β

/-- A value as it is stored in a tensor of a type. A value of this type stays as it is. -/
def convert (cast : Conversion β) (source target : Dtype) (value : β) : β :=
  if source = target then value else cast source target value

/-! ## Buckets -/

inductive BucketError where
  | valueError (message : String)
  | attributeError
  | runtimeError
  deriving DecidableEq, Repr

/-- `FlattenedTensorMetadata` -/
structure FlattenedTensorMetadata where
  name : Text
  shape : List ℕ
  dtype : Text
  startIdx : ℕ
  endIdx : ℕ
  numel : ℕ

/-- `FlattenedTensorBucket` -/
structure FlattenedTensorBucket (β : Type) where
  dtype : Dtype
  flattenedTensor : List β
  metadata : List FlattenedTensorMetadata

/-- The first pass, from a place on. -/
def metadataFrom : ℕ → List (Text × Tensor β) → List FlattenedTensorMetadata
  | _, [] => []
  | currentIdx, (name, tensor) :: rest =>
    { name := name
      shape := tensor.shape
      dtype := tensor.dtype.str
      startIdx := currentIdx
      endIdx := currentIdx + tensor.numel
      numel := tensor.numel } :: metadataFrom (currentIdx + tensor.numel) rest

section Bucket

variable (cast : Conversion β) (memory : ℕ → β)

/-- Copy a tensor to its place. -/
def copyInto (dtype : Dtype) (flattened : List β)
    (entry : FlattenedTensorMetadata × Text × Tensor β) : List β :=
  writeSlice flattened
    (entry.1.startIdx, entry.2.2.values.map (convert cast entry.2.2.dtype dtype))

/-- A bucket of named tensors. What an empty tensor is allocated in is any memory. -/
def ofNamedTensors (namedTensors : List (Text × Tensor β)) :
    Except BucketError (FlattenedTensorBucket β) :=
  match namedTensors with
  | [] => .error (.valueError "Cannot create empty tensor bucket")
  | (_, firstTensor) :: _ =>
    let metadata := metadataFrom 0 namedTensors
    let totalNumel := (namedTensors.map fun entry => entry.2.numel).sum
    .ok {
      dtype := firstTensor.dtype
      flattenedTensor := (metadata.zip namedTensors).foldl (copyInto cast firstTensor.dtype)
        ((List.range totalNumel).map memory)
      metadata := metadata }

def reconstructTensor (bucket : FlattenedTensorBucket β) (metadata : FlattenedTensorMetadata) :
    Except BucketError (Text × Tensor β) :=
  let part := slice bucket.flattenedTensor metadata.startIdx metadata.endIdx
  if same : part.length = metadata.shape.prod then
    match Dtype.getattr (metadata.dtype.rtakeWhile (· ≠ '.')) with
    | none => .error .attributeError
    | some dtype =>
      .ok (metadata.name, {
        shape := metadata.shape
        dtype := dtype
        values := part.map (convert cast bucket.dtype dtype)
        same := by rw [length_map, same] })
  else .error .runtimeError

/-- `reconstruct_tensors` -/
def FlattenedTensorBucket.reconstructTensors (bucket : FlattenedTensorBucket β) :
    Except BucketError (List (Text × Tensor β)) :=
  (bucket.metadata.mapM (reconstructTensor cast bucket)).map storeAll

end Bucket

/-! ## What comes back -/

/-- The value survives the conversion to a type and back. -/
def Survives (cast : Conversion β) (first dtype : Dtype) (value : β) : Prop :=
  convert cast first dtype (convert cast dtype first value) = value

/-- The tensors come back under their names and in their order. -/
def RoundTrips (cast : Conversion β) (memory : ℕ → β) (namedTensors : List (Text × Tensor β)) :
    Prop :=
  (ofNamedTensors cast memory namedTensors).bind (·.reconstructTensors cast) = .ok namedTensors

def stored (cast : Conversion β) (first : Dtype) (tensor : Tensor β) : List β :=
  tensor.values.map (convert cast tensor.dtype first)

/-- A tensor as it comes back. -/
def Tensor.returned (cast : Conversion β) (first : Dtype) (tensor : Tensor β) : Tensor β where
  shape := tensor.shape
  dtype := tensor.dtype
  values := (stored cast first tensor).map (convert cast first tensor.dtype)
  same := by rw [length_map, stored, length_map, tensor.same]

theorem length_stored (cast : Conversion β) (first : Dtype) (tensor : Tensor β) :
    (stored cast first tensor).length = tensor.numel := by
  rw [stored, length_map, tensor.same, Tensor.numel]

theorem writeSlice_append (done buffer values : List β) :
    writeSlice (done ++ buffer) (done.length, values) =
      done ++ values ++ buffer.drop values.length := by
  rw [writeSlice, take_left', drop_append]
  · simp
  · rfl

/-- The flat tensor has the values of all tensors, one after the other. -/
theorem foldl_copyInto (cast : Conversion β) (first : Dtype)
    (namedTensors : List (Text × Tensor β)) (done buffer : List β)
    (enough : (namedTensors.map fun entry => entry.2.numel).sum = buffer.length) :
    ((metadataFrom done.length namedTensors).zip namedTensors).foldl (copyInto cast first)
        (done ++ buffer) =
      done ++ (namedTensors.map fun entry => stored cast first entry.2).flatten := by
  induction namedTensors generalizing done buffer with
  | nil =>
    have empty : buffer = [] := eq_nil_of_length_eq_zero enough.symm
    simp [metadataFrom, empty]
  | cons entry rest ih =>
    have length := length_stored cast first entry.2
    rw [map_cons, sum_cons] at enough
    have next := ih (done ++ stored cast first entry.2)
      (buffer.drop (stored cast first entry.2).length) (by rw [length_drop]; omega)
    rw [length_append, length] at next
    rw [metadataFrom, zip_cons_cons, foldl_cons, copyInto,
      map_cons, flatten_cons, ← append_assoc, ← next, ← length]
    congr 1
    exact writeSlice_append done buffer _

/-- What is taken out of the bucket are the tensors with their values converted twice. -/
theorem mapM_reconstructTensor (cast : Conversion β) (bucket : FlattenedTensorBucket β)
    (namedTensors : List (Text × Tensor β)) (done : List β)
    (flat : bucket.flattenedTensor =
      done ++ (namedTensors.map fun entry => stored cast bucket.dtype entry.2).flatten) :
    (metadataFrom done.length namedTensors).mapM (reconstructTensor cast bucket) =
      .ok (namedTensors.map fun entry => (entry.1, entry.2.returned cast bucket.dtype)) := by
  induction namedTensors generalizing done with
  | nil => rfl
  | cons entry rest ih =>
    have length := length_stored cast bucket.dtype entry.2
    have part : slice bucket.flattenedTensor done.length (done.length + entry.2.numel) =
        stored cast bucket.dtype entry.2 := by
      rw [flat, slice_append_left, map_cons, flatten_cons, ← length, take_left]
    have sameSize : (stored cast bucket.dtype entry.2).length = entry.2.shape.prod := length
    have taken : reconstructTensor cast bucket
        { name := entry.1
          shape := entry.2.shape
          dtype := entry.2.dtype.str
          startIdx := done.length
          endIdx := done.length + entry.2.numel
          numel := entry.2.numel } = .ok (entry.1, entry.2.returned cast bucket.dtype) := by
      simp only [reconstructTensor, part, dif_pos sameSize, Dtype.getattr_str]
      rfl
    have rest_ok := ih (done ++ stored cast bucket.dtype entry.2)
      (by rw [flat, map_cons, flatten_cons, append_assoc])
    rw [length_append, length] at rest_ok
    rw [metadataFrom, mapM_cons, taken, rest_ok]
    rfl

theorem roundTrip_eq (cast : Conversion β) (memory : ℕ → β) (entry : Text × Tensor β)
    (rest : List (Text × Tensor β)) :
    (ofNamedTensors cast memory (entry :: rest)).bind (·.reconstructTensors cast) =
      .ok (storeAll ((entry :: rest).map fun other =>
        (other.1, other.2.returned cast entry.2.dtype))) := by
  have flat := foldl_copyInto cast entry.2.dtype (entry :: rest) []
    ((range ((entry :: rest).map fun entry => entry.2.numel).sum).map memory) (by simp)
  have taken := mapM_reconstructTensor cast
    { dtype := entry.2.dtype
      flattenedTensor := ((metadataFrom 0 (entry :: rest)).zip (entry :: rest)).foldl
        (copyInto cast entry.2.dtype)
        ((range ((entry :: rest).map fun entry => entry.2.numel).sum).map memory)
      metadata := metadataFrom 0 (entry :: rest) } (entry :: rest) [] flat
  exact map_eq_ok.mpr ⟨_, taken, rfl⟩

/-- A tensor comes back as it was if its values survive. -/
theorem returned_eq_iff (cast : Conversion β) (first : Dtype) (tensor : Tensor β) :
    tensor.returned cast first = tensor ↔
      ∀ value ∈ tensor.values, Survives cast first tensor.dtype value := by
  have values_iff : tensor.returned cast first = tensor ↔
      (stored cast first tensor).map (convert cast first tensor.dtype) = tensor.values := by
    constructor
    · exact fun same => congrArg Tensor.values same
    · intro same
      obtain ⟨shape, dtype, values, size⟩ := tensor
      simp only [Tensor.returned, Tensor.mk.injEq, true_and]
      exact same
  rw [values_iff, stored, map_map]
  conv_lhs => rhs; rw [← map_id tensor.values]
  exact map_inj_left

/-- **The tensors come back as they were exactly when there is one, their names are different,
and every value survives the conversion to the type of the first tensor and back.** -/
theorem roundTrips_iff (cast : Conversion β) (memory : ℕ → β)
    (namedTensors : List (Text × Tensor β)) :
    RoundTrips cast memory namedTensors ↔
      (namedTensors.map Prod.fst).Nodup ∧ ∃ first rest, namedTensors = first :: rest ∧
        ∀ entry ∈ namedTensors, ∀ value ∈ entry.2.values,
          Survives cast first.2.dtype entry.2.dtype value := by
  cases namedTensors with
  | nil =>
    constructor
    · intro isOk
      cases isOk
    · rintro ⟨-, _, _, same, -⟩
      cases same
  | cons first rest =>
    have keys : ((first :: rest).map fun other =>
        (other.1, other.2.returned cast first.2.dtype)).map Prod.fst =
          (first :: rest).map Prod.fst := by
      rw [map_map]
      rfl
    have same_iff : ((first :: rest).map fun other =>
        (other.1, other.2.returned cast first.2.dtype)) = first :: rest ↔
        ∀ entry ∈ first :: rest, ∀ value ∈ entry.2.values,
          Survives cast first.2.dtype entry.2.dtype value := by
      conv_lhs => rhs; rw [← map_id (first :: rest)]
      rw [map_inj_left]
      refine forall₂_congr fun entry _ => ?_
      rw [← returned_eq_iff]
      exact ⟨fun same => congrArg Prod.snd same, fun same => by rw [same]; rfl⟩
    rw [RoundTrips, roundTrip_eq, Except.ok.injEq]
    constructor
    · intro same
      have different := nodup_keys_storeAll ((first :: rest).map fun other =>
        (other.1, other.2.returned cast first.2.dtype))
      rw [same] at different
      rw [storeAll_of_nodup (by rwa [keys])] at same
      exact ⟨different, first, rest, rfl, same_iff.mp same⟩
    · rintro ⟨different, _, _, heads, survives⟩
      obtain ⟨rfl, rfl⟩ := List.cons.inj heads
      rw [storeAll_of_nodup (by rwa [keys])]
      exact same_iff.mpr survives

/-! ## A bucket of two types -/

/-- The conversions between `float32` and `bfloat16` of numbers, which round to the nearest. -/
def roundBits : Conversion ℕ
  | .float32, .bfloat16, bits => (bits + 32767 + bits / 65536 % 2) / 65536
  | .bfloat16, .float32, bits => bits * 65536
  | _, _, bits => bits

/-- A number in `bfloat16`, and one that is not, in `float32`. -/
def twoTypes : List (Text × Tensor ℕ) :=
  [("a".toList, { shape := [1], dtype := .bfloat16, values := [0x3F80], same := rfl }),
    ("b".toList, { shape := [1], dtype := .float32, values := [0x3F800001], same := rfl })]

/-- The second number comes back rounded. -/
theorem twoTypes_rounded :
    ¬ ∀ namedTensors : List (Text × Tensor ℕ), namedTensors ≠ [] →
      (namedTensors.map Prod.fst).Nodup → RoundTrips roundBits (fun _ => 0) namedTensors := by
  intro roundTrips
  have rounded : (ofNamedTensors roundBits (fun _ => 0) twoTypes).bind
      (·.reconstructTensors roundBits) ≠ .ok twoTypes := by
    decide +kernel
  exact rounded (roundTrips twoTypes (by decide) (by decide))

end Geobench.Rollout
